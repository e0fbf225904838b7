import Libc6Shim.Abi

/-!
# Locales

`src/libc/locale.c`. A Linux locale is an object of the shim's that carries
the native one; `LC_GLOBAL_LOCALE` is the pointer `-1`, which points to none.
The handle a thread has in use is a variable of the shim's beside libc's own
thread locale, and what `localeconv` returns is a copy (`processLconv`) that
is filled when the library is loaded and after each `setlocale` that
succeeds.

The routines run on one thread. The objects `malloc` has given out and not
taken back are the shim's heap; a dereference of anything else faults.
-/

namespace Libc6Shim

open CSem Outcome

/-! ## Data -/

/-- A `locale_t`, Linux or native: null, `LC_GLOBAL_LOCALE` or an object. -/
inductive LocaleT where
  | null
  | globalLocale
  | obj (p : Ptr)
deriving Repr, DecidableEq

/-- `struct linux_locale`. -/
structure LinuxLocale where
  locales : List Ptr
  ctypeB : Ptr
  ctypeTolower : Ptr
  ctypeToupper : Ptr
  names : List String
  nativeLocale : LocaleT

/-- The tables behind `__ctype_b_loc`, `__ctype_tolower_loc` and
`__ctype_toupper_loc`. -/
structure CtypeTables where
  ctypeB : Ptr
  ctypeTolower : Ptr
  ctypeToupper : Ptr

/-- `struct lconv`; `struct shim_lconv` has the same fields in another
order. -/
structure Lconv where
  decimalPoint : Buf
  thousandsSep : Buf
  grouping : Buf
  intCurrSymbol : Buf
  currencySymbol : Buf
  monDecimalPoint : Buf
  monThousandsSep : Buf
  monGrouping : Buf
  positiveSign : Buf
  negativeSign : Buf
  intFracDigits : UInt8
  fracDigits : UInt8
  pCsPrecedes : UInt8
  pSepBySpace : UInt8
  nCsPrecedes : UInt8
  nSepBySpace : UInt8
  pSignPosn : UInt8
  nSignPosn : UInt8
  intPCsPrecedes : UInt8
  intPSepBySpace : UInt8
  intNCsPrecedes : UInt8
  intNSepBySpace : UInt8
  intPSignPosn : UInt8
  intNSignPosn : UInt8
deriving DecidableEq

/-- The shim's statics, and its objects. -/
structure LocaleState where
  heap : Ptr → Option LinuxLocale
  threadLocale : LocaleT
  processLconv : Lconv

/-! ## The native calls -/

inductive LocaleCall where
  | malloc
  | free (p : LocaleT)
  | newlocale (mask : Int) (locale : String) (base : LocaleT)
  | duplocale (loc : LocaleT)
  | uselocale (loc : LocaleT)
  | freelocale (loc : LocaleT)
  | setlocale (category : Int) (locale : Option String)
  | localeconv

@[reducible] def LocaleAnswer : LocaleCall → Type
  | .malloc => Ptr
  | .free _ | .freelocale _ => Unit
  | .newlocale .. | .duplocale _ | .uselocale _ => LocaleT
  | .setlocale .. => Option String
  | .localeconv => Lconv

abbrev LocaleProg := Stateful LocaleState LocaleCall LocaleAnswer

def callLocale (c : LocaleCall) : LocaleProg (LocaleAnswer c) := Stateful.call c

/-- The object behind a handle. -/
def derefLocale (loc : LocaleT) : LocaleProg LinuxLocale := do
  match loc with
  | .obj p =>
      match (← get).heap p with
      | some linuxLocale => return linuxLocale
      | none => Stateful.lift (.error .fault)
  | _ => Stateful.lift (.error .fault)

/-- The statics with the object at `p` filled. -/
def LocaleState.put (st : LocaleState) (p : Ptr) (linuxLocale : LinuxLocale) :
    LocaleState :=
  { st with heap := Function.update st.heap p (some linuxLocale) }

/-- The statics without the object behind a handle. -/
def LocaleState.drop (st : LocaleState) (loc : LocaleT) : LocaleState :=
  { st with
    heap := fun p => if loc = .obj p then none else st.heap p }

/-! ## Locale objects -/

/-- `LC_ALL_MASK` of FreeBSD. -/
def lcAllMask : Int := 63

/-- `base != NULL ? base->native_locale : NULL` -/
def nativeBaseOf (base : LocaleT) : LocaleProg LocaleT := do
  if base ≠ .null then return (← derefLocale base).nativeLocale
  else return .null

def shimNewlocale (tables : CtypeTables) (categoryMask : Int) (locale : String)
    (base : LocaleT) : LocaleProg LocaleT := do
  Stateful.lift (require (categoryMask = 64 ∨ categoryMask = 8127))
  Stateful.lift (require (locale = "C"))
  let p ← callLocale .malloc
  let nativeBase ← nativeBaseOf base
  let nativeLocale ← callLocale (.newlocale lcAllMask locale nativeBase)
  let linuxLocale : LinuxLocale :=
    { locales := (List.range 13).map (0xdead0000 + ·)
      ctypeB := tables.ctypeB
      ctypeTolower := tables.ctypeTolower
      ctypeToupper := tables.ctypeToupper
      names := List.replicate 13 "<dummy locale name>"
      nativeLocale }
  modify (·.put p linuxLocale)
  return .obj p

def shimDuplocale (locale : LocaleT) : LocaleProg LocaleT := do
  let duplicate ← callLocale .malloc
  -- the memcpy of the whole object comes first
  let linuxLocale ← derefLocale locale
  let nativeLocale ← callLocale (.duplocale linuxLocale.nativeLocale)
  modify (·.put duplicate { linuxLocale with nativeLocale })
  return .obj duplicate

def shimUselocale (locale : LocaleT) : LocaleProg LocaleT := do
  let prev := (← get).threadLocale
  if locale ≠ .null then
    modify fun st => { st with threadLocale := locale }
    if locale = .globalLocale then
      let _ ← callLocale (.uselocale .globalLocale)
    else
      let _ ← callLocale (.uselocale (← derefLocale locale).nativeLocale)
  return prev

def shimFreelocale (locale : LocaleT) : LocaleProg PUnit := do
  let linuxLocale ← derefLocale locale
  callLocale (.freelocale linuxLocale.nativeLocale)
  callLocale (.free locale)
  modify (·.drop locale)

/-! ## `localeconv` and `setlocale` -/

def setProcessLconv : LocaleProg PUnit := do
  let nativeLconv ← callLocale .localeconv
  modify fun st => { st with processLconv :=
    { decimalPoint := nativeLconv.decimalPoint
      thousandsSep := nativeLconv.thousandsSep
      grouping := nativeLconv.grouping
      intCurrSymbol := nativeLconv.intCurrSymbol
      currencySymbol := nativeLconv.currencySymbol
      monDecimalPoint := nativeLconv.monDecimalPoint
      monThousandsSep := nativeLconv.monThousandsSep
      monGrouping := nativeLconv.monGrouping
      positiveSign := nativeLconv.positiveSign
      negativeSign := nativeLconv.negativeSign
      intFracDigits := nativeLconv.intFracDigits
      fracDigits := nativeLconv.fracDigits
      pCsPrecedes := nativeLconv.pCsPrecedes
      pSepBySpace := nativeLconv.pSepBySpace
      nCsPrecedes := nativeLconv.nCsPrecedes
      nSepBySpace := nativeLconv.nSepBySpace
      pSignPosn := nativeLconv.pSignPosn
      nSignPosn := nativeLconv.nSignPosn
      intPCsPrecedes := nativeLconv.intPCsPrecedes
      intPSepBySpace := nativeLconv.intPSepBySpace
      intNCsPrecedes := nativeLconv.intNCsPrecedes
      intNSepBySpace := nativeLconv.intNSepBySpace
      intPSignPosn := nativeLconv.intPSignPosn
      intNSignPosn := nativeLconv.intNSignPosn } }

/-- The constructor that runs when the library is loaded. -/
def localeInit : LocaleProg PUnit := setProcessLconv

def shimLocaleconv : LocaleProg Lconv := do
  return (← get).processLconv

def lcAll : Int := 0
def lcCollate : Int := 1
def lcCtype : Int := 2
def lcMonetary : Int := 3
def lcNumeric : Int := 4
def lcTime : Int := 5
def lcMessages : Int := 6

def linuxToNativeCategory (linuxCategory : Int) : Outcome Int :=
  if linuxCategory = 0 then .ok lcCtype
  else if linuxCategory = 1 then .ok lcNumeric
  else if linuxCategory = 2 then .ok lcTime
  else if linuxCategory = 3 then .ok lcCollate
  else if linuxCategory = 4 then .ok lcMonetary
  else if linuxCategory = 5 then .ok lcMessages
  else if linuxCategory = 6 then .ok lcAll
  else .error .abort

def shimSetlocale (linuxCategory : Int) (locale : Option String) :
    LocaleProg (Option String) := do
  let category ← Stateful.lift (linuxToNativeCategory linuxCategory)
  let ret : Option String ← callLocale (.setlocale category locale)
  if ret.isSome then setProcessLconv
  return ret

/-! ## The system -/

/-- The state of the native library: its global locale and the locale of the
thread. -/
structure NativeLocales (γ : Type) where
  global : γ
  thread : LocaleT

/-- The native library: how `setlocale` goes, and how locales format. -/
structure LocaleLib (γ : Type) where
  setlocale : Int → Option String → γ → Option (String × γ)
  globalLconv : γ → Lconv
  objLconv : Ptr → Lconv

variable {γ : Type}

/-- How the locale in effect for the thread formats. -/
def LocaleLib.lconv (lib : LocaleLib γ) (g : γ) : LocaleT → Lconv
  | .obj p => lib.objLconv p
  | .globalLocale | .null => lib.globalLconv g

inductive LocaleOp where
  | newlocale (mask : Int) (locale : String) (base : LocaleT)
  | duplocale (locale : LocaleT)
  | uselocale (locale : LocaleT)
  | freelocale (locale : LocaleT)
  | setlocale (category : Int) (locale : Option String)

/-- An operation, with the object `malloc` gives to it and the native locale
`newlocale` or `duplocale` makes for it, if they can. -/
structure LocaleEvent where
  op : LocaleOp
  fresh : Ptr := null
  made : Option Ptr := none

/-- How the library answers during an operation. -/
def LocaleEvent.answer (lib : LocaleLib γ) (ev : LocaleEvent) :
    (c : LocaleCall) → NativeLocales γ → LocaleAnswer c × NativeLocales γ
  | .malloc, t => (ev.fresh, t)
  | .free _, t => ((), t)
  | .newlocale .., t | .duplocale _, t => (ev.made.elim .null .obj, t)
  | .uselocale loc, t =>
      (t.thread, if loc = .null then t else { t with thread := loc })
  | .freelocale _, t => ((), t)
  | .setlocale category locale, t =>
      match lib.setlocale category locale t.global with
      | some (ret, global) => (some ret, { t with global })
      | none => (none, t)
  | .localeconv, t => (lib.lconv t.global t.thread, t)

/-- The routine of an operation; its result is the handle it returns. -/
def LocaleOp.routine (tables : CtypeTables) : LocaleOp → LocaleProg LocaleT
  | .newlocale mask locale base => shimNewlocale tables mask locale base
  | .duplocale locale => shimDuplocale locale
  | .uselocale locale => shimUselocale locale
  | .freelocale locale => do
      shimFreelocale locale
      return .null
  | .setlocale category locale => do
      let _ ← shimSetlocale category locale
      return .null

/-- The process: the shim over the native library. -/
structure LocaleSys (γ : Type) where
  shim : LocaleState
  native : NativeLocales γ

def LocaleEvent.exec (lib : LocaleLib γ) (tables : CtypeTables)
    (s : LocaleSys γ) (ev : LocaleEvent) :
    Outcome (LocaleT × LocaleState) × NativeLocales γ :=
  Stateful.exec (ev.answer lib) (ev.op.routine tables) s.shim s.native

/-- An operation that returns. -/
def LocaleStep (lib : LocaleLib γ) (tables : CtypeTables) (s : LocaleSys γ)
    (ev : LocaleEvent) (s' : LocaleSys γ) : Prop :=
  ∃ r, ev.exec lib tables s = (.ok (r, s'.shim), s'.native)

/-- The process as the constructor leaves it: nothing allocated, the global
locale in use. -/
def LocaleSys.atStart (lib : LocaleLib γ) (g : γ) : LocaleSys γ where
  shim :=
    { heap := fun _ => none, threadLocale := .globalLocale,
      processLconv := lib.globalLconv g }
  native := { global := g, thread := .globalLocale }

/-! ## What the operations do -/

section Spec

variable {lib : LocaleLib γ} {tables : CtypeTables} {s s' : LocaleSys γ}
  {fresh : Ptr} {made : Option Ptr} {p : Ptr} {l : LinuxLocale}

/-- What a native call that makes a locale answers. -/
def madeLocale (made : Option Ptr) : LocaleT := made.elim .null .obj

theorem exec_derefLocale {σ : Type} {h : (c : LocaleCall) → σ → LocaleAnswer c × σ}
    {st : LocaleState} {t : σ} (hp : st.heap p = some l) :
    Stateful.exec h (derefLocale (.obj p)) st t = (.ok (l, st), t) := by
  simp [derefLocale, hp]

/-- Nothing else is behind a handle. -/
theorem exec_derefLocale_dead {σ : Type}
    {h : (c : LocaleCall) → σ → LocaleAnswer c × σ} {st : LocaleState} {t : σ}
    {loc : LocaleT} (hdead : ∀ p l, loc = .obj p → st.heap p ≠ some l) :
    Stateful.exec h (derefLocale loc) st t = (.error .fault, t) := by
  cases loc with
  | null => rfl
  | globalLocale => rfl
  | obj p =>
      have hnone : st.heap p = none :=
        Option.eq_none_iff_forall_ne_some.mpr fun l => hdead p l rfl
      simp [derefLocale, hnone]

theorem exec_newlocale {mask : Int} {base : LocaleT}
    (hmask : mask = 64 ∨ mask = 8127)
    (hbase : base = .null ∨ ∃ p l, base = .obj p ∧ s.shim.heap p = some l) :
    ∃ l, l.nativeLocale = madeLocale made ∧
      LocaleEvent.exec lib tables s ⟨.newlocale mask "C" base, fresh, made⟩ =
        (.ok (.obj fresh, s.shim.put fresh l), s.native) := by
  have hname : require ("C" = "C") = .ok () := require_of rfl
  rw [LocaleEvent.exec, LocaleOp.routine, shimNewlocale, require_of hmask, hname]
  rcases hbase with rfl | ⟨p, l, rfl, hp⟩
  · exact ⟨_, rfl, rfl⟩
  · have hbase : Stateful.exec (LocaleEvent.answer lib
        ⟨.newlocale mask "C" (.obj p), fresh, made⟩) (nativeBaseOf (.obj p))
        s.shim s.native = (.ok (l.nativeLocale, s.shim), s.native) :=
      (Stateful.exec_bind_of (exec_derefLocale hp) _).trans rfl
    exact ⟨_, rfl, (Stateful.exec_bind_of rfl _).trans <|
      (Stateful.exec_bind_of rfl _).trans <|
      (Stateful.exec_bind_of rfl _).trans <|
      (Stateful.exec_bind_of hbase _).trans rfl⟩

/-- A mask or a name the shim does not expect. -/
theorem exec_newlocale_of_not {mask : Int} {locale : String} {base : LocaleT}
    (h : ¬((mask = 64 ∨ mask = 8127) ∧ locale = "C")) :
    LocaleEvent.exec lib tables s ⟨.newlocale mask locale base, fresh, made⟩ =
      (.error .abort, s.native) := by
  rw [LocaleEvent.exec, LocaleOp.routine, shimNewlocale]
  by_cases hmask : mask = 64 ∨ mask = 8127
  · have hname : locale ≠ "C" := fun hname => h ⟨hmask, hname⟩
    rw [require_of hmask, require_of_not hname]
    rfl
  · rw [require_of_not hmask]
    rfl

theorem exec_duplocale (hp : s.shim.heap p = some l) :
    LocaleEvent.exec lib tables s ⟨.duplocale (.obj p), fresh, made⟩ =
      (.ok (.obj fresh,
        s.shim.put fresh { l with nativeLocale := madeLocale made }),
        s.native) :=
  (Stateful.exec_bind_of rfl _).trans <|
    (Stateful.exec_bind_of (exec_derefLocale hp) _).trans rfl

/-- The bytes at `LC_GLOBAL_LOCALE` are copied. -/
theorem exec_duplocale_global :
    LocaleEvent.exec lib tables s ⟨.duplocale .globalLocale, fresh, made⟩ =
      (.error .fault, s.native) := rfl

theorem exec_uselocale_null :
    LocaleEvent.exec lib tables s ⟨.uselocale .null, fresh, made⟩ =
      (.ok (s.shim.threadLocale, s.shim), s.native) := rfl

theorem exec_uselocale_global :
    LocaleEvent.exec lib tables s ⟨.uselocale .globalLocale, fresh, made⟩ =
      (.ok (s.shim.threadLocale, { s.shim with threadLocale := .globalLocale }),
        { s.native with thread := .globalLocale }) := rfl

theorem exec_uselocale (hp : s.shim.heap p = some l) :
    LocaleEvent.exec lib tables s ⟨.uselocale (.obj p), fresh, made⟩ =
      (.ok (s.shim.threadLocale, { s.shim with threadLocale := .obj p }),
        if l.nativeLocale = .null then s.native
        else { s.native with thread := l.nativeLocale }) := by
  have hp' : ({ s.shim with threadLocale := .obj p } : LocaleState).heap p =
      some l := hp
  rw [LocaleEvent.exec, LocaleOp.routine, shimUselocale]
  refine (Stateful.exec_bind_of rfl _).trans ?_
  rw [if_pos nofun, if_neg nofun]
  exact (Stateful.exec_bind_of rfl _).trans <|
    (Stateful.exec_bind_of (exec_derefLocale hp') _).trans <|
    (Stateful.exec_bind_of rfl _).trans rfl

theorem exec_freelocale (hp : s.shim.heap p = some l) :
    LocaleEvent.exec lib tables s ⟨.freelocale (.obj p), fresh, made⟩ =
      (.ok (.null, s.shim.drop (.obj p)), s.native) :=
  (Stateful.exec_bind_of (Stateful.exec_bind_of (exec_derefLocale hp) _) _).trans rfl

theorem exec_setlocale_of_error {linuxCategory : Int} {locale : Option String}
    {e : Stop} (h : linuxToNativeCategory linuxCategory = .error e) :
    LocaleEvent.exec lib tables s ⟨.setlocale linuxCategory locale, fresh, made⟩ =
      (.error e, s.native) := by
  rw [LocaleEvent.exec, LocaleOp.routine, shimSetlocale, h]
  rfl

theorem exec_setlocale_of_none {linuxCategory category : Int}
    {locale : Option String}
    (h : linuxToNativeCategory linuxCategory = .ok category)
    (hset : lib.setlocale category locale s.native.global = none) :
    LocaleEvent.exec lib tables s ⟨.setlocale linuxCategory locale, fresh, made⟩ =
      (.ok (.null, s.shim), s.native) := by
  have hcall : Stateful.exec
      (LocaleEvent.answer lib ⟨.setlocale linuxCategory locale, fresh, made⟩)
      (callLocale (.setlocale category locale)) s.shim s.native =
        (.ok (none, s.shim), s.native) := by
    refine (Stateful.exec_call _).trans ?_
    rw [LocaleEvent.answer, hset]
  have hshim : Stateful.exec
      (LocaleEvent.answer lib ⟨.setlocale linuxCategory locale, fresh, made⟩)
      (shimSetlocale linuxCategory locale) s.shim s.native =
        (.ok (none, s.shim), s.native) := by
    rw [shimSetlocale, h]
    refine (Stateful.exec_bind_of rfl _).trans ?_
    refine (Stateful.exec_bind_of hcall _).trans ?_
    rfl
  exact (Stateful.exec_bind_of hshim _).trans rfl

/-- The copy is filled from the thread's locale, after the global one is
set. -/
theorem exec_setlocale_of_some {linuxCategory category : Int}
    {locale : Option String} {r : String × γ}
    (h : linuxToNativeCategory linuxCategory = .ok category)
    (hset : lib.setlocale category locale s.native.global = some r) :
    LocaleEvent.exec lib tables s ⟨.setlocale linuxCategory locale, fresh, made⟩ =
      (.ok (.null, { s.shim with
        processLconv := lib.lconv r.2 s.native.thread }),
        { s.native with global := r.2 }) := by
  have hcall : Stateful.exec
      (LocaleEvent.answer lib ⟨.setlocale linuxCategory locale, fresh, made⟩)
      (callLocale (.setlocale category locale)) s.shim s.native =
        (.ok (some r.1, s.shim), { s.native with global := r.2 }) := by
    refine (Stateful.exec_call _).trans ?_
    rw [LocaleEvent.answer, hset]
  have hshim : Stateful.exec
      (LocaleEvent.answer lib ⟨.setlocale linuxCategory locale, fresh, made⟩)
      (shimSetlocale linuxCategory locale) s.shim s.native =
        (.ok (some r.1, { s.shim with
          processLconv := lib.lconv r.2 s.native.thread }),
          { s.native with global := r.2 }) := by
    rw [shimSetlocale, h]
    refine (Stateful.exec_bind_of rfl _).trans ?_
    refine (Stateful.exec_bind_of hcall _).trans ?_
    rfl
  exact (Stateful.exec_bind_of hshim _).trans rfl

/-! ### Handles without an object -/

section Dead

variable {loc : LocaleT} (hdead : ∀ p l, loc = .obj p → s.shim.heap p ≠ some l)
include hdead

theorem exec_newlocale_dead {mask : Int} {locale : String}
    (hnull : loc ≠ .null) (hmask : mask = 64 ∨ mask = 8127)
    (hname : locale = "C") :
    LocaleEvent.exec lib tables s ⟨.newlocale mask locale loc, fresh, made⟩ =
      (.error .fault, s.native) := by
  have hbase : Stateful.exec (LocaleEvent.answer lib
      ⟨.newlocale mask locale loc, fresh, made⟩) (nativeBaseOf loc) s.shim
      s.native = (.error .fault, s.native) := by
    rw [nativeBaseOf, if_pos hnull]
    exact Stateful.exec_bind_of_error (exec_derefLocale_dead hdead) _
  rw [LocaleEvent.exec, LocaleOp.routine, shimNewlocale, require_of hmask,
    require_of hname]
  exact (Stateful.exec_bind_of rfl _).trans <|
    (Stateful.exec_bind_of rfl _).trans <|
    (Stateful.exec_bind_of rfl _).trans <|
    Stateful.exec_bind_of_error hbase _

theorem exec_duplocale_dead :
    LocaleEvent.exec lib tables s ⟨.duplocale loc, fresh, made⟩ =
      (.error .fault, s.native) :=
  (Stateful.exec_bind_of rfl _).trans <|
    Stateful.exec_bind_of_error (exec_derefLocale_dead hdead) _

theorem exec_uselocale_dead (hnull : loc ≠ .null)
    (hglobal : loc ≠ .globalLocale) :
    LocaleEvent.exec lib tables s ⟨.uselocale loc, fresh, made⟩ =
      (.error .fault, s.native) := by
  have hdead' : ∀ p l, loc = .obj p →
      ({ s.shim with threadLocale := loc } : LocaleState).heap p ≠ some l :=
    hdead
  rw [LocaleEvent.exec, LocaleOp.routine, shimUselocale]
  refine (Stateful.exec_bind_of rfl _).trans ?_
  rw [if_pos hnull, if_neg hglobal]
  exact (Stateful.exec_bind_of rfl _).trans <|
    Stateful.exec_bind_of_error (exec_derefLocale_dead hdead') _

theorem exec_freelocale_dead :
    LocaleEvent.exec lib tables s ⟨.freelocale loc, fresh, made⟩ =
      (.error .fault, s.native) :=
  Stateful.exec_bind_of_error
    (Stateful.exec_bind_of_error (exec_derefLocale_dead hdead) _) _

end Dead

/-! ### Steps -/

/-- A step is determined by what the operation comes to. -/
theorem LocaleStep.eq_of_exec {ev : LocaleEvent} {r : LocaleT} {st : LocaleState}
    {t : NativeLocales γ} (hstep : LocaleStep lib tables s ev s')
    (hexec : ev.exec lib tables s = (.ok (r, st), t)) : s' = ⟨st, t⟩ := by
  obtain ⟨r', hr⟩ := hstep
  obtain ⟨hout, hnative⟩ := Prod.mk.inj (hr.symm.trans hexec)
  exact congrArg₂ LocaleSys.mk (Prod.mk.inj (Except.ok.inj hout)).2 hnative

theorem LocaleStep.not_error {ev : LocaleEvent} {e : Stop} {t : NativeLocales γ}
    (hstep : LocaleStep lib tables s ev s')
    (hexec : ev.exec lib tables s = (.error e, t)) : False := by
  obtain ⟨r, hr⟩ := hstep
  rw [hexec] at hr
  cases hr

end Spec

end Libc6Shim
