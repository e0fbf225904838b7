import Libc6Shim.Mutex

/-!
# Attribute objects

The setters and getters of `pthread_mutexattr_t` (`src/libthr/pthread.c`). An
object of the shim's is five bit fields in a word; a setter asserts that its
argument fits the field, and `pthread_mutex_init` converts what the fields
hold.

Which values there are is said in two places: by the width of a field, and by
the conversion of its attribute. For the protocol they differ. The field has
one bit, and `PTHREAD_PRIO_PROTECT`, which is converted, takes two. So an object
remembers what it is given exactly if that is not among it
(`mutexattr_remembers_iff`).

`pthread_mutexattr_getkind_np` is not implemented.
-/

namespace Libc6Shim

open CSem Outcome

/-! ## The shim -/

/-- An argument goes into a field of `nbits`, which is stored back. -/
def setBits {nbits : Nat} (value : Int)
    (store : BitVec nbits → LinuxMutexattr) : Outcome (Errno × LinuxMutexattr) := do
  require (0 ≤ value ∧ value < 2 ^ nbits)
  return (0, store (.ofInt nbits value))

def getBits {nbits : Nat} (field : BitVec nbits) : Errno × Word :=
  (0, field.setWidth 32)

def shimPthreadMutexattrSetkindNp (attr : LinuxMutexattr) (linuxKind : Int) :
    Outcome (Errno × LinuxMutexattr) :=
  shimPthreadMutexattrSettype attr linuxKind

def shimPthreadMutexattrGetprioceiling (attr : LinuxMutexattr) : Errno × Word :=
  getBits attr.linuxPrioceiling

def shimPthreadMutexattrSetprioceiling (attr : LinuxMutexattr)
    (linuxPrioceiling : Int) : Outcome (Errno × LinuxMutexattr) :=
  setBits linuxPrioceiling fun b => { attr with linuxPrioceiling := b }

def shimPthreadMutexattrGetprotocol (attr : LinuxMutexattr) : Errno × Word :=
  getBits attr.linuxProtocol

def shimPthreadMutexattrSetprotocol (attr : LinuxMutexattr)
    (linuxProtocol : Int) : Outcome (Errno × LinuxMutexattr) :=
  setBits linuxProtocol fun b => { attr with linuxProtocol := b }

def shimPthreadMutexattrGetpshared (attr : LinuxMutexattr) : Errno × Word :=
  getBits attr.linuxPshared

def shimPthreadMutexattrSetpshared (attr : LinuxMutexattr)
    (linuxPshared : Int) : Outcome (Errno × LinuxMutexattr) :=
  setBits linuxPshared fun b => { attr with linuxPshared := b }

def shimPthreadMutexattrGetrobust (attr : LinuxMutexattr) : Errno × Word :=
  getBits attr.linuxRobust

def shimPthreadMutexattrSetrobust (attr : LinuxMutexattr)
    (linuxRobustness : Int) : Outcome (Errno × LinuxMutexattr) :=
  setBits linuxRobustness fun b => { attr with linuxRobust := b }

def shimPthreadMutexattrGettype (attr : LinuxMutexattr) : Errno × Word :=
  getBits attr.linuxKind

/-! ## Attributes -/

inductive MutexAttr where
  | kind
  | protocol
  | pshared
  | robust
deriving DecidableEq

namespace MutexAttr

/-- `linux_to_native_...`, for the attribute. -/
def convert : MutexAttr → Word → Outcome Word
  | .kind => linuxToNativeMutexKind
  | .protocol => linuxToNativeProtocol
  | .pshared => linuxToNativePshared
  | .robust => linuxToNativeRobust

def getter : MutexAttr → LinuxMutexattr → Errno × Word
  | .kind => shimPthreadMutexattrGettype
  | .protocol => shimPthreadMutexattrGetprotocol
  | .pshared => shimPthreadMutexattrGetpshared
  | .robust => shimPthreadMutexattrGetrobust

/-- `PTHREAD_MUTEX_NORMAL`, `PTHREAD_PRIO_NONE`, `PTHREAD_PROCESS_PRIVATE` and
`PTHREAD_MUTEX_STALLED`. -/
def default : MutexAttr → Word
  | .kind => linuxPthreadMutexNormal
  | .protocol | .pshared | .robust => 0

/-- How many bits the attribute's field has. -/
def nbits : MutexAttr → Nat
  | .kind => 2
  | .protocol | .pshared | .robust => 1

/-- The object with another field for the attribute. -/
def store (attr : LinuxMutexattr) : (m : MutexAttr) → BitVec m.nbits → LinuxMutexattr
  | .kind, b => { attr with linuxKind := b }
  | .protocol, b => { attr with linuxProtocol := b }
  | .pshared, b => { attr with linuxPshared := b }
  | .robust, b => { attr with linuxRobust := b }

end MutexAttr

inductive AttrSetter where
  | settype
  | setkindNp
  | setprotocol
  | setpshared
  | setrobust
deriving DecidableEq

namespace AttrSetter

def attr : AttrSetter → MutexAttr
  | .settype | .setkindNp => .kind
  | .setprotocol => .protocol
  | .setpshared => .pshared
  | .setrobust => .robust

def routine : AttrSetter → LinuxMutexattr → Int → Outcome (Errno × LinuxMutexattr)
  | .settype => shimPthreadMutexattrSettype
  | .setkindNp => shimPthreadMutexattrSetkindNp
  | .setprotocol => shimPthreadMutexattrSetprotocol
  | .setpshared => shimPthreadMutexattrSetpshared
  | .setrobust => shimPthreadMutexattrSetrobust

end AttrSetter

/-- A setter and its argument, an `int`. -/
abbrev AttrCall := AttrSetter × Word

def runSetters (attr : LinuxMutexattr) (calls : List AttrCall) :
    Outcome LinuxMutexattr :=
  calls.foldlM (fun attr c => Prod.snd <$> c.1.routine attr c.2.toInt) attr

/-- The value an attribute was set to last. -/
def lastValue (calls : List AttrCall) (m : MutexAttr) : Word :=
  calls.foldl (fun v c => if c.1.attr = m then c.2 else v) m.default

/-- The argument is a value that the conversion of the attribute accepts. -/
def AttrCall.Accepted (c : AttrCall) : Prop :=
  ∃ native, c.1.attr.convert c.2 = .ok native

/-- And one that there is room for in the attribute's field. -/
def AttrCall.Fits (c : AttrCall) : Prop := c.2.toNat < 2 ^ c.1.attr.nbits

instance (c : AttrCall) : Decidable c.Fits := inferInstanceAs (Decidable (_ < _))

def linuxPthreadPrioProtect : Word := 2

/-- After the calls, on an object that was just initialised, the getters give
what was set last, and a mutex is initialised with just that. -/
def Remembers (calls : List AttrCall) : Prop :=
  ∀ garbage, ∃ attr,
    runSetters (shimPthreadMutexattrInit garbage).2 calls = .ok attr ∧
    (∀ m : MutexAttr, m.getter attr = (0, lastValue calls m)) ∧
    ∀ mutex, ∃ native : NativeMutexattr,
      MutexAttr.kind.convert (lastValue calls .kind) = .ok native.type ∧
      MutexAttr.protocol.convert (lastValue calls .protocol) =
        .ok native.protocol ∧
      MutexAttr.pshared.convert (lastValue calls .pshared) = .ok native.pshared ∧
      MutexAttr.robust.convert (lastValue calls .robust) = .ok native.robust ∧
      shimPthreadMutexInit mutex (some attr) =
        onNativeMutex (.init (some native)) mutex

/-! ## Fields -/

section Bits

variable {nbits : Nat} {v : Word} {store : BitVec nbits → LinuxMutexattr}

theorem setBits_of (hbits : nbits < 32) (hv : v.toNat < 2 ^ nbits) :
    setBits v.toInt store = .ok (0, store (v.setWidth nbits)) := by
  have hpow : 2 ^ nbits ≤ 2 ^ 31 := Nat.pow_le_pow_right (by decide) (by omega)
  have hint : v.toInt = v.toNat := BitVec.toInt_eq_toNat_of_lt (by omega)
  have hfits : 0 ≤ v.toInt ∧ v.toInt < 2 ^ nbits := by
    rw [hint]
    exact ⟨Int.natCast_nonneg _, by exact_mod_cast hv⟩
  rw [setBits, require_of hfits, hint, BitVec.ofInt_natCast, BitVec.ofNat_toNat]
  rfl

theorem setBits_of_not (hv : ¬v.toNat < 2 ^ nbits) :
    setBits v.toInt store = .error .abort := by
  have hfits : ¬(0 ≤ v.toInt ∧ v.toInt < 2 ^ nbits) := by
    rintro ⟨hpos, hlt⟩
    have hint : v.toInt = v.toNat :=
      BitVec.toInt_eq_toNat_of_lt (BitVec.toInt_pos_iff.mp hpos)
    rw [hint] at hlt
    exact hv (by exact_mod_cast hlt)
  rw [setBits, require_of_not hfits]
  rfl

/-- A value that fits comes out of the field as it went in. -/
theorem getBits_setWidth (hv : v.toNat < 2 ^ nbits) :
    getBits (v.setWidth nbits) = (0, v) := by
  rw [getBits]
  congr 1
  apply BitVec.eq_of_toNat_eq
  rw [BitVec.toNat_setWidth, BitVec.toNat_setWidth, Nat.mod_eq_of_lt hv,
    Nat.mod_eq_of_lt v.isLt]

end Bits

/-! ## One call -/

/-- What an object shows: the value of every attribute, and no priority
ceiling. -/
def Shows (attr : LinuxMutexattr) (values : MutexAttr → Word) : Prop :=
  (∀ m : MutexAttr, m.getter attr = (0, values m)) ∧ attr.linuxPrioceiling = 0

section

variable {c : AttrCall} {attr : LinuxMutexattr} {values : MutexAttr → Word}
  {calls : List AttrCall} {m m' : MutexAttr} {v : Word}

theorem getter_store_self (hv : v.toNat < 2 ^ m.nbits) :
    m.getter (m.store attr (v.setWidth m.nbits)) = (0, v) := by
  cases m with
  | kind | protocol | pshared | robust => exact getBits_setWidth hv

theorem getter_store_of_ne (hne : m' ≠ m) (b : BitVec m.nbits) :
    m'.getter (m.store attr b) = m'.getter attr := by
  cases m <;> cases m' <;> first | rfl | exact absurd rfl hne

theorem linuxPrioceiling_store (b : BitVec m.nbits) :
    (m.store attr b).linuxPrioceiling = attr.linuxPrioceiling := by
  cases m <;> rfl

/-- Every setter is the same but for its field. -/
theorem AttrSetter.routine_eq (setter : AttrSetter) (attr : LinuxMutexattr)
    (value : Int) :
    setter.routine attr value = setBits value (setter.attr.store attr) := by
  cases setter <;> rfl

theorem routine_of_fits (hfits : c.Fits) :
    c.1.routine attr c.2.toInt =
      .ok (0, c.1.attr.store attr (c.2.setWidth c.1.attr.nbits)) := by
  have hbits : c.1.attr.nbits < 32 := by cases c.1.attr <;> decide
  rw [AttrSetter.routine_eq, setBits_of hbits hfits]

theorem routine_of_not_fits (hfits : ¬c.Fits) :
    c.1.routine attr c.2.toInt = .error .abort := by
  rw [AttrSetter.routine_eq, setBits_of_not hfits]

/-- A value that fits is set, and no other attribute is. -/
theorem Shows.store (hfits : c.Fits) (hattr : Shows attr values) :
    Shows (c.1.attr.store attr (c.2.setWidth c.1.attr.nbits)) fun m =>
      if c.1.attr = m then c.2 else values m := by
  refine ⟨fun m => ?_, (linuxPrioceiling_store _).trans hattr.2⟩
  dsimp only
  by_cases hm : c.1.attr = m
  · subst hm
    rw [if_pos rfl]
    exact getter_store_self hfits
  · rw [if_neg hm, getter_store_of_ne (Ne.symm hm)]
    exact hattr.1 m

/-! ## Sequences of calls -/

theorem runSetters_of_fits (hfits : ∀ c ∈ calls, c.Fits)
    (hattr : Shows attr values) :
    ∃ attr', runSetters attr calls = .ok attr' ∧ Shows attr' fun m =>
      calls.foldl (fun v c => if c.1.attr = m then c.2 else v) (values m) := by
  induction calls generalizing attr values with
  | nil => exact ⟨attr, rfl, hattr⟩
  | cons c calls ih =>
      have hc := hfits c (List.mem_cons_self ..)
      obtain ⟨attr', hrun, hattr'⟩ :=
        ih (fun c hc => hfits c (List.mem_cons_of_mem _ hc)) (hattr.store hc)
      refine ⟨attr', ?_, hattr'⟩
      rw [runSetters, List.foldlM_cons, routine_of_fits hc]
      exact hrun

theorem runSetters_of_not_fits (attr : LinuxMutexattr)
    (hfits : ¬∀ c ∈ calls, c.Fits) :
    runSetters attr calls = .error .abort := by
  induction calls generalizing attr with
  | nil => exact absurd nofun hfits
  | cons c calls ih =>
      rw [runSetters, List.foldlM_cons]
      by_cases hc : c.Fits
      · rw [routine_of_fits hc]
        exact ih _ fun hcalls => hfits (List.forall_mem_cons.mpr ⟨hc, hcalls⟩)
      · rw [routine_of_not_fits hc]
        rfl

theorem shows_default : Shows defaultMutexattr MutexAttr.default := by
  refine ⟨fun m => ?_, rfl⟩
  cases m <;> rfl

/-- A mutex is initialised with what the object shows. -/
theorem Shows.init (hattr : Shows attr values) (mutex : LinuxMutex) :
    ∃ native : NativeMutexattr,
      MutexAttr.kind.convert (values .kind) = .ok native.type ∧
      MutexAttr.protocol.convert (values .protocol) = .ok native.protocol ∧
      MutexAttr.pshared.convert (values .pshared) = .ok native.pshared ∧
      MutexAttr.robust.convert (values .robust) = .ok native.robust ∧
      shimPthreadMutexInit mutex (some attr) =
        onNativeMutex (.init (some native)) mutex := by
  obtain ⟨hshows, hprio⟩ := hattr
  have hkind : attr.linuxKind.setWidth 32 = values .kind :=
    congrArg Prod.snd (hshows .kind)
  have hprotocol : attr.linuxProtocol.setWidth 32 = values .protocol :=
    congrArg Prod.snd (hshows .protocol)
  have hpshared : attr.linuxPshared.setWidth 32 = values .pshared :=
    congrArg Prod.snd (hshows .pshared)
  have hrobust : attr.linuxRobust.setWidth 32 = values .robust :=
    congrArg Prod.snd (hshows .robust)
  obtain ⟨type, protocol, pshared, robust, htype, hprotocol', hpshared',
    hrobust'⟩ := attr_converts attr
  refine ⟨{ type, protocol, pshared, robust }, hkind ▸ htype,
    hprotocol ▸ hprotocol', hpshared ▸ hpshared', hrobust ▸ hrobust', ?_⟩
  exact shimPthreadMutexInit_converted hprio htype hprotocol' hpshared' hrobust'

theorem remembers_iff_fits : Remembers calls ↔ ∀ c ∈ calls, c.Fits := by
  constructor
  · intro hremembers
    by_contra hfits
    obtain ⟨attr, hrun, -⟩ := hremembers defaultMutexattr
    cases (runSetters_of_not_fits _ hfits).symm.trans hrun
  · intro hfits garbage
    obtain ⟨attr, hrun, hattr⟩ := runSetters_of_fits hfits shows_default
    exact ⟨attr, hrun, hattr.1, hattr.init⟩

theorem linuxToNativeMutexKind_inv {native : Word}
    (h : linuxToNativeMutexKind v = .ok native) :
    v = linuxPthreadMutexNormal ∨ v = linuxPthreadMutexRecursive ∨
      v = linuxPthreadMutexErrorcheck ∨ v = linuxPthreadMutexAdaptiveNp := by
  by_contra hv
  push Not at hv
  obtain ⟨hnormal, hrecursive, herrorcheck, hadaptive⟩ := hv
  rw [linuxToNativeMutexKind, if_neg hnormal, if_neg hrecursive,
    if_neg herrorcheck, if_neg hadaptive] at h
  cases h

/-- A value that is handed on if `p`. -/
theorem accepted_of_ite {p : Prop} [Decidable p] {native : Word}
    (h : (if p then .ok v else .error .abort : Outcome Word) = .ok native) : p := by
  by_contra hp
  rw [if_neg hp] at h
  cases h

/-- Of the values that are converted, one does not fit. -/
theorem AttrCall.Accepted.fits_iff (haccepted : c.Accepted) :
    c.Fits ↔ c ≠ (.setprotocol, linuxPthreadPrioProtect) := by
  obtain ⟨setter, v⟩ := c
  obtain ⟨native, hnative⟩ := haccepted
  cases setter with
  | settype | setkindNp =>
      have hv := linuxToNativeMutexKind_inv hnative
      refine iff_of_true ?_ nofun
      rcases hv with rfl | rfl | rfl | rfl <;> decide
  | setprotocol =>
      have hv : v = 0 ∨ v = 1 ∨ v = 2 := accepted_of_ite hnative
      rcases hv with rfl | rfl | rfl <;> decide
  | setpshared | setrobust =>
      have hv : v = 0 ∨ v = 1 := accepted_of_ite hnative
      refine iff_of_true ?_ nofun
      rcases hv with rfl | rfl <;> decide

end

/-- For values that are converted, an object remembers what it was given if
and only if that is never `PTHREAD_PRIO_PROTECT`. -/
theorem mutexattr_remembers_iff (calls : List AttrCall)
    (haccepted : ∀ c ∈ calls, c.Accepted) :
    Remembers calls ↔
      ∀ c ∈ calls, c ≠ (.setprotocol, linuxPthreadPrioProtect) := by
  rw [remembers_iff_fits]
  exact forall₂_congr fun c hc => (haccepted c hc).fits_iff

/-- The conversion has a value for it, the field has not. -/
theorem prioProtect_not_remembered :
    linuxToNativeProtocol linuxPthreadPrioProtect = .ok 2 ∧
      runSetters defaultMutexattr [(.setprotocol, linuxPthreadPrioProtect)] =
        .error .abort ∧
      ¬Remembers [(.setprotocol, linuxPthreadPrioProtect)] := by
  have hfits : ¬∀ c ∈ [(AttrSetter.setprotocol, linuxPthreadPrioProtect)],
      AttrCall.Fits c := by decide
  exact ⟨rfl, runSetters_of_not_fits _ hfits,
    fun hremembers => hfits (remembers_iff_fits.mp hremembers)⟩

theorem prioInherit_remembered :
    Remembers [(.settype, linuxPthreadMutexRecursive), (.setprotocol, 1),
      (.setrobust, 1), (.setkindNp, linuxPthreadMutexErrorcheck)] := by
  refine (mutexattr_remembers_iff _ fun c hc => ?_).mpr (by decide)
  simp only [List.mem_cons, List.not_mem_nil, or_false] at hc
  rcases hc with rfl | rfl | rfl | rfl <;> exact ⟨_, rfl⟩

end Libc6Shim
