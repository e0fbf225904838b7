import Libc6Shim.CSemSystem
import Libc6Shim.Locales

/-!
# Locale handles

A sequence of locale operations on one thread, such as POSIX allows
(`LocaleLegal`): handles are live, and the one in use is not freed. What is
asked of every operation (`LocaleWell`) is that it does not follow
`LC_GLOBAL_LOCALE`, that `uselocale` returns the handle in use, and that
libc's own thread locale is that handle's afterwards.

The invariant couples the shim's `thread_locale` with the handle in use and
with libc's (`LocaleInv`). `duplocale` is the operation that follows the
handle it is given without a test, and a handle whose native locale could
not be made selects nothing when it is used (`LocaleBad`); everything else
goes well (`localeHandles_iff`).
-/

namespace Libc6Shim

open CSem Outcome

variable {γ : Type}

/-! ## What is asked of the operations -/

/-- The handle an operation puts into use. -/
def LocaleOp.selects : LocaleOp → Option LocaleT
  | .uselocale .null => none
  | .uselocale loc => some loc
  | _ => none

/-- The handle in use: the last that `uselocale` was given. -/
def inUse (past : List LocaleEvent) : LocaleT :=
  past.foldl (fun loc ev => ev.op.selects.getD loc) .globalLocale

theorem inUse_append (past : List LocaleEvent) (ev : LocaleEvent) :
    inUse (past ++ [ev]) = ev.op.selects.getD (inUse past) := by
  rw [inUse, inUse, List.foldl_append]
  rfl

/-- The handle's object has not been freed. -/
def Live (s : LocaleSys γ) (loc : LocaleT) : Prop :=
  ∃ p l, loc = .obj p ∧ s.shim.heap p = some l

/-- The native locale of a handle. -/
def nativeOf (s : LocaleSys γ) : LocaleT → LocaleT
  | .obj p => ((s.shim.heap p).map LinuxLocale.nativeLocale).getD .null
  | loc => loc

/-- What a program may do, and that `malloc` gives it new objects. -/
def LocaleLegal (past : List LocaleEvent) (s : LocaleSys γ) (ev : LocaleEvent) :
    Prop :=
  match ev.op with
  | .newlocale _ _ base =>
      (base = .null ∨ Live s base) ∧ s.shim.heap ev.fresh = none
  | .duplocale loc =>
      (loc = .globalLocale ∨ Live s loc) ∧ s.shim.heap ev.fresh = none
  | .uselocale loc => loc = .null ∨ loc = .globalLocale ∨ Live s loc
  | .freelocale loc => Live s loc ∧ loc ≠ inUse past
  | .setlocale .. => True

/-- The operation follows no bad pointer, `uselocale` returns the handle in
use, and libc's thread locale is then that of the handle in use. -/
def LocaleWell (lib : LocaleLib γ) (tables : CtypeTables)
    (past : List LocaleEvent) (s : LocaleSys γ) (ev : LocaleEvent) : Prop :=
  (ev.exec lib tables s).1.stopped ≠ some .fault ∧
    ∀ r s', ev.exec lib tables s = (.ok (r, s'.shim), s'.native) →
      (∀ loc, ev.op = .uselocale loc → r = inUse past) ∧
        s'.native.thread = nativeOf s' (inUse (past ++ [ev]))

/-- The operation duplicates `LC_GLOBAL_LOCALE`, or puts a handle into use
whose native locale could not be made. -/
def LocaleBad (s : LocaleSys γ) (ev : LocaleEvent) : Prop :=
  ev.op = .duplocale .globalLocale ∨
    ∃ p l, ev.op = .uselocale (.obj p) ∧ s.shim.heap p = some l ∧
      l.nativeLocale = .null

/-! ## The invariant -/

/-- The handle in use is the shim's thread locale, it is not freed, and its
native locale is libc's. -/
structure LocaleInv (past : List LocaleEvent) (s : LocaleSys γ) : Prop where
  thread : s.shim.threadLocale = inUse past
  live : inUse past = .globalLocale ∨ Live s (inUse past)
  native : s.native.thread = nativeOf s (inUse past)
  ne_null : s.native.thread ≠ .null

theorem localeInv_atStart (lib : LocaleLib γ) (g : γ) :
    LocaleInv [] (LocaleSys.atStart lib g) :=
  ⟨rfl, .inl rfl, rfl, nofun⟩

section Steps

variable {lib : LocaleLib γ} {tables : CtypeTables} {past : List LocaleEvent}
  {s s' : LocaleSys γ} {ev : LocaleEvent} {loc : LocaleT}

theorem nativeOf_obj {p : Ptr} {l : LinuxLocale} (hp : s.shim.heap p = some l) :
    nativeOf s (.obj p) = l.nativeLocale := by
  rw [nativeOf, hp]
  rfl

/-- An operation that leaves the objects in use as they are, and selects
nothing, keeps the invariant. -/
theorem LocaleInv.frame (hinv : LocaleInv past s) (hsel : ev.op.selects = none)
    (hthread : s'.shim.threadLocale = s.shim.threadLocale)
    (hnative : s'.native.thread = s.native.thread)
    (hheap : ∀ p l, inUse past = .obj p → s.shim.heap p = some l →
      s'.shim.heap p = some l) : LocaleInv (past ++ [ev]) s' := by
  have huse : inUse (past ++ [ev]) = inUse past := by
    rw [inUse_append, hsel]
    rfl
  have hof : nativeOf s' (inUse past) = nativeOf s (inUse past) := by
    rcases hinv.live with hglobal | ⟨p, l, hp, hl⟩
    · rw [hglobal]
      rfl
    · rw [hp, nativeOf_obj hl, nativeOf_obj (hheap p l hp hl)]
  refine ⟨?_, ?_, ?_, ?_⟩
  · rw [huse, hthread, hinv.thread]
  · rw [huse]
    refine hinv.live.imp_right fun ⟨p, l, hp, hl⟩ => ?_
    exact ⟨p, l, hp, hheap p l hp hl⟩
  · rw [huse, hnative, hinv.native, hof]
  · rw [hnative]
    exact hinv.ne_null

/-- An operation goes through: it aborts, or it returns - `uselocale` the
handle in use - and keeps the invariant. -/
def LocaleGoes (lib : LocaleLib γ) (tables : CtypeTables)
    (past : List LocaleEvent) (s : LocaleSys γ) (ev : LocaleEvent) : Prop :=
  ev.exec lib tables s = (.error .abort, s.native) ∨
    ∃ r s', ev.exec lib tables s = (.ok (r, s'.shim), s'.native) ∧
      (∀ loc, ev.op = .uselocale loc → r = inUse past) ∧
      LocaleInv (past ++ [ev]) s'

/-- A new object is none of those in use. -/
theorem put_heap {p fresh : Ptr} {l l' : LinuxLocale}
    (hfresh : s.shim.heap fresh = none) (hp : s.shim.heap p = some l) :
    (s.shim.put fresh l').heap p = some l := by
  have hne : p ≠ fresh := fun h => by rw [h, hfresh] at hp; cases hp
  exact (Function.update_of_ne hne _ _).trans hp

theorem LocaleInv.goes_newlocale {mask : Int} {locale : String}
    {base : LocaleT} {fresh : Ptr} {made : Option Ptr}
    (hinv : LocaleInv past s)
    (hlegal : LocaleLegal past s ⟨.newlocale mask locale base, fresh, made⟩) :
    LocaleGoes lib tables past s ⟨.newlocale mask locale base, fresh, made⟩ := by
  by_cases h : (mask = 64 ∨ mask = 8127) ∧ locale = "C"
  · obtain ⟨hmask, rfl⟩ := h
    obtain ⟨l, -, hexec⟩ := exec_newlocale hmask hlegal.1
    exact .inr ⟨_, ⟨s.shim.put fresh l, s.native⟩, hexec, nofun,
      hinv.frame rfl rfl rfl fun _ _ _ hl => put_heap hlegal.2 hl⟩
  · exact .inl (exec_newlocale_of_not h)

theorem LocaleInv.goes_duplocale {p fresh : Ptr} {made : Option Ptr}
    {l : LinuxLocale} (hinv : LocaleInv past s) (hp : s.shim.heap p = some l)
    (hfresh : s.shim.heap fresh = none) :
    LocaleGoes lib tables past s ⟨.duplocale (.obj p), fresh, made⟩ :=
  .inr ⟨_, ⟨_, s.native⟩, exec_duplocale hp, nofun,
    hinv.frame rfl rfl rfl fun _ _ _ hl => put_heap hfresh hl⟩

/-- The handle `uselocale` is given becomes the one in use. -/
theorem LocaleInv.goes_uselocale {fresh : Ptr} {made : Option Ptr}
    (hinv : LocaleInv past s)
    (hlegal : LocaleLegal past s ⟨.uselocale loc, fresh, made⟩)
    (hok : ¬LocaleBad s ⟨.uselocale loc, fresh, made⟩) :
    LocaleGoes lib tables past s ⟨.uselocale loc, fresh, made⟩ := by
  rcases hlegal with rfl | rfl | ⟨p, l, rfl, hp⟩
  · exact .inr ⟨_, s, exec_uselocale_null, fun _ _ => hinv.thread,
      hinv.frame rfl rfl rfl fun _ _ _ hl => hl⟩
  · refine .inr ⟨_, ⟨_, _⟩, exec_uselocale_global, fun _ _ => hinv.thread, ?_⟩
    refine ⟨?_, .inl ?_, ?_, nofun⟩ <;> rw [inUse_append] <;> rfl
  · have hmade : l.nativeLocale ≠ .null := fun h =>
      hok (.inr ⟨p, l, rfl, hp, h⟩)
    have hexec : LocaleEvent.exec lib tables s
      ⟨.uselocale (.obj p), fresh, made⟩ = _ := exec_uselocale hp
    rw [if_neg hmade] at hexec
    refine .inr ⟨_, ⟨_, _⟩, hexec, fun _ _ => hinv.thread, ?_⟩
    have huse : inUse (past ++ [⟨.uselocale (.obj p), fresh, made⟩]) =
        .obj p := by
      rw [inUse_append]
      rfl
    refine ⟨?_, .inr ?_, ?_, hmade⟩
    · rw [huse]
    · rw [huse]
      exact ⟨p, l, rfl, hp⟩
    · rw [huse]
      exact (nativeOf_obj hp).symm

theorem LocaleInv.goes_freelocale {fresh : Ptr} {made : Option Ptr}
    (hinv : LocaleInv past s)
    (hlegal : LocaleLegal past s ⟨.freelocale loc, fresh, made⟩) :
    LocaleGoes lib tables past s ⟨.freelocale loc, fresh, made⟩ := by
  obtain ⟨⟨p, l, rfl, hp⟩, hne⟩ := hlegal
  refine .inr ⟨_, ⟨_, s.native⟩, exec_freelocale hp, nofun,
    hinv.frame rfl rfl rfl fun q k hq hk => ?_⟩
  exact (if_neg fun h => hne (h.trans hq.symm)).trans hk

theorem linuxToNativeCategory_eq_error {category : Int} {e : Stop}
    (h : linuxToNativeCategory category = .error e) : e = .abort := by
  unfold linuxToNativeCategory at h
  repeat' split at h
  all_goals cases h
  rfl

theorem LocaleInv.goes_setlocale {fresh : Ptr} {made : Option Ptr}
    {category : Int} {locale : Option String} (hinv : LocaleInv past s) :
    LocaleGoes lib tables past s ⟨.setlocale category locale, fresh, made⟩ := by
  cases hcat : linuxToNativeCategory category with
  | error e =>
      obtain rfl := linuxToNativeCategory_eq_error hcat
      exact .inl (exec_setlocale_of_error hcat)
  | ok native =>
      cases hset : lib.setlocale native locale s.native.global with
      | none =>
          exact .inr ⟨_, s, exec_setlocale_of_none hcat hset, nofun,
            hinv.frame rfl rfl rfl fun _ _ _ hl => hl⟩
      | some r =>
          exact .inr ⟨_, ⟨_, _⟩, exec_setlocale_of_some hcat hset, nofun,
            hinv.frame rfl rfl rfl fun _ _ _ hl => hl⟩

/-- Legal operations go through, the bad ones apart. -/
theorem LocaleInv.goes (hinv : LocaleInv past s) (hlegal : LocaleLegal past s ev)
    (hok : ¬LocaleBad s ev) : LocaleGoes lib tables past s ev := by
  obtain ⟨op, fresh, made⟩ := ev
  cases op with
  | newlocale mask locale base => exact hinv.goes_newlocale hlegal
  | duplocale loc =>
      obtain ⟨rfl | ⟨p, l, rfl, hp⟩, hfresh⟩ := hlegal
      · exact absurd (.inl rfl) hok
      · exact hinv.goes_duplocale hp hfresh
  | uselocale loc => exact hinv.goes_uselocale hlegal hok
  | freelocale loc => exact hinv.goes_freelocale hlegal
  | setlocale category locale => exact hinv.goes_setlocale

theorem LocaleGoes.well (h : LocaleGoes lib tables past s ev) :
    LocaleWell lib tables past s ev := by
  rcases h with habort | ⟨r, s', hexec, hret, hinv⟩
  · refine ⟨?_, fun r s' hr => ?_⟩
    · rw [habort]
      exact fun h => nomatch h
    · rw [habort] at hr
      cases hr
  · refine ⟨?_, fun r₁ s₁ hr => ?_⟩
    · rw [hexec]
      exact fun h => nomatch h
    · obtain rfl := LocaleStep.eq_of_exec ⟨r₁, hr⟩ hexec
      obtain rfl := (Prod.mk.inj (Except.ok.inj
        (Prod.mk.inj (hexec.symm.trans hr)).1)).1
      exact ⟨hret, hinv.native⟩

/-- The sentinel is followed; or libc's thread locale stays what it was. -/
theorem LocaleInv.not_well (hinv : LocaleInv past s) (hbad : LocaleBad s ev) :
    ¬LocaleWell lib tables past s ev := by
  obtain ⟨op, fresh, made⟩ := ev
  rintro ⟨hfault, hwell⟩
  rcases hbad with rfl | ⟨p, l, rfl, hp, hnull⟩
  · exact hfault rfl
  · have hexec : LocaleEvent.exec lib tables s
      ⟨.uselocale (.obj p), fresh, made⟩ = _ := exec_uselocale hp
    rw [if_pos hnull] at hexec
    obtain ⟨-, hthread⟩ := hwell _ ⟨{ s.shim with threadLocale := .obj p },
      s.native⟩ hexec
    rw [inUse_append] at hthread
    exact hinv.ne_null (hthread.trans ((nativeOf_obj hp).trans hnull))

theorem LocaleInv.well_iff (hinv : LocaleInv past s)
    (hlegal : LocaleLegal past s ev) :
    LocaleWell lib tables past s ev ↔ ¬LocaleBad s ev :=
  ⟨fun hwell hbad => hinv.not_well hbad hwell,
    fun hok => (hinv.goes hlegal hok).well⟩

/-- An operation that goes well keeps the invariant. -/
theorem LocaleInv.step (hinv : LocaleInv past s) (hlegal : LocaleLegal past s ev)
    (hwell : LocaleWell lib tables past s ev)
    (hstep : LocaleStep lib tables s ev s') : LocaleInv (past ++ [ev]) s' := by
  have hok := (hinv.well_iff hlegal).mp hwell
  have hgoes : LocaleGoes lib tables past s ev := hinv.goes hlegal hok
  rcases hgoes with habort | ⟨r, s₁, hexec, -, hinv'⟩
  · exact (hstep.not_error habort).elim
  · obtain rfl := hstep.eq_of_exec hexec
    exact hinv'

end Steps

/-- In a legal sequence of operations every one goes well exactly if none of
them is bad. -/
theorem localeHandles_iff {lib : LocaleLib γ} {tables : CtypeTables} {g : γ}
    {evs : List LocaleEvent}
    (hlegal : Throughout (LocaleStep lib tables) LocaleLegal []
      (LocaleSys.atStart lib g) evs) :
    Throughout (LocaleStep lib tables) (LocaleWell lib tables) []
        (LocaleSys.atStart lib g) evs ↔
      Throughout (LocaleStep lib tables) (fun _ s ev => ¬LocaleBad s ev) []
        (LocaleSys.atStart lib g) evs := by
  refine throughout_congr (I := LocaleInv) ?_ ?_ (localeInv_atStart lib g) hlegal
  · intro past s ev hinv hl
    exact hinv.well_iff hl
  · intro past s ev s' hinv hl hwell hstep
    exact hinv.step hl hwell hstep

/-- A library with one global locale, which `setlocale` only tells. -/
def cLocaleLib : LocaleLib Unit where
  setlocale _ _ g := some ("C", g)
  globalLconv _ :=
    ⟨[46], [], [], [], [], [], [], [], [], [],
      127, 127, 127, 127, 127, 127, 127, 127, 127, 127, 127, 127, 127, 127⟩
  objLconv _ :=
    ⟨[46], [], [], [], [], [], [], [], [], [],
      127, 127, 127, 127, 127, 127, 127, 127, 127, 127, 127, 127, 127, 127⟩

/-- `duplocale(LC_GLOBAL_LOCALE)` is legal, and faults. -/
theorem duplocale_global_faults :
    LocaleLegal [] (LocaleSys.atStart cLocaleLib ())
        ⟨.duplocale .globalLocale, 1, some 1⟩ ∧
      (LocaleEvent.exec cLocaleLib ⟨2, 3, 4⟩ (LocaleSys.atStart cLocaleLib ())
        ⟨.duplocale .globalLocale, 1, some 1⟩).1 = .error .fault :=
  ⟨⟨.inl rfl, rfl⟩, congrArg Prod.fst exec_duplocale_global⟩

/-- A locale made and put into use. -/
theorem newlocale_uselocale_well :
    Throughout (LocaleStep cLocaleLib ⟨2, 3, 4⟩)
      (LocaleWell cLocaleLib ⟨2, 3, 4⟩) [] (LocaleSys.atStart cLocaleLib ())
      [⟨.newlocale 8127 "C" .null, 1, some 1⟩,
        ⟨.uselocale (.obj 1), null, none⟩] := by
  have hmade : ∀ s₁, LocaleStep cLocaleLib ⟨2, 3, 4⟩
      (LocaleSys.atStart cLocaleLib ()) ⟨.newlocale 8127 "C" .null, 1, some 1⟩
      s₁ → ∃ l, l.nativeLocale = .obj 1 ∧ s₁.shim.heap 1 = some l := by
    rintro s₁ ⟨r, hr⟩
    obtain ⟨l, hl, hexec⟩ := @exec_newlocale _ cLocaleLib ⟨2, 3, 4⟩
      (LocaleSys.atStart cLocaleLib ()) 1 (some 1) 8127 .null (.inr rfl)
      (.inl rfl)
    obtain ⟨hout, -⟩ := Prod.mk.inj (hexec.symm.trans hr)
    obtain ⟨-, hshim⟩ := Prod.mk.inj (Except.ok.inj hout)
    refine ⟨l, hl, ?_⟩
    simp [← hshim, LocaleState.put]
  refine (localeHandles_iff ?_).mpr ?_
  · refine ⟨⟨.inl rfl, rfl⟩, fun s₁ hstep => ⟨?_, fun _ _ => trivial⟩⟩
    obtain ⟨l, -, hl⟩ := hmade s₁ hstep
    exact .inr (.inr ⟨1, l, rfl, hl⟩)
  · refine ⟨?_, fun s₁ hstep => ⟨?_, fun _ _ => trivial⟩⟩
    · rintro (h | ⟨_, _, h, _⟩) <;> cases h
    · obtain ⟨l, hmade, hl⟩ := hmade s₁ hstep
      rintro (h | ⟨p, l', h, hl', hnull⟩)
      · cases h
      · cases h
        rw [hl] at hl'
        cases hl'
        rw [hmade] at hnull
        cases hnull

end Libc6Shim
