import Libc6Shim.CSemSystem
import Libc6Shim.Locales

/-!
# `localeconv`

What `localeconv` returns is a copy of native formatting data, taken from the
locale that was in effect when the library was loaded, or at the last
`setlocale` that succeeded. `uselocale` changes what is in effect and leaves
the copy; a sequence of operations that never switches to a locale that
formats differently keeps the copy right, and no other does
(`localeconv_follows_iff`).
-/

namespace Libc6Shim

open CSem Outcome

variable {γ : Type}

/-- How the locale in effect for the thread formats. -/
def LocaleSys.inEffect (lib : LocaleLib γ) (s : LocaleSys γ) : Lconv :=
  lib.lconv s.native.global s.native.thread

/-- `localeconv` called next returns the data of the locale in effect. -/
def LconvRight (lib : LocaleLib γ) (s : LocaleSys γ) : Prop :=
  ∃ st, Stateful.exec (LocaleEvent.answer lib ⟨.setlocale 0 none, null, none⟩)
    shimLocaleconv s.shim s.native = (.ok (s.inEffect lib, st), s.native)

theorem lconvRight_iff {lib : LocaleLib γ} {s : LocaleSys γ} :
    LconvRight lib s ↔ s.shim.processLconv = s.inEffect lib := by
  constructor
  · rintro ⟨st, h⟩
    exact (Prod.mk.inj (Except.ok.inj (Prod.mk.inj h).1)).1
  · intro h
    rw [LconvRight, ← h]
    exact ⟨s.shim, rfl⟩

/-- `uselocale` with a handle that selects the native locale `thread`. -/
def Switches (s : LocaleSys γ) (ev : LocaleEvent) (thread : LocaleT) : Prop :=
  (ev.op = .uselocale .globalLocale ∧ thread = .globalLocale) ∨
    ∃ p l, ev.op = .uselocale (.obj p) ∧ s.shim.heap p = some l ∧
      l.nativeLocale ≠ .null ∧ thread = l.nativeLocale

/-- `uselocale` to a locale that formats differently from the one in
effect. -/
def Reformats (lib : LocaleLib γ) (s : LocaleSys γ) (ev : LocaleEvent) : Prop :=
  ∃ thread, Switches s ev thread ∧
    lib.lconv s.native.global thread ≠ s.inEffect lib

section Steps

variable {lib : LocaleLib γ} {tables : CtypeTables} {s s' : LocaleSys γ}
  {ev : LocaleEvent}

/-- A handle has an object, or it has none. -/
theorem live_or_dead (s : LocaleSys γ) (loc : LocaleT) :
    (∃ p l, loc = .obj p ∧ s.shim.heap p = some l) ∨
      ∀ p l, loc = .obj p → s.shim.heap p ≠ some l := by
  by_cases h : ∃ p l, loc = .obj p ∧ s.shim.heap p = some l
  · exact .inl h
  · exact .inr fun p l hp hl => h ⟨p, l, hp, hl⟩

/-- What an operation that returns does to the copy and to the locale in
effect. -/
theorem localeStep_cases (hstep : LocaleStep lib tables s ev s') :
    (s'.shim.processLconv = s.shim.processLconv ∧ s'.native = s.native) ∨
      s'.shim.processLconv = s'.inEffect lib ∨
      ∃ thread, Switches s ev thread ∧
        s'.shim.processLconv = s.shim.processLconv ∧
        s'.native = { s.native with thread } := by
  obtain ⟨op, fresh, made⟩ := ev
  cases op with
  | newlocale mask locale base =>
      by_cases h : (mask = 64 ∨ mask = 8127) ∧ locale = "C"
      swap
      · exact (hstep.not_error (exec_newlocale_of_not h)).elim
      obtain ⟨hmask, rfl⟩ := h
      rcases live_or_dead s base with hlive | hdead
      · obtain ⟨l, -, hexec⟩ := exec_newlocale hmask (.inr hlive)
        obtain rfl := hstep.eq_of_exec hexec
        exact .inl ⟨rfl, rfl⟩
      · by_cases hnull : base = .null
        · obtain ⟨l, -, hexec⟩ := exec_newlocale hmask (.inl hnull)
          obtain rfl := hstep.eq_of_exec hexec
          exact .inl ⟨rfl, rfl⟩
        · exact (hstep.not_error
            (exec_newlocale_dead hdead hnull hmask rfl)).elim
  | duplocale loc =>
      rcases live_or_dead s loc with ⟨p, l, rfl, hp⟩ | hdead
      · obtain rfl := hstep.eq_of_exec (exec_duplocale hp)
        exact .inl ⟨rfl, rfl⟩
      · exact (hstep.not_error (exec_duplocale_dead hdead)).elim
  | uselocale loc =>
      by_cases hnull : loc = .null
      · obtain rfl := hnull
        obtain rfl := hstep.eq_of_exec exec_uselocale_null
        exact .inl ⟨rfl, rfl⟩
      by_cases hglobal : loc = .globalLocale
      · obtain rfl := hglobal
        obtain rfl := hstep.eq_of_exec exec_uselocale_global
        exact .inr (.inr ⟨_, .inl ⟨rfl, rfl⟩, rfl, rfl⟩)
      rcases live_or_dead s loc with ⟨p, l, rfl, hp⟩ | hdead
      swap
      · exact (hstep.not_error (exec_uselocale_dead hdead hnull hglobal)).elim
      obtain rfl := hstep.eq_of_exec (exec_uselocale hp)
      by_cases hmade : l.nativeLocale = .null
      · exact .inl ⟨rfl, if_pos hmade⟩
      · exact .inr (.inr ⟨_, .inr ⟨p, l, rfl, hp, hmade, rfl⟩, rfl,
          if_neg hmade⟩)
  | freelocale loc =>
      rcases live_or_dead s loc with ⟨p, l, rfl, hp⟩ | hdead
      · obtain rfl := hstep.eq_of_exec (exec_freelocale hp)
        exact .inl ⟨rfl, rfl⟩
      · exact (hstep.not_error (exec_freelocale_dead hdead)).elim
  | setlocale category locale =>
      cases hcat : linuxToNativeCategory category with
      | error e => exact (hstep.not_error (exec_setlocale_of_error hcat)).elim
      | ok native =>
          cases hset : lib.setlocale native locale s.native.global with
          | none =>
              obtain rfl := hstep.eq_of_exec (exec_setlocale_of_none hcat hset)
              exact .inl ⟨rfl, rfl⟩
          | some r =>
              obtain rfl := hstep.eq_of_exec (exec_setlocale_of_some hcat hset)
              exact .inr (.inl rfl)

/-- Whatever switches can be made. -/
theorem Switches.step (lib : LocaleLib γ) (tables : CtypeTables)
    {thread : LocaleT} (h : Switches s ev thread) :
    ∃ s', LocaleStep lib tables s ev s' ∧
      s'.shim.processLconv = s.shim.processLconv ∧
      s'.native = { s.native with thread } := by
  obtain ⟨op, fresh, made⟩ := ev
  rcases h with ⟨rfl, rfl⟩ | ⟨p, l, rfl, hp, hmade, rfl⟩
  · exact ⟨⟨_, _⟩, ⟨_, exec_uselocale_global⟩, rfl, rfl⟩
  · have hexec : LocaleEvent.exec lib tables s
        ⟨.uselocale (.obj p), fresh, made⟩ = _ := exec_uselocale hp
    rw [if_neg hmade] at hexec
    exact ⟨⟨_, _⟩, ⟨_, hexec⟩, rfl, rfl⟩

/-- A copy that is right stays so unless the operation reformats. -/
theorem lconv_kept_iff (hright : LconvRight lib s) :
    (∀ s', LocaleStep lib tables s ev s' → LconvRight lib s') ↔
      ¬Reformats lib s ev := by
  rw [lconvRight_iff] at hright
  constructor
  · rintro hkeep ⟨thread, hswitch, hne⟩
    obtain ⟨s', hstep, hcopy, hnative⟩ := hswitch.step lib tables
    have hright' := lconvRight_iff.mp (hkeep s' hstep)
    have heffect : s'.inEffect lib = lib.lconv s.native.global thread := by
      rw [LocaleSys.inEffect, hnative]
    rw [hcopy, hright, heffect] at hright'
    exact hne hright'.symm
  · intro hok s' hstep
    rw [lconvRight_iff]
    rcases localeStep_cases hstep with ⟨hcopy, hnative⟩ | hfilled |
      ⟨thread, hswitch, hcopy, hnative⟩
    · rw [hcopy, hright, LocaleSys.inEffect, LocaleSys.inEffect, hnative]
    · exact hfilled
    · have heffect : s'.inEffect lib = lib.lconv s.native.global thread := by
        rw [LocaleSys.inEffect, hnative]
      by_contra hne
      refine hok ⟨thread, hswitch, fun heq => hne ?_⟩
      rw [hcopy, hright, heffect, heq]

end Steps

/-- `localeconv` reports the locale in effect at the start, and after every
operation of a sequence exactly if none of them reformats. -/
theorem localeconv_follows_iff (lib : LocaleLib γ) (tables : CtypeTables) (g : γ)
    (evs : List LocaleEvent) :
    LconvRight lib (LocaleSys.atStart lib g) ∧
      (Throughout (LocaleStep lib tables)
          (fun _ s ev => ∀ s', LocaleStep lib tables s ev s' → LconvRight lib s')
          [] (LocaleSys.atStart lib g) evs ↔
        Throughout (LocaleStep lib tables) (fun _ s ev => ¬Reformats lib s ev)
          [] (LocaleSys.atStart lib g) evs) := by
  have hstart : LconvRight lib (LocaleSys.atStart lib g) :=
    lconvRight_iff.mpr rfl
  refine ⟨hstart, throughout_congr (I := fun _ s => LconvRight lib s) ?_ ?_ hstart
    (throughout_of_forall (fun _ _ _ => trivial) [] _ evs)⟩
  · intro _ s ev hright _
    exact lconv_kept_iff hright
  · intro _ s ev s' _ _ hkeep hstep
    exact hkeep s' hstep

/-- The data of a locale that only sets its decimal point. -/
def pointLconv (point : Buf) : Lconv :=
  ⟨point, [], [], [], [], [], [], [], [], [],
    127, 127, 127, 127, 127, 127, 127, 127, 127, 127, 127, 127, 127, 127⟩

/-- A library that has the locales "C" and "de_DE.UTF-8". -/
def deLocaleLib : LocaleLib Lconv where
  setlocale _ locale g :=
    if locale = some "de_DE.UTF-8" then some ("de_DE.UTF-8", pointLconv [44])
    else if locale = some "C" then some ("C", pointLconv [46])
    else if locale = none then some ("", g)
    else none
  globalLconv g := g
  objLconv _ := pointLconv [46]

/-- A thread that leaves the German locale for "C" is still told its decimal
comma. -/
theorem uselocale_leaves_lconv :
    ∃ s, Runs (· = LocaleSys.atStart deLocaleLib (pointLconv [46]))
        (LocaleStep deLocaleLib ⟨2, 3, 4⟩)
        [⟨.setlocale 6 (some "de_DE.UTF-8"), null, none⟩,
          ⟨.newlocale 8127 "C" .null, 1, some 1⟩,
          ⟨.uselocale (.obj 1), null, none⟩] s ∧
      ¬LconvRight deLocaleLib s := by
  obtain ⟨s₁, hset, hcopy₁⟩ : ∃ s₁, LocaleStep deLocaleLib ⟨2, 3, 4⟩
      (LocaleSys.atStart deLocaleLib (pointLconv [46]))
      ⟨.setlocale 6 (some "de_DE.UTF-8"), null, none⟩ s₁ ∧
        s₁.shim.processLconv = pointLconv [44] :=
    ⟨⟨_, _⟩, ⟨_, exec_setlocale_of_some rfl rfl⟩, rfl⟩
  obtain ⟨s₂, l, hnew, hcopy₂, hp, hl⟩ : ∃ s₂ l, LocaleStep deLocaleLib
      ⟨2, 3, 4⟩ s₁ ⟨.newlocale 8127 "C" .null, 1, some 1⟩ s₂ ∧
        s₂.shim.processLconv = s₁.shim.processLconv ∧
        s₂.shim.heap 1 = some l ∧ l.nativeLocale = .obj 1 := by
    obtain ⟨l, hl, hexec⟩ := exec_newlocale (.inr rfl) (.inl rfl)
    exact ⟨⟨_, _⟩, l, ⟨_, hexec⟩, rfl, by simp, hl⟩
  have hexec : LocaleEvent.exec deLocaleLib ⟨2, 3, 4⟩ s₂
      ⟨.uselocale (.obj 1), null, none⟩ = _ := exec_uselocale hp
  rw [if_neg (by rw [hl]; exact nofun), hl] at hexec
  have huse : LocaleStep deLocaleLib ⟨2, 3, 4⟩ s₂
      ⟨.uselocale (.obj 1), null, none⟩ ⟨_, _⟩ := ⟨_, hexec⟩
  have hstart : Runs (· = LocaleSys.atStart deLocaleLib (pointLconv [46]))
      (LocaleStep deLocaleLib ⟨2, 3, 4⟩) [] _ := .nil rfl
  refine ⟨_, ((hstart.snoc hset).snoc hnew).snoc huse, ?_⟩
  rw [lconvRight_iff]
  show s₂.shim.processLconv ≠ pointLconv [46]
  rw [hcopy₂, hcopy₁]
  decide

end Libc6Shim
