import Libc6Shim.CSemTrampoline

/-!
# Trampolines cannot be told apart from what they call

A state with trampolines and one without belong together if everything is at
the same place in both, and the library did the same. Each follows what the
other does: the steps on a cell have no counterpart, and are made before or
after the ones that have. So the two have the same traces (`traces_iff`),
and what is known of the places says what becomes of the cells
(`tidy_of_runs`).
-/

namespace CSem

namespace Trampoline

variable {F X V : Type} {P : Policy X V} {g : Places F X V}
  {form : Form F X V} {s t : State F X V}

/-- The system with trampolines. -/
abbrev CellStep (P : Policy X V) :
    State F X V → Event F X V → State F X V → Prop := Step register trampoline P

/-- The system without. -/
abbrev PlainStep (P : Policy X V) :
    State F X V → Event F X V → State F X V → Prop := Step registerAsIs trampoline P

namespace Places

/-- The cells in hand. -/
def cells (g : Places F X V) (i : Nat) : Option (Ptr × Cell F) := (g.ask i).cell

/-- The calls that came back. -/
def back (g : Places F X V) (r : Nat) : Prop := (g.run r).CameBack

theorem cells_setAsk (i : Nat) (pt : AskPoint F X) :
    (g.setAsk i pt).cells = Function.update g.cells i pt.cell :=
  funext fun j => Function.apply_update (fun _ => AskPoint.cell) g.ask i pt j

theorem ask_setAsk (i : Nat) (pt : AskPoint F X) : (g.setAsk i pt).ask i = pt :=
  Function.update_self ..

theorem setAsk_setAsk (i : Nat) (pt pt' : AskPoint F X) :
    (g.setAsk i pt).setAsk i pt' = g.setAsk i pt' := by
  simp only [setAsk, Function.update_idem]

theorem run_setRun (r : Nat) (pt : RunPoint V) : (g.setRun r pt).run r = pt :=
  Function.update_self ..

theorem setRun_setRun (r : Nat) (pt pt' : RunPoint V) :
    (g.setRun r pt).setRun r pt' = g.setRun r pt' := by
  simp only [setRun, Function.update_idem]

theorem cells_answer (i : Nat) (err : Errno) (e : Entry F) :
    (g.answer i err e).cells = Function.update g.cells i none :=
  funext fun j => Function.apply_update (fun _ => AskPoint.cell) g.ask i (.done err) j

theorem back_setRun_self {r : Nat} {pt : RunPoint V} :
    (g.setRun r pt).back r ↔ pt.CameBack := by
  simp only [back, setRun, Function.update_self]

theorem back_setRun_of_ne {q r : Nat} {pt : RunPoint V} (hq : q ≠ r) :
    (g.setRun r pt).back q ↔ g.back q := by
  simp only [back, setRun, Function.update_of_ne hq]

end Places

/-! ## What can be done from a place -/

namespace Places.Fits

variable {i r : Nat}

/-- A registration goes on to another place. -/
theorem setAsk (hfits : g.Fits form s) {pt : AskPoint F X}
    {rest : Option (Routine F X V Errno)} (hrest : form.ask pt = rest)
    (h : Heap (Cell F)) :
    (g.setAsk i pt).Fits form
      { s with heap := h, asking := Function.update s.asking i rest } where
  table := hfits.table
  asking j := by
    by_cases hj : j = i
    · simp only [hj, Places.setAsk, Function.update_self, hrest]
    · simp only [Places.setAsk, Function.update_of_ne hj]
      exact hfits.asking j
  running := hfits.running
  idle := hfits.idle

/-- It goes on where nothing tells. -/
theorem setAsk_same (hfits : g.Fits form s) {pt : AskPoint F X}
    (hrest : form.ask pt = s.asking i) : (g.setAsk i pt).Fits form s := by
  have h := hfits.setAsk (i := i) hrest s.heap
  rwa [Function.update_eq_self] at h

/-- A call does. -/
theorem setRun (hfits : g.Fits form s) {pt : RunPoint V} {e : Entry F}
    {rest : Running F X V} (he : g.entries[r]? = some e)
    (hrest : form.run e pt = rest) (h : Heap (Cell F)) (did : List (Doing X V)) :
    (g.setRun r pt).Fits form
      { s with
        heap := h, did := did, running := Function.update s.running r rest } where
  table := hfits.table
  asking := hfits.asking
  running q e' he' := by
    by_cases hq : q = r
    · obtain rfl : e = e' := Option.some.inj (by rw [← he, ← hq]; exact he')
      simp only [hq, Places.setRun, Function.update_self, hrest]
    · simp only [Places.setRun, Function.update_of_ne hq]
      exact hfits.running q e' he'
  idle q hq := by
    have hne : q ≠ r := by
      rintro rfl
      rw [show (g.setRun q pt).entries = g.entries from rfl, he] at hq
      cases hq
    simp only [Places.setRun, Function.update_of_ne hne]
    exact hfits.idle q hq

theorem setRun_same (hfits : g.Fits form s) {pt : RunPoint V} {e : Entry F}
    (he : g.entries[r]? = some e) (hrest : form.run e pt = s.running r) :
    (g.setRun r pt).Fits form s := by
  have h := hfits.setRun he hrest s.heap s.did
  rwa [Function.update_eq_self] at h

/-- The library answers a registration. -/
theorem answer (hfits : g.Fits form s) {err : Errno}
    {rest : Option (Routine F X V Errno)} (hrest : form.ask (.done err) = rest)
    (hidle : ∀ e, form.run e .notYet = .notYet) (e : Entry F)
    (did : List (Doing X V)) :
    (g.answer i err e).Fits form
      { s with
        table := if err = 0 then s.table ++ [form.handed e] else s.table
        did := did
        asking := Function.update s.asking i rest } where
  table := by
    by_cases herr : err = 0
    · simp only [Places.answer, if_pos herr, hfits.table, List.map_append,
        List.map_singleton]
    · simp only [Places.answer, if_neg herr, hfits.table]
  asking j := by
    by_cases hj : j = i
    · simp only [hj, Places.answer, Function.update_self, hrest]
    · simp only [Places.answer, Function.update_of_ne hj]
      exact hfits.asking j
  running q e' he' := by
    by_cases herr : err = 0
    · rw [Places.answer, if_pos herr] at he'
      rcases Nat.lt_or_ge q g.entries.length with hlt | hge
      · rw [List.getElem?_append_left hlt] at he'
        exact hfits.running q e' he'
      · -- it was not begun before it was accepted
        obtain ⟨hplace, hidle'⟩ := hfits.idle q (List.getElem?_eq_none hge)
        exact hidle'.trans (by simp only [Places.answer, hplace, hidle])
    · rw [Places.answer, if_neg herr] at he'
      exact hfits.running q e' he'
  idle q hq := by
    refine hfits.idle q ?_
    by_cases herr : err = 0
    · rw [Places.answer, if_pos herr, List.getElem?_eq_none_iff,
        List.length_append] at hq
      exact List.getElem?_eq_none (Nat.le_of_add_right_le hq)
    · rwa [Places.answer, if_neg herr] at hq

end Places.Fits

/-! ## States with trampolines -/

/-- Everything is where `g` says, and every cell is its owner's. -/
structure Good (g : Places F X V) (s : State F X V) : Prop where
  fits : g.Fits byCell s
  owned : Owned g.cells g.entries g.back s.heap

namespace Good

variable {i r : Nat} {h : Heap (Cell F)}

/-- A registration goes on, and does `h` to the cells. -/
theorem setAsk (hgood : Good g s) {pt : AskPoint F X}
    {rest : Option (Routine F X V Errno)} (hrest : pt.rest = rest)
    (hown : Owned (Function.update g.cells i pt.cell) g.entries g.back h) :
    Good (g.setAsk i pt)
      { s with heap := h, asking := Function.update s.asking i rest } where
  fits := hgood.fits.setAsk hrest h
  owned := by rw [Places.cells_setAsk]; exact hown

/-- A call goes on without a cell being freed. -/
theorem setRun (hgood : Good g s) {pt : RunPoint V} {e : Entry F}
    {rest : Running F X V} (he : g.entries[r]? = some e)
    (hrest : pt.rest e = rest) (hback : pt.CameBack ↔ g.back r)
    (did : List (Doing X V)) :
    Good (g.setRun r pt)
      { s with did := did, running := Function.update s.running r rest } where
  fits := hgood.fits.setRun he hrest s.heap did
  owned := by
    have hsame : (g.setRun r pt).back = g.back := by
      funext q
      by_cases hq : q = r
      · rw [hq]
        exact propext (Places.back_setRun_self.trans hback)
      · exact propext (Places.back_setRun_of_ne hq)
    rw [hsame]
    exact hgood.owned

/-- A call frees its cell. -/
theorem free (hgood : Good g s) {v : V} {e : Entry F}
    (he : g.entries[r]? = some e) (c : Cell F) :
    Good (g.setRun r (.freed v))
      { s with
        heap := s.heap.drop e.cell c
        running := Function.update s.running r (.still (.ret v)) } where
  fits := hgood.fits.setRun he rfl _ s.did
  owned := by
    refine hgood.owned.free he (fun q => ?_) c
    by_cases hq : q = r
    · rw [hq, Places.back_setRun_self]
      exact iff_of_true trivial (.inl rfl)
    · rw [Places.back_setRun_of_ne hq]
      exact (or_iff_right hq).symm

/-- No call came back that was not accepted. -/
theorem not_back (hgood : Good g s) (q : Nat) (hq : g.entries.length ≤ q) :
    ¬g.back q := by
  rw [Places.back, (hgood.fits.idle q (List.getElem?_eq_none hq)).1]
  exact id

/-- The library answers a registration, whose cell it has from now on, or
nobody. -/
theorem answer (hgood : Good g s) {p : Ptr} {f : F} {a : Ptr} {x : X}
    (hpt : g.ask i = .full p f a x) (err : Errno) (did : List (Doing X V)) :
    Good (g.answer i err ⟨p, f, a⟩)
      { s with
        table := if err = 0 then s.table ++ [(.trampoline, p)] else s.table
        did := did
        asking := Function.update s.asking i (some (.ret err)) } where
  fits := hgood.fits.answer rfl (fun _ => rfl) ⟨p, f, a⟩ did
  owned := by
    rw [Places.cells_answer]
    have hcell : g.cells i = some (p, ⟨some f, some a⟩) := by
      rw [Places.cells, hpt]
      rfl
    by_cases herr : err = 0
    · simp only [Places.answer, if_pos herr]
      exact hgood.owned.accept hcell hgood.not_back
    · simp only [Places.answer, if_neg herr]
      exact hgood.owned.forget i

end Good

/-- A state with trampolines and one without, at the same places. -/
def Alike (s t : State F X V) : Prop :=
  ∃ g, Good g s ∧ g.Fits asIs t ∧ s.did = t.did

/-- Nothing is anywhere yet. -/
def Places.fresh : Places F X V := ⟨fun _ => .out, [], fun _ => .notYet⟩

theorem good_fresh : Good (.fresh : Places F X V) fresh where
  fits := ⟨rfl, fun _ => rfl, fun _ _ h => (nomatch h), fun _ _ => ⟨rfl, rfl⟩⟩
  owned := Owned.empty

theorem fits_fresh : (.fresh : Places F X V).Fits asIs fresh :=
  ⟨rfl, fun _ => rfl, fun _ _ h => (nomatch h), fun _ _ => ⟨rfl, rfl⟩⟩

/-! ## What a step on a cell comes to -/

section Cells

variable {h h' : Heap (Cell F)} {p : Ptr} {cell : Cell F}

theorem cells_setCb (hp : h.obj p = some cell) {f : F} {r : Outcome Unit} :
    Cells (V := V) (X := X) h (.setCb p f) r h' ↔
      r = .ok () ∧ h' = h.put p { cell with cb := some f } := by
  simp only [Cells, hp]

theorem cells_setArg (hp : h.obj p = some cell) {a : Ptr} {r : Outcome Unit} :
    Cells (V := V) (X := X) h (.setArg p a) r h' ↔
      r = .ok () ∧ h' = h.put p { cell with arg := some a } := by
  simp only [Cells, hp]

theorem cells_getCb {f : F} {arg : Option Ptr}
    (hp : h.obj p = some ⟨some f, arg⟩) {r : Outcome F} :
    Cells (V := V) (X := X) h (.getCb p) r h' ↔ h' = h ∧ r = .ok f := by
  simp only [Cells, hp, Option.bind_some]

theorem cells_getArg {a : Ptr} {cb : Option F}
    (hp : h.obj p = some ⟨cb, some a⟩) {r : Outcome Ptr} :
    Cells (V := V) (X := X) h (.getArg p) r h' ↔ h' = h ∧ r = .ok a := by
  simp only [Cells, hp, Option.bind_some]

theorem cells_free (hp : h.obj p = some cell) {r : Outcome Unit} :
    Cells (V := V) (X := X) h (.free p) r h' ↔
      r = .ok () ∧ h' = h.drop p cell := by
  simp only [Cells, Heap.free_of hp]

end Cells

/-! ## Without trampolines after with -/

/-- A registration of a callback as it is. -/
theorem registerAsIs_step {i : Nat} {f : F} {a : Ptr} {x : X} {err : Errno}
    (hi : t.asking i = some (registerAsIs f a x))
    (hallowed : P t.did (.registered x err)) :
    PlainStep P t (.askStep i (.register (.callback f) a x) err)
      { t with
        table := if err = 0 then t.table ++ [(.callback f, a)] else t.table
        did := t.did ++ [.registered x err]
        asking := Function.update t.asking i (some (.ret err)) } :=
  ⟨_, t.heap, _, hi, rfl, ⟨hallowed, rfl⟩, rfl⟩

/-- A step of a registration. -/
theorem follow_askStep {i : Nat} {c : Call F X} {k : Answer V c → Routine F X V Errno}
    {r : Answer V c} {h : Heap (Cell F)} {s₁ : State F X V} (hgood : Good g s)
    (hfits : g.Fits asIs t) (hdid : s.did = t.did)
    (hcall : s.asking i = some (.call c k)) (hcells : Cells s.heap c r h)
    (hreg : Registers P s c r s₁) :
    ∃ t', Shows (PlainStep P) view t (view (.askStep i c r)).toList t' ∧
      Alike { s₁ with
        heap := h, asking := Function.update s.asking i (some (k r)) } t' := by
  rw [hgood.fits.asking] at hcall
  have hplace := hfits.asking i
  have hcell : ∀ p cell, (g.ask i).cell = some (p, cell) →
      s.heap.obj p = some cell := hgood.owned.asks i
  cases hpt : g.ask i with
  | out => rw [hpt] at hcall; cases hcall
  | done err => rw [hpt] at hcall; cases hcall
  | start f a x =>
      rw [hpt] at hcall hplace
      cases hcall
      obtain ⟨rfl, rfl⟩ := Prod.mk.inj hcells
      obtain rfl := hreg
      have hnone : g.cells i = none := by rw [Places.cells, hpt]; rfl
      exact ⟨t, .refl, g.setAsk i (.blank _ f a x),
        hgood.setAsk rfl (hgood.owned.malloc hnone _),
        hfits.setAsk_same hplace.symm, hdid⟩
  | blank p f a x =>
      rw [hpt] at hcall hplace hcell
      cases hcall
      obtain ⟨rfl, rfl⟩ := (cells_setCb (hcell p _ rfl)).mp hcells
      obtain rfl := hreg
      have howns : g.cells i = some (p, ⟨none, none⟩) := by
        rw [Places.cells, hpt]
        rfl
      exact ⟨t, .refl, g.setAsk i (.half p f a x),
        hgood.setAsk rfl (hgood.owned.put howns _),
        hfits.setAsk_same hplace.symm, hdid⟩
  | half p f a x =>
      rw [hpt] at hcall hplace hcell
      cases hcall
      obtain ⟨rfl, rfl⟩ := (cells_setArg (hcell p _ rfl)).mp hcells
      obtain rfl := hreg
      have howns : g.cells i = some (p, ⟨some f, none⟩) := by
        rw [Places.cells, hpt]
        rfl
      exact ⟨t, .refl, g.setAsk i (.full p f a x),
        hgood.setAsk rfl (hgood.owned.put howns _),
        hfits.setAsk_same hplace.symm, hdid⟩
  | full p f a x =>
      rw [hpt] at hcall hplace
      cases hcall
      obtain rfl := hcells
      obtain ⟨hallowed, rfl⟩ := hreg
      have hstep := registerAsIs_step (P := P) hplace (hdid ▸ hallowed)
      refine ⟨_, Shows.refl.seen hstep rfl, g.answer i r ⟨p, f, a⟩,
        hgood.answer hpt r _, hfits.answer rfl (fun _ => rfl) _ _, ?_⟩
      exact congrArg (· ++ _) hdid

/-- What is under way is the call of an entry. -/
theorem Places.Fits.entry_of_still {r : Nat} {p : Routine F X V V}
    (hfits : g.Fits form s) (hr : s.running r = .still p) :
    ∃ e, g.entries[r]? = some e ∧ form.run e (g.run r) = .still p := by
  cases he : g.entries[r]? with
  | none =>
      rw [(hfits.idle r he).2] at hr
      cases hr
  | some e => exact ⟨e, rfl, (hfits.running r e he).symm.trans hr⟩

/-- What is registered under a number is an entry. -/
theorem Places.Fits.entry_of_table {r : Nat} {handed : Code F × Ptr}
    (hfits : g.Fits form s) (hr : s.table[r]? = some handed) :
    ∃ e, g.entries[r]? = some e ∧ form.handed e = handed := by
  rw [hfits.table, List.getElem?_map] at hr
  obtain ⟨e, he, hhanded⟩ := Option.map_eq_some_iff.mp hr
  exact ⟨e, he, hhanded⟩

theorem Places.Fits.table_of_entry {r : Nat} {e : Entry F}
    (hfits : g.Fits form s) (he : g.entries[r]? = some e) :
    s.table[r]? = some (form.handed e) := by
  rw [hfits.table, List.getElem?_map, he]
  rfl

/-- An entry that is not called yet. -/
theorem RunPoint.rest_eq_notYet {e : Entry F} {pt : RunPoint V}
    (h : pt.rest (X := X) e = .notYet) : pt = .notYet := by
  cases pt <;> first | rfl | cases h

theorem RunPoint.restAsIs_eq_notYet {e : Entry F} {pt : RunPoint V}
    (h : pt.restAsIs (X := X) e = .notYet) : pt = .notYet := by
  cases pt <;> first | rfl | cases h

/-- A step of a call. -/
theorem follow_runStep {r : Nat} {c : Call F X} {k : Answer V c → Routine F X V V}
    {ans : Answer V c} {h : Heap (Cell F)} (hgood : Good g s)
    (hfits : g.Fits asIs t) (hdid : s.did = t.did)
    (hcall : s.running r = .still (.call c k)) (hcells : Cells s.heap c ans h) :
    ∃ t', Shows (PlainStep P) view t
        (view (X := X) (.runStep r c ans)).toList t' ∧
      Alike { s with
        heap := h
        running := Function.update s.running r (.still (k ans)) } t' := by
  obtain ⟨e, he, hplace⟩ := hgood.fits.entry_of_still hcall
  have hdirect := hfits.running r e he
  have hheld := hgood.owned.held r e he
  have hback : g.back r ↔ (g.run r).CameBack := Iff.rfl
  cases hpt : g.run r with
  | notYet => rw [hpt] at hplace; cases hplace
  | freed v => rw [hpt] at hplace; cases hplace
  | ended => rw [hpt] at hplace; cases hplace
  | start =>
      rw [hpt] at hplace hdirect hback
      cases hplace
      obtain ⟨rfl, rfl⟩ := (cells_getCb (hheld hback.mp)).mp hcells
      exact ⟨t, .refl, g.setRun r .gotCb, hgood.setRun he rfl (iff_of_false id hback.mp) _,
        hfits.setRun_same he hdirect.symm, hdid⟩
  | gotCb =>
      rw [hpt] at hplace hdirect hback
      cases hplace
      obtain ⟨rfl, rfl⟩ := (cells_getArg (hheld hback.mp)).mp hcells
      exact ⟨t, .refl, g.setRun r .gotArg, hgood.setRun he rfl (iff_of_false id hback.mp) _,
        hfits.setRun_same he hdirect.symm, hdid⟩
  | gotArg =>
      rw [hpt] at hplace hdirect hback
      cases hplace
      obtain rfl := hcells
      have hstep : PlainStep P t (.runStep r (.enter e.cb e.arg) ()) _ :=
        ⟨_, t.heap, hdirect, rfl, rfl⟩
      exact ⟨_, Shows.refl.seen hstep rfl, g.setRun r .inside,
        hgood.setRun he rfl (iff_of_false id hback.mp) _, hfits.setRun he rfl _ _, hdid⟩
  | inside =>
      rw [hpt] at hplace hdirect hback
      cases hplace
      obtain rfl := hcells
      have hstep : PlainStep P t (.runStep r .leave ans) _ :=
        ⟨_, t.heap, hdirect, rfl, rfl⟩
      exact ⟨_, Shows.refl.seen hstep rfl, g.setRun r (.back ans),
        hgood.setRun he rfl (iff_of_false id hback.mp) _, hfits.setRun he rfl _ _, hdid⟩
  | back v =>
      rw [hpt] at hplace hdirect hback
      cases hplace
      obtain ⟨rfl, rfl⟩ := (cells_free (hheld hback.mp)).mp hcells
      exact ⟨t, .refl, g.setRun r (.freed v), hgood.free he _,
        hfits.setRun_same he hdirect.symm, hdid⟩

/-- Whatever the system with trampolines does, the one without does. -/
theorem simulates_asIs (P : Policy X V) :
    Simulates (· = fresh) (CellStep P) view (· = fresh)
      (PlainStep P) view (Alike (F := F)) where
  start := by
    rintro s rfl
    exact ⟨fresh, rfl, .fresh, good_fresh, fits_fresh, rfl⟩
  step s e s' t := by
    rintro ⟨g, hgood, hfits, hdid⟩ hstep
    cases e with
    | ask i f a x =>
        obtain ⟨hi, rfl⟩ := hstep
        have hpt : g.ask i = .out := by
          rw [hgood.fits.asking] at hi
          cases hpt : g.ask i <;> first | rfl | (rw [hpt] at hi; cases hi)
        have hi' : t.asking i = none := by rw [hfits.asking, hpt]; rfl
        have hstep : PlainStep P t (.ask i f a x) _ := ⟨hi', rfl⟩
        refine ⟨_, Shows.refl.seen hstep rfl, g.setAsk i (.start f a x),
          hgood.setAsk rfl ?_, hfits.setAsk rfl t.heap, hdid⟩
        have hnone : g.cells i = none := by rw [Places.cells, hpt]; rfl
        rw [AskPoint.cell, ← hnone, Function.update_eq_self]
        exact hgood.owned
    | askStep i c r =>
        obtain ⟨k, h, s₁, hi, hcells, hreg, rfl⟩ := hstep
        exact follow_askStep hgood hfits hdid hi hcells hreg
    | begin r =>
        obtain ⟨fn, a, hr, hidle, hallowed, rfl⟩ := hstep
        obtain ⟨e, he, hhanded⟩ := hgood.fits.entry_of_table hr
        cases hhanded
        rw [hgood.fits.running r e he] at hidle
        have hpt := RunPoint.rest_eq_notYet hidle
        have hidle' : t.running r = .notYet := by
          rw [hfits.running r e he, hpt]
          rfl
        have hstep : PlainStep P t (.begin r) _ :=
          ⟨_, _, hfits.table_of_entry he, hidle', hdid ▸ hallowed, rfl⟩
        have hback : ¬g.back r := by rw [Places.back, hpt]; exact id
        refine ⟨_, Shows.refl.seen hstep rfl, g.setRun r .start,
          hgood.setRun he rfl (iff_of_false id hback) _,
          hfits.setRun he rfl t.heap _, congrArg (· ++ _) hdid⟩
    | runStep r c ans =>
        obtain ⟨k, h, hr, hcells, rfl⟩ := hstep
        exact follow_runStep hgood hfits hdid hr hcells
    | finish r v =>
        obtain ⟨hr, hallowed, rfl⟩ := hstep
        obtain ⟨e, he, hplace⟩ := hgood.fits.entry_of_still hr
        have hpt : g.run r = .freed v := by
          cases hpt : g.run r <;> rw [hpt] at hplace <;> cases hplace
          rfl
        have hr' : t.running r = .still (.ret v) := by
          rw [hfits.running r e he, hpt]
          rfl
        have hstep : PlainStep P t (.finish r v) _ :=
          ⟨hr', hdid ▸ hallowed, rfl⟩
        have hback : g.back r := by rw [Places.back, hpt]; trivial
        have hended : (RunPoint.ended : RunPoint V).CameBack := trivial
        refine ⟨_, Shows.refl.seen hstep rfl, g.setRun r .ended,
          hgood.setRun he rfl (iff_of_true hended hback) _,
          hfits.setRun he rfl t.heap _, congrArg (· ++ _) hdid⟩

/-! ## With trampolines after without -/

/-- The places no step on a cell has to be made from. -/
def AskPoint.Rests : AskPoint F X → Prop
  | .blank .. | .half .. | .full .. => False
  | .out | .start .. | .done _ => True

def RunPoint.Rests : RunPoint V → Prop
  | .gotCb | .gotArg | .freed _ => False
  | .notYet | .start | .inside | .back _ | .ended => True

/-- States at the same places, none of which is one of its own of the
trampoline's. -/
def AlikeAtRest (t s : State F X V) : Prop :=
  ∃ g, Good g s ∧ g.Fits asIs t ∧ s.did = t.did ∧
    (∀ i, (g.ask i).Rests) ∧ ∀ r, (g.run r).Rests

/-- Everything rests still if what moved does. -/
theorem rests_update {α : Type} {Rests : α → Prop} {f : Nat → α} {i : Nat} {b : α}
    (hf : ∀ j, Rests (f j)) (hb : Rests b) (j : Nat) :
    Rests (Function.update f i b j) := by
  by_cases hj : j = i
  · rw [hj, Function.update_self]
    exact hb
  · rw [Function.update_of_ne hj]
    exact hf j

section Hidden

variable {i r : Nat} {f : F} {a p : Ptr} {x : X} {e : Entry F} {v : V}

/-- A step of a registration that can be made is made. -/
theorem Good.askStep (hgood : Good g s) {pt pt' : AskPoint F X} {c : Call F X}
    {k : Answer V c → Routine F X V Errno} {ans : Answer V c} {h : Heap (Cell F)}
    (hpt : g.ask i = pt) (hcall : pt.rest = some (.call c k))
    (hrest : pt'.rest = some (k ans)) (hcells : Cells s.heap c ans h)
    (hreg : Registers P s c ans s)
    (hown : Owned (Function.update g.cells i pt'.cell) g.entries g.back h) :
    ∃ s', CellStep P s (.askStep i c ans) s' ∧ Good (g.setAsk i pt') s' ∧
      s'.did = s.did := by
  have hasking : s.asking i = some (.call c k) := by
    rw [hgood.fits.asking, hpt]
    exact hcall
  exact ⟨_, ⟨k, h, s, hasking, hcells, hreg, rfl⟩, hgood.setAsk hrest hown, rfl⟩

/-- The steps of a registration on its cell. -/
theorem Good.fill (hgood : Good g s) (hpt : g.ask i = .start f a x) :
    ∃ p s', Shows (CellStep P) view s [] s' ∧
      Good (g.setAsk i (.full p f a x)) s' ∧ s'.did = s.did := by
  have hnone : g.cells i = none := by rw [Places.cells, hpt]; rfl
  have hcells : ∀ pt, (g.setAsk i pt).cells i = pt.cell := fun pt => by
    rw [Places.cells, Places.ask_setAsk]
  obtain ⟨s₁, hmalloc, hblank, hdid₁⟩ := hgood.askStep (P := P) hpt rfl
    (show (AskPoint.blank s.heap.next f a x).rest = some _ from rfl)
    rfl rfl (hgood.owned.malloc hnone _)
  have hhas := hcells (.blank s.heap.next f a x)
  obtain ⟨s₂, hsetCb, hhalf, hdid₂⟩ := hblank.askStep (P := P)
    (Places.ask_setAsk i _) rfl
    (show (AskPoint.half s.heap.next f a x).rest = some _ from rfl)
    ((cells_setCb (hblank.owned.asks i _ _ hhas)).mpr ⟨rfl, rfl⟩) rfl
    (hblank.owned.put hhas _)
  rw [Places.setAsk_setAsk] at hhalf
  have hhas := hcells (.half s.heap.next f a x)
  obtain ⟨s₃, hsetArg, hfull, hdid₃⟩ := hhalf.askStep (P := P)
    (Places.ask_setAsk i _) rfl
    (show (AskPoint.full s.heap.next f a x).rest = some _ from rfl)
    ((cells_setArg (hhalf.owned.asks i _ _ hhas)).mpr ⟨rfl, rfl⟩) rfl
    (hhalf.owned.put hhas _)
  rw [Places.setAsk_setAsk] at hfull
  exact ⟨_, s₃, ((Shows.refl.hidden hmalloc rfl).hidden hsetCb rfl).hidden hsetArg rfl,
    hfull, (hdid₃.trans hdid₂).trans hdid₁⟩

/-- A step of a call that can be made is made. -/
theorem Good.runStep (hgood : Good g s) {pt pt' : RunPoint V} {c : Call F X}
    {k : Answer V c → Routine F X V V} {ans : Answer V c}
    (he : g.entries[r]? = some e) (hpt : g.run r = pt)
    (hcall : pt.rest e = .still (.call c k)) (hrest : pt'.rest e = .still (k ans))
    (hcells : Cells s.heap c ans s.heap) (hback : pt'.CameBack ↔ pt.CameBack) :
    ∃ s', CellStep P s (.runStep r c ans) s' ∧ Good (g.setRun r pt') s' ∧
      s'.did = s.did := by
  have hrunning : s.running r = .still (.call c k) := by
    rw [hgood.fits.running r e he, hpt]
    exact hcall
  refine ⟨_, ⟨k, s.heap, hrunning, hcells, rfl⟩, hgood.setRun he hrest ?_ _, rfl⟩
  rw [Places.back, hpt]
  exact hback

/-- The steps of the trampoline before the callback. -/
theorem Good.fetch (hgood : Good g s) (he : g.entries[r]? = some e)
    (hpt : g.run r = .start) :
    ∃ s', Shows (CellStep P) view s [] s' ∧
      Good (g.setRun r .gotArg) s' ∧ s'.did = s.did := by
  have hheld : ∀ {g' : Places F X V} {s' : State F X V} {pt : RunPoint V},
      Good g' s' → g'.entries[r]? = some e → g'.run r = pt → ¬pt.CameBack →
      s'.heap.obj e.cell = some ⟨some e.cb, some e.arg⟩ := by
    intro g' s' pt hgood' he' hpt' hback
    refine hgood'.owned.held r e he' ?_
    rwa [Places.back, hpt']
  obtain ⟨s₁, hgetCb, hgot, hdid₁⟩ := hgood.runStep (P := P) he hpt rfl
    (show RunPoint.gotCb.rest e = .still _ from rfl)
    ((cells_getCb (hheld hgood he hpt id)).mpr ⟨rfl, rfl⟩) Iff.rfl
  have hpt' := Places.run_setRun (g := g) r .gotCb
  obtain ⟨s₂, hgetArg, hgot', hdid₂⟩ := hgot.runStep (P := P) he hpt' rfl
    (show RunPoint.gotArg.rest e = .still _ from rfl)
    ((cells_getArg (hheld hgot he hpt' id)).mpr ⟨rfl, rfl⟩) Iff.rfl
  rw [Places.setRun_setRun] at hgot'
  exact ⟨s₂, (Shows.refl.hidden hgetCb rfl).hidden hgetArg rfl, hgot',
    hdid₂.trans hdid₁⟩

/-- The step of the trampoline after it. -/
theorem Good.release (hgood : Good g s) (he : g.entries[r]? = some e)
    (hpt : g.run r = .back v) :
    ∃ s', Shows (CellStep P) view s [] s' ∧
      Good (g.setRun r (.freed v)) s' ∧ s'.did = s.did := by
  have hrunning : s.running r = (RunPoint.back v).rest e := by
    rw [hgood.fits.running r e he, hpt]
    rfl
  have hheld := hgood.owned.held r e he (by rw [Places.back, hpt]; exact id)
  have hstep : CellStep P s (.runStep r (.free e.cell) (.ok ())) _ :=
    ⟨_, _, hrunning, (cells_free hheld).mpr ⟨rfl, rfl⟩, rfl⟩
  exact ⟨_, Shows.refl.hidden hstep rfl, hgood.free he _, rfl⟩

end Hidden

/-! One lemma for each event of the system without trampolines: the system
with them shows the same, its steps on the cells in between. -/

section Mirror

variable {i r : Nat} {f : F} {a : Ptr} {x : X} {t' : State F X V}

theorem mirror_ask (hrest : AlikeAtRest t s)
    (hstep : PlainStep P t (.ask i f a x) t') :
    ∃ s', Shows (CellStep P) view s [.asked i f a x] s' ∧ AlikeAtRest t' s' := by
  obtain ⟨g, hgood, hfits, hdid, hask, hrun⟩ := hrest
  obtain ⟨hi, rfl⟩ := hstep
  have hpt : g.ask i = .out := by
    rw [hfits.asking] at hi
    cases hpt : g.ask i <;> first | rfl | (rw [hpt] at hi; cases hi)
  have hi' : s.asking i = none := by rw [hgood.fits.asking, hpt]; rfl
  have hstep : CellStep P s (.ask i f a x) _ := ⟨hi', rfl⟩
  refine ⟨_, Shows.refl.seen hstep rfl, g.setAsk i (.start f a x),
    hgood.setAsk rfl ?_, hfits.setAsk rfl t.heap, hdid,
    rests_update hask trivial, hrun⟩
  have hnone : g.cells i = none := by rw [Places.cells, hpt]; rfl
  rw [AskPoint.cell, ← hnone, Function.update_eq_self]
  exact hgood.owned

/-- A callback handed down as it is: with trampolines a cell is filled
first. -/
theorem mirror_register {err : Errno} (hgood : Good g s) (hfits : g.Fits asIs t)
    (hdid : s.did = t.did) (hask : ∀ i, (g.ask i).Rests)
    (hrun : ∀ r, (g.run r).Rests) (hpt : g.ask i = .start f a x)
    (hallowed : P t.did (.registered x err)) :
    ∃ s', Shows (CellStep P) view s [.registered i x err] s' ∧
      AlikeAtRest
        { t with
          table := if err = 0 then t.table ++ [(.callback f, a)] else t.table
          did := t.did ++ [.registered x err]
          asking := Function.update t.asking i (some (.ret err)) } s' := by
  obtain ⟨p, s₁, hshows, hfull, hdid₁⟩ := hgood.fill (P := P) hpt
  have hasking : s₁.asking i = (AskPoint.full p f a x).rest := by
    rw [hfull.fits.asking, Places.ask_setAsk]
    rfl
  have hregister : CellStep P s₁ (.askStep i (.register .trampoline p x) err) _ :=
    ⟨_, s₁.heap, _, hasking, rfl, ⟨hdid₁ ▸ hdid ▸ hallowed, rfl⟩, rfl⟩
  have hfits₁ : (g.setAsk i (.full p f a x)).Fits asIs t :=
    hfits.setAsk_same (by rw [hfits.asking, hpt]; rfl)
  refine ⟨_, hshows.seen hregister rfl, _,
    hfull.answer (Places.ask_setAsk ..) err _,
    hfits₁.answer rfl (fun _ => rfl) _ _,
    congrArg (· ++ _) (hdid₁.trans hdid), ?_, hrun⟩
  simp only [Places.answer, Places.setAsk, Function.update_idem]
  exact rests_update hask trivial

theorem mirror_askStep {c : Call F X} {ans : Answer V c} (hrest : AlikeAtRest t s)
    (hstep : PlainStep P t (.askStep i c ans) t') :
    ∃ s', Shows (CellStep P) view s (view (.askStep i c ans)).toList s' ∧
      AlikeAtRest t' s' := by
  obtain ⟨g, hgood, hfits, hdid, hask, hrun⟩ := hrest
  obtain ⟨k, h, t₁, hi, hcells, hreg, rfl⟩ := hstep
  have hplace := hfits.asking i
  rw [hi] at hplace
  have hrests := hask i
  cases hpt : g.ask i with
  | out => rw [hpt] at hplace; cases hplace
  | done err => rw [hpt] at hplace; cases hplace
  | blank p f a x => rw [hpt] at hrests; exact hrests.elim
  | half p f a x => rw [hpt] at hrests; exact hrests.elim
  | full p f a x => rw [hpt] at hrests; exact hrests.elim
  | start f a x =>
      rw [hpt] at hplace
      cases hplace
      obtain rfl := hcells
      obtain ⟨hallowed, rfl⟩ := hreg
      exact mirror_register hgood hfits hdid hask hrun hpt hallowed

theorem mirror_begin (hrest : AlikeAtRest t s)
    (hstep : PlainStep P t (.begin r) t') :
    ∃ s', Shows (CellStep P) view s [.begun r] s' ∧ AlikeAtRest t' s' := by
  obtain ⟨g, hgood, hfits, hdid, hask, hrun⟩ := hrest
  obtain ⟨fn, a, hr, hidle, hallowed, rfl⟩ := hstep
  obtain ⟨e, he, hhanded⟩ := hfits.entry_of_table hr
  cases hhanded
  rw [hfits.running r e he] at hidle
  have hpt := RunPoint.restAsIs_eq_notYet hidle
  have hidle' : s.running r = .notYet := by
    rw [hgood.fits.running r e he, hpt]
    rfl
  have hstep : CellStep P s (.begin r) _ :=
    ⟨_, _, hgood.fits.table_of_entry he, hidle', hdid ▸ hallowed, rfl⟩
  have hback : ¬g.back r := by rw [Places.back, hpt]; exact id
  exact ⟨_, Shows.refl.seen hstep rfl, g.setRun r .start,
    hgood.setRun he rfl (iff_of_false id hback) _,
    hfits.setRun he rfl t.heap _, congrArg (· ++ _) hdid, hask,
    rests_update hrun trivial⟩

/-- A callback is called: the trampoline looks into its cell first. -/
theorem mirror_enter {e : Entry F} (hgood : Good g s) (hfits : g.Fits asIs t)
    (hdid : s.did = t.did) (hask : ∀ i, (g.ask i).Rests)
    (hrun : ∀ r, (g.run r).Rests) (he : g.entries[r]? = some e)
    (hpt : g.run r = .start) :
    ∃ s', Shows (CellStep P) view s [.entered r e.cb e.arg] s' ∧
      AlikeAtRest
        { t with
          running := Function.update t.running r (.still (call .leave)) } s' := by
  obtain ⟨s₁, hshows, hgot, hdid₁⟩ := hgood.fetch (P := P) he hpt
  obtain ⟨s₂, henter, hinside, hdid₂⟩ :
      ∃ s₂, CellStep P s₁ (.runStep r (.enter e.cb e.arg) ()) s₂ ∧
        Good ((g.setRun r .gotArg).setRun r .inside) s₂ ∧ s₂.did = s₁.did :=
    hgot.runStep he (Places.run_setRun r _) rfl rfl rfl Iff.rfl
  rw [Places.setRun_setRun] at hinside
  exact ⟨s₂, hshows.seen henter rfl, g.setRun r .inside, hinside,
    hfits.setRun he rfl t.heap _, (hdid₂.trans hdid₁).trans hdid, hask,
    rests_update hrun trivial⟩

theorem mirror_runStep {c : Call F X} {ans : Answer V c} (hrest : AlikeAtRest t s)
    (hstep : PlainStep P t (.runStep r c ans) t') :
    ∃ s', Shows (CellStep P) view s (view (.runStep r c ans)).toList s' ∧
      AlikeAtRest t' s' := by
  obtain ⟨g, hgood, hfits, hdid, hask, hrun⟩ := hrest
  obtain ⟨k, h, hr, hcells, rfl⟩ := hstep
  obtain ⟨e, he, hplace⟩ := hfits.entry_of_still hr
  have hrests := hrun r
  cases hpt : g.run r with
  | notYet => rw [hpt] at hplace; cases hplace
  | back v => rw [hpt] at hplace; cases hplace
  | ended => rw [hpt] at hplace; cases hplace
  | gotCb => rw [hpt] at hrests; exact hrests.elim
  | gotArg => rw [hpt] at hrests; exact hrests.elim
  | freed v => rw [hpt] at hrests; exact hrests.elim
  | start =>
      rw [hpt] at hplace
      cases hplace
      obtain rfl := hcells
      exact mirror_enter hgood hfits hdid hask hrun he hpt
  | inside =>
      rw [hpt] at hplace
      cases hplace
      obtain rfl := hcells
      obtain ⟨s₁, hleave, hback, hdid₁⟩ := hgood.runStep (P := P) he hpt rfl
        (show (RunPoint.back ans).rest e = .still _ from rfl) rfl Iff.rfl
      exact ⟨s₁, Shows.refl.seen hleave rfl, g.setRun r (.back ans), hback,
        hfits.setRun he rfl t.heap _, hdid₁.trans hdid, hask,
        rests_update hrun trivial⟩

/-- The trampoline has its cell to free before it comes back. -/
theorem mirror_finish {v : V} (hrest : AlikeAtRest t s)
    (hstep : PlainStep P t (.finish r v) t') :
    ∃ s', Shows (CellStep P) view s [.ended r v] s' ∧ AlikeAtRest t' s' := by
  obtain ⟨g, hgood, hfits, hdid, hask, hrun⟩ := hrest
  obtain ⟨hr, hallowed, rfl⟩ := hstep
  obtain ⟨e, he, hplace⟩ := hfits.entry_of_still hr
  have hpt : g.run r = .back v := by
    have hrests := hrun r
    cases hpt : g.run r <;> rw [hpt] at hplace hrests <;> cases hplace
    · rfl
    · exact hrests.elim
  obtain ⟨s₁, hshows, hfreed, hdid₁⟩ := hgood.release (P := P) he hpt
  have hr' : s₁.running r = .still (.ret v) := by
    rw [hfreed.fits.running r e he, Places.run_setRun]
    rfl
  have hstep : CellStep P s₁ (.finish r v) _ :=
    ⟨hr', hdid₁ ▸ hdid ▸ hallowed, rfl⟩
  have hback : (g.setRun r (.freed v)).back r := by
    rw [Places.back, Places.run_setRun]
    trivial
  have hended : (RunPoint.ended : RunPoint V).CameBack := trivial
  have hgood' := hfreed.setRun he rfl (iff_of_true hended hback)
    (s₁.did ++ [.ended r v])
  rw [Places.setRun_setRun] at hgood'
  exact ⟨_, hshows.seen hstep rfl, g.setRun r .ended, hgood',
    hfits.setRun he rfl t.heap _, congrArg (· ++ _) (hdid₁.trans hdid), hask,
    rests_update hrun trivial⟩

end Mirror

/-- Whatever the system without trampolines does, the one with them does. -/
theorem simulated_byCell (P : Policy X V) :
    Simulates (· = fresh) (PlainStep P) view (· = fresh)
      (CellStep P) view (AlikeAtRest (F := F)) where
  start := by
    rintro t rfl
    exact ⟨fresh, rfl, .fresh, good_fresh, fits_fresh, rfl, fun _ => trivial,
      fun _ => trivial⟩
  step t e t' s hrest hstep := by
    cases e with
    | ask i f a x => exact mirror_ask hrest hstep
    | askStep i c ans => exact mirror_askStep hrest hstep
    | begin r => exact mirror_begin hrest hstep
    | runStep r c ans => exact mirror_runStep hrest hstep
    | finish r v => exact mirror_finish hrest hstep

/-! ## What is seen, and what becomes of the cells -/

/-- With trampolines everything looks as it does without. -/
theorem traces_iff (P : Policy X V) (tr : List (Seen F X V)) :
    Traces (· = fresh) (CellStep P) view tr ↔
      Traces (· = fresh) (PlainStep P) view tr :=
  ⟨(simulates_asIs P).traces, (simulated_byCell P).traces⟩

/-- The invariant of the runs with trampolines. -/
theorem good_of_runs {es : List (Event F X V)}
    (hrun : Runs (· = fresh) (CellStep P) es s) : ∃ g, Good g s := by
  obtain ⟨_, _, _, -, g, hgood, -⟩ := (simulates_asIs P).follows hrun
  exact ⟨g, hgood⟩

/-- The call of what is registered has come back from the callback, and from
whatever was to be done after it. -/
def Running.CameBack : Running F X V → Prop
  | .still (.ret _) | .ended => True
  | _ => False

theorem RunPoint.cameBack_rest {e : Entry F} {pt : RunPoint V} :
    (pt.rest (X := X) e).CameBack ↔ pt.CameBack := by
  cases pt <;> exact Iff.rfl

/-- No routine has touched what is not there - a cell that is freed already,
or a field that is not set - and the cells that were freed are those of the
callbacks that came back. -/
structure Tidy (s : State F X V) : Prop where
  asking : ∀ i e, s.asking i ≠ some (.stop e)
  running : ∀ r e, s.running r ≠ .still (.stop e)
  freed : ∀ p, null < p → p < s.heap.next → (s.heap.obj p = none ↔
    ∃ r, s.table[r]? = some (.trampoline, p) ∧ (s.running r).CameBack)

theorem tidy_of_runs {es : List (Event F X V)}
    (hrun : Runs (· = fresh) (CellStep P) es s) : Tidy s := by
  obtain ⟨g, hgood⟩ := good_of_runs hrun
  have hfits := hgood.fits
  refine ⟨fun i e hi => ?_, fun r e hr => ?_, fun p hpos hlt => ?_⟩
  · rw [hfits.asking] at hi
    cases hpt : g.ask i <;> rw [hpt] at hi <;> cases hi
  · obtain ⟨e', he', hplace⟩ := hfits.entry_of_still hr
    cases hpt : g.run r <;> rw [hpt] at hplace <;> cases hplace
  · rw [hgood.owned.gone p hpos hlt]
    refine exists_congr fun r => ?_
    constructor
    · rintro ⟨e, he, hback, rfl⟩
      refine ⟨hfits.table_of_entry he, ?_⟩
      rw [hfits.running r e he]
      exact RunPoint.cameBack_rest.mpr hback
    · rintro ⟨hr, hback⟩
      obtain ⟨e, he, hhanded⟩ := hfits.entry_of_table hr
      obtain ⟨-, hcell⟩ := Prod.mk.inj hhanded
      rw [hfits.running r e he] at hback
      exact ⟨e, he, RunPoint.cameBack_rest.mp hback, hcell⟩

end Trampoline

end CSem
