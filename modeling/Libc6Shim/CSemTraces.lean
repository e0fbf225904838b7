import Libc6Shim.CSemSystem

/-!
# Traces, and when one system has those of another

Of the events of a system some are seen from outside: `view` says what is
seen of an event, if anything is. The traces of a system are what is seen of
its runs. `Simulates R` is forward simulation: whatever a step of the first
system does, the second does in some number of steps of its own that look
the same. Then every trace of the first is one of the second
(`Simulates.traces`), and two systems that simulate each other have the same
traces.
-/

namespace CSem

variable {σ τ ε δ ν : Type}

/-- What is seen of a run that begins in `start`. -/
def Traces (start : σ → Prop) (step : σ → ε → σ → Prop) (view : ε → Option ν)
    (tr : List ν) : Prop :=
  ∃ es s, Runs start step es s ∧ es.filterMap view = tr

/-- The steps from `s` to `s'`, of which `tr` is seen. -/
def Shows (step : σ → ε → σ → Prop) (view : ε → Option ν) (s : σ) (tr : List ν)
    (s' : σ) : Prop :=
  ∃ es, Runs (· = s) step es s' ∧ es.filterMap view = tr

namespace Shows

variable {step : σ → ε → σ → Prop} {view : ε → Option ν} {s s' s'' : σ}
  {tr tr' : List ν} {e : ε}

theorem refl : Shows step view s [] s := ⟨[], .nil rfl, rfl⟩

/-- A further step that is seen. -/
theorem seen (hshows : Shows step view s tr s') (hstep : step s' e s'')
    {v : ν} (hv : view e = some v) : Shows step view s (tr ++ [v]) s'' := by
  obtain ⟨es, hrun, rfl⟩ := hshows
  refine ⟨es ++ [e], hrun.snoc hstep, ?_⟩
  rw [List.filterMap_append, List.filterMap_cons_some hv, List.filterMap_nil]

/-- A further step that is not. -/
theorem hidden (hshows : Shows step view s tr s') (hstep : step s' e s'')
    (hv : view e = none) : Shows step view s tr s'' := by
  obtain ⟨es, hrun, rfl⟩ := hshows
  refine ⟨es ++ [e], hrun.snoc hstep, ?_⟩
  rw [List.filterMap_append, List.filterMap_cons_none hv, List.filterMap_nil,
    List.append_nil]

end Shows

/-- Each step of the first system can be followed by the second, which shows
the same, and `R` holds again. -/
structure Simulates (start : σ → Prop) (step : σ → ε → σ → Prop)
    (view : ε → Option ν) (start' : τ → Prop) (step' : τ → δ → τ → Prop)
    (view' : δ → Option ν) (R : σ → τ → Prop) : Prop where
  start : ∀ s, start s → ∃ t, start' t ∧ R s t
  step : ∀ s e s' t, R s t → step s e s' →
    ∃ t', Shows step' view' t (view e).toList t' ∧ R s' t'

namespace Simulates

variable {start : σ → Prop} {step : σ → ε → σ → Prop} {view : ε → Option ν}
  {start' : τ → Prop} {step' : τ → δ → τ → Prop} {view' : δ → Option ν}
  {R : σ → τ → Prop}

/-- The induction over the run. -/
theorem follows (hsim : Simulates start step view start' step' view' R)
    {es : List ε} {s : σ} (hrun : Runs start step es s) :
    ∃ ds t, Runs start' step' ds t ∧ ds.filterMap view' = es.filterMap view ∧
      R s t := by
  induction hrun with
  | nil hs =>
      obtain ⟨t, ht, hR⟩ := hsim.start _ hs
      exact ⟨[], t, .nil ht, rfl, hR⟩
  | @snoc es s s' e _ hstep ih =>
      obtain ⟨ds, t, hrun', hseen, hR⟩ := ih
      obtain ⟨t', ⟨ds', hpath, hshown⟩, hR'⟩ := hsim.step _ _ _ _ hR hstep
      refine ⟨ds ++ ds', t', hrun'.append hpath, ?_, hR'⟩
      have hone : [e].filterMap view = (view e).toList := by
        cases hv : view e with
        | none => rw [List.filterMap_cons_none hv]; rfl
        | some v => rw [List.filterMap_cons_some hv]; rfl
      rw [List.filterMap_append, List.filterMap_append, hseen, hshown, hone]

/-- What is seen of the first system is seen of the second. -/
theorem traces (hsim : Simulates start step view start' step' view' R)
    {tr : List ν} (htr : Traces start step view tr) :
    Traces start' step' view' tr := by
  obtain ⟨es, s, hrun, rfl⟩ := htr
  obtain ⟨ds, t, hrun', hseen, -⟩ := hsim.follows hrun
  exact ⟨ds, t, hrun', hseen⟩

end Simulates

end CSem
