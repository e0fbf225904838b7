import Libc6Shim.CSemOutcome
import Libc6Shim.CSemTraces

/-!
# Systems that are called

A state and the calls that are made on it, one after the other: `exec` says
what a call returns and what it makes of the state, or that the process does
not come back from it. Two such systems whose states are related in a way that
calls keep, with the same answers, have the same traces
(`traces_iff_of_matches`).
-/

namespace CSem

variable {C ρ σ τ ν : Type}

/-- A call and what it comes to. A process that is stopped has no state. -/
inductive CallStep (exec : C → σ → Outcome (ρ × σ)) :
    Option σ → C × Outcome ρ → Option σ → Prop where
  | returns {c : C} {s s' : σ} {r : ρ} : exec c s = .ok (r, s') →
      CallStep exec (some s) (c, .ok r) (some s')
  | stops {c : C} {s : σ} {e : Stop} : exec c s = .error e →
      CallStep exec (some s) (c, .error e) none

/-- A process begins in a state of which `P` holds. -/
def Begins (P : σ → Prop) (s : Option σ) : Prop := ∃ s₀, s = some s₀ ∧ P s₀

/-- The same comes of two calls, as far as `R` tells the states apart. -/
def Matches (R : σ → τ → Prop) (x : Outcome (ρ × σ)) (y : Outcome (ρ × τ)) : Prop :=
  match x, y with
  | .ok (r, s), .ok (r', t) => r = r' ∧ R s t
  | .error e, .error e' => e = e'
  | _, _ => False

theorem Matches.symm {R : σ → τ → Prop} {x : Outcome (ρ × σ)} {y : Outcome (ρ × τ)}
    (h : Matches R x y) : Matches (fun t s => R s t) y x := by
  cases x <;> cases y
  · exact Eq.symm h
  · exact h
  · exact h
  · exact ⟨h.1.symm, h.2⟩

section Rule

variable {exec : C → σ → Outcome (ρ × σ)} {exec' : C → τ → Outcome (ρ × τ)}
  {P : σ → Prop} {Q : τ → Prop} {R : σ → τ → Prop}

theorem simulates_of_matches (hstart : ∀ s, P s → ∃ t, Q t ∧ R s t)
    (hexec : ∀ c s t, R s t → Matches R (exec c s) (exec' c t))
    (view : C × Outcome ρ → Option ν) :
    Simulates (Begins P) (CallStep exec) view (Begins Q) (CallStep exec') view
      (Option.Rel R) where
  start := by
    rintro _ ⟨s, rfl, hs⟩
    obtain ⟨t, ht, hR⟩ := hstart s hs
    exact ⟨some t, ⟨t, rfl, ht⟩, .some hR⟩
  step := by
    -- what the second system does in the same call
    have hone : ∀ {t : Option τ} {e : C × Outcome ρ} {t' : Option τ},
        CallStep exec' t e t' → Shows (CallStep exec') view t (view e).toList t' := by
      intro t e t' hstep
      cases hv : view e with
      | none => exact Shows.refl.hidden hstep hv
      | some v => exact Shows.refl.seen hstep hv
    intro s e s' t hR hstep
    cases hstep with
    | @returns c s s' r hs =>
        cases hR with
        | @some s t hR =>
            have hmatch := hexec c s t hR
            rw [hs] at hmatch
            cases ht : exec' c t with
            | error e =>
                rw [ht] at hmatch
                exact hmatch.elim
            | ok x =>
                obtain ⟨r', t'⟩ := x
                rw [ht] at hmatch
                obtain ⟨rfl, hR'⟩ := hmatch
                exact ⟨some t', hone (.returns ht), .some hR'⟩
    | @stops c s e hs =>
        cases hR with
        | @some s t hR =>
            have hmatch := hexec c s t hR
            rw [hs] at hmatch
            cases ht : exec' c t with
            | error e' =>
                rw [ht] at hmatch
                obtain rfl : e = e' := hmatch
                exact ⟨none, hone (.stops ht), .none⟩
            | ok x =>
                rw [ht] at hmatch
                exact hmatch.elim

/-- The rule: related starts, and calls that keep the relation. -/
theorem traces_iff_of_matches (hstart : ∀ s, P s → ∃ t, Q t ∧ R s t)
    (hstart' : ∀ t, Q t → ∃ s, P s ∧ R s t)
    (hexec : ∀ c s t, R s t → Matches R (exec c s) (exec' c t))
    (view : C × Outcome ρ → Option ν) (tr : List ν) :
    Traces (Begins P) (CallStep exec) view tr ↔
      Traces (Begins Q) (CallStep exec') view tr :=
  ⟨(simulates_of_matches hstart hexec view).traces,
    (simulates_of_matches hstart' (fun c t s hR => (hexec c s t hR).symm) view).traces⟩

end Rule

end CSem
