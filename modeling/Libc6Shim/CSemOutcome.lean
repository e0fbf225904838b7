import Mathlib

/-!
# Outcomes of C code

A run of a C function ends in one of two ways: it returns, or it *stops*.
It stops by `abort()` (a failed `assert`), or because it touched memory
outside the object it was given - undefined behaviour, kept apart from an
abort because the two are different promises - or because a loop is still
going when its budget of rounds is spent. `Outcome` is the `Except` monad
over those reasons, so a C body reads as a `do` block whose `assert`s are
`require`s.

Loops are `rounds body n`: a body that either goes round again or leaves,
run for at most `n` rounds. The budget is an artefact of the embedding.
`rounds_rule` discharges it: a measure that drops on every round gives total
correctness for every budget above it. In the other direction a state the
loop reaches decides its fate: if the body stops there, so does the loop
(`rounds_of_reaches_error`), and if the body goes round there for ever, the
loop spins whatever the budget (`rounds_of_reaches_cycle`).
-/

namespace CSem

/-- Why a run of C code does not return. -/
inductive Stop where
  /-- `abort()`, or an `assert` that fails. -/
  | abort
  /-- An access outside an object or through a null pointer. -/
  | fault
  /-- A loop that is still going when its rounds are spent. -/
  | spin
deriving Repr, DecidableEq

/-- What a run of C code comes to. -/
abbrev Outcome := Except Stop

namespace Outcome

variable {α β σ : Type}

@[simp] theorem pure_eq (a : α) : (pure a : Outcome α) = .ok a := rfl

@[simp] theorem ok_bind (a : α) (f : α → Outcome β) :
    ((.ok a : Outcome α) >>= f) = f a := rfl

@[simp] theorem error_bind (e : Stop) (f : α → Outcome β) :
    ((.error e : Outcome α) >>= f) = .error e := rfl

/-- The inversion rule for sequencing: a sequence returns only if both
halves do. -/
theorem bind_eq_ok {x : Outcome α} {f : α → Outcome β} {b : β} :
    (x >>= f) = .ok b ↔ ∃ a, x = .ok a ∧ f a = .ok b := by
  cases x with
  | error e => simp
  | ok a => simp

/-- Why a run stopped, if it did. -/
def stopped : Outcome α → Option Stop
  | .ok _ => none
  | .error e => some e

/-! ## Assertions -/

/-- `assert(p)`. -/
def require (p : Prop) [Decidable p] : Outcome Unit :=
  if p then .ok () else .error .abort

theorem require_of {p : Prop} [Decidable p] (h : p) : require p = .ok () :=
  if_pos h

theorem require_of_not {p : Prop} [Decidable p] (h : ¬p) :
    require p = .error .abort := if_neg h

@[simp] theorem require_eq_ok {p : Prop} [Decidable p] {u : Unit} :
    require p = .ok u ↔ p := by
  by_cases h : p
  · exact iff_of_true (require_of h) h
  · exact iff_of_false (by rw [require_of_not h]; exact nofun) h

/-- A sequence stops only for a reason one of its halves stops for. -/
theorem stopped_bind_ne {x : Outcome α} {f : α → Outcome β} {e : Stop}
    (hx : x.stopped ≠ some e) (hf : ∀ a, (f a).stopped ≠ some e) :
    (x >>= f).stopped ≠ some e := by
  cases x with
  | error e' => exact hx
  | ok a => exact hf a

theorem stopped_require_ne {p : Prop} [Decidable p] {e : Stop}
    (he : e ≠ .abort) : (require p).stopped ≠ some e := by
  by_cases hp : p
  · rw [require_of hp]
    exact nofun
  · rw [require_of_not hp]
    exact fun h => he (Option.some.inj h).symm

/-! ## Loops -/

/-- At most `n` rounds of a loop. The body answers `inl` to go round again
with a new state and `inr` to leave with a result. -/
def rounds (body : σ → Outcome (σ ⊕ β)) : Nat → σ → Outcome β
  | 0, _ => .error .spin
  | n + 1, s => do
      match ← body s with
      | .inl s' => rounds body n s'
      | .inr b => .ok b

/-- `body` takes `s` round again to `s'`. -/
def GoesTo (body : σ → Outcome (σ ⊕ β)) (s s' : σ) : Prop :=
  body s = .ok (.inl s')

section Rounds

variable {body : σ → Outcome (σ ⊕ β)} {n : Nat} {s s' : σ} {b : β} {e : Stop}

theorem rounds_of_goesTo (h : GoesTo body s s') :
    rounds body (n + 1) s = rounds body n s' := by
  simp only [rounds, show body s = .ok (.inl s') from h, ok_bind]

theorem rounds_of_leaves (h : body s = .ok (.inr b)) :
    rounds body (n + 1) s = .ok b := by
  simp only [rounds, h, ok_bind]

theorem rounds_of_error (h : body s = .error e) :
    rounds body (n + 1) s = .error e := by
  simp only [rounds, h, error_bind]

/-- The loop rule, for total correctness: if from every state in `I` the body
goes round again to a state in `I` with a smaller measure, leaves with a
result in `Q`, or stops for a reason in `P`, then so does the whole loop -
whatever the budget, as long as it exceeds the measure. -/
theorem rounds_rule (I : σ → Prop) (μ : σ → Nat) (Q : β → Prop)
    (P : Stop → Prop)
    (hbody : ∀ s, I s →
      (∃ s', GoesTo body s s' ∧ I s' ∧ μ s' < μ s)
        ∨ (∃ b, body s = .ok (.inr b) ∧ Q b)
        ∨ ∃ e, body s = .error e ∧ P e) :
    ∀ n s, I s → μ s < n →
      (∃ b, rounds body n s = .ok b ∧ Q b)
        ∨ ∃ e, rounds body n s = .error e ∧ P e := by
  intro n
  induction n with
  | zero => intro s _ hn; exact absurd hn (Nat.not_lt_zero _)
  | succ n ih =>
      intro s hI hn
      rcases hbody s hI with ⟨s', hgo, hI', hlt⟩ | ⟨b, hb, hQ⟩ | ⟨e, he, hP⟩
      · rw [rounds_of_goesTo hgo]
        exact ih s' hI' (by omega)
      · exact .inl ⟨b, rounds_of_leaves hb, hQ⟩
      · exact .inr ⟨e, rounds_of_error he, hP⟩

/-- A loop that reaches a state where its body stops does not get past
it. -/
theorem rounds_of_reaches_error
    (hreach : Relation.ReflTransGen (GoesTo body) s s')
    (hs' : body s' = .error e) (n : Nat) :
    rounds body n s = .error e ∨ rounds body n s = .error .spin := by
  induction hreach using Relation.ReflTransGen.head_induction_on generalizing n with
  | refl =>
      cases n with
      | zero => exact .inr rfl
      | succ n => exact .inl (rounds_of_error hs')
  | head hgo _ ih =>
      cases n with
      | zero => exact .inr rfl
      | succ n => rw [rounds_of_goesTo hgo]; exact ih n

/-- A loop that reaches a set of states its body never takes it out of
spins. -/
theorem rounds_of_reaches_cycle (I : σ → Prop)
    (hreach : Relation.ReflTransGen (GoesTo body) s s') (hs' : I s')
    (hcycle : ∀ t, I t → ∃ t', GoesTo body t t' ∧ I t') (n : Nat) :
    rounds body n s = .error .spin := by
  induction hreach using Relation.ReflTransGen.head_induction_on generalizing n with
  | refl =>
      induction n generalizing s' with
      | zero => rfl
      | succ n ih =>
          obtain ⟨t', hgo, ht'⟩ := hcycle s' hs'
          rw [rounds_of_goesTo hgo]
          exact ih ht'
  | head hgo _ ih =>
      cases n with
      | zero => rfl
      | succ n => rw [rounds_of_goesTo hgo]; exact ih n

end Rounds

end Outcome

end CSem
