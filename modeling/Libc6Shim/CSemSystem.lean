import Mathlib

/-!
# Runs of a transition system

A system starts in a state in `start` and moves by `step`, which says what
an event may do to a state. `Runs start step es s` is a run: the events `es`
one after the other, and the state `s` they end in. `Runs.invariant` is the
induction every safety theorem over runs goes through: what holds at the
start and is kept by each step holds at the end of every run, and may speak
of the events as well as of the state.

A system may also be unable to take an event. `Throughout step P past s es`
follows the events `es` as far as they are taken, and says `P` of each in
the state it meets. `throughout_congr` and `Runs.throughout_iff` are the rules
by which what is said of one event - in a state of an invariant, or in a
reachable one - is said of all the events of a run.
-/

namespace CSem

variable {σ ε : Type} {start : σ → Prop} {step : σ → ε → σ → Prop}

/-- The runs of a system, by the events they are made of. -/
inductive Runs (start : σ → Prop) (step : σ → ε → σ → Prop) :
    List ε → σ → Prop where
  | nil {s : σ} : start s → Runs start step [] s
  | snoc {es : List ε} {s s' : σ} {e : ε} : Runs start step es s →
      step s e s' → Runs start step (es ++ [e]) s'

/-- `P` holds of each event of `es` in the state it meets, with the events
before it; `past` came before the first, which meets `s`. -/
def Throughout (step : σ → ε → σ → Prop) (P : List ε → σ → ε → Prop) :
    List ε → σ → List ε → Prop
  | _, _, [] => True
  | past, s, e :: es =>
      P past s e ∧ ∀ s', step s e s' → Throughout step P (past ++ [e]) s' es

/-- In a run whose events are legal, what is said of them may be replaced by
what comes to the same under an invariant, which the events it is said of
keep. -/
theorem throughout_congr {I : List ε → σ → Prop}
    {Legal P Q : List ε → σ → ε → Prop}
    (hiff : ∀ past s e, I past s → Legal past s e → (P past s e ↔ Q past s e))
    (hkeep : ∀ past s e s', I past s → Legal past s e → P past s e →
      step s e s' → I (past ++ [e]) s')
    {past es : List ε} {s : σ} (hs : I past s)
    (hlegal : Throughout step Legal past s es) :
    Throughout step P past s es ↔ Throughout step Q past s es := by
  induction es generalizing past s with
  | nil => exact Iff.rfl
  | cons e es ih =>
      obtain ⟨hl, hlegal⟩ := hlegal
      constructor
      · rintro ⟨hp, hrest⟩
        exact ⟨(hiff past s e hs hl).mp hp, fun s' hstep =>
          (ih (hkeep past s e s' hs hl hp hstep) (hlegal s' hstep)).mp
            (hrest s' hstep)⟩
      · rintro ⟨hq, hrest⟩
        have hp := (hiff past s e hs hl).mpr hq
        exact ⟨hp, fun s' hstep =>
          (ih (hkeep past s e s' hs hl hp hstep) (hlegal s' hstep)).mpr
            (hrest s' hstep)⟩

/-- What is said of an event and its state alone may come after anything. -/
theorem throughout_past {P : σ → ε → Prop} (past past' : List ε) {s : σ}
    {es : List ε} (h : Throughout step (fun _ => P) past s es) :
    Throughout step (fun _ => P) past' s es := by
  induction es generalizing past past' s with
  | nil => trivial
  | cons e es ih => exact ⟨h.1, fun s' hstep => ih _ _ (h.2 s' hstep)⟩

/-- So may what is said of each of the events. -/
theorem throughout_of_mem {P : ε → Prop} (past : List ε) (s : σ) {es : List ε}
    (h : ∀ e ∈ es, P e) : Throughout step (fun _ _ => P) past s es := by
  induction es generalizing past s with
  | nil => trivial
  | cons e es ih =>
      rw [List.forall_mem_cons] at h
      exact ⟨h.1, fun s' _ => ih _ s' h.2⟩

/-- What holds of every event holds throughout. -/
theorem throughout_of_forall {P : List ε → σ → ε → Prop}
    (h : ∀ past s e, P past s e) (past : List ε) (s : σ) (es : List ε) :
    Throughout step P past s es := by
  induction es generalizing past s with
  | nil => trivial
  | cons e es ih => exact ⟨h past s e, fun s' _ => ih _ s'⟩

namespace Runs

/-- The invariant rule. -/
theorem invariant {I : List ε → σ → Prop} (hstart : ∀ s, start s → I [] s)
    (hstep : ∀ es s e s', Runs start step es s → I es s → step s e s' →
      I (es ++ [e]) s') {es : List ε} {s : σ} (hrun : Runs start step es s) :
    I es s := by
  induction hrun with
  | nil hs => exact hstart _ hs
  | snoc hrun hs ih => exact hstep _ _ _ _ hrun ih hs

/-- A run from where another one ended continues it. -/
theorem append {es es' : List ε} {s s' : σ} (hrun : Runs start step es s)
    (hrun' : Runs (· = s) step es' s') : Runs start step (es ++ es') s' := by
  induction hrun' with
  | nil hs =>
      rw [hs, List.append_nil]
      exact hrun
  | snoc _ hs ih =>
      rw [← List.append_assoc]
      exact ih.snoc hs

/-- What each step from a reachable state keeps, every run from one does. -/
theorem keeps {κ : Type} {f : σ → κ} {P : κ → Prop}
    (hstep : ∀ es s e s', Runs start step es s → step s e s' → P (f s) →
      f s' = f s) {es es' : List ε} {s s' : σ} (hrun : Runs start step es s)
    (hrun' : Runs (· = s) step es' s') (hP : P (f s)) : f s' = f s := by
  induction hrun' with
  | nil hs => rw [hs]
  | snoc hrun'' hs ih =>
      rw [← ih]
      exact hstep _ _ _ _ (hrun.append hrun'') hs (ih ▸ hP)

/-- The rule for whole runs: if in every reachable state the legal events
that go well are those that are allowed, and an event that goes well is
taken, then a legal run goes well exactly if every event in it is allowed. -/
theorem throughout_iff {Legal Well : List ε → σ → ε → Prop}
    (Allowed : List ε → ε → Prop)
    (hiff : ∀ past s e, Runs start step past s → Legal past s e →
      (Well past s e ↔ Allowed past e))
    (htaken : ∀ past s e, Runs start step past s → Legal past s e →
      Well past s e → ∃ s', step s e s')
    {past es : List ε} {s : σ} (hrun : Runs start step past s)
    (hlegal : Throughout step Legal past s es) :
    Throughout step Well past s es ↔
      ∀ es₁ e es₂, es = es₁ ++ e :: es₂ → Allowed (past ++ es₁) e := by
  induction es generalizing past s with
  | nil =>
      refine iff_of_true trivial fun es₁ e es₂ heq => ?_
      exact absurd heq.symm (by simp)
  | cons e es ih =>
      obtain ⟨hl, hrest⟩ := hlegal
      constructor
      · rintro ⟨hwell, hwells⟩ es₁ e' es₂ heq
        cases es₁ with
        | nil =>
            obtain ⟨rfl, rfl⟩ := List.cons.inj heq
            rw [List.append_nil]
            exact (hiff past s e hrun hl).mp hwell
        | cons e₁ es₁ =>
            obtain ⟨rfl, htail⟩ := List.cons.inj heq
            obtain ⟨s', hs⟩ := htaken past s e hrun hl hwell
            have hallowed := (ih (hrun.snoc hs) (hrest s' hs)).mp (hwells s' hs)
            rw [← List.singleton_append, ← List.append_assoc]
            exact hallowed es₁ e' es₂ htail
      · intro hallowed
        have hfirst := hallowed [] e es rfl
        rw [List.append_nil] at hfirst
        refine ⟨(hiff past s e hrun hl).mpr hfirst, fun s' hs => ?_⟩
        refine (ih (hrun.snoc hs) (hrest s' hs)).mpr fun es₁ e' es₂ heq => ?_
        rw [List.append_assoc, List.singleton_append]
        exact hallowed (e :: es₁) e' es₂ (congrArg (e :: ·) heq)

end Runs

end CSem
