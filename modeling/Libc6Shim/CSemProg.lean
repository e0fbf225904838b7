import Libc6Shim.CSemOutcome

/-!
# Routines that call a foreign library

A C function that sits on top of another library is, from that library's
side, the calls it makes: `Prog C R α` is the tree of a routine that
returns, stops, or makes a call `c : C` and goes on with the answer in
`R c`. The tree fixes what the routine does for *every* behaviour of the
library below; a particular behaviour is an answer to each call. `run` is
the outcome under one, `calls` the calls made on the way, and `exec` is the
same with a library that keeps a state of its own.

`advance` follows a routine under a library that may keep it waiting in a
call. `Stateful` adds variables of the routine's own library, such as the
shim's statics. `Routine` adds the `errno` protocol: a foreign call either
succeeds with an answer or fails, leaving its error number in `errno` and an
answer of `none` - the `-1` of the C interface.
-/

namespace CSem

/-- A routine as the tree of the foreign calls it makes. -/
inductive Prog (C : Type) (R : C → Type) (α : Type) : Type where
  | ret (a : α)
  | stop (e : Stop)
  | call (c : C) (k : R c → Prog C R α)

namespace Prog

variable {C : Type} {R : C → Type} {α β γ : Type}

/-- Sequencing. -/
def bind : Prog C R α → (α → Prog C R β) → Prog C R β
  | .ret a, f => f a
  | .stop e, _ => .stop e
  | .call c k, f => .call c fun r => (k r).bind f

instance : Monad (Prog C R) where
  pure := .ret
  bind := bind

theorem bind_assoc (p : Prog C R α) (f : α → Prog C R β)
    (g : β → Prog C R γ) :
    (p.bind f).bind g = p.bind fun a => (f a).bind g := by
  induction p with
  | ret a => rfl
  | stop e => rfl
  | call c k ih => exact congrArg (Prog.call c) (funext ih)

theorem bind_ret (p : Prog C R α) : p.bind .ret = p := by
  induction p with
  | ret a => rfl
  | stop e => rfl
  | call c k ih => exact congrArg (Prog.call c) (funext ih)

instance : LawfulMonad (Prog C R) :=
  LawfulMonad.mk' _ bind_ret (fun _ _ => rfl) bind_assoc

/-- A computation that makes no foreign call. -/
def ofOutcome : Outcome α → Prog C R α
  | .ok a => .ret a
  | .error e => .stop e

/-! ## Outcome and calls under a given library -/

/-- The outcome when the library answers `h c` to each call `c`. -/
def run (h : (c : C) → R c) : Prog C R α → Outcome α
  | .ret a => .ok a
  | .stop e => .error e
  | .call c k => run h (k (h c))

/-- The calls made, in order, when the library answers `h c` to each call
`c`. -/
def calls (h : (c : C) → R c) : Prog C R α → List C
  | .ret _ => []
  | .stop _ => []
  | .call c k => c :: calls h (k (h c))

/-- The outcome under a library with a state of its own, and the state the
library is left in. -/
def exec {σ : Type} (h : (c : C) → σ → R c × σ) :
    Prog C R α → σ → Outcome α × σ
  | .ret a, s => (.ok a, s)
  | .stop e, s => (.error e, s)
  | .call c k, s => exec h (k (h c s).1) (h c s).2

variable {h : (c : C) → R c}

@[simp] theorem run_ret (a : α) : (ret a : Prog C R α).run h = .ok a := rfl

@[simp] theorem calls_ret (a : α) : (ret a : Prog C R α).calls h = [] := rfl

@[simp] theorem run_call (c : C) (k : R c → Prog C R α) :
    (call c k).run h = (k (h c)).run h := rfl

@[simp] theorem calls_call (c : C) (k : R c → Prog C R α) :
    (call c k).calls h = c :: (k (h c)).calls h := rfl

@[simp] theorem run_ofOutcome (x : Outcome α) :
    (ofOutcome x : Prog C R α).run h = x := by
  cases x <;> rfl

@[simp] theorem calls_ofOutcome (x : Outcome α) :
    (ofOutcome x : Prog C R α).calls h = [] := by
  cases x <;> rfl

theorem run_bind (p : Prog C R α) (f : α → Prog C R β) :
    (p >>= f).run h = p.run h >>= fun a => (f a).run h := by
  induction p with
  | ret a => rfl
  | stop e => rfl
  | call c k ih => exact ih (h c)

/-- What a first half that ended in `x` leaves to the second half: nothing,
unless it returned. -/
def ifReturns {τ : Type} (x : Outcome α) (f : α → List τ) : List τ :=
  match x with
  | .ok a => f a
  | .error _ => []

@[simp] theorem ifReturns_ok {τ : Type} (a : α) (f : α → List τ) :
    ifReturns (.ok a) f = f a := rfl

@[simp] theorem ifReturns_error {τ : Type} (e : Stop) (f : α → List τ) :
    ifReturns (.error e) f = [] := rfl

/-- The calls of a sequence: those of the first half, then - if it
returns - those of the second. -/
theorem calls_bind (p : Prog C R α) (f : α → Prog C R β) :
    (p >>= f).calls h =
      p.calls h ++ ifReturns (p.run h) fun a => (f a).calls h := by
  induction p with
  | ret a => rfl
  | stop e => rfl
  | call c k ih => exact congrArg (List.cons c) (ih (h c))

theorem exec_bind {σ : Type} {h : (c : C) → σ → R c × σ} (p : Prog C R α)
    (f : α → Prog C R β) (s : σ) :
    (p >>= f).exec h s = match p.exec h s with
      | (.ok a, s') => (f a).exec h s'
      | (.error e, s') => (.error e, s') := by
  induction p generalizing s with
  | ret a => rfl
  | stop e => rfl
  | call c k ih => exact ih _ _

/-- How far the routine gets under a library that may keep it waiting: a call
that waits has no answer, and then neither has the routine. -/
def advance {σ : Type} (h : (c : C) → σ → Option (R c) × σ) :
    Prog C R α → σ → Outcome (Option α) × σ
  | .ret a, s => (.ok (some a), s)
  | .stop e, s => (.error e, s)
  | .call c k, s =>
      match h c s with
      | (some r, s') => advance h (k r) s'
      | (none, s') => (.ok none, s')

/-- The routine as one over a larger library, which has the call `c` under
`f c`. -/
def embed {C' : Type} {R' : C' → Type} (f : C → C')
    (g : (c : C) → R' (f c) → R c) : Prog C R α → Prog C' R' α
  | .ret a => .ret a
  | .stop e => .stop e
  | .call c k => .call (f c) fun r => embed f g (k (g c r))

section Advance

variable {σ : Type} {h : (c : C) → σ → Option (R c) × σ} {c : C}
  {k : R c → Prog C R α} {s s' : σ}

theorem advance_call_of_some {r : R c} (hc : h c s = (some r, s')) :
    (call c k).advance h s = (k r).advance h s' := by
  rw [advance, hc]

theorem advance_call_of_none (hc : h c s = (none, s')) :
    (call c k).advance h s = (.ok none, s') := by
  rw [advance, hc]

/-- A sequence whose first half returns. -/
theorem advance_bind_of {p : Prog C R α} {a : α}
    (hp : p.advance h s = (.ok (some a), s')) (f : α → Prog C R β) :
    (p >>= f).advance h s = (f a).advance h s' := by
  induction p generalizing s with
  | ret b =>
      cases hp
      rfl
  | stop e => cases hp
  | call c k ih =>
      show (call c fun r => k r >>= f).advance h s = _
      rcases hc : h c s with ⟨_ | r, s₁⟩
      · rw [advance_call_of_none hc] at hp
        cases hp
      · rw [advance_call_of_some hc] at hp ⊢
        exact ih r hp

end Advance

end Prog

/-! ## Variables of the routine's own -/

/-- A routine over variables `S` of its own library. -/
abbrev Stateful (S C : Type) (R : C → Type) := StateT S (Prog C R)

namespace Stateful

variable {S C : Type} {R : C → Type} {α β σ : Type}

/-- Make the call `c`. -/
def call (c : C) : Stateful S C R (R c) := fun s =>
  .call c fun r => .ret (r, s)

/-- A computation that neither calls nor reads a variable. -/
def lift (x : Outcome α) : Stateful S C R α := fun s =>
  (Prog.ofOutcome x).bind fun a => .ret (a, s)

/-- A computation on the variables that makes no call. -/
def onState (f : S → Outcome (α × S)) : Stateful S C R α := fun s =>
  Prog.ofOutcome (f s)

/-- The outcome with the variables as they are left, under a library with a
state of its own, and the state that one is left in. -/
def exec (h : (c : C) → σ → R c × σ) (p : Stateful S C R α) (s : S) (t : σ) :
    Outcome (α × S) × σ := Prog.exec h (p s) t

variable {h : (c : C) → σ → R c × σ} {s : S} {t : σ}

@[simp] theorem exec_pure (a : α) :
    exec h (pure a : Stateful S C R α) s t = (.ok (a, s), t) := rfl

@[simp] theorem exec_bind (p : Stateful S C R α) (f : α → Stateful S C R β) :
    exec h (p >>= f) s t = match exec h p s t with
      | (.ok r, t') => exec h (f r.1) r.2 t'
      | (.error e, t') => (.error e, t') := by
  show Prog.exec h (p s >>= fun r => f r.1 r.2) t = _
  rw [Prog.exec_bind]
  unfold exec
  rcases Prog.exec h (p s) t with ⟨x, t'⟩
  cases x <;> rfl

/-- A sequence whose first half returns. -/
theorem exec_bind_of {p : Stateful S C R α} {a : α} {s' : S} {t' : σ}
    (hp : exec h p s t = (.ok (a, s'), t')) (f : α → Stateful S C R β) :
    exec h (p >>= f) s t = exec h (f a) s' t' := by
  rw [exec_bind, hp]

/-- A sequence whose first half stops. -/
theorem exec_bind_of_error {p : Stateful S C R α} {e : Stop} {t' : σ}
    (hp : exec h p s t = (.error e, t')) (f : α → Stateful S C R β) :
    exec h (p >>= f) s t = (.error e, t') := by
  rw [exec_bind, hp]

@[simp] theorem exec_call (c : C) :
    exec h (call c : Stateful S C R (R c)) s t =
      (.ok ((h c t).1, s), (h c t).2) := rfl

@[simp] theorem exec_lift (x : Outcome α) :
    exec h (lift x : Stateful S C R α) s t =
      (x >>= fun a => .ok (a, s), t) := by
  cases x <;> rfl

@[simp] theorem exec_onState (f : S → Outcome (α × S)) :
    exec h (onState f : Stateful S C R α) s t = (f s, t) := by
  rw [exec, onState]
  cases f s <;> rfl

@[simp] theorem exec_get :
    exec h (get : Stateful S C R S) s t = (.ok (s, s), t) := rfl

@[simp] theorem exec_modify (f : S → S) :
    exec h (modify f : Stateful S C R PUnit) s t = (.ok (⟨⟩, f s), t) := rfl

end Stateful

/-! ## The `errno` protocol -/

/-- An error number. -/
abbrev Errno := Int

/-- A routine whose foreign calls report failure through `errno`: a call
answers with its result or with the error number it fails with. -/
abbrev Routine (C : Type) (A : C → Type) :=
  StateT Errno (Prog C fun c => Except Errno (A c))

namespace Routine

variable {C : Type} {A : C → Type} {α β : Type}

/-- Make the call `c`. A failing call stores its error number in `errno` and
gives `none`, the C interface's `-1`; a call that succeeds leaves `errno`
alone. -/
def native (c : C) : Routine C A (Option (A c)) := fun errno =>
  .call c fun
    | .ok a => .ret (some a, errno)
    | .error e => .ret (none, e)

instance : MonadLift Outcome (Routine C A) where
  monadLift x := fun errno => (Prog.ofOutcome x).bind fun a => .ret (a, errno)

/-- The outcome, with the final `errno`, when the library answers `h c` to
each call `c` and `errno` is `e` at the start. -/
def run (h : (c : C) → Except Errno (A c)) (p : Routine C A α) (e : Errno) :
    Outcome (α × Errno) := Prog.run h (p e)

/-- The foreign calls made. -/
def calls (h : (c : C) → Except Errno (A c)) (p : Routine C A α)
    (e : Errno) : List C := Prog.calls h (p e)

variable {h : (c : C) → Except Errno (A c)} {e : Errno}

@[simp] theorem run_pure (a : α) :
    run h (pure a : Routine C A α) e = .ok (a, e) := rfl

@[simp] theorem calls_pure (a : α) :
    calls h (pure a : Routine C A α) e = [] := rfl

@[simp] theorem run_bind (p : Routine C A α) (f : α → Routine C A β) :
    run h (p >>= f) e = run h p e >>= fun r => run h (f r.1) r.2 :=
  Prog.run_bind (p e) fun r => f r.1 r.2

@[simp] theorem calls_bind (p : Routine C A α) (f : α → Routine C A β) :
    calls h (p >>= f) e = calls h p e ++
      Prog.ifReturns (run h p e) fun r => calls h (f r.1) r.2 :=
  Prog.calls_bind (p e) fun r => f r.1 r.2

@[simp] theorem run_map (g : α → β) (p : Routine C A α) :
    run h (g <$> p) e = run h p e >>= fun r => .ok (g r.1, r.2) := by
  rw [← bind_pure_comp, run_bind]
  rfl

@[simp] theorem calls_map (g : α → β) (p : Routine C A α) :
    calls h (g <$> p) e = calls h p e := by
  rw [← bind_pure_comp, calls_bind]
  cases run h p e <;> simp

@[simp] theorem run_lift (x : Outcome α) :
    run h (liftM x : Routine C A α) e = x >>= fun a => .ok (a, e) := by
  cases x <;> rfl

@[simp] theorem calls_lift (x : Outcome α) :
    calls h (liftM x : Routine C A α) e = [] := by
  cases x <;> rfl

@[simp] theorem run_native (c : C) :
    run h (native c) e = match h c with
      | .ok a => .ok (some a, e)
      | .error e' => .ok (none, e') := by
  unfold run native Prog.run
  cases h c <;> rfl

@[simp] theorem calls_native (c : C) : calls h (native c) e = [c] := by
  unfold calls native Prog.calls
  cases h c <;> rfl

@[simp] theorem run_get : run h (get : Routine C A Errno) e = .ok (e, e) := rfl

@[simp] theorem calls_get : calls h (get : Routine C A Errno) e = [] := rfl

@[simp] theorem run_set (e' : Errno) :
    run h (set e' : Routine C A PUnit) e = .ok (⟨⟩, e') := rfl

@[simp] theorem calls_set (e' : Errno) :
    calls h (set e' : Routine C A PUnit) e = [] := rfl

@[simp] theorem run_modify (f : Errno → Errno) :
    run h (modify f : Routine C A PUnit) e = .ok (⟨⟩, f e) := rfl

@[simp] theorem calls_modify (f : Errno → Errno) :
    calls h (modify f : Routine C A PUnit) e = [] := rfl

/-- The routine as one over a larger library, which has the call `c` under
`f c`. -/
def embed {C' : Type} {A' : C' → Type} (f : C → C')
    (g : (c : C) → A' (f c) → A c) (p : Routine C A α) : Routine C' A' α :=
  fun e => (p e).embed f fun c r => r.map (g c)

/-- `p` and `q` come to the same result and error number, by the same calls
as far as `view` tells calls apart. -/
def Alike {τ : Type} (view : C → τ) (h : (c : C) → Except Errno (A c))
    (e : Errno) (p q : Routine C A α) : Prop :=
  (calls h p e).map view = (calls h q e).map view ∧ run h p e = run h q e

/-- A call made behind a computation is one its result leads to. -/
theorem mem_calls_lift_bind {x : Outcome α} {f : α → Routine C A β} {c : C}
    (hc : c ∈ calls h (liftM x >>= f) e) :
    ∃ a, x = .ok a ∧ c ∈ calls h (f a) e := by
  rw [calls_bind, calls_lift, run_lift, List.nil_append] at hc
  cases x with
  | error e' => cases hc
  | ok a => exact ⟨a, rfl, hc⟩

/-! ### Under a library with a state of its own -/

section Exec

variable {σ : Type} {h : (c : C) → σ → Except Errno (A c) × σ} {e : Errno}
  {s : σ}

/-- The outcome under a library with a state, and the state it is left
in. -/
def exec (h : (c : C) → σ → Except Errno (A c) × σ) (p : Routine C A α)
    (e : Errno) (s : σ) : Outcome (α × Errno) × σ := Prog.exec h (p e) s

@[simp] theorem exec_pure (a : α) :
    exec h (pure a : Routine C A α) e s = (.ok (a, e), s) := rfl

@[simp] theorem exec_bind (p : Routine C A α) (f : α → Routine C A β) :
    exec h (p >>= f) e s = match exec h p e s with
      | (.ok r, s') => exec h (f r.1) r.2 s'
      | (.error x, s') => (.error x, s') := by
  show Prog.exec h (p e >>= fun r => f r.1 r.2) s = _
  rw [Prog.exec_bind]
  unfold exec
  rcases Prog.exec h (p e) s with ⟨x, s'⟩
  cases x <;> rfl

@[simp] theorem exec_lift (x : Outcome α) :
    exec h (liftM x : Routine C A α) e s =
      (x >>= fun a => .ok (a, e), s) := by
  cases x <;> rfl

@[simp] theorem exec_native (c : C) :
    exec h (native c) e s = match h c s with
      | (.ok a, s') => (.ok (some a, e), s')
      | (.error e', s') => (.ok (none, e'), s') := by
  unfold exec native Prog.exec
  rcases h c s with ⟨r, s'⟩
  cases r <;> rfl

end Exec

/-! ### Where the error number of a failing call ends up -/

/-- The routine makes no foreign call. -/
def Silent (p : Routine C A α) : Prop := ∀ h e, calls h p e = []

theorem silent_pure (a : α) : Silent (pure a : Routine C A α) :=
  fun _ _ => rfl

theorem silent_lift (x : Outcome α) : Silent (liftM x : Routine C A α) :=
  fun _ _ => calls_lift x

theorem silent_bind {p : Routine C A α} {f : α → Routine C A β}
    (hp : Silent p) (hf : ∀ a, Silent (f a)) : Silent (p >>= f) := by
  intro h e
  rw [calls_bind, hp h e, List.nil_append]
  cases run h p e with
  | error e' => rfl
  | ok r => exact hf r.1 h r.2

/-- When a call the routine makes fails with `e`, the routine returns - with
a result in `Failed` - and leaves `T e` in `errno`. -/
def Delivers (T : Errno → Errno) (Failed : α → Prop) (p : Routine C A α) :
    Prop :=
  ∀ h e₀ c e, c ∈ calls h p e₀ → h c = .error e →
    ∃ a, run h p e₀ = .ok (a, T e) ∧ Failed a

section Delivers

variable {T : Errno → Errno} {Failed : α → Prop}

theorem Delivers.of_silent {p : Routine C A α} (hp : Silent p) :
    Delivers T Failed p := by
  intro h e₀ c e hc
  rw [hp h e₀] at hc
  cases hc

/-- A computation in front changes nothing. -/
theorem Delivers.lift_bind (x : Outcome β) {f : β → Routine C A α}
    (hf : ∀ b, Delivers T Failed (f b)) : Delivers T Failed (liftM x >>= f) := by
  intro h e₀ c e hc he
  cases x with
  | error e' =>
      rw [calls_bind, calls_lift, run_lift] at hc
      cases hc
  | ok b =>
      rw [calls_bind, calls_lift, run_lift] at hc
      rw [run_bind, run_lift]
      exact hf b h e₀ c e hc he

/-- A call and what is done with its answer: nothing more is called, and
the handler of a failure says what becomes of the error number. -/
theorem Delivers.native_bind (c : C) {k : Option (A c) → Routine C A α}
    (hk : ∀ r, Silent (k r))
    (hfail : ∀ h e, ∃ a, run h (k none) e = .ok (a, T e) ∧ Failed a) :
    Delivers T Failed (native c >>= k) := by
  intro h e₀ d e hd he
  rw [calls_bind, calls_native, run_native] at hd
  rw [run_bind, run_native]
  rcases List.mem_append.mp hd with hd | hd
  · obtain rfl := List.mem_singleton.mp hd
    rw [he]
    exact hfail h e
  · cases hc : h c with
    | error e' =>
        rw [hc, Prog.ifReturns_ok, hk none h e'] at hd
        cases hd
    | ok r =>
        rw [hc, Prog.ifReturns_ok, hk (some r) h e₀] at hd
        cases hd

theorem Delivers.map {p : Routine C A α} {Failed' : β → Prop} {g : α → β}
    (hp : Delivers T Failed p) (hg : ∀ a, Failed a → Failed' (g a)) :
    Delivers T Failed' (g <$> p) := by
  intro h e₀ c e hc he
  rw [← bind_pure_comp, calls_bind] at hc
  rw [← bind_pure_comp, run_bind]
  have hmem : c ∈ calls h p e₀ := by
    rcases List.mem_append.mp hc with hc | hc
    · exact hc
    · cases hrun : run h p e₀ with
      | error e' => rw [hrun] at hc; cases hc
      | ok r => rw [hrun] at hc; cases hc
  obtain ⟨a, hrun, hfailed⟩ := hp h e₀ c e hmem he
  rw [hrun]
  exact ⟨g a, rfl, hg a hfailed⟩

/-- A bare call leaves the error number as it is. -/
theorem Delivers.native (c : C) :
    Delivers id (· = none) (native c : Routine C A (Option (A c))) := by
  have h : Delivers id (· = none)
      (Routine.native c >>= pure : Routine C A (Option (A c))) :=
    Delivers.native_bind c silent_pure fun _ e => ⟨none, rfl, rfl⟩
  rwa [bind_pure] at h

end Delivers

end Routine

end CSem
