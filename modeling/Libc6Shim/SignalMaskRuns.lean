import Libc6Shim.SignalSets

/-!
# What becomes of signal masks

Of all the signals of the native system, not only of those the shim accepts.
A mask that was saved and is set again is the one it was, whatever was done
in between (`mask_restored`): a thread's mask never has a signal in it that
the kernel would take out. And two signals that Linux code has no number for
are always blocked together (`unnamed_alike`): it can fill a set and empty
one, and no more. Only the kernel tells two such signals apart, as `SIGSTOP`,
which cannot be blocked, and `SIGBUS`.

Both go by what a call may change (`Changed`).
-/

namespace Libc6Shim

open CSem Outcome

/-! ## What a call changes -/

/-- The sets a call may write. -/
def MaskCall.Writes : MaskCall → Ptr → Prop
  | .sigemptyset set, p | .sigfillset set, p | .sigpending set, p => p = set
  | .sigaddset set _, p | .sigdelset set _, p => p = set
  | .sigismember .., _ => False
  | .sigprocmask _ _ oset, p | .pthreadSigmask _ _ oset, p => p ∈ oset

def MaskEvent.Writes : MaskEvent → Ptr → Prop
  | .call _ c _ _, p => c.Writes p
  | .spawn .., _ => False

/-- What becomes of a set. -/
inductive SetChange (pending w : Sigset) : Sigset → Prop where
  | empty : SetChange pending w 0
  | fill : SetChange pending w (BitVec.allOnes 128)
  | pending : SetChange pending w pending
  | add {n : Int} : SignalAccepted n → SetChange pending w (w ||| sigBit n)
  | del {n : Int} : SignalAccepted n → SetChange pending w (w &&& ~~~sigBit n)

/-- What becomes of a mask. -/
inductive MaskChange (cant : Sigset) (sets : Ptr → LinuxSigset) (mask : Sigset) :
    Sigset → Prop where
  | same : MaskChange cant sets mask mask
  | apply (how : MaskHow) (set : Ptr) :
      MaskChange cant sets mask (how.apply cant (sets set).native mask)

/-- What becomes of a process in a call. -/
inductive Changed (cant pending : Sigset) (thread : Nat) (s : MaskState) (c : MaskCall) :
    MaskState → Prop where
  | none : Changed cant pending thread s c s
  | set {p : Ptr} {v : LinuxSigset} : c.Writes p →
      SetChange pending (s.sets p).native v.native →
      Changed cant pending thread s c { s with sets := Function.update s.sets p v }
  | mask {m : Sigset} : MaskChange cant s.sets (s.masks thread) m →
      Changed cant pending thread s c
        { s with masks := Function.update s.masks thread m }
  | maskSaved {p : Ptr} {v : LinuxSigset} {m : Sigset} : c.Writes p →
      v.native = s.masks thread → MaskChange cant s.sets (s.masks thread) m →
      Changed cant pending thread s c
        { sets := Function.update s.sets p v
          masks := Function.update s.masks thread m }

section Calls

variable {cant pending : Sigset} {thread : Nat} {s s' : MaskState} {c : MaskCall}
  {r : MaskResult}

/-- A set that is written, or an error. -/
theorem changed_store {p : Ptr} {x : Except Errno LinuxSigset} (hp : c.Writes p)
    (hx : ∀ v, x = .ok v → SetChange pending (s.sets p).native v.native)
    (h : s.store p x = (r, s')) : Changed cant pending thread s c s' := by
  cases x with
  | error e =>
      cases h
      exact .none
  | ok v =>
      cases h
      exact .set hp (hx v rfl)

theorem setChange_add {set v : LinuxSigset} {n : Int}
    (h : shimSigaddset set n = .ok v) : SetChange pending set.native v.native := by
  rw [shimSigaddset, sigaddset] at h
  split at h
  · rename_i hvalid
    cases h
    have hn := sigValid_signo.mp hvalid
    rw [LinuxSigset.native_overwrite, linuxToFreebsdSigno_of_supported hn.1]
    exact .add hn
  · cases h

theorem setChange_del {set v : LinuxSigset} {n : Int}
    (h : shimSigdelset set n = .ok v) : SetChange pending set.native v.native := by
  rw [shimSigdelset, sigdelset] at h
  split at h
  · rename_i hvalid
    cases h
    have hn := sigValid_signo.mp hvalid
    rw [LinuxSigset.native_overwrite, linuxToFreebsdSigno_of_supported hn.1]
    exact .del hn
  · cases h

/-- Both functions that change the mask. -/
theorem changed_mask {how : Int} {set oset : Option Ptr}
    (hwrites : ∀ p ∈ oset, c.Writes p) {x : Sigset × Option LinuxSigset}
    (hx : changeMask cant how (set.map s.sets) (oset.map s.sets) (s.masks thread) = .ok x) :
    Changed cant pending thread s c (s.setMask thread oset x) := by
  obtain ⟨how, -, hx⟩ := bind_eq_ok.mp hx
  cases hx
  have hmask : MaskChange cant s.sets (s.masks thread)
      ((set.map s.sets).elim (s.masks thread)
        fun set => how.apply cant set.native (s.masks thread)) := by
    cases set with
    | none => exact .same
    | some set => exact .apply how set
  cases oset with
  | none => exact .mask hmask
  | some p =>
      exact .maskSaved (hwrites p rfl) (LinuxSigset.native_overwrite _ _) hmask

theorem exec_changed (h : s.exec cant pending thread c = .ok (r, s')) :
    Changed cant pending thread s c s' := by
  cases c with
  | sigemptyset p =>
      refine changed_store rfl ?_ (Except.ok.inj h)
      rintro _ ⟨⟩
      rw [shimSigemptyset, LinuxSigset.native_overwrite]
      exact .empty
  | sigfillset p =>
      refine changed_store rfl ?_ (Except.ok.inj h)
      rintro _ ⟨⟩
      rw [shimSigfillset, LinuxSigset.native_overwrite]
      exact .fill
  | sigpending p =>
      refine changed_store rfl ?_ (Except.ok.inj h)
      rintro _ ⟨⟩
      rw [shimSigpending, LinuxSigset.native_overwrite]
      exact .pending
  | sigaddset p n => exact changed_store rfl (fun _ => setChange_add) (Except.ok.inj h)
  | sigdelset p n => exact changed_store rfl (fun _ => setChange_del) (Except.ok.inj h)
  | sigismember p n =>
      cases h
      exact .none
  | sigprocmask how set oset =>
      obtain ⟨x, hx, h⟩ := bind_eq_ok.mp h
      cases h
      exact changed_mask (fun _ hp => hp) hx
  | pthreadSigmask how set oset =>
      obtain ⟨x, hx, h⟩ := bind_eq_ok.mp h
      cases h
      exact changed_mask (fun _ hp => hp) hx

end Calls

/-! ## Saved masks -/

section Saved

variable {cant : Sigset} {masks : Nat → Sigset} {es es' : List MaskEvent}
  {s s' s₁ s₂ s₃ : MaskState} {t : Option MaskState} {e : MaskEvent}

/-- Nothing is blocked that the kernel does not let be. -/
def Maskable (cant mask : Sigset) : Prop := mask &&& cant = 0

theorem maskable_iff {mask : Sigset} : Maskable cant mask ↔
    ∀ i < 128, mask.getLsbD i → cant.getLsbD i = false := by
  rw [Maskable, BitVec.eq_of_getLsbD_eq_iff]
  refine forall₂_congr fun i hi => ?_
  rw [BitVec.getLsbD_and, show (0 : Sigset).getLsbD i = false from BitVec.getLsbD_zero,
    Bool.and_eq_false_imp]

theorem MaskHow.maskable (how : MaskHow) (set : Sigset) {mask : Sigset}
    (h : Maskable cant mask) : Maskable cant (how.apply cant set mask) := by
  rw [maskable_iff] at h ⊢
  intro i hi hbit
  cases how with
  | block =>
      rw [MaskHow.apply, BitVec.getLsbD_or, Bool.or_eq_true] at hbit
      rcases hbit with hbit | hbit
      · exact h i hi hbit
      · rw [BitVec.getLsbD_and, BitVec.getLsbD_not, Bool.and_eq_true] at hbit
        simpa [hi] using hbit.2
  | unblock =>
      rw [MaskHow.apply, BitVec.getLsbD_and, Bool.and_eq_true] at hbit
      exact h i hi hbit.1
  | setmask =>
      rw [MaskHow.apply, BitVec.getLsbD_and, BitVec.getLsbD_not, Bool.and_eq_true] at hbit
      simpa [hi] using hbit.2

/-- A mask the kernel takes as it is. -/
theorem setmask_of_maskable {mask : Sigset} (h : Maskable cant mask) (mask' : Sigset) :
    MaskHow.apply cant .setmask mask mask' = mask := by
  rw [maskable_iff] at h
  refine BitVec.eq_of_getLsbD_eq fun i hi => ?_
  rw [MaskHow.apply, BitVec.getLsbD_and, BitVec.getLsbD_not, decide_eq_true hi,
    Bool.true_and]
  cases hbit : mask.getLsbD i with
  | false => rfl
  | true => rw [h i hi hbit]; rfl

theorem MaskChange.maskable {sets : Ptr → LinuxSigset} {mask m : Sigset}
    (h : Maskable cant mask) (hchange : MaskChange cant sets mask m) : Maskable cant m := by
  cases hchange with
  | same => exact h
  | apply how set => exact how.maskable _ h

theorem maskable_update {mask : Sigset} {thread : Nat}
    (h : ∀ t, Maskable cant (s.masks t)) (hmask : Maskable cant mask) (t : Nat) :
    Maskable cant (Function.update s.masks thread mask t) := by
  by_cases ht : t = thread
  · subst ht
    rwa [Function.update_self]
  · rw [Function.update_of_ne ht]
    exact h t

theorem maskable_step (h : ∀ t, Maskable cant (s.masks t))
    (hstep : MaskStep cant (some s) e (some s')) : ∀ t, Maskable cant (s'.masks t) := by
  cases hstep with
  | call hexec =>
      cases exec_changed hexec with
      | none => exact h
      | set => exact h
      | mask hmask => exact maskable_update h (hmask.maskable (h _))
      | maskSaved _ _ hmask => exact maskable_update h (hmask.maskable (h _))
  | spawn parent child => exact maskable_update h (h parent)

theorem maskable_of_runs (hmasks : ∀ t, Maskable cant (masks t))
    (hrun : Runs (MaskStart masks) (MaskStep cant) es t) :
    ∀ s, t = some s → ∀ t, Maskable cant (s.masks t) := by
  refine hrun.invariant (I := fun _ t => ∀ s, t = some s → ∀ t, Maskable cant (s.masks t))
    ?_ ?_
  · rintro _ ⟨s, rfl, rfl⟩ _ ⟨⟩
    exact hmasks
  · rintro es t e t' - ih hstep s' rfl
    cases t with
    | none => cases hstep
    | some s => exact maskable_step (ih s rfl) hstep

theorem ne_of_writes {c : MaskCall} {p q : Ptr} (hp : ¬c.Writes p) (hq : c.Writes q) :
    p ≠ q := by
  rintro rfl
  exact hp hq

/-- A set that is not written stays. -/
theorem sets_step {p : Ptr} (hp : ¬e.Writes p)
    (hstep : MaskStep cant (some s) e (some s')) : s'.sets p = s.sets p := by
  cases hstep with
  | call hexec =>
      cases exec_changed hexec with
      | none => rfl
      | set hw => exact Function.update_of_ne (ne_of_writes hp hw) ..
      | mask => rfl
      | maskSaved hw => exact Function.update_of_ne (ne_of_writes hp hw) ..
  | spawn => rfl

theorem sets_of_runs {p : Ptr} (hkept : ∀ e ∈ es, ¬e.Writes p)
    (hrun : Runs (· = some s) (MaskStep cant) es t) :
    ∀ s', t = some s' → s'.sets p = s.sets p := by
  induction hrun with
  | nil hs =>
      rintro s' rfl
      cases hs
      rfl
  | @snoc es t t' e _ hstep ih =>
      rintro s' rfl
      obtain ⟨hes, he⟩ := List.forall_mem_append.mp hkept
      cases t with
      | none => cases hstep
      | some s₁ =>
          rw [sets_step (he e (List.mem_singleton_self e)) hstep, ih hes s₁ rfl]

/-- Either of the functions that change the mask. -/
def MaskCall.Sets (c : MaskCall) (how : Int) (set oset : Option Ptr) : Prop :=
  c = .sigprocmask how set oset ∨ c = .pthreadSigmask how set oset

theorem MaskCall.Sets.exec {c : MaskCall} {how : Int} {set oset : Option Ptr}
    (hc : c.Sets how set oset) (pending : Sigset) (thread : Nat) :
    s.exec cant pending thread c = (do
      let r ← changeMask cant how (set.map s.sets) (oset.map s.sets) (s.masks thread)
      return (.ok 0, s.setMask thread oset r)) := by
  rcases hc with rfl | rfl <;> rfl

/-- A mask that one call saves and a later one sets is what it was, in the
bits Linux code has no number for too, if nothing else was put where it is
kept. Meanwhile threads may have done what they like. -/
theorem mask_restored {thread thread' : Nat} {save restore : MaskCall} {how : Int}
    {set oset : Option Ptr} {old : Ptr} {pending pending' : Sigset} {r r' : MaskResult}
    (hmasks : ∀ t, Maskable cant (masks t)) (hsave : save.Sets how set (some old))
    (hrestore : restore.Sets linuxSigSetmask (some old) oset)
    (hrun : Runs (MaskStart masks) (MaskStep cant) es (some s))
    (hsaved : MaskStep cant (some s) (.call thread save pending (.ok r)) (some s₁))
    (hbetween : Runs (· = some s₁) (MaskStep cant) es' (some s₂))
    (hkept : ∀ e ∈ es', ¬e.Writes old)
    (hrestored : MaskStep cant (some s₂) (.call thread' restore pending' (.ok r'))
      (some s₃)) :
    s₃.masks thread' = s.masks thread := by
  have hold : (s₁.sets old).native = s.masks thread := by
    cases hsaved with
    | call hexec =>
        rw [hsave.exec] at hexec
        obtain ⟨x, hx, hexec⟩ := bind_eq_ok.mp hexec
        obtain ⟨how, -, hx⟩ := bind_eq_ok.mp hx
        cases hx
        cases hexec
        show (Function.update s.sets old _ old).native = _
        rw [Function.update_self, LinuxSigset.native_overwrite]
  have hmaskable := maskable_of_runs hmasks hrun s rfl thread
  cases hrestored with
  | call hexec =>
      rw [hrestore.exec] at hexec
      obtain ⟨x, hx, hexec⟩ := bind_eq_ok.mp hexec
      cases hx
      cases hexec
      show Function.update s₂.masks thread' _ thread' = _
      rw [Function.update_self, ← hold, ← sets_of_runs hkept hbetween s₂ rfl]
      rw [← hold, ← sets_of_runs hkept hbetween s₂ rfl] at hmaskable
      exact setmask_of_maskable hmaskable (s₂.masks thread')

end Saved

/-- `SIGKILL` and `SIGSTOP` of FreeBSD. -/
def nativeUnblockable : Sigset := sigBit 9 ||| sigBit 17

/-- A process with `SIGTERM` blocked, and `SIGCHLD` of FreeBSD, which Linux code
has no number for. -/
def termBlocked : MaskState := ⟨fun _ => 0, fun _ => sigBit 15 ||| sigBit 20⟩

/-- The mask is saved, everything is blocked meanwhile, and then the mask is
back. -/
theorem mask_restored_term :
    ∃ s₁ s₂ s₃,
      MaskStep nativeUnblockable (some termBlocked)
        (.call 0 (.sigprocmask linuxSigBlock none (some 0)) 0 (.ok (.ok 0))) (some s₁) ∧
      Runs (· = some s₁) (MaskStep nativeUnblockable)
        [.call 0 (.sigfillset 1) 0 (.ok (.ok 0)),
          .call 0 (.sigprocmask linuxSigSetmask (some 1) none) 0 (.ok (.ok 0))]
        (some s₂) ∧
      MaskStep nativeUnblockable (some s₂)
        (.call 0 (.pthreadSigmask linuxSigSetmask (some 0) none) 0 (.ok (.ok 0)))
        (some s₃) ∧
      s₂.masks 0 = ~~~nativeUnblockable ∧ s₃.masks 0 = sigBit 15 ||| sigBit 20 := by
  obtain ⟨s₁, hsaved⟩ : ∃ s₁, MaskStep nativeUnblockable (some termBlocked)
      (.call 0 (.sigprocmask linuxSigBlock none (some 0)) 0 (.ok (.ok 0))) (some s₁) :=
    ⟨_, .call rfl⟩
  obtain ⟨s, s₂, hfilled, hblocked, hall⟩ : ∃ s s₂, MaskStep nativeUnblockable (some s₁)
        (.call 0 (.sigfillset 1) 0 (.ok (.ok 0))) (some s) ∧
      MaskStep nativeUnblockable (some s)
        (.call 0 (.sigprocmask linuxSigSetmask (some 1) none) 0 (.ok (.ok 0))) (some s₂) ∧
      s₂.masks 0 = (shimSigfillset (s₁.sets 1)).native &&& ~~~nativeUnblockable :=
    ⟨_, _, .call rfl, .call rfl, rfl⟩
  obtain ⟨s₃, hrestored⟩ : ∃ s₃, MaskStep nativeUnblockable (some s₂)
      (.call 0 (.pthreadSigmask linuxSigSetmask (some 0) none) 0 (.ok (.ok 0))) (some s₃) :=
    ⟨_, .call rfl⟩
  rw [shimSigfillset, LinuxSigset.native_overwrite, BitVec.allOnes_and] at hall
  have hmasks : ∀ t, Maskable nativeUnblockable (termBlocked.masks t) :=
    fun _ => show (sigBit 15 ||| sigBit 20) &&& nativeUnblockable = 0 by decide
  have hstart : Runs (· = some s₁) (MaskStep nativeUnblockable) [] (some s₁) := .nil rfl
  have hbetween := (hstart.snoc hfilled).snoc hblocked
  have hkept : ∀ e ∈ [MaskEvent.call 0 (.sigfillset 1) 0 (.ok (.ok 0)),
      .call 0 (.sigprocmask linuxSigSetmask (some 1) none) 0 (.ok (.ok 0))],
      ¬e.Writes 0 := by
    simp [MaskEvent.Writes, MaskCall.Writes]
  exact ⟨s₁, s₂, s₃, hsaved, hbetween, hrestored, hall, mask_restored hmasks (.inl rfl)
    (.inr rfl) (.nil ⟨_, rfl, rfl⟩) hsaved hbetween hkept hrestored⟩

/-! ## Signals without a number -/

/-- A native signal that no Linux number stands for. -/
structure Unnamed (n : Nat) : Prop where
  valid : SigValid n
  unnamed : ∀ m, linuxToFreebsdSigno m ≠ n

/-- Both or neither of two native signals are in a set. -/
def InBoth (n m : Nat) (set : Sigset) : Prop := set.getLsbD (n - 1) = set.getLsbD (m - 1)

section Alike

variable {cant : Sigset} {n m : Nat} {w v : Sigset} {es : List MaskEvent}
  {s s' : MaskState} {e : MaskEvent}

theorem InBoth.or (h : InBoth n m w) (h' : InBoth n m v) : InBoth n m (w ||| v) := by
  rw [InBoth, BitVec.getLsbD_or, BitVec.getLsbD_or, h, h']

theorem Unnamed.lt (h : Unnamed n) : n - 1 < 128 := by
  have := h.valid.1
  have := h.valid.2
  omega

theorem InBoth.and_not (hn : Unnamed n) (hm : Unnamed m) (h : InBoth n m w)
    (h' : InBoth n m v) : InBoth n m (w &&& ~~~v) := by
  rw [InBoth, BitVec.getLsbD_and, BitVec.getLsbD_and, BitVec.getLsbD_not,
    BitVec.getLsbD_not, h, h', decide_eq_true hn.lt, decide_eq_true hm.lt]

/-- A signal that is accepted is another. -/
theorem Unnamed.not_sigBit (h : Unnamed n) {k : Int} (hk : SignalAccepted k) :
    (sigBit k).getLsbD (n - 1) = false := by
  rw [sigBit, BitVec.getLsbD_twoPow, Bool.and_eq_false_imp]
  intro hlt
  rw [decide_eq_false_iff_not]
  intro heq
  have hname := h.unnamed k
  rw [linuxToFreebsdSigno_of_supported hk.1] at hname
  have := hk.2
  have := h.valid.1
  omega

theorem inBoth_sigBit (hn : Unnamed n) (hm : Unnamed m) {k : Int} (hk : SignalAccepted k) :
    InBoth n m (sigBit k) := by
  rw [InBoth, hn.not_sigBit hk, hm.not_sigBit hk]

theorem SetChange.inBoth {pending : Sigset} (hn : Unnamed n) (hm : Unnamed m)
    (hpending : InBoth n m pending) (hw : InBoth n m w) (h : SetChange pending w v) :
    InBoth n m v := by
  cases h with
  | empty => simp [InBoth]
  | fill =>
      rw [InBoth, BitVec.getLsbD_allOnes, BitVec.getLsbD_allOnes, decide_eq_true hn.lt,
        decide_eq_true hm.lt]
  | pending => exact hpending
  | add hk => exact hw.or (inBoth_sigBit hn hm hk)
  | del hk => exact hw.and_not hn hm (inBoth_sigBit hn hm hk)

theorem MaskChange.inBoth {sets : Ptr → LinuxSigset} (hn : Unnamed n) (hm : Unnamed m)
    (hcant : InBoth n m cant) (hsets : ∀ p, InBoth n m (sets p).native) (hw : InBoth n m w)
    (h : MaskChange cant sets w v) : InBoth n m v := by
  cases h with
  | same => exact hw
  | apply how set =>
      cases how with
      | block => exact hw.or ((hsets set).and_not hn hm hcant)
      | unblock => exact hw.and_not hn hm (hsets set)
      | setmask => exact (hsets set).and_not hn hm hcant

/-- In all the sets and masks there are. -/
structure MaskState.InBoth (n m : Nat) (s : MaskState) : Prop where
  sets : ∀ p, Libc6Shim.InBoth n m (s.sets p).native
  masks : ∀ t, Libc6Shim.InBoth n m (s.masks t)

theorem inBoth_update {f : Nat → Sigset} {thread : Nat} (h : ∀ t, InBoth n m (f t))
    (hv : InBoth n m v) (t : Nat) : InBoth n m (Function.update f thread v t) := by
  by_cases ht : t = thread
  · subst ht
    rwa [Function.update_self]
  · rw [Function.update_of_ne ht]
    exact h t

theorem inBoth_update_set {f : Ptr → LinuxSigset} {p : Ptr} {x : LinuxSigset}
    (h : ∀ q, InBoth n m (f q).native) (hx : InBoth n m x.native) (q : Ptr) :
    InBoth n m (Function.update f p x q).native := by
  by_cases hq : q = p
  · subst hq
    rwa [Function.update_self]
  · rw [Function.update_of_ne hq]
    exact h q

/-- The kernel finds both signals pending or neither. -/
def MaskEvent.PendingBoth (n m : Nat) : MaskEvent → Prop
  | .call _ _ pending _ => InBoth n m pending
  | .spawn .. => True

theorem inBoth_step (hn : Unnamed n) (hm : Unnamed m) (hcant : InBoth n m cant)
    (h : s.InBoth n m) (he : e.PendingBoth n m)
    (hstep : MaskStep cant (some s) e (some s')) : s'.InBoth n m := by
  cases hstep with
  | call hexec =>
      cases exec_changed hexec with
      | none => exact h
      | set _ hchange =>
          exact ⟨inBoth_update_set h.sets (hchange.inBoth hn hm he (h.sets _)), h.masks⟩
      | mask hmask =>
          exact ⟨h.sets, inBoth_update h.masks (hmask.inBoth hn hm hcant h.sets (h.masks _))⟩
      | @maskSaved p v mask _ hv hmask =>
          exact ⟨inBoth_update_set h.sets (hv ▸ h.masks _),
            inBoth_update h.masks (hmask.inBoth hn hm hcant h.sets (h.masks _))⟩
  | spawn parent child => exact ⟨h.sets, inBoth_update h.masks (h.masks parent)⟩

/-- Of two signals without a number Linux code never blocks one and not the
other, nor does it get a set with one and not the other, if the kernel lets
both be blocked or neither, and finds both pending or neither each time. -/
theorem unnamed_alike (hn : Unnamed n) (hm : Unnamed m) (hcant : InBoth n m cant)
    {t : Option MaskState}
    (hrun : Runs (fun t => ∃ s, t = some s ∧ s.InBoth n m) (MaskStep cant) es t)
    (hpending : ∀ e ∈ es, e.PendingBoth n m) : ∀ s, t = some s → s.InBoth n m := by
  induction hrun with
  | nil hs =>
      obtain ⟨s, rfl, hs⟩ := hs
      rintro _ ⟨⟩
      exact hs
  | @snoc es t t' e _ hstep ih =>
      rintro s' rfl
      obtain ⟨hes, he⟩ := List.forall_mem_append.mp hpending
      cases t with
      | none => cases hstep
      | some s =>
          exact inBoth_step hn hm hcant (ih hes s rfl) (he e (List.mem_singleton_self e)) hstep

theorem not_signo_of {n : Nat} (hn : ∀ m : Int, m = n → ¬Supported m) (hpos : 0 < n)
    (m : Int) :
    linuxToFreebsdSigno m ≠ n := by
  intro h
  by_cases hm : Supported m
  · exact hn m (linuxToFreebsdSigno_of_supported hm ▸ h) hm
  · have hminus : linuxToFreebsdSigno m = -1 := not_not.mp hm
    omega

/-- `SIGBUS` of FreeBSD. -/
theorem unnamed_sigbus : Unnamed 10 :=
  ⟨by decide, not_signo_of (by rintro _ rfl; decide) (by decide)⟩

/-- `SIGCHLD` of FreeBSD. -/
theorem unnamed_sigchld : Unnamed 20 :=
  ⟨by decide, not_signo_of (by rintro _ rfl; decide) (by decide)⟩

/-- A process with nothing blocked and no sets in its memory yet. -/
def clearMasks : MaskState := ⟨fun _ => 0, fun _ => 0⟩

theorem unnamed_alike_clear :
    ∃ s, MaskStep nativeUnblockable (some clearMasks)
        (.call 0 (.sigfillset 0) 0 (.ok (.ok 0))) (some s) ∧ s.InBoth 10 20 := by
  obtain ⟨s, hstep⟩ : ∃ s, MaskStep nativeUnblockable (some clearMasks)
      (.call 0 (.sigfillset 0) 0 (.ok (.ok 0))) (some s) := ⟨_, .call rfl⟩
  have hstart : clearMasks.InBoth 10 20 :=
    ⟨fun _ => by simp [InBoth, clearMasks, LinuxSigset.native],
      fun _ => by simp [InBoth, clearMasks]⟩
  refine ⟨s, hstep, unnamed_alike unnamed_sigbus unnamed_sigchld (by unfold InBoth; decide)
    (.snoc (.nil ⟨_, rfl, hstart⟩) hstep) ?_ s rfl⟩
  intro e he
  obtain rfl := List.mem_singleton.mp he
  simp [MaskEvent.PendingBoth, InBoth]

end Alike

end Libc6Shim
