import Libc6Shim.Signals

/-!
# The crash handlers

`sigaction` keeps Linux code away from SIGABRT, SIGSEGV, SIGBUS and SIGSYS,
and no other Linux number is translated into one of those. `signal` asks the
translation only, which refuses SIGBUS and SIGSYS; the numbers of SIGABRT and
SIGSEGV go through (`Replaces`). A run leaves the four dispositions alone
exactly as long as no such call is taken (`crashHandlers_kept_iff`).
-/

namespace Libc6Shim

open CSem Outcome

/-- A call Linux code makes. -/
inductive LinuxSignalCall where
  | sigaction (linuxSig : Int) (linuxAct linuxOact : Option LinuxSigaction)
  | signal (linuxSig : Int) (func : Ptr)

/-- Why the call does not return, if it does not, and the dispositions it
leaves. -/
def LinuxSignalCall.exec (lib : SignalLib) (e : Errno) (d : Dispositions) :
    LinuxSignalCall → Option Stop × Dispositions
  | .sigaction linuxSig linuxAct linuxOact =>
      ((Routine.exec lib.answer (shimSigaction linuxSig linuxAct linuxOact) e
          d).1.stopped,
        (Routine.exec lib.answer (shimSigaction linuxSig linuxAct linuxOact) e
          d).2)
  | .signal linuxSig func =>
      ((Routine.exec lib.answer (shimSignal linuxSig func) e d).1.stopped,
        (Routine.exec lib.answer (shimSignal linuxSig func) e d).2)

/-- A call that returns, whatever is in `errno`. -/
def SignalStep (lib : SignalLib) (d : Dispositions) (c : LinuxSignalCall)
    (d' : Dispositions) : Prop :=
  ∃ e, c.exec lib e d = (none, d')

/-- The native numbers of the crash signals. -/
def crashSignals : List Int := [sigabrt, sigsegv, sigbus, sigsys]

/-- What `signal` makes of a signal's action. -/
def SignalLib.installs (lib : SignalLib) (sig : Int) (func : Ptr) :
    NativeSigaction :=
  { saHandler := func, saMask := 0, saFlags := lib.signalFlags sig }

/-- The call is a `signal` for SIGABRT or SIGSEGV that the library takes, and
that asks for something new. -/
def Replaces (lib : SignalLib) (d : Dispositions) : LinuxSignalCall → Prop
  | .sigaction .. => False
  | .signal linuxSig func =>
      (linuxSig = linuxSigabrt ∨ linuxSig = linuxSigsegv) ∧
        lib.refuses d (.signal linuxSig func) = none ∧
        d linuxSig ≠ lib.installs linuxSig func

section Steps

variable {lib : SignalLib} {d d' : Dispositions}

/-- Which numbers reach a crash signal through the translation. -/
theorem supported_crash {n : Int} (h : Supported n) (hn : n ∈ crashSignals) :
    n = linuxSigabrt ∨ n = linuxSigsegv := by
  simp only [crashSignals, List.mem_cons, List.not_mem_nil, or_false] at hn
  rcases hn with rfl | rfl | rfl | rfl
  · exact .inl rfl
  · exact .inr rfl
  · exact absurd h (by decide)
  · exact absurd h (by decide)

theorem signalStep_signal {n : Int} {func : Ptr} :
    SignalStep lib d (.signal n func) d' ↔ Supported n ∧
      d' = if lib.refuses d (.signal n func) = none then
        Function.update d n (lib.installs n func) else d := by
  by_cases h : Supported n
  · have hexec : ∀ e, (LinuxSignalCall.signal n func).exec lib e d =
        (none, if lib.refuses d (.signal n func) = none then
          Function.update d n (lib.installs n func) else d) := by
      intro e
      rw [LinuxSignalCall.exec, shimSignal_of_supported h, exec_callSignal]
      cases lib.refuses d (.signal n func) <;> rfl
    simp only [SignalStep, hexec, exists_const, Prod.mk.injEq, true_and, h,
      eq_comm]
  · refine iff_of_false ?_ fun hs => absurd hs.1 h
    rintro ⟨e, he⟩
    have hstop := congrArg Prod.fst he
    simp only [LinuxSignalCall.exec, shimSignal_of_unsupported h] at hstop
    cases hstop

/-- `sigaction` changes at most the action of a signal of the caller's
own. -/
theorem exec_shimSigaction_snd {n : Int} {act oact : Option LinuxSigaction}
    {e : Errno} :
    (Routine.exec lib.answer (shimSigaction n act oact) e d).2 = d ∨
      ¬Intercepted n ∧ Supported n ∧ ∃ a,
        (Routine.exec lib.answer (shimSigaction n act oact) e d).2 =
          Function.update d n a := by
  by_cases hn : Intercepted n
  · rw [shimSigaction_of_intercepted hn]
    exact .inl rfl
  by_cases h : Supported n
  swap
  · rw [shimSigaction_of_unsupported hn h]
    exact .inl rfl
  cases hact : act.mapM linuxToNativeSigaction with
  | error e' =>
      rw [exec_shimSigaction_of_error hn h hact]
      exact .inl rfl
  | ok act' =>
      rw [exec_shimSigaction hn h hact]
      split
      · exact .inl rfl
      · cases lib.refuses d (.sigaction n act' oact.isSome) with
        | some e' => exact .inl rfl
        | none =>
            cases act' with
            | none => exact .inl rfl
            | some act' => exact .inr ⟨hn, h, act', rfl⟩

/-- What one call can do to the dispositions. -/
theorem signalStep_cases {c : LinuxSignalCall} (h : SignalStep lib d c d') :
    d' = d ∨
      (∃ n func, c = .signal n func ∧ Supported n ∧
        lib.refuses d (.signal n func) = none ∧
        d' = Function.update d n (lib.installs n func)) ∨
      ∃ n a, ¬Intercepted n ∧ Supported n ∧ d' = Function.update d n a := by
  cases c with
  | signal n func =>
      obtain ⟨hsup, hd⟩ := signalStep_signal.mp h
      split at hd
      · rename_i htaken
        exact .inr (.inl ⟨n, func, rfl, hsup, htaken, hd⟩)
      · exact .inl hd
  | sigaction n act oact =>
      obtain ⟨e, he⟩ := h
      have hd : (Routine.exec lib.answer (shimSigaction n act oact) e d).2 = d' :=
        congrArg Prod.snd he
      have hcases := @exec_shimSigaction_snd lib d n act oact e
      rcases hcases with hsame | ⟨hn, hsup, a, ha⟩
      · exact .inl (hd.symm.trans hsame)
      · exact .inr (.inr ⟨n, a, hn, hsup, hd.symm.trans ha⟩)

/-- A call keeps the crash handlers unless it replaces one. -/
theorem keeps_crash_iff {c : LinuxSignalCall} :
    (∀ d', SignalStep lib d c d' → ∀ s ∈ crashSignals, d' s = d s) ↔
      ¬Replaces lib d c := by
  constructor
  · intro hkeep hrep
    cases c with
    | sigaction n act oact => exact hrep
    | signal n func =>
        obtain ⟨hn, htaken, hne⟩ := hrep
        have hsup : Supported n ∧ n ∈ crashSignals := by
          rcases hn with rfl | rfl
          · exact ⟨by decide, by decide⟩
          · exact ⟨by decide, by decide⟩
        have hstep := signalStep_signal.mpr ⟨hsup.1, (if_pos htaken).symm⟩
        have hsame := hkeep _ hstep n hsup.2
        rw [Function.update_self] at hsame
        exact hne hsame.symm
  · intro hrep d' hstep s hs
    rcases signalStep_cases hstep with rfl | ⟨n, func, rfl, hsup, htaken, rfl⟩ |
      ⟨n, a, hn, hsup, rfl⟩
    · rfl
    · by_cases hsn : s = n
      · rw [hsn, Function.update_self]
        by_contra hne
        exact hrep ⟨supported_crash hsup (hsn ▸ hs), htaken, Ne.symm hne⟩
      · exact Function.update_of_ne hsn _ _
    · refine Function.update_of_ne (fun hsn => hn ?_) _ _
      rcases supported_crash hsup (hsn ▸ hs) with h | h
      · exact .inl h
      · exact .inr (.inl h)

end Steps

/-- A sequence of calls leaves the crash handlers as they were, all the way,
exactly if none of its calls replaces one. -/
theorem crashHandlers_kept_iff (lib : SignalLib) (d : Dispositions)
    (calls : List LinuxSignalCall) :
    Throughout (SignalStep lib)
        (fun _ d₁ c => ∀ d₂, SignalStep lib d₁ c d₂ →
          ∀ s ∈ crashSignals, d₂ s = d s) [] d calls ↔
      Throughout (SignalStep lib) (fun _ d₁ c => ¬Replaces lib d₁ c) [] d
        calls := by
  refine throughout_congr (I := fun _ d₁ => ∀ s ∈ crashSignals, d₁ s = d s)
    (fun _ d₁ c hd₁ _ => ?_)
    (fun _ d₁ c d₂ _ _ hkeep hstep => hkeep d₂ hstep) (fun _ _ => rfl)
    (throughout_of_forall (fun _ _ _ => trivial) [] d calls)
  rw [← keeps_crash_iff]
  refine forall₂_congr fun d₂ _ => forall₂_congr fun s hs => ?_
  rw [hd₁ s hs]

/-- `signal(SIGSEGV, handler)` installs the handler. -/
theorem signal_replaces_sigsegv :
    ∃ d', SignalStep obligingSignalLib defaultDispositions
        (.signal linuxSigsegv 4096) d' ∧
      d' sigsegv ≠ defaultDispositions sigsegv := by
  refine ⟨_, signalStep_signal.mpr ⟨by decide, rfl⟩, ?_⟩
  decide

end Libc6Shim
