import Libc6Shim.Abi

/-!
# Joining threads

`pthread_join` and `pthread_timedjoin_np` (`src/libthr/pthread.c`) hand on what
the native library stores of the thread that ended. The value that says a
thread was cancelled is another on the two sides, so each looks at what was
stored, and replaces the native one.

There is nothing else to tell a cancelled thread by. A value that a thread
returns is handed on as it is unless it happens to be the native side's
(`join_faithful_iff`).
-/

namespace Libc6Shim

open CSem Outcome

/-! ## The native library -/

/-- What a thread returns. -/
abbrev VoidPtr (abi : Abi) := BitVec (8 * abi.wordBytes)

/-- A join: the thread, and the object for its value, if there is to be
one. -/
inductive JoinCall (abi : Abi) where
  | join (thread : Ptr) (valuePtr : Option (VoidPtr abi))
  | timedjoinNp (thread : Ptr) (valuePtr : Option (VoidPtr abi)) (abstime : Nat)

/-- The error returned, and the object as it is left. -/
@[reducible] def JoinAnswer (abi : Abi) : JoinCall abi → Type :=
  fun _ => Errno × Option (VoidPtr abi)

abbrev JoinProg (abi : Abi) := Prog (JoinCall abi) (JoinAnswer abi)

def callJoin {abi : Abi} (c : JoinCall abi) :
    JoinProg abi (Errno × Option (VoidPtr abi)) :=
  .call c .ret

/-! ## The shim -/

section

variable {abi : Abi}

/-- `PTHREAD_CANCELED` of FreeBSD. -/
def pthreadCanceled : VoidPtr abi := 1

def linuxPthreadCanceled : VoidPtr abi := -1

/-- What is done with a value that was stored. -/
def linuxJoinValue (v : VoidPtr abi) : VoidPtr abi :=
  if v = pthreadCanceled then linuxPthreadCanceled else v

/-- What is done when a join returns. -/
def afterJoin (err : Errno) (valuePtr : Option (VoidPtr abi)) :
    Option (VoidPtr abi) :=
  if err = 0 then valuePtr.map linuxJoinValue else valuePtr

def shimPthreadJoin (thread : Ptr) (valuePtr : Option (VoidPtr abi)) :
    JoinProg abi (Errno × Option (VoidPtr abi)) := do
  let (err, valuePtr) ← callJoin (.join thread valuePtr)
  return (err, afterJoin err valuePtr)

def shimPthreadTimedjoinNp (thread : Ptr) (valuePtr : Option (VoidPtr abi))
    (abstime : Nat) : JoinProg abi (Errno × Option (VoidPtr abi)) := do
  let (err, valuePtr) ← callJoin (.timedjoinNp thread valuePtr abstime)
  return (nativeToLinuxErrno err, afterJoin err valuePtr)

/-! ## Threads -/

/-- How a thread ends. -/
inductive ThreadEnd (abi : Abi) where
  | returned (v : VoidPtr abi)
  | exited (v : VoidPtr abi)
  | cancelled

namespace ThreadEnd

/-- The value the thread gave, if it was not cancelled. -/
def value? : ThreadEnd abi → Option (VoidPtr abi)
  | .returned v | .exited v => some v
  | .cancelled => none

/-- What the native library stores. -/
def stored (e : ThreadEnd abi) : VoidPtr abi := e.value?.getD pthreadCanceled

end ThreadEnd

/-- A library by which the thread `thread` ends as `e`: `pthread_join` waits for
that, and `pthread_timedjoin_np` may give up. -/
structure EndsAs (h : (c : JoinCall abi) → JoinAnswer abi c) (thread : Ptr)
    (e : ThreadEnd abi) : Prop where
  join : ∀ valuePtr,
    h (.join thread valuePtr) = (0, valuePtr.map fun _ => e.stored)
  timedjoinNp : ∀ valuePtr abstime,
    (h (.timedjoinNp thread valuePtr abstime)).1 = 0 →
    (h (.timedjoinNp thread valuePtr abstime)).2 = valuePtr.map fun _ => e.stored

/-- What is stored tells how the thread ended. -/
def Tells (v : VoidPtr abi) (e : ThreadEnd abi) : Prop :=
  (∀ x, e.value? = some x → v = x) ∧ (v = linuxPthreadCanceled ↔ e = .cancelled)

/-- Whoever joins a thread that ends as `e` gets to know it. -/
def JoinFaithful (e : ThreadEnd abi) : Prop :=
  ∀ h thread, EndsAs h thread e → ∀ old,
    (∃ v, (shimPthreadJoin thread (some old)).run h = .ok (0, some v) ∧
      Tells v e) ∧
    ∀ abstime valuePtr,
      (shimPthreadTimedjoinNp thread (some old) abstime).run h =
        .ok (0, valuePtr) →
      ∃ v, valuePtr = some v ∧ Tells v e

/-! ## What is told -/

theorem pthreadCanceled_ne (abi : Abi) :
    (pthreadCanceled : VoidPtr abi) ≠ linuxPthreadCanceled := by
  cases abi <;> decide

theorem nativeToLinuxErrno_eq_zero {err : Errno} (h : nativeToLinuxErrno err = 0) :
    err = 0 := by
  by_cases hrenumbered : Renumbered err
  · rcases hrenumbered with rfl | rfl | rfl | rfl <;> exact absurd h (by decide)
  · rwa [nativeToLinuxErrno_eq_self_iff.mpr hrenumbered] at h

variable {h : (c : JoinCall abi) → JoinAnswer abi c} {thread : Ptr}
  {e : ThreadEnd abi}

theorem EndsAs.run_join (hends : EndsAs h thread e) (old : VoidPtr abi) :
    (shimPthreadJoin thread (some old)).run h =
      .ok (0, some (linuxJoinValue e.stored)) := by
  have hnative := hends.join (some old)
  show Except.ok ((h (.join thread (some old))).1,
    afterJoin (h (.join thread (some old))).1 (h (.join thread (some old))).2) = _
  rw [hnative]
  rfl

/-- A timed join that succeeds stores the same. -/
theorem EndsAs.run_timedjoinNp (hends : EndsAs h thread e) {old : VoidPtr abi}
    {abstime : Nat} {valuePtr : Option (VoidPtr abi)}
    (hrun : (shimPthreadTimedjoinNp thread (some old) abstime).run h =
      .ok (0, valuePtr)) : valuePtr = some (linuxJoinValue e.stored) := by
  obtain ⟨herr, hvalue⟩ := Prod.mk.inj (Except.ok.inj hrun)
  have hzero := nativeToLinuxErrno_eq_zero herr
  rw [← hvalue, hzero, hends.timedjoinNp (some old) abstime hzero]
  rfl

/-- A value that is not the native side's own is what it was. -/
theorem tells_iff (hvalue : e.value? ≠ some linuxPthreadCanceled) :
    Tells (linuxJoinValue e.stored) e ↔ e.value? ≠ some pthreadCanceled := by
  have hne := pthreadCanceled_ne abi
  cases e with
  | cancelled =>
      refine iff_of_true ⟨nofun, iff_of_true ?_ rfl⟩ nofun
      exact if_pos rfl
  | returned v | exited v =>
      have hv : v ≠ linuxPthreadCanceled := fun hv => hvalue (congrArg some hv)
      by_cases hcanceled : v = pthreadCanceled
      · refine iff_of_false (fun htells => ?_) fun h => h (congrArg some hcanceled)
        have hstored : linuxPthreadCanceled = v :=
          (if_pos hcanceled).symm.trans (htells.1 v rfl)
        exact hne (hcanceled.symm.trans hstored.symm)
      · have hstored : linuxJoinValue v = v := if_neg hcanceled
        refine iff_of_true ⟨fun x hx => ?_, ?_⟩ fun h =>
          hcanceled (Option.some.inj h)
        · exact hstored.trans (Option.some.inj hx)
        · exact iff_of_false (fun h => hv (hstored.symm.trans h)) nofun

/-- A library by which every thread has ended as `e`. -/
def allEnded (e : ThreadEnd abi) : (c : JoinCall abi) → JoinAnswer abi c
  | .join _ valuePtr | .timedjoinNp _ valuePtr _ =>
      (0, valuePtr.map fun _ => e.stored)

theorem endsAs_allEnded (e : ThreadEnd abi) (thread : Ptr) :
    EndsAs (allEnded e) thread e :=
  ⟨fun _ => rfl, fun _ _ _ => rfl⟩

end

/-- Joining a thread tells how it ended, if and only if it does not return
what is the native value of a cancelled one. -/
theorem join_faithful_iff {abi : Abi} {e : ThreadEnd abi}
    (hvalue : e.value? ≠ some linuxPthreadCanceled) :
    JoinFaithful e ↔ e.value? ≠ some pthreadCanceled := by
  constructor
  · intro hfaithful
    have hends := endsAs_allEnded e 7
    obtain ⟨⟨v, hrun, htells⟩, -⟩ := hfaithful _ 7 hends 0
    cases (hends.run_join 0).symm.trans hrun
    exact (tells_iff hvalue).mp htells
  · intro hcanceled h thread hends old
    have htells := (tells_iff hvalue).mpr hcanceled
    exact ⟨⟨_, hends.run_join old, htells⟩,
      fun abstime valuePtr hrun => ⟨_, hends.run_timedjoinNp hrun, htells⟩⟩

/-- A thread that returns one, as a boolean say, was cancelled. -/
theorem returned_one_not_faithful :
    EndsAs (allEnded (.returned 1)) 7 (.returned (1 : VoidPtr .amd64)) ∧
      (shimPthreadJoin 7 (some 0)).run
          (allEnded (.returned (1 : VoidPtr .amd64))) =
        .ok (0, some linuxPthreadCanceled) ∧
      ¬JoinFaithful (.returned (1 : VoidPtr .amd64)) := by
  have hends := endsAs_allEnded (.returned (1 : VoidPtr .amd64)) 7
  refine ⟨hends, hends.run_join 0, fun hfaithful => ?_⟩
  obtain ⟨⟨v, hrun, htells⟩, -⟩ := hfaithful _ 7 hends 0
  cases (hends.run_join 0).symm.trans hrun
  exact absurd (htells.1 1 rfl) (by decide)

theorem returned_two_faithful :
    JoinFaithful (.returned (2 : VoidPtr .amd64)) ∧
      JoinFaithful (.cancelled : ThreadEnd .i386) :=
  ⟨(join_faithful_iff (by decide)).mpr (by decide),
    (join_faithful_iff (by decide)).mpr (by decide)⟩

end Libc6Shim
