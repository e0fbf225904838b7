import Libc6Shim.CSemMachine
import Libc6Shim.CSemFlags
import Libc6Shim.Syscall

/-!
# Attributes of condition variables and barriers

The attribute objects of `src/libthr/pthread.c` are flags in a word: the clock
of a condition variable, and whether other processes share it or a barrier.
`pthread_cond_init` and `pthread_barrier_init` make a native object from the
flags and hand that on.

To Linux code such an object is a record with a field for each attribute
(`WaitSpec.exec`). In every order of calls on any number of objects a getter
gives what was last set, and the native objects are made with it
(`waitAttrs_traces`). The native `pthread_condattr_init` and
`pthread_barrierattr_init` are taken to succeed, and so are the setters of
their objects: the source does not look at what they return.
-/

namespace Libc6Shim

open CSem Outcome

/-! ## Flags -/

def shimCondattrMonotonic : Word := 0x1
def shimCondattrShared : Word := 0x2
def shimBarrierattrShared : Word := 0x1

def linuxPthreadProcessPrivate : Word := 0
def linuxPthreadProcessShared : Word := 1
def pthreadProcessPrivate : Word := 0
def pthreadProcessShared : Word := 1

/-- `*attr |= flag`, or `*attr &= ~flag`. -/
def putFlag (flag : Word) (on : Prop) [Decidable on] (attr : Word) : Word :=
  if on then attr ||| flag else attr &&& ~~~flag

/-- The value for a flag that is set, and for one that is not. -/
def flagValue (flag : Word) (set clear : Word) (attr : Word) : Word :=
  if attr &&& flag ≠ 0 then set else clear

/-! ## The setters and getters -/

def shimPthreadCondattrGetclock (attr : Word) : Word :=
  flagValue shimCondattrMonotonic linuxClockMonotonic linuxClockRealtime attr

/-- An error number, or the object. -/
def shimPthreadCondattrSetclock (attr linuxClockId : Word) : Except Errno Word :=
  if linuxClockId ≠ linuxClockRealtime ∧ linuxClockId ≠ linuxClockMonotonic then
    .error einval
  else .ok (putFlag shimCondattrMonotonic (linuxClockId = linuxClockMonotonic) attr)

def getPshared (flag attr : Word) : Word :=
  flagValue flag linuxPthreadProcessShared linuxPthreadProcessPrivate attr

def setPshared (flag attr linuxPshared : Word) : Outcome Word := do
  require (linuxPshared = linuxPthreadProcessPrivate ∨
    linuxPshared = linuxPthreadProcessShared)
  return putFlag flag (linuxPshared = linuxPthreadProcessShared) attr

def shimPthreadCondattrGetpshared := getPshared shimCondattrShared
def shimPthreadCondattrSetpshared := setPshared shimCondattrShared
def shimPthreadBarrierattrGetpshared := getPshared shimBarrierattrShared
def shimPthreadBarrierattrSetpshared := setPshared shimBarrierattrShared

/-- `pthread_condattr_t`, as `pthread_condattr_init` leaves it. -/
structure NativeCondattr where
  clock : Word := clockRealtime
  pshared : Word := pthreadProcessPrivate
deriving DecidableEq

/-- `pthread_barrierattr_t`, as `pthread_barrierattr_init` leaves it. -/
structure NativeBarrierattr where
  pshared : Word := pthreadProcessPrivate
deriving DecidableEq

/-- The native object that is made. -/
inductive WaitInit where
  | cond (cond : Ptr) (attr : Option NativeCondattr)
  | barrier (barrier : Ptr) (attr : Option NativeBarrierattr) (count : Word)
deriving DecidableEq

def shimPthreadCondInit (cond : Ptr) (linuxAttr : Option Word) : WaitInit :=
  .cond cond (linuxAttr.map fun linuxAttr =>
    let attr : NativeCondattr := {}
    let attr := if linuxAttr &&& shimCondattrMonotonic ≠ 0 then
      { attr with clock := clockMonotonic } else attr
    if linuxAttr &&& shimCondattrShared ≠ 0 then
      { attr with pshared := pthreadProcessShared } else attr)

def shimPthreadBarrierInit (barrier : Ptr) (linuxAttr : Option Word) (count : Word) :
    WaitInit :=
  .barrier barrier (linuxAttr.map fun linuxAttr =>
    let attr : NativeBarrierattr := {}
    if linuxAttr &&& shimBarrierattrShared ≠ 0 then
      { attr with pshared := pthreadProcessShared } else attr) count

/-! ## Objects in memory -/

/-- The calls. That of an initialiser has what the native one returns. -/
inductive WaitCall where
  | condattrInit (attr : Ptr)
  | condattrDestroy (attr : Ptr)
  | condattrGetclock (attr : Ptr)
  | condattrSetclock (attr : Ptr) (linuxClockId : Word)
  | condattrGetpshared (attr : Ptr)
  | condattrSetpshared (attr : Ptr) (linuxPshared : Word)
  | condInit (cond : Ptr) (attr : Option Ptr) (err : Errno)
  | barrierattrInit (attr : Ptr)
  | barrierattrDestroy (attr : Ptr)
  | barrierattrGetpshared (attr : Ptr)
  | barrierattrSetpshared (attr : Ptr) (linuxPshared : Word)
  | barrierInit (barrier : Ptr) (attr : Option Ptr) (count : Word) (err : Errno)

/-- What is returned, the value that was asked for, and what was made. -/
structure WaitAnswer where
  ret : Errno
  value : Option Word := none
  made : Option WaitInit := none

/-- The words of the objects. -/
structure WaitMem where
  condattrs : Ptr → Word
  barrierattrs : Ptr → Word

namespace WaitMem

def putCondattr (m : WaitMem) (attr : Ptr) (w : Word) : WaitMem :=
  { m with condattrs := Function.update m.condattrs attr w }

def putBarrierattr (m : WaitMem) (attr : Ptr) (w : Word) : WaitMem :=
  { m with barrierattrs := Function.update m.barrierattrs attr w }

def exec (c : WaitCall) (m : WaitMem) : Outcome (WaitAnswer × WaitMem) :=
  match c with
  | .condattrInit attr => return ({ ret := 0 }, m.putCondattr attr 0)
  | .condattrDestroy _ => return ({ ret := 0 }, m)
  | .condattrGetclock attr =>
      return ({ ret := 0, value := some (shimPthreadCondattrGetclock (m.condattrs attr)) }, m)
  | .condattrSetclock attr linuxClockId =>
      match shimPthreadCondattrSetclock (m.condattrs attr) linuxClockId with
      | .ok w => return ({ ret := 0 }, m.putCondattr attr w)
      | .error e => return ({ ret := e }, m)
  | .condattrGetpshared attr =>
      return ({ ret := 0, value := some (shimPthreadCondattrGetpshared (m.condattrs attr)) }, m)
  | .condattrSetpshared attr linuxPshared => do
      let w ← shimPthreadCondattrSetpshared (m.condattrs attr) linuxPshared
      return ({ ret := 0 }, m.putCondattr attr w)
  | .condInit cond attr err =>
      return ({ ret := err, made := shimPthreadCondInit cond (attr.map m.condattrs) }, m)
  | .barrierattrInit attr => return ({ ret := 0 }, m.putBarrierattr attr 0)
  | .barrierattrDestroy _ => return ({ ret := 0 }, m)
  | .barrierattrGetpshared attr =>
      return ({ ret := 0,
                value := some (shimPthreadBarrierattrGetpshared (m.barrierattrs attr)) }, m)
  | .barrierattrSetpshared attr linuxPshared => do
      let w ← shimPthreadBarrierattrSetpshared (m.barrierattrs attr) linuxPshared
      return ({ ret := 0 }, m.putBarrierattr attr w)
  | .barrierInit barrier attr count err =>
      return ({ ret := err,
                made := shimPthreadBarrierInit barrier (attr.map m.barrierattrs) count }, m)

end WaitMem

/-! ## Objects as records -/

inductive WaitClock where
  | realtime
  | monotonic
deriving DecidableEq

namespace WaitClock

def linux : WaitClock → Word
  | .realtime => linuxClockRealtime
  | .monotonic => linuxClockMonotonic

def native : WaitClock → Word
  | .realtime => clockRealtime
  | .monotonic => clockMonotonic

end WaitClock

inductive Sharing where
  | processPrivate
  | processShared
deriving DecidableEq

namespace Sharing

def linux : Sharing → Word
  | .processPrivate => linuxPthreadProcessPrivate
  | .processShared => linuxPthreadProcessShared

def native : Sharing → Word
  | .processPrivate => pthreadProcessPrivate
  | .processShared => pthreadProcessShared

end Sharing

structure CondattrSpec where
  clock : WaitClock := .realtime
  sharing : Sharing := .processPrivate

structure BarrierattrSpec where
  sharing : Sharing := .processPrivate

def CondattrSpec.native (attr : CondattrSpec) : NativeCondattr :=
  ⟨attr.clock.native, attr.sharing.native⟩

def BarrierattrSpec.native (attr : BarrierattrSpec) : NativeBarrierattr :=
  ⟨attr.sharing.native⟩

/-- The clock for a number, if a condition variable may have it. -/
def WaitClock.ofLinux (w : Word) : Except Errno WaitClock :=
  if w = linuxClockRealtime then .ok .realtime
  else if w = linuxClockMonotonic then .ok .monotonic
  else .error einval

/-- For another number the process is stopped. -/
def Sharing.ofLinux (w : Word) : Outcome Sharing :=
  if w = linuxPthreadProcessPrivate then .ok .processPrivate
  else if w = linuxPthreadProcessShared then .ok .processShared
  else .error .abort

/-- The records of the objects. -/
structure WaitSpec where
  condattrs : Ptr → CondattrSpec
  barrierattrs : Ptr → BarrierattrSpec

namespace WaitSpec

def putCondattr (s : WaitSpec) (attr : Ptr) (a : CondattrSpec) : WaitSpec :=
  { s with condattrs := Function.update s.condattrs attr a }

def putBarrierattr (s : WaitSpec) (attr : Ptr) (a : BarrierattrSpec) : WaitSpec :=
  { s with barrierattrs := Function.update s.barrierattrs attr a }

/-- A getter gives a field and a setter changes one field of one object. -/
def exec (c : WaitCall) (s : WaitSpec) : Outcome (WaitAnswer × WaitSpec) :=
  match c with
  | .condattrInit attr => return ({ ret := 0 }, s.putCondattr attr {})
  | .condattrDestroy _ | .barrierattrDestroy _ => return ({ ret := 0 }, s)
  | .condattrGetclock attr =>
      return ({ ret := 0, value := some (s.condattrs attr).clock.linux }, s)
  | .condattrSetclock attr linuxClockId =>
      match WaitClock.ofLinux linuxClockId with
      | .ok clock => return ({ ret := 0 }, s.putCondattr attr { s.condattrs attr with clock })
      | .error e => return ({ ret := e }, s)
  | .condattrGetpshared attr =>
      return ({ ret := 0, value := some (s.condattrs attr).sharing.linux }, s)
  | .condattrSetpshared attr linuxPshared => do
      let sharing ← Sharing.ofLinux linuxPshared
      return ({ ret := 0 }, s.putCondattr attr { s.condattrs attr with sharing })
  | .condInit cond attr err =>
      return ({ ret := err,
                made := some (.cond cond (attr.map fun a => (s.condattrs a).native)) }, s)
  | .barrierattrInit attr => return ({ ret := 0 }, s.putBarrierattr attr {})
  | .barrierattrGetpshared attr =>
      return ({ ret := 0, value := some (s.barrierattrs attr).sharing.linux }, s)
  | .barrierattrSetpshared attr linuxPshared => do
      let sharing ← Sharing.ofLinux linuxPshared
      return ({ ret := 0 }, s.putBarrierattr attr { s.barrierattrs attr with sharing })
  | .barrierInit barrier attr count err =>
      return ({ ret := err, made := some (.barrier barrier
        (attr.map fun a => (s.barrierattrs a).native) count) }, s)

end WaitSpec

/-! ## The record of a word -/

def sharingOf (flag attr : Word) : Sharing :=
  if attr &&& flag ≠ 0 then .processShared else .processPrivate

def condattrOf (attr : Word) : CondattrSpec where
  clock := if attr &&& shimCondattrMonotonic ≠ 0 then .monotonic else .realtime
  sharing := sharingOf shimCondattrShared attr

def barrierattrOf (attr : Word) : BarrierattrSpec where
  sharing := sharingOf shimBarrierattrShared attr

def WaitMem.spec (m : WaitMem) : WaitSpec where
  condattrs attr := condattrOf (m.condattrs attr)
  barrierattrs attr := barrierattrOf (m.barrierattrs attr)

section Flags

variable {flag flag' : Word} {i j : Nat} {on : Prop} [Decidable on]

theorem and_flag_ne_zero (hflag : flag = BitVec.twoPow 32 i) (hi : i < 32) (attr : Word) :
    attr &&& flag ≠ 0 ↔ attr.getLsbD i = true := by
  rw [← and_bit_ne_zero hflag hi, decide_eq_true_iff]

/-- A flag that is put is as it was put. -/
theorem putFlag_self (hflag : flag = BitVec.twoPow 32 i) (hi : i < 32) (attr : Word) :
    putFlag flag on attr &&& flag ≠ 0 ↔ on := by
  rw [and_flag_ne_zero hflag hi, putFlag, hflag]
  split <;> simp [*]

/-- Another is as it was. -/
theorem putFlag_other (hflag : flag = BitVec.twoPow 32 i) (hflag' : flag' = BitVec.twoPow 32 j)
    (hj : j < 32) (hij : i ≠ j) (attr : Word) :
    putFlag flag on attr &&& flag' ≠ 0 ↔ attr &&& flag' ≠ 0 := by
  rw [and_flag_ne_zero hflag' hj, and_flag_ne_zero hflag' hj, putFlag, hflag]
  split <;> simp [hj, hij.symm]

end Flags

theorem condattrMonotonic_eq : shimCondattrMonotonic = BitVec.twoPow 32 0 := rfl
theorem condattrShared_eq : shimCondattrShared = BitVec.twoPow 32 1 := rfl
theorem barrierattrShared_eq : shimBarrierattrShared = BitVec.twoPow 32 0 := rfl

/-- Setting the clock of an object leaves who shares it. -/
theorem condattrOf_putMonotonic (on : Prop) [Decidable on] (attr : Word) :
    condattrOf (putFlag shimCondattrMonotonic on attr) =
      { condattrOf attr with clock := if on then .monotonic else .realtime } := by
  simp only [condattrOf, sharingOf, putFlag_self condattrMonotonic_eq (by decide),
    putFlag_other condattrMonotonic_eq condattrShared_eq (by decide) (by decide)]

/-- Setting who shares an object leaves its clock. -/
theorem condattrOf_putShared (on : Prop) [Decidable on] (attr : Word) :
    condattrOf (putFlag shimCondattrShared on attr) =
      { condattrOf attr with sharing := if on then .processShared else .processPrivate } := by
  simp only [condattrOf, sharingOf, putFlag_self condattrShared_eq (by decide),
    putFlag_other condattrShared_eq condattrMonotonic_eq (by decide) (by decide)]

theorem barrierattrOf_putShared (on : Prop) [Decidable on] (attr : Word) :
    barrierattrOf (putFlag shimBarrierattrShared on attr) =
      ⟨if on then .processShared else .processPrivate⟩ := by
  simp only [barrierattrOf, sharingOf, putFlag_self barrierattrShared_eq (by decide)]

/-! ## The calls -/

section Calls

variable {m : WaitMem}

theorem spec_putCondattr (attr : Ptr) (w : Word) :
    (m.putCondattr attr w).spec = m.spec.putCondattr attr (condattrOf w) := by
  unfold WaitMem.spec WaitSpec.putCondattr WaitMem.putCondattr
  congr
  ext p : 1
  exact Function.apply_update (fun _ => condattrOf) m.condattrs attr w p

theorem spec_putBarrierattr (attr : Ptr) (w : Word) :
    (m.putBarrierattr attr w).spec = m.spec.putBarrierattr attr (barrierattrOf w) := by
  unfold WaitMem.spec WaitSpec.putBarrierattr WaitMem.putBarrierattr
  congr
  ext p : 1
  exact Function.apply_update (fun _ => barrierattrOf) m.barrierattrs attr w p

theorem getPshared_eq (flag attr : Word) : getPshared flag attr = (sharingOf flag attr).linux := by
  rw [getPshared, flagValue, sharingOf]
  split <;> rfl

theorem getclock_eq (attr : Word) :
    shimPthreadCondattrGetclock attr = (condattrOf attr).clock.linux := by
  simp only [shimPthreadCondattrGetclock, flagValue, condattrOf]
  split <;> rfl

/-- The native object is made from the record. -/
theorem condInit_eq (cond : Ptr) (attr : Option Ptr) :
    shimPthreadCondInit cond (attr.map m.condattrs) =
      .cond cond (attr.map fun a => (m.spec.condattrs a).native) := by
  cases attr with
  | none => rfl
  | some attr =>
      simp only [shimPthreadCondInit, Option.map_some, WaitMem.spec, condattrOf, sharingOf,
        CondattrSpec.native]
      congr 2
      split <;> split <;> rfl

theorem barrierInit_eq (barrier : Ptr) (attr : Option Ptr) (count : Word) :
    shimPthreadBarrierInit barrier (attr.map m.barrierattrs) count =
      .barrier barrier (attr.map fun a => (m.spec.barrierattrs a).native) count := by
  cases attr with
  | none => rfl
  | some attr =>
      simp only [shimPthreadBarrierInit, Option.map_some, WaitMem.spec, barrierattrOf,
        sharingOf, BarrierattrSpec.native]
      congr 2
      split <;> rfl

/-- What is set is a flag that is put, for the numbers there are. -/
theorem setPshared_eq (flag attr linuxPshared : Word) :
    setPshared flag attr linuxPshared = (Sharing.ofLinux linuxPshared).map fun sharing =>
      putFlag flag (sharing = .processShared) attr := by
  have hne : linuxPthreadProcessPrivate ≠ linuxPthreadProcessShared := by decide
  rw [setPshared, Sharing.ofLinux]
  by_cases hprivate : linuxPshared = linuxPthreadProcessPrivate
  · rw [require_of (.inl hprivate), if_pos hprivate, hprivate]
    simp [Except.map, hne]
  · rw [if_neg hprivate]
    by_cases hshared : linuxPshared = linuxPthreadProcessShared
    · rw [require_of (.inr hshared), if_pos hshared]
      simp [Except.map, hshared]
    · rw [require_of_not fun h => h.elim hprivate hshared, if_neg hshared]
      rfl

theorem setclock_eq (attr linuxClockId : Word) :
    shimPthreadCondattrSetclock attr linuxClockId =
      (WaitClock.ofLinux linuxClockId).map fun clock =>
        putFlag shimCondattrMonotonic (clock = .monotonic) attr := by
  have hne : linuxClockRealtime ≠ linuxClockMonotonic := by decide
  rw [shimPthreadCondattrSetclock, WaitClock.ofLinux]
  by_cases hreal : linuxClockId = linuxClockRealtime
  · rw [if_neg fun h => h.1 hreal, if_pos hreal, hreal]
    simp [Except.map, hne]
  · rw [if_neg hreal]
    by_cases hmono : linuxClockId = linuxClockMonotonic
    · rw [if_neg fun h => h.2 hmono, if_pos hmono]
      simp [Except.map, hmono]
    · rw [if_pos ⟨hreal, hmono⟩, if_neg hmono]
      rfl

theorem spec_exec (c : WaitCall) :
    Matches (fun m s => s = m.spec) (WaitMem.exec c m) (WaitSpec.exec c m.spec) := by
  cases c with
  | condattrInit attr => exact ⟨rfl, (spec_putCondattr attr 0).symm⟩
  | condattrDestroy attr => exact ⟨rfl, rfl⟩
  | condattrGetclock attr =>
      refine ⟨?_, rfl⟩
      rw [getclock_eq]
      rfl
  | condattrSetclock attr linuxClockId =>
      simp only [WaitMem.exec, WaitSpec.exec, setclock_eq]
      cases WaitClock.ofLinux linuxClockId with
      | error e => exact ⟨rfl, rfl⟩
      | ok clock =>
          refine ⟨rfl, ((spec_putCondattr attr _).trans ?_).symm⟩
          rw [condattrOf_putMonotonic]
          cases clock <;> rfl
  | condattrGetpshared attr =>
      refine ⟨?_, rfl⟩
      rw [shimPthreadCondattrGetpshared, getPshared_eq]
      rfl
  | condattrSetpshared attr linuxPshared =>
      simp only [WaitMem.exec, WaitSpec.exec, shimPthreadCondattrSetpshared, setPshared_eq]
      cases Sharing.ofLinux linuxPshared with
      | error e => rfl
      | ok sharing =>
          refine ⟨rfl, ((spec_putCondattr attr _).trans ?_).symm⟩
          rw [condattrOf_putShared]
          cases sharing <;> rfl
  | condInit cond attr err =>
      refine ⟨?_, rfl⟩
      rw [condInit_eq]
  | barrierattrInit attr => exact ⟨rfl, (spec_putBarrierattr attr 0).symm⟩
  | barrierattrDestroy attr => exact ⟨rfl, rfl⟩
  | barrierattrGetpshared attr =>
      refine ⟨?_, rfl⟩
      rw [shimPthreadBarrierattrGetpshared, getPshared_eq]
      rfl
  | barrierattrSetpshared attr linuxPshared =>
      simp only [WaitMem.exec, WaitSpec.exec, shimPthreadBarrierattrSetpshared, setPshared_eq]
      cases Sharing.ofLinux linuxPshared with
      | error e => rfl
      | ok sharing =>
          refine ⟨rfl, ((spec_putBarrierattr attr _).trans ?_).symm⟩
          rw [barrierattrOf_putShared]
          cases sharing <;> rfl
  | barrierInit barrier attr count err =>
      refine ⟨?_, rfl⟩
      rw [barrierInit_eq]

/-- Every record is that of some word. -/
theorem exists_condattr (a : CondattrSpec) : ∃ w, condattrOf w = a := by
  obtain ⟨clock, sharing⟩ := a
  cases clock <;> cases sharing
  · exact ⟨0, rfl⟩
  · exact ⟨shimCondattrShared, rfl⟩
  · exact ⟨shimCondattrMonotonic, rfl⟩
  · exact ⟨shimCondattrMonotonic ||| shimCondattrShared, rfl⟩

theorem exists_barrierattr (a : BarrierattrSpec) : ∃ w, barrierattrOf w = a := by
  obtain ⟨sharing⟩ := a
  cases sharing
  · exact ⟨0, rfl⟩
  · exact ⟨shimBarrierattrShared, rfl⟩

theorem exists_waitMem (s : WaitSpec) : ∃ m : WaitMem, m.spec = s := by
  choose condattrs hcond using fun p => exists_condattr (s.condattrs p)
  choose barrierattrs hbarrier using fun p => exists_barrierattr (s.barrierattrs p)
  exact ⟨⟨condattrs, barrierattrs⟩, congrArg₂ WaitSpec.mk (funext hcond) (funext hbarrier)⟩

/-- In every order of calls, on any number of objects, whatever is in memory
at first: a getter gives what was last set, a setter changes its own attribute
of its own object, or refuses, or stops the process, and condition variables
and barriers are made with just what was set. -/
theorem waitAttrs_traces (tr : List (WaitCall × Outcome WaitAnswer)) :
    Traces (Begins fun _ => True) (CallStep WaitMem.exec) some tr ↔
      Traces (Begins fun _ => True) (CallStep WaitSpec.exec) some tr := by
  refine traces_iff_of_matches (R := fun m s => s = m.spec) (fun m _ => ⟨m.spec, trivial, rfl⟩)
    ?_ ?_ some tr
  · intro s _
    obtain ⟨m, hm⟩ := exists_waitMem s
    exact ⟨m, trivial, hm.symm⟩
  · rintro c m _ rfl
    exact spec_exec c

end Calls

end Libc6Shim
