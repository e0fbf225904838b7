import Libc6Shim.CSemBitSets
import Libc6Shim.CSemTraces
import Libc6Shim.Signals

/-!
# Signal sets and masks

`sigemptyset` and its companions of `src/libc/signal.c` work on a Linux set
in place: the native set is its first 16 bytes. A signal the shim has no
native number for is handed on as `-1`, which the native functions refuse.
`sigprocmask`, and `pthread_sigmask` of `src/libthr/pthread.c`, hand the set
to the kernel, which never blocks the signals in `cant`.

POSIX says what all of this does in terms of sets of signals
(`PosixMasks.exec`). Linux code that sees no more than what the calls return
cannot tell the shim from that, with the signals the shim accepts for the
signals there are (`signalMasks_traces`).
-/

namespace Libc6Shim

open CSem Outcome

/-! ## The native library -/

/-- `_SIG_VALID` -/
def SigValid (signo : Int) : Prop := 0 < signo ∧ signo ≤ 128

instance : DecidablePred SigValid := fun _ => inferInstanceAs (Decidable (_ ∧ _))

/-- `_SIG_BIT(signo)`, in its word. -/
def sigBit (signo : Int) : Sigset := BitVec.twoPow 128 (signo - 1).toNat

def sigaddset (set : Sigset) (signo : Int) : Except Errno Sigset :=
  if SigValid signo then .ok (set ||| sigBit signo) else .error einval

def sigdelset (set : Sigset) (signo : Int) : Except Errno Sigset :=
  if SigValid signo then .ok (set &&& ~~~sigBit signo) else .error einval

def sigismember (set : Sigset) (signo : Int) : Except Errno Bool :=
  if SigValid signo then .ok (set.getLsbD (signo - 1).toNat) else .error einval

/-- `SIG_BLOCK`, `SIG_UNBLOCK` and `SIG_SETMASK`. -/
inductive MaskHow where
  | block
  | unblock
  | setmask

/-- The mask of a thread after `sigprocmask(how, set, ..)`. -/
def MaskHow.apply (cant : Sigset) : MaskHow → Sigset → Sigset → Sigset
  | .block, set, mask => mask ||| (set &&& ~~~cant)
  | .unblock, set, mask => mask &&& ~~~set
  | .setmask, set, _ => set &&& ~~~cant

/-! ## The shim's functions -/

/-- `(sigset_t*)set` -/
def LinuxSigset.native (set : LinuxSigset) : Sigset := set.setWidth 128

def shimSigemptyset (set : LinuxSigset) : LinuxSigset := set.overwrite 0

def shimSigfillset (set : LinuxSigset) : LinuxSigset :=
  set.overwrite (BitVec.allOnes 128)

/-- `pending` is what the kernel finds. -/
def shimSigpending (pending : Sigset) (set : LinuxSigset) : LinuxSigset :=
  set.overwrite pending

def shimSigaddset (set : LinuxSigset) (linuxSigno : Int) : Except Errno LinuxSigset :=
  (sigaddset set.native (linuxToFreebsdSigno linuxSigno)).map set.overwrite

def shimSigdelset (set : LinuxSigset) (linuxSigno : Int) : Except Errno LinuxSigset :=
  (sigdelset set.native (linuxToFreebsdSigno linuxSigno)).map set.overwrite

def shimSigismember (set : LinuxSigset) (linuxSigno : Int) : Except Errno Bool :=
  sigismember set.native (linuxToFreebsdSigno linuxSigno)

def linuxSigBlock : Int := 0
def linuxSigUnblock : Int := 1
def linuxSigSetmask : Int := 2

/-- The `switch` of both functions. -/
def maskHow (linuxHow : Int) : Outcome MaskHow :=
  if linuxHow = linuxSigBlock then .ok .block
  else if linuxHow = linuxSigUnblock then .ok .unblock
  else if linuxHow = linuxSigSetmask then .ok .setmask
  else .error .abort

/-- The mask of the thread afterwards, and `*oset`. -/
def changeMask (cant : Sigset) (linuxHow : Int) (set oset : Option LinuxSigset)
    (mask : Sigset) : Outcome (Sigset × Option LinuxSigset) := do
  let how ← maskHow linuxHow
  return (set.elim mask fun set => how.apply cant set.native mask,
    oset.map (·.overwrite mask))

def shimSigprocmask := changeMask

def shimPthreadSigmask := changeMask

/-! ## A process -/

inductive MaskCall where
  | sigemptyset (set : Ptr)
  | sigfillset (set : Ptr)
  | sigpending (set : Ptr)
  | sigaddset (set : Ptr) (signo : Int)
  | sigdelset (set : Ptr) (signo : Int)
  | sigismember (set : Ptr) (signo : Int)
  | sigprocmask (how : Int) (set oset : Option Ptr)
  | pthreadSigmask (how : Int) (set oset : Option Ptr)

/-- What a call returns: a number, or `-1` and an error. -/
abbrev MaskResult := Except Errno Int

/-- The sets of a process, and the masks of its threads. -/
structure MaskState where
  sets : Ptr → LinuxSigset
  masks : Nat → Sigset

namespace MaskState

/-- A set is written, or there was an error. -/
def store (s : MaskState) (set : Ptr) : Except Errno LinuxSigset → MaskResult × MaskState
  | .ok value => (.ok 0, { s with sets := Function.update s.sets set value })
  | .error e => (.error e, s)

/-- `thread` changes its mask. -/
def setMask (s : MaskState) (thread : Nat) (oset : Option Ptr) :
    Sigset × Option LinuxSigset → MaskState
  | (mask, old) =>
    { sets := match oset, old with
        | some oset, some old => Function.update s.sets oset old
        | _, _ => s.sets
      masks := Function.update s.masks thread mask }

/-- A call of `thread`. -/
def exec (cant pending : Sigset) (thread : Nat) (s : MaskState) :
    MaskCall → Outcome (MaskResult × MaskState)
  | .sigemptyset set => return s.store set (.ok (shimSigemptyset (s.sets set)))
  | .sigfillset set => return s.store set (.ok (shimSigfillset (s.sets set)))
  | .sigpending set => return s.store set (.ok (shimSigpending pending (s.sets set)))
  | .sigaddset set signo => return s.store set (shimSigaddset (s.sets set) signo)
  | .sigdelset set signo => return s.store set (shimSigdelset (s.sets set) signo)
  | .sigismember set signo =>
      return ((shimSigismember (s.sets set) signo).map fun b => if b then 1 else 0, s)
  | .sigprocmask how set oset => do
      let r ← shimSigprocmask cant how (set.map s.sets) (oset.map s.sets) (s.masks thread)
      return (.ok 0, s.setMask thread oset r)
  | .pthreadSigmask how set oset => do
      let r ← shimPthreadSigmask cant how (set.map s.sets) (oset.map s.sets) (s.masks thread)
      return (.ok 0, s.setMask thread oset r)

end MaskState

/-- A call, with what the kernel finds pending; or a new thread, which has the
mask of the one that made it. -/
inductive MaskEvent where
  | call (thread : Nat) (c : MaskCall) (pending : Sigset) (result : Outcome MaskResult)
  | spawn (parent child : Nat)

/-- A process that is stopped has no state. -/
inductive MaskStep (cant : Sigset) : Option MaskState → MaskEvent → Option MaskState → Prop
  | call {s s' : MaskState} {thread : Nat} {c : MaskCall} {pending : Sigset} {r : MaskResult} :
      s.exec cant pending thread c = .ok (r, s') →
      MaskStep cant (some s) (.call thread c pending (.ok r)) (some s')
  | stop {s : MaskState} {thread : Nat} {c : MaskCall} {pending : Sigset} {e : Stop} :
      s.exec cant pending thread c = .error e →
      MaskStep cant (some s) (.call thread c pending (.error e)) none
  | spawn {s : MaskState} (parent child : Nat) :
      MaskStep cant (some s) (.spawn parent child)
        (some { s with masks := Function.update s.masks child (s.masks parent) })

/-- What the process sees of an event: not what was found pending. -/
inductive MaskSeen where
  | call (thread : Nat) (c : MaskCall) (result : Outcome MaskResult)
  | spawn (parent child : Nat)

def MaskEvent.seen : MaskEvent → Option MaskSeen
  | .call thread c _ result => some (.call thread c result)
  | .spawn parent child => some (.spawn parent child)

/-! ## The same in terms of sets -/

/-- The signals in the sets, and those that are blocked. -/
structure PosixMasks where
  sets : Ptr → Set Int
  masks : Nat → Set Int

namespace PosixMasks

variable (valid : Int → Prop) (cant : Set Int)

/-- A mask after a call with a set: `how` is 0 for `SIG_BLOCK`, 1 for
`SIG_UNBLOCK` and 2 for `SIG_SETMASK`. -/
def masked (how : Int) (set mask : Set Int) : Set Int :=
  if how = 0 then mask ∪ (set \ cant)
  else if how = 1 then mask \ set
  else set \ cant

/-- There is no other `how`: the process is stopped, even if there is no set,
where POSIX does not look at it. -/
def change (how : Int) (set oset : Option Ptr) (thread : Nat) (s : PosixMasks) :
    Outcome (MaskResult × PosixMasks) :=
  if how = 0 ∨ how = 1 ∨ how = 2 then
    .ok (.ok 0,
      { sets := oset.elim s.sets fun oset => Function.update s.sets oset (s.masks thread)
        masks := Function.update s.masks thread
          (set.elim (s.masks thread) fun set =>
            masked cant how (s.sets set) (s.masks thread)) })
  else .error .abort

open Classical in
/-- A call of `thread` where the signals are those that are `valid`. -/
noncomputable def exec (pending : Set Int) (thread : Nat) (s : PosixMasks) :
    MaskCall → Outcome (MaskResult × PosixMasks)
  | .sigemptyset set => return (.ok 0, { s with sets := Function.update s.sets set ∅ })
  | .sigfillset set =>
      return (.ok 0, { s with sets := Function.update s.sets set {n | valid n} })
  | .sigpending set => return (.ok 0, { s with sets := Function.update s.sets set pending })
  | .sigaddset set signo =>
      if valid signo then
        return (.ok 0, { s with sets := Function.update s.sets set (s.sets set ∪ {signo}) })
      else return (.error einval, s)
  | .sigdelset set signo =>
      if valid signo then
        return (.ok 0, { s with sets := Function.update s.sets set (s.sets set \ {signo}) })
      else return (.error einval, s)
  | .sigismember set signo =>
      if valid signo then return (.ok (if signo ∈ s.sets set then 1 else 0), s)
      else return (.error einval, s)
  | .sigprocmask how set oset => s.change cant how set oset thread
  | .pthreadSigmask how set oset => s.change cant how set oset thread

end PosixMasks

inductive PosixEvent where
  | call (thread : Nat) (c : MaskCall) (pending : Set Int) (result : Outcome MaskResult)
  | spawn (parent child : Nat)

def PosixEvent.seen : PosixEvent → Option MaskSeen
  | .call thread c _ result => some (.call thread c result)
  | .spawn parent child => some (.spawn parent child)

inductive PosixStep (valid : Int → Prop) (cant : Set Int) :
    Option PosixMasks → PosixEvent → Option PosixMasks → Prop
  | call {s s' : PosixMasks} {thread : Nat} {c : MaskCall} {pending : Set Int}
      {r : MaskResult} : (∀ n ∈ pending, valid n) →
      s.exec valid cant pending thread c = .ok (r, s') →
      PosixStep valid cant (some s) (.call thread c pending (.ok r)) (some s')
  | stop {s : PosixMasks} {thread : Nat} {c : MaskCall} {pending : Set Int} {e : Stop} :
      (∀ n ∈ pending, valid n) →
      s.exec valid cant pending thread c = .error e →
      PosixStep valid cant (some s) (.call thread c pending (.error e)) none
  | spawn {s : PosixMasks} (parent child : Nat) :
      PosixStep valid cant (some s) (.spawn parent child)
        (some { s with masks := Function.update s.masks child (s.masks parent) })

/-! ## The signals of Linux code -/

/-- The shim has a native number for the signal, which may be in a set. -/
def SignalAccepted (n : Int) : Prop := Supported n ∧ 0 < n

theorem Supported.le {n : Int} (h : Supported n) : n ≤ 126 := by
  unfold Supported linuxToFreebsdSigno at h
  have h30 : linuxSigpwr = 30 := rfl
  have h126 : sigrtmax = 126 := rfl
  split at h
  · omega
  · split at h
    · omega
    · exact absurd rfl h

/-- What `linux_to_freebsd_signo` gives is a native signal just for those. -/
theorem sigValid_signo {n : Int} : SigValid (linuxToFreebsdSigno n) ↔ SignalAccepted n := by
  by_cases h : Supported n
  · rw [linuxToFreebsdSigno_of_supported h]
    exact ⟨fun hn => ⟨h, hn.1⟩, fun hn => ⟨hn.2, by have := h.le; omega⟩⟩
  · have hminus : linuxToFreebsdSigno n = -1 := not_not.mp h
    rw [hminus]
    exact iff_of_false (by decide) fun hn => h hn.1

def acceptedNames : BitNames Int 128 where
  named := SignalAccepted
  bit n := (n - 1).toNat
  bit_lt n hn := by
    have := hn.1.le
    have := hn.2
    omega
  bit_inj n m hn hm heq := by
    have := hn.2
    have := hm.2
    omega

/-- The accepted signals in a native set. -/
def Sigset.linux (set : Sigset) : Set Int := acceptedNames.members set

theorem linux_sigBit {n : Int} (hn : SignalAccepted n) : Sigset.linux (sigBit n) = {n} :=
  BitNames.members_twoPow (N := acceptedNames) hn

@[simp] theorem LinuxSigset.native_overwrite (set : LinuxSigset) (src : Sigset) :
    (set.overwrite src).native = src := by
  refine BitVec.eq_of_getLsbD_eq fun i hi => ?_
  rw [LinuxSigset.native, LinuxSigset.overwrite, BitVec.getLsbD_setWidth,
    decide_eq_true hi, Bool.true_and, BitVec.getLsbD_append, if_pos hi]

/-- What there is of a process in terms of accepted signals. -/
def MaskState.posix (s : MaskState) : PosixMasks where
  sets set := (s.sets set).native.linux
  masks thread := (s.masks thread).linux

section Refinement

variable {s : MaskState} {cant pending : Sigset} {thread : Nat}

theorem posix_store (set : Ptr) (value : LinuxSigset) :
    MaskState.posix { s with sets := Function.update s.sets set value } =
      { s.posix with sets := Function.update s.posix.sets set value.native.linux } := by
  unfold MaskState.posix
  congr
  ext p : 1
  by_cases hp : p = set
  · subst hp
    simp only [Function.update_self]
  · simp only [Function.update_of_ne hp]

theorem maskHow_cases (how : Int) :
    (how = 0 ∧ maskHow how = .ok .block) ∨ (how = 1 ∧ maskHow how = .ok .unblock) ∨
      (how = 2 ∧ maskHow how = .ok .setmask) ∨
      (¬(how = 0 ∨ how = 1 ∨ how = 2) ∧ maskHow how = .error .abort) := by
  unfold maskHow linuxSigBlock linuxSigUnblock linuxSigSetmask
  split
  · exact .inl ⟨‹_›, rfl⟩
  · split
    · exact .inr (.inl ⟨‹_›, rfl⟩)
    · split
      · exact .inr (.inr (.inl ⟨‹_›, rfl⟩))
      · exact .inr (.inr (.inr ⟨by simp [*], rfl⟩))

theorem linux_apply {linuxHow : Int} {how : MaskHow} (hhow : maskHow linuxHow = .ok how)
    (set mask : Sigset) :
    (how.apply cant set mask).linux =
      PosixMasks.masked cant.linux linuxHow set.linux mask.linux := by
  unfold Sigset.linux
  rcases maskHow_cases linuxHow with ⟨rfl, h⟩ | ⟨rfl, h⟩ | ⟨rfl, h⟩ | ⟨-, h⟩
  all_goals cases hhow.symm.trans h
  all_goals simp [MaskHow.apply, PosixMasks.masked]

theorem posix_update_mask (s : MaskState) (thread : Nat) (mask : Sigset) :
    MaskState.posix { s with masks := Function.update s.masks thread mask } =
      { s.posix with masks := Function.update s.posix.masks thread mask.linux } := by
  unfold MaskState.posix
  congr
  ext t : 1
  by_cases ht : t = thread
  · subst ht
    simp only [Function.update_self]
  · simp only [Function.update_of_ne ht]

/-- The mask and the set with the old one are written. -/
theorem posix_setMask {oset : Option Ptr} {old : Option LinuxSigset}
    (hsome : old.isSome = oset.isSome) (hold : ∀ v ∈ old, v.native = s.masks thread)
    (mask : Sigset) :
    (s.setMask thread oset (mask, old)).posix =
      { sets := oset.elim s.posix.sets fun oset =>
          Function.update s.posix.sets oset (s.posix.masks thread)
        masks := Function.update s.posix.masks thread mask.linux } := by
  cases oset with
  | none => exact posix_update_mask s thread mask
  | some oset =>
      obtain ⟨v, rfl⟩ := Option.isSome_iff_exists.mp hsome
      have hsets := posix_store (s := s) oset v
      rw [hold v rfl] at hsets
      have hmask := posix_update_mask { s with sets := Function.update s.sets oset v } thread mask
      rw [hsets] at hmask
      exact hmask

/-- A change of a mask. -/
theorem posix_change (how : Int) (set oset : Option Ptr) :
    s.posix.change cant.linux how set oset thread =
      ((changeMask cant how (set.map s.sets) (oset.map s.sets) (s.masks thread)) >>= fun r =>
        .ok (.ok 0, s.setMask thread oset r)).map (Prod.map id MaskState.posix) := by
  rw [PosixMasks.change, changeMask]
  cases hhow : maskHow how with
  | error e =>
      obtain ⟨-, h⟩ | ⟨-, h⟩ | ⟨-, h⟩ | ⟨hnone, h⟩ := maskHow_cases how
      all_goals cases hhow.symm.trans h
      rw [if_neg hnone]
      rfl
  | ok how' =>
      have hthere : how = 0 ∨ how = 1 ∨ how = 2 := by
        obtain ⟨h, -⟩ | ⟨h, -⟩ | ⟨h, -⟩ | ⟨-, h⟩ := maskHow_cases how
        · exact .inl h
        · exact .inr (.inl h)
        · exact .inr (.inr h)
        · cases hhow.symm.trans h
      have hmask : Sigset.linux ((set.map s.sets).elim (s.masks thread)
          fun set => how'.apply cant set.native (s.masks thread)) =
          set.elim (s.posix.masks thread) fun set =>
            PosixMasks.masked cant.linux how (s.posix.sets set) (s.posix.masks thread) := by
        cases set with
        | none => rfl
        | some set => exact linux_apply hhow _ _
      have hold : ∀ v ∈ (oset.map s.sets).map (·.overwrite (s.masks thread)),
          v.native = s.masks thread := by
        intro v hv
        obtain ⟨w, -, rfl⟩ := Option.map_eq_some_iff.mp hv
        exact LinuxSigset.native_overwrite w _
      rw [if_pos hthere]
      simp only [ok_bind, pure_eq, Except.map, Prod.map, id_eq]
      rw [← hmask, posix_setMask (by simp) hold]

theorem exists_of_map_ok {α β : Type} {x : Outcome α} {f : α → β} {b : β}
    (h : x.map f = .ok b) : ∃ a, x = .ok a ∧ f a = b := by
  cases x with
  | error e => cases h
  | ok a => exact ⟨a, rfl, Except.ok.inj h⟩

theorem error_of_map {α β : Type} {x : Outcome α} {f : α → β} {e : Stop}
    (h : x.map f = .error e) : x = .error e := by
  cases x with
  | error e' => exact congrArg _ (Except.error.inj h)
  | ok a => cases h

/-- A set that is written, or an error. -/
theorem posix_stored (set : Ptr) (value : LinuxSigset) {A : Set Int}
    (hA : value.native.linux = A) :
    (.ok (.ok 0, { s.posix with sets := Function.update s.posix.sets set A }) :
      Outcome (MaskResult × PosixMasks)) =
      (Except.ok (s.store set (.ok value))).map (Prod.map id MaskState.posix) := by
  show Except.ok _ = Except.ok _
  rw [← hA, MaskState.store, Prod.map, posix_store]
  rfl

/-- What the shim does is what POSIX says of the accepted signals. -/
theorem posix_exec (c : MaskCall) :
    s.posix.exec SignalAccepted cant.linux pending.linux thread c =
      (s.exec cant pending thread c).map (Prod.map id MaskState.posix) := by
  cases c with
  | sigemptyset set =>
      refine posix_stored set _ ?_
      rw [shimSigemptyset, LinuxSigset.native_overwrite]
      exact BitNames.members_zero
  | sigfillset set =>
      refine posix_stored set _ ?_
      rw [shimSigfillset, LinuxSigset.native_overwrite]
      exact BitNames.members_allOnes
  | sigpending set =>
      refine posix_stored set _ ?_
      rw [shimSigpending, LinuxSigset.native_overwrite]
  | sigaddset set signo =>
      rw [PosixMasks.exec, MaskState.exec, shimSigaddset, sigaddset]
      by_cases hn : SignalAccepted signo
      · rw [if_pos hn, if_pos (sigValid_signo.mpr hn),
          linuxToFreebsdSigno_of_supported hn.1]
        refine posix_stored set _ ?_
        rw [LinuxSigset.native_overwrite]
        exact BitNames.members_or.trans (congrArg _ (linux_sigBit hn))
      · rw [if_neg hn, if_neg (sigValid_signo.not.mpr hn)]
        rfl
  | sigdelset set signo =>
      rw [PosixMasks.exec, MaskState.exec, shimSigdelset, sigdelset]
      by_cases hn : SignalAccepted signo
      · rw [if_pos hn, if_pos (sigValid_signo.mpr hn),
          linuxToFreebsdSigno_of_supported hn.1]
        refine posix_stored set _ ?_
        rw [LinuxSigset.native_overwrite]
        exact BitNames.members_and_not.trans (congrArg _ (linux_sigBit hn))
      · rw [if_neg hn, if_neg (sigValid_signo.not.mpr hn)]
        rfl
  | sigismember set signo =>
      rw [PosixMasks.exec, MaskState.exec, shimSigismember, sigismember]
      by_cases hn : SignalAccepted signo
      · rw [if_pos hn, if_pos (sigValid_signo.mpr hn),
          linuxToFreebsdSigno_of_supported hn.1]
        have hmem : signo ∈ s.posix.sets set ↔
            (s.sets set).native.getLsbD (signo - 1).toNat :=
          BitNames.mem_members.trans (and_iff_right hn)
        show Except.ok _ = Except.ok _
        simp only [hmem]
        rfl
      · rw [if_neg hn, if_neg (sigValid_signo.not.mpr hn)]
        rfl
  | sigprocmask how set oset => exact posix_change how set oset
  | pthreadSigmask how set oset => exact posix_change how set oset

end Refinement

/-! ## What Linux code sees -/

section Traces

variable (cant : Sigset) (masks : Nat → Sigset)

/-- A process whose threads have the masks it was started with. The sets are
what is in its memory. -/
def MaskStart (s : Option MaskState) : Prop := ∃ p, s = some p ∧ p.masks = masks

def PosixStart (valid : Int → Prop) (masks : Nat → Set Int) (a : Option PosixMasks) : Prop :=
  ∃ p, a = some p ∧ p.masks = masks ∧ ∀ set, ∀ n ∈ p.sets set, valid n

theorem simulates_posix : Simulates (MaskStart masks) (MaskStep cant) MaskEvent.seen
    (PosixStart SignalAccepted fun t => (masks t).linux) (PosixStep SignalAccepted cant.linux)
    PosixEvent.seen fun s a => a = s.map MaskState.posix where
  start := by
    rintro _ ⟨s, rfl, rfl⟩
    exact ⟨_, ⟨s.posix, rfl, rfl, fun set n hn => hn.1⟩, rfl⟩
  step := by
    rintro _ _ _ _ rfl hstep
    cases hstep with
    | @call s s' thread c pending r hexec =>
        have hposix : s.posix.exec SignalAccepted cant.linux pending.linux thread c =
            (s.exec cant pending thread c).map (Prod.map id MaskState.posix) := posix_exec c
        rw [hexec] at hposix
        exact ⟨_, Shows.refl.seen (.call (fun n hn => hn.1) hposix) rfl, rfl⟩
    | @stop s thread c pending e hexec =>
        have hposix : s.posix.exec SignalAccepted cant.linux pending.linux thread c =
            (s.exec cant pending thread c).map (Prod.map id MaskState.posix) := posix_exec c
        rw [hexec] at hposix
        exact ⟨_, Shows.refl.seen (.stop (fun n hn => hn.1) hposix) rfl, rfl⟩
    | @spawn s parent child =>
        exact ⟨_, Shows.refl.seen (.spawn parent child) rfl,
          congrArg some (posix_update_mask s child (s.masks parent)).symm⟩

theorem simulated_posix : Simulates (PosixStart SignalAccepted fun t => (masks t).linux)
    (PosixStep SignalAccepted cant.linux) PosixEvent.seen (MaskStart masks) (MaskStep cant)
    MaskEvent.seen fun a s => a = s.map MaskState.posix where
  start := by
    rintro _ ⟨a, rfl, hmasks, hvalid⟩
    choose sets hsets using fun set => BitNames.exists_members (N := acceptedNames) (hvalid set)
    refine ⟨some ⟨fun set => (0 : LinuxSigset).overwrite (sets set), masks⟩,
      ⟨_, rfl, rfl⟩, ?_⟩
    refine congrArg some ?_
    obtain ⟨asets, amasks⟩ := a
    unfold MaskState.posix
    simp only [LinuxSigset.native_overwrite]
    exact congrArg₂ PosixMasks.mk (funext fun set => (hsets set).symm) hmasks
  step := by
    rintro _ _ _ s hs hstep
    cases hstep with
    | @call a a' thread c pending r hpending hexec =>
        obtain ⟨s, rfl, rfl⟩ := Option.map_eq_some_iff.mp hs.symm
        obtain ⟨w, rfl⟩ := BitNames.exists_members (N := acceptedNames) hpending
        replace hexec := (posix_exec c).symm.trans hexec
        obtain ⟨⟨r', s'⟩, hexec', heq⟩ := exists_of_map_ok hexec
        cases heq
        exact ⟨some s', Shows.refl.seen (.call hexec') rfl, rfl⟩
    | @stop a thread c pending e hpending hexec =>
        obtain ⟨s, rfl, rfl⟩ := Option.map_eq_some_iff.mp hs.symm
        obtain ⟨w, rfl⟩ := BitNames.exists_members (N := acceptedNames) hpending
        replace hexec := (posix_exec c).symm.trans hexec
        exact ⟨none, Shows.refl.seen (.stop (error_of_map hexec)) rfl, rfl⟩
    | @spawn a parent child =>
        obtain ⟨s, rfl, rfl⟩ := Option.map_eq_some_iff.mp hs.symm
        exact ⟨some { s with masks := Function.update s.masks child (s.masks parent) },
          Shows.refl.seen (.spawn parent child) rfl,
          congrArg some (posix_update_mask s child (s.masks parent)).symm⟩

/-- To Linux code the shim's signal sets and masks are POSIX ones, of the
signals it accepts, whatever the threads do and in whatever order. -/
theorem signalMasks_traces (tr : List MaskSeen) :
    Traces (MaskStart masks) (MaskStep cant) MaskEvent.seen tr ↔
      Traces (PosixStart SignalAccepted fun t => (masks t).linux)
        (PosixStep SignalAccepted cant.linux) PosixEvent.seen tr :=
  ⟨(simulates_posix cant masks).traces, (simulated_posix cant masks).traces⟩

end Traces

end Libc6Shim
