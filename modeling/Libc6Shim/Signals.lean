import Libc6Shim.Abi
import Libc6Shim.CSemFlags
import Libc6Shim.CSemSystem

/-!
# Signal actions

`signal` and `sigaction` of `src/libc/signal.c`. A Linux signal number is
translated, or refused with `-1`; an action is translated field by field -
the handler as it is, as many bytes of the mask as the native set has, and
the flags through a table. `sigaction` answers for the four crash signals on
its own, without a native call.

A signal set is its bits: number `n` is bit `n - 1`, in both layouts. The
native library is taken for a store of one action for each native number
(`SignalLib.answer`), which may refuse a call.
-/

namespace Libc6Shim

open CSem Outcome

/-! ## Signal numbers -/

def linuxSigabrt : Int := 6
def linuxSigbus : Int := 7
def linuxSigsegv : Int := 11
def linuxSigpwr : Int := 30
def linuxSigsys : Int := 31

def sigabrt : Int := 6
def sigbus : Int := 10
def sigsegv : Int := 11
def sigsys : Int := 12
def sigusr1 : Int := 30
def sigrtmin : Int := 65
def sigrtmax : Int := 126

def linuxToFreebsdSigno (linuxSignal : Int) : Int :=
  if (0 ≤ linuxSignal ∧ linuxSignal < 7) ∨ (7 < linuxSignal ∧ linuxSignal < 10)
      ∨ linuxSignal = 11 ∨ (12 < linuxSignal ∧ linuxSignal < 17)
      ∨ (20 < linuxSignal ∧ linuxSignal < 23)
      ∨ (23 < linuxSignal ∧ linuxSignal < 29)
      ∨ (sigrtmin ≤ linuxSignal ∧ linuxSignal ≤ sigrtmax) then linuxSignal
  else if linuxSignal = linuxSigpwr then sigusr1
  else -1

/-- A signal the shim has a native number for. -/
def Supported (linuxSig : Int) : Prop := linuxToFreebsdSigno linuxSig ≠ -1

instance : DecidablePred Supported :=
  fun _ => inferInstanceAs (Decidable (_ ≠ _))

/-- A supported signal has the same number on both sides: `SIGPWR` is
`SIGUSR1`. -/
theorem linuxToFreebsdSigno_of_supported {linuxSig : Int}
    (h : Supported linuxSig) : linuxToFreebsdSigno linuxSig = linuxSig := by
  unfold Supported at h
  unfold linuxToFreebsdSigno at h ⊢
  split
  · rfl
  · rename_i hrange
    rw [if_neg hrange] at h
    split
    · rename_i hpwr
      exact hpwr.symm
    · rename_i hpwr
      rw [if_neg hpwr] at h
      exact absurd rfl h

/-! ## Actions -/

def linuxSaNocldstop : Word := 0x00000001
def linuxSaNocldwait : Word := 0x00000002
def linuxSaSiginfo : Word := 0x00000004
def linuxSaOnstack : Word := 0x08000000
def linuxSaRestart : Word := 0x10000000
def linuxSaNodefer : Word := 0x40000000
def linuxSaResethand : Word := 0x80000000

def saOnstack : Word := 0x0001
def saRestart : Word := 0x0002
def saResethand : Word := 0x0004
def saNocldstop : Word := 0x0008
def saNodefer : Word := 0x0010
def saNocldwait : Word := 0x0020
def saSiginfo : Word := 0x0040

def knownLinuxSigactionFlags : Word :=
  linuxSaNocldstop ||| linuxSaNocldwait ||| linuxSaSiginfo |||
  linuxSaOnstack ||| linuxSaRestart ||| linuxSaNodefer ||| linuxSaResethand

def knownNativeSigactionFlags : Word :=
  saNocldstop ||| saNocldwait ||| saSiginfo ||| saOnstack ||| saRestart |||
  saNodefer ||| saResethand

/-- In the source's order: Linux bit, native bit. -/
def sigactionFlagPairs : List (Word × Word) :=
  [(linuxSaNocldstop, saNocldstop), (linuxSaNocldwait, saNocldwait),
    (linuxSaSiginfo, saSiginfo), (linuxSaOnstack, saOnstack),
    (linuxSaRestart, saRestart), (linuxSaNodefer, saNodefer),
    (linuxSaResethand, saResethand)]

def linuxToFreebsdSigactionFlags (linuxFlags : Word) : Outcome Word := do
  require (linuxFlags &&& ~~~knownLinuxSigactionFlags = 0)
  return setFlags 0 sigactionFlagPairs linuxFlags

def freebsdToLinuxSigactionFlags (flags : Word) : Outcome Word := do
  require (flags &&& ~~~knownNativeSigactionFlags = 0)
  return setFlags 0 (sigactionFlagPairs.map Prod.swap) flags

/-- `sigset_t`: 16 bytes. -/
abbrev Sigset := BitVec 128

/-- `linux_sigset_t`: 128 bytes. -/
abbrev LinuxSigset := BitVec 1024

/-- The signal `signo` is in the set. -/
def LinuxSigset.has (set : LinuxSigset) (signo : Nat) : Bool :=
  set.getLsbD (signo - 1)

/-- `memcpy(&set, &src, sizeof(sigset_t))` into a Linux set. -/
def LinuxSigset.overwrite (set : LinuxSigset) (src : Sigset) : LinuxSigset :=
  (set.extractLsb' 128 896 ++ src : BitVec (896 + 128))

/-- `SIG_DFL` and `LINUX_SIG_DFL`. -/
def sigDfl : Ptr := 0

structure LinuxSigaction where
  linuxSaHandler : Ptr
  saMask : LinuxSigset
  saFlags : Word
deriving DecidableEq

/-- `struct sigaction`. -/
structure NativeSigaction where
  saHandler : Ptr
  saMask : Sigset
  saFlags : Word
deriving DecidableEq

def linuxToNativeSigaction (src : LinuxSigaction) : Outcome NativeSigaction := do
  return { saHandler := src.linuxSaHandler
           saMask := src.saMask.setWidth 128
           saFlags := ← linuxToFreebsdSigactionFlags src.saFlags }

def nativeToLinuxSigaction (dst : LinuxSigaction) (src : NativeSigaction) :
    Outcome LinuxSigaction := do
  return { linuxSaHandler := src.saHandler
           saMask := dst.saMask.overwrite src.saMask
           saFlags := ← freebsdToLinuxSigactionFlags src.saFlags }

/-! ## The native calls -/

/-- `oact` says whether `sigaction` is asked for the old action. -/
inductive SignalCall where
  | sigaction (sig : Int) (act : Option NativeSigaction) (oact : Bool)
  | signal (sig : Int) (func : Ptr)

/-- The old action, if it was asked for; the old handler. -/
@[reducible] def SignalAnswer : SignalCall → Type
  | .sigaction _ _ true => NativeSigaction
  | .sigaction _ _ false => Unit
  | .signal .. => Ptr

abbrev SignalRoutine := Routine SignalCall SignalAnswer

def callSignal (c : SignalCall) : SignalRoutine (Option (SignalAnswer c)) :=
  Routine.native c

/-! ## The entry points -/

def shimSignal (linuxSig : Int) (func : Ptr) : SignalRoutine (Option Ptr) := do
  let sig := linuxToFreebsdSigno linuxSig
  require (sig ≠ -1)
  callSignal (.signal sig func)

/-- The signals `shim_sigaction_impl` keeps to itself. -/
def Intercepted (linuxSig : Int) : Prop :=
  linuxSig = linuxSigabrt ∨ linuxSig = linuxSigsegv ∨ linuxSig = linuxSigbus ∨
    linuxSig = linuxSigsys

instance : DecidablePred Intercepted :=
  fun _ => inferInstanceAs (Decidable (_ ∨ _ ∨ _ ∨ _))

/-- `sigaction(sig, act, &oact)`, and the old action translated if there is
one. -/
def querySigaction (sig : Int) (act : Option NativeSigaction)
    (linuxOact : LinuxSigaction) :
    SignalRoutine (Option Unit × Option LinuxSigaction) := do
  let err ← callSignal (.sigaction sig act true)
  match err with
  | some oact => return (some (), some (← nativeToLinuxSigaction linuxOact oact))
  | none => return (none, some linuxOact)

/-- The answer has `*linux_oact` as it is left. -/
def shimSigaction (linuxSig : Int) (linuxAct linuxOact : Option LinuxSigaction) :
    SignalRoutine (Option Unit × Option LinuxSigaction) := do
  if Intercepted linuxSig then
    return (some (), linuxOact.map fun oact =>
      { linuxSaHandler := sigDfl, saMask := oact.saMask.overwrite 0, saFlags := 0 })
  else
    let sig := linuxToFreebsdSigno linuxSig
    if sig = -1 then return (none, linuxOact)
    else
      match linuxAct with
      | some linuxAct =>
          let act ← linuxToNativeSigaction linuxAct
          match linuxOact with
          | some linuxOact => querySigaction sig (some act) linuxOact
          | none =>
              let err ← callSignal (.sigaction sig (some act) false)
              return (err, none)
      | none =>
          match linuxOact with
          | some linuxOact => querySigaction sig none linuxOact
          | none => return (none, none)

/-! ## Dispositions -/

/-- The native action for each native signal. -/
abbrev Dispositions := Int → NativeSigaction

/-- What is left open about the native library: which calls it refuses, and
with which error; and the flags `signal` puts into an action. -/
structure SignalLib where
  refuses : Dispositions → SignalCall → Option Errno
  signalFlags : Int → Word

namespace SignalLib

/-- What a call the library does not refuse does to the dispositions. -/
def after (lib : SignalLib) (d : Dispositions) : SignalCall → Dispositions
  | .sigaction sig (some act) _ => Function.update d sig act
  | .sigaction _ none _ => d
  | .signal sig func => Function.update d sig
      { saHandler := func, saMask := 0, saFlags := lib.signalFlags sig }

/-- What it answers. -/
def old (d : Dispositions) : (c : SignalCall) → SignalAnswer c
  | .sigaction sig _ true => d sig
  | .sigaction _ _ false => ()
  | .signal sig _ => (d sig).saHandler

/-- The library as a store keyed by native number. -/
def answer (lib : SignalLib) (c : SignalCall) (d : Dispositions) :
    Except Errno (SignalAnswer c) × Dispositions :=
  match lib.refuses d c with
  | some e => (.error e, d)
  | none => (.ok (old d c), lib.after d c)

end SignalLib

/-- A library that takes every call. -/
def obligingSignalLib : SignalLib where
  refuses _ _ := none
  signalFlags _ := saRestart

/-- The native dispositions at the start of a process. -/
def defaultDispositions : Dispositions := fun _ => ⟨sigDfl, 0, 0⟩

/-! ## What the entry points do to the dispositions -/

section Spec

variable {lib : SignalLib} {n : Int} {e : Errno} {d : Dispositions}

theorem exec_callSignal (c : SignalCall) :
    Routine.exec lib.answer (callSignal c) e d =
      match lib.refuses d c with
      | some e' => (.ok (none, e'), d)
      | none => (.ok (some (SignalLib.old d c), e), lib.after d c) := by
  rw [callSignal, Routine.exec_native, SignalLib.answer]
  cases lib.refuses d c <;> rfl

theorem shimSignal_of_unsupported {func : Ptr} (h : ¬Supported n) :
    (Routine.exec lib.answer (shimSignal n func) e d).1 = .error .abort := by
  rw [shimSignal, require_of_not (show ¬linuxToFreebsdSigno n ≠ -1 from h)]
  rfl

theorem shimSignal_of_supported {func : Ptr} (h : Supported n) :
    shimSignal n func = callSignal (.signal n func) := by
  rw [shimSignal, require_of (show linuxToFreebsdSigno n ≠ -1 from h),
    linuxToFreebsdSigno_of_supported h]
  rfl

/-- The old action is translated after the new one is in place. -/
theorem exec_querySigaction (act : Option NativeSigaction)
    (oact : LinuxSigaction) :
    Routine.exec lib.answer (querySigaction n act oact) e d =
      match lib.refuses d (.sigaction n act true) with
      | some e' => (.ok ((none, some oact), e'), d)
      | none =>
          (nativeToLinuxSigaction oact (d n) >>= fun o =>
              .ok ((some (), some o), e), lib.after d (.sigaction n act true)) := by
  rw [querySigaction, Routine.exec_bind, exec_callSignal]
  cases lib.refuses d (.sigaction n act true) with
  | some e' => rfl
  | none =>
      simp only [SignalLib.old]
      cases nativeToLinuxSigaction oact (d n) <;> rfl

theorem shimSigaction_of_intercepted {act oact : Option LinuxSigaction}
    (h : Intercepted n) :
    shimSigaction n act oact = pure (some (), oact.map fun oact =>
      { linuxSaHandler := sigDfl, saMask := oact.saMask.overwrite 0,
        saFlags := 0 }) := if_pos h

theorem shimSigaction_of_unsupported {act oact : Option LinuxSigaction}
    (hn : ¬Intercepted n) (h : ¬Supported n) :
    shimSigaction n act oact = pure (none, oact) := by
  rw [shimSigaction, if_neg hn]
  exact if_pos (not_not.mp h)

theorem exec_installSigaction (act : NativeSigaction) :
    Routine.exec lib.answer (do
        let err ← callSignal (.sigaction n (some act) false)
        return (err, none) :
          SignalRoutine (Option Unit × Option LinuxSigaction)) e d =
      match lib.refuses d (.sigaction n (some act) false) with
      | some e' => (.ok ((none, none), e'), d)
      | none => (.ok ((some (), none), e),
          lib.after d (.sigaction n (some act) false)) := by
  rw [Routine.exec_bind, exec_callSignal]
  cases lib.refuses d (.sigaction n (some act) false) <;> rfl

/-- A supported signal of the caller's own, with the new action translated:
one native call, unless neither action is given. -/
theorem exec_shimSigaction {act oact : Option LinuxSigaction}
    {act' : Option NativeSigaction} (hn : ¬Intercepted n) (h : Supported n)
    (hact : act.mapM linuxToNativeSigaction = .ok act') :
    Routine.exec lib.answer (shimSigaction n act oact) e d =
      if act = none ∧ oact = none then (.ok ((none, none), e), d)
      else match lib.refuses d (.sigaction n act' oact.isSome) with
        | some e' => (.ok ((none, oact), e'), d)
        | none =>
            (oact.mapM (nativeToLinuxSigaction · (d n)) >>= fun o =>
                .ok ((some (), o), e),
              lib.after d (.sigaction n act' oact.isSome)) := by
  rw [shimSigaction, if_neg hn, linuxToFreebsdSigno_of_supported h, if_neg (by
    rw [← linuxToFreebsdSigno_of_supported h]; exact h)]
  cases act with
  | none =>
      obtain rfl : act' = none := (Except.ok.inj hact).symm
      cases oact with
      | none => rfl
      | some oact =>
          rw [if_neg (by simp), Option.isSome_some, Option.mapM_some]
          refine (exec_querySigaction none oact).trans ?_
          cases lib.refuses d (.sigaction n none true) with
          | some e' => rfl
          | none => cases nativeToLinuxSigaction oact (d n) <;> rfl
  | some act =>
      cases hconv : linuxToNativeSigaction act with
      | error e' =>
          rw [Option.mapM_some, hconv] at hact
          cases hact
      | ok native =>
          obtain rfl : act' = some native := by
            rw [Option.mapM_some, hconv] at hact
            exact (Except.ok.inj hact).symm
          rw [if_neg (by simp)]
          simp only [hconv]
          cases oact with
          | none => exact exec_installSigaction native
          | some oact =>
              rw [Option.isSome_some, Option.mapM_some]
              refine (exec_querySigaction (some native) oact).trans ?_
              cases lib.refuses d (.sigaction n (some native) true) with
              | some e' => rfl
              | none => cases nativeToLinuxSigaction oact (d n) <;> rfl

/-- An action with flags the shim does not know never reaches libc. -/
theorem exec_shimSigaction_of_error {act oact : Option LinuxSigaction}
    {e' : Stop} (hn : ¬Intercepted n) (h : Supported n)
    (hact : act.mapM linuxToNativeSigaction = .error e') :
    Routine.exec lib.answer (shimSigaction n act oact) e d =
      (.error e', d) := by
  cases act with
  | none => cases hact
  | some act =>
      have hconv : linuxToNativeSigaction act = .error e' := by
        cases hconv : linuxToNativeSigaction act with
        | error e'' =>
            rw [Option.mapM_some, hconv] at hact
            exact congrArg _ (Except.error.inj hact)
        | ok native =>
            rw [Option.mapM_some, hconv] at hact
            cases hact
      rw [shimSigaction, if_neg hn, linuxToFreebsdSigno_of_supported h,
        if_neg (by rw [← linuxToFreebsdSigno_of_supported h]; exact h)]
      simp only [hconv]
      cases oact <;> rfl

end Spec

end Libc6Shim
