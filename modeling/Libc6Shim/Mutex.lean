import Libc6Shim.Abi

/-!
# Mutexes

The mutex half of `src/libthr/pthread.c`. A Linux mutex holds a pointer to
the native one and the kind glibc's static initializers put there; a static
one starts with a null pointer, which libthr takes for an uninitialised
mutex of the default kind, so the shim initialises every other kind itself
before the first call that may meet it (`initMutexIfNecessary`).

libthr is what the routines call down to: a call is an operation on a native
mutex, and answers with the error it returns and with the pointer it leaves
behind. The mutex that guards the initialisation is the shim's own.
-/

namespace Libc6Shim

open CSem Outcome

/-! ## Kinds and attributes -/

def linuxPthreadMutexNormal : Word := 0
def linuxPthreadMutexRecursive : Word := 1
def linuxPthreadMutexErrorcheck : Word := 2
def linuxPthreadMutexAdaptiveNp : Word := 3

def pthreadMutexErrorcheck : Word := 1
def pthreadMutexRecursive : Word := 2
def pthreadMutexNormal : Word := 3
def pthreadMutexAdaptiveNp : Word := 4

/-- The attribute object of the shim, which is its own: bit fields. -/
structure LinuxMutexattr where
  linuxKind : BitVec 2
  linuxPrioceiling : BitVec 2
  linuxProtocol : BitVec 1
  linuxPshared : BitVec 1
  linuxRobust : BitVec 1
deriving Repr, DecidableEq

def defaultMutexattr : LinuxMutexattr where
  linuxKind := 0
  linuxPrioceiling := 0
  linuxProtocol := 0
  linuxPshared := 0
  linuxRobust := 0

def shimPthreadMutexattrInit (_attr : LinuxMutexattr) :
    Errno × LinuxMutexattr :=
  (0, defaultMutexattr)

def shimPthreadMutexattrSettype (attr : LinuxMutexattr) (linuxKind : Int) :
    Outcome (Errno × LinuxMutexattr) := do
  require (0 ≤ linuxKind ∧ linuxKind < 4)
  return (0, { attr with linuxKind := .ofInt 2 linuxKind })

/-- The attribute object of libthr, as `pthread_mutexattr_init` leaves it
unless set otherwise. -/
structure NativeMutexattr where
  type : Word := pthreadMutexErrorcheck
  protocol : Word := 0
  pshared : Word := 0
  robust : Word := 0
deriving Repr, DecidableEq

def linuxToNativeMutexKind (linuxKind : Word) : Outcome Word :=
  if linuxKind = linuxPthreadMutexNormal then .ok pthreadMutexNormal
  else if linuxKind = linuxPthreadMutexRecursive then .ok pthreadMutexRecursive
  else if linuxKind = linuxPthreadMutexErrorcheck then .ok pthreadMutexErrorcheck
  else if linuxKind = linuxPthreadMutexAdaptiveNp then .ok pthreadMutexAdaptiveNp
  else .error .abort

/-- The four kinds are the values of the two bits an attribute object has for
them. -/
theorem linuxToNativeMutexKind_of_bits (linuxKind : BitVec 2) :
    ∃ type, linuxToNativeMutexKind (linuxKind.setWidth 32) = .ok type := by
  match linuxKind with
  | 0 | 1 | 2 | 3 => exact ⟨_, rfl⟩

/-- `PTHREAD_PRIO_NONE`, `_INHERIT` and `_PROTECT`, the same on both sides. -/
def linuxToNativeProtocol (linuxProtocol : Word) : Outcome Word :=
  if linuxProtocol = 0 ∨ linuxProtocol = 1 ∨ linuxProtocol = 2 then
    .ok linuxProtocol
  else .error .abort

/-- `PTHREAD_PROCESS_PRIVATE` and `_SHARED`, the same on both sides. -/
def linuxToNativePshared (linuxPshared : Word) : Outcome Word :=
  if linuxPshared = 0 ∨ linuxPshared = 1 then .ok linuxPshared
  else .error .abort

/-- `PTHREAD_MUTEX_STALLED` and `_ROBUST`, the same on both sides. -/
def linuxToNativeRobust (linuxRobust : Word) : Outcome Word :=
  if linuxRobust = 0 ∨ linuxRobust = 1 then .ok linuxRobust
  else .error .abort

/-! ## The native library -/

/-- An operation on a native mutex. -/
inductive MutexOp where
  | init (attr : Option NativeMutexattr)
  | lock
  | trylock
  | timedlock (absTimeout : Nat)
  | condWait (cond : Ptr)
  | condTimedwait (cond : Ptr) (abstime : Nat)
  | unlock
  | consistent
  | destroy
deriving DecidableEq

/-- A call into libthr: an operation on the mutex whose pointer holds `m`, or
on the mutex that guards initialisation. -/
inductive MutexCall where
  | op (o : MutexOp) (m : Ptr)
  | guardLock
  | guardUnlock
deriving DecidableEq

/-- The error returned, and for an operation the pointer it leaves. -/
@[reducible] def MutexAnswer : MutexCall → Type
  | .op .. => Errno × Ptr
  | .guardLock | .guardUnlock => Errno

abbrev MutexProg := Prog MutexCall MutexAnswer

def callThr (c : MutexCall) : MutexProg (MutexAnswer c) := .call c .ret

/-- `assert`. -/
def mutexAssert (p : Prop) [Decidable p] : MutexProg Unit :=
  Prog.ofOutcome (require p)

/-! ## The shim -/

/-- `struct shim_pthread_mutex`. -/
structure LinuxMutex where
  wrappedMutex : Ptr
  linuxKind : Word
deriving Repr, DecidableEq

/-- The operation `o` on `NATIVE_MUTEX_T(mutex)`: its error, and the mutex
with the pointer it leaves. -/
def onNativeMutex (o : MutexOp) (mutex : LinuxMutex) :
    MutexProg (Errno × LinuxMutex) := do
  let (err, m) ← callThr (.op o mutex.wrappedMutex)
  return (err, { mutex with wrappedMutex := m })

def shimPthreadMutexInit (mutex : LinuxMutex)
    (linuxAttr : Option LinuxMutexattr) : MutexProg (Errno × LinuxMutex) := do
  match linuxAttr with
  | some linuxAttr =>
      let type ← Prog.ofOutcome
        (linuxToNativeMutexKind (linuxAttr.linuxKind.setWidth 32))
      mutexAssert (linuxAttr.linuxPrioceiling = 0)
      let protocol ← Prog.ofOutcome
        (linuxToNativeProtocol (linuxAttr.linuxProtocol.setWidth 32))
      let pshared ← Prog.ofOutcome
        (linuxToNativePshared (linuxAttr.linuxPshared.setWidth 32))
      let robust ← Prog.ofOutcome
        (linuxToNativeRobust (linuxAttr.linuxRobust.setWidth 32))
      onNativeMutex (.init (some { type, protocol, pshared, robust })) mutex
  | none => onNativeMutex (.init none) mutex

/-- The double-checked initialisation, as one thread runs it on its own. -/
def initMutexIfNecessary (mutex : LinuxMutex) : MutexProg LinuxMutex := do
  if mutex.wrappedMutex = null ∧ mutex.linuxKind ≠ linuxPthreadMutexNormal then
    let lockErr ← callThr .guardLock
    mutexAssert (lockErr = 0)
    let mutex ←
      if mutex.wrappedMutex = null then do
        let type ← Prog.ofOutcome (linuxToNativeMutexKind mutex.linuxKind)
        let (_, mutex) ← onNativeMutex (.init (some { type })) mutex
        pure mutex
      else pure mutex
    let unlockErr ← callThr .guardUnlock
    mutexAssert (unlockErr = 0)
    return mutex
  else return mutex

/-- An operation that may meet a mutex for the first time. -/
def initialising (o : MutexOp) (mutex : LinuxMutex) :
    MutexProg (Errno × LinuxMutex) := do
  onNativeMutex o (← initMutexIfNecessary mutex)

/-- An operation that may not. -/
def asserting (o : MutexOp) (mutex : LinuxMutex) :
    MutexProg (Errno × LinuxMutex) := do
  mutexAssert (mutex.wrappedMutex ≠ null)
  onNativeMutex o mutex

/-- `return native_to_linux_errno(err)`. -/
def translated (p : MutexProg (Errno × LinuxMutex)) :
    MutexProg (Errno × LinuxMutex) := do
  let (err, mutex) ← p
  return (nativeToLinuxErrno err, mutex)

def shimPthreadMutexLock (mutex : LinuxMutex) : MutexProg (Errno × LinuxMutex) :=
  initialising .lock mutex

def shimPthreadCondTimedwait (cond : Ptr) (mutex : LinuxMutex) (abstime : Nat) :
    MutexProg (Errno × LinuxMutex) :=
  translated (initialising (.condTimedwait cond abstime) mutex)

def shimPthreadCondWait (cond : Ptr) (mutex : LinuxMutex) :
    MutexProg (Errno × LinuxMutex) :=
  initialising (.condWait cond) mutex

def shimPthreadMutexConsistent (mutex : LinuxMutex) :
    MutexProg (Errno × LinuxMutex) :=
  asserting .consistent mutex

def shimPthreadMutexTimedlock (mutex : LinuxMutex) (absTimeout : Nat) :
    MutexProg (Errno × LinuxMutex) :=
  translated (initialising (.timedlock absTimeout) mutex)

def shimPthreadMutexTrylock (mutex : LinuxMutex) :
    MutexProg (Errno × LinuxMutex) :=
  initialising .trylock mutex

def shimPthreadMutexDestroy (mutex : LinuxMutex) :
    MutexProg (Errno × LinuxMutex) :=
  asserting .destroy mutex

def shimPthreadMutexUnlock (mutex : LinuxMutex) :
    MutexProg (Errno × LinuxMutex) :=
  asserting .unlock mutex

/-! ## What the routines do -/

section Spec

variable {h : (c : MutexCall) → MutexAnswer c}

/-- A sequence whose first half returns. -/
theorem run_bind_of {α β : Type} {p : MutexProg α} {a : α}
    (hp : p.run h = .ok a) (f : α → MutexProg β) :
    (p >>= f).run h = (f a).run h := by
  rw [Prog.run_bind, hp, ok_bind]

theorem calls_bind_of {α β : Type} {p : MutexProg α} {a : α}
    (hp : p.run h = .ok a) (f : α → MutexProg β) :
    (p >>= f).calls h = p.calls h ++ (f a).calls h := by
  rw [Prog.calls_bind, hp, Prog.ifReturns_ok]

/-- The mutex an operation leaves. -/
def MutexOp.leaves (h : (c : MutexCall) → MutexAnswer c) (o : MutexOp)
    (mutex : LinuxMutex) : LinuxMutex :=
  { mutex with wrappedMutex := (h (.op o mutex.wrappedMutex)).2 }

theorem run_onNativeMutex (o : MutexOp) (mutex : LinuxMutex) :
    (onNativeMutex o mutex).run h =
      .ok ((h (.op o mutex.wrappedMutex)).1, o.leaves h mutex) := rfl

theorem calls_onNativeMutex (o : MutexOp) (mutex : LinuxMutex) :
    (onNativeMutex o mutex).calls h = [.op o mutex.wrappedMutex] := rfl

/-- A mutex with its native pointer in place, or of the default kind, is left
alone. -/
theorem initMutexIfNecessary_of_done {mutex : LinuxMutex}
    (hdone : mutex.wrappedMutex ≠ null ∨
      mutex.linuxKind = linuxPthreadMutexNormal) :
    initMutexIfNecessary mutex = pure mutex := by
  rw [initMutexIfNecessary, if_neg]
  rintro ⟨hnull, hkind⟩
  exact hdone.elim (absurd hnull) (absurd · hkind)

/-- A static mutex of another kind is initialised with it, under the
guard. -/
theorem initMutexIfNecessary_of_static {mutex : LinuxMutex} {type : Word}
    (hlock : h .guardLock = 0) (hunlock : h .guardUnlock = 0)
    (hnull : mutex.wrappedMutex = null)
    (hkind : mutex.linuxKind ≠ linuxPthreadMutexNormal)
    (htype : linuxToNativeMutexKind mutex.linuxKind = .ok type) :
    (initMutexIfNecessary mutex).run h =
        .ok ((MutexOp.init (some { type })).leaves h mutex) ∧
      (initMutexIfNecessary mutex).calls h =
        [.guardLock, .op (.init (some { type })) null, .guardUnlock] := by
  have hassert : ∀ {e : Errno}, e = 0 → mutexAssert (e = 0) = pure () := by
    intro e he
    rw [mutexAssert, require_of he]
    rfl
  have hprog : initMutexIfNecessary mutex = (do
      let lockErr ← callThr .guardLock
      mutexAssert (lockErr = 0)
      let (_, mutex) ← onNativeMutex (.init (some { type })) mutex
      let unlockErr ← callThr .guardUnlock
      mutexAssert (unlockErr = 0)
      return mutex) := by
    rw [initMutexIfNecessary, if_pos ⟨hnull, hkind⟩, if_pos hnull, htype]
    rfl
  have hguard : (callThr .guardLock).run h = .ok (h .guardLock) := rfl
  have hguard' : (callThr .guardUnlock).run h = .ok (h .guardUnlock) := rfl
  rw [hprog]
  constructor
  · rw [run_bind_of hguard, hassert hlock, pure_bind,
      run_bind_of (run_onNativeMutex _ _), run_bind_of hguard',
      hassert hunlock, pure_bind]
    rfl
  · rw [calls_bind_of hguard, hassert hlock, pure_bind,
      calls_bind_of (run_onNativeMutex _ _), calls_onNativeMutex, hnull,
      calls_bind_of hguard', hassert hunlock, pure_bind]
    rfl

/-- An operation behind the lazy initialisation ends with the native call,
on the mutex that left behind. -/
theorem initialising_of {mutex mutex' : LinuxMutex} {o : MutexOp}
    (hinit : (initMutexIfNecessary mutex).run h = .ok mutex') :
    (initialising o mutex).run h =
        .ok ((h (.op o mutex'.wrappedMutex)).1, o.leaves h mutex') ∧
      (initialising o mutex).calls h =
        (initMutexIfNecessary mutex).calls h ++ [.op o mutex'.wrappedMutex] := by
  rw [initialising, run_bind_of hinit, calls_bind_of hinit]
  exact ⟨run_onNativeMutex o mutex', by rw [calls_onNativeMutex]⟩

theorem asserting_of {mutex : LinuxMutex} (o : MutexOp)
    (hne : mutex.wrappedMutex ≠ null) :
    asserting o mutex = onNativeMutex o mutex := by
  rw [asserting, mutexAssert, require_of hne]
  rfl

/-- The assertion on the native pointer. -/
theorem asserting_of_null {mutex : LinuxMutex} (o : MutexOp)
    (hnull : mutex.wrappedMutex = null) :
    (asserting o mutex).run h = .error .abort := by
  rw [asserting, mutexAssert, require_of_not (not_not.mpr hnull)]
  rfl

theorem translated_of {p : MutexProg (Errno × LinuxMutex)} {err : Errno}
    {mutex : LinuxMutex} (hp : p.run h = .ok (err, mutex)) :
    (translated p).run h = .ok (nativeToLinuxErrno err, mutex) ∧
      (translated p).calls h = p.calls h := by
  rw [translated, run_bind_of hp, calls_bind_of hp]
  exact ⟨rfl, List.append_nil _⟩

/-- The attributes a mutex of the kind, protocol, sharing and robustness of
`a` is initialised with. -/
theorem attr_converts (a : LinuxMutexattr) :
    ∃ type protocol pshared robust,
      linuxToNativeMutexKind (a.linuxKind.setWidth 32) = .ok type ∧
      linuxToNativeProtocol (a.linuxProtocol.setWidth 32) = .ok protocol ∧
      linuxToNativePshared (a.linuxPshared.setWidth 32) = .ok pshared ∧
      linuxToNativeRobust (a.linuxRobust.setWidth 32) = .ok robust := by
  obtain ⟨type, htype⟩ := linuxToNativeMutexKind_of_bits a.linuxKind
  have hbit : ∀ b : BitVec 1, b.setWidth 32 = (0 : Word) ∨
      b.setWidth 32 = (1 : Word) := by decide
  refine ⟨type, _, _, _, htype, if_pos ?_, if_pos (hbit _), if_pos (hbit _)⟩
  exact (hbit a.linuxProtocol).imp_right .inl

/-- What the attributes are converted to is handed down. -/
theorem shimPthreadMutexInit_converted {mutex : LinuxMutex} {a : LinuxMutexattr}
    {type protocol pshared robust : Word} (hprio : a.linuxPrioceiling = 0)
    (htype : linuxToNativeMutexKind (a.linuxKind.setWidth 32) = .ok type)
    (hprotocol : linuxToNativeProtocol (a.linuxProtocol.setWidth 32) =
      .ok protocol)
    (hpshared : linuxToNativePshared (a.linuxPshared.setWidth 32) = .ok pshared)
    (hrobust : linuxToNativeRobust (a.linuxRobust.setWidth 32) = .ok robust) :
    shimPthreadMutexInit mutex (some a) =
      onNativeMutex (.init (some { type, protocol, pshared, robust })) mutex := by
  rw [shimPthreadMutexInit, htype, hprotocol, hpshared, hrobust, mutexAssert,
    require_of hprio]
  rfl

/-- Every attribute object without a priority ceiling is accepted, and
handed down. -/
theorem shimPthreadMutexInit_of {mutex : LinuxMutex}
    {linuxAttr : Option LinuxMutexattr}
    (hattr : ∀ a, linuxAttr = some a → a.linuxPrioceiling = 0) :
    ∃ attr, shimPthreadMutexInit mutex linuxAttr =
      onNativeMutex (.init attr) mutex := by
  cases linuxAttr with
  | none => exact ⟨none, rfl⟩
  | some a =>
      obtain ⟨type, protocol, pshared, robust, htype, hprotocol, hpshared,
        hrobust⟩ := attr_converts a
      exact ⟨some { type, protocol, pshared, robust },
        shimPthreadMutexInit_converted (hattr a rfl) htype hprotocol hpshared
          hrobust⟩

/-- The others are not. -/
theorem shimPthreadMutexInit_of_prioceiling {mutex : LinuxMutex}
    {a : LinuxMutexattr} (hprio : a.linuxPrioceiling ≠ 0) :
    (shimPthreadMutexInit mutex (some a)).run h = .error .abort := by
  obtain ⟨type, -, -, -, htype, -⟩ := attr_converts a
  rw [shimPthreadMutexInit, htype, mutexAssert, require_of_not hprio]
  rfl

end Spec

end Libc6Shim
