import Libc6Shim.CSemSystem
import Libc6Shim.Mutex

/-!
# Lazy initialisation under every interleaving

`init_mutex_if_necessary` tests the native pointer without a lock, takes the
lock and tests it again. Here its text is kept step by step: a routine of a
thread is the tree of its atomic steps (`ThreadCall`) - the two reads of the
pointer, the guard, the native calls - and a state of the system has the
memory the threads share and what is left of each thread's routine. The
steps are sequentially consistent, and `pthread_mutex_init` is two of them:
it begins, and as the last thing it does it publishes the mutex it made.

Run by one thread on its own, the routines are the ones of `Mutex`
(`LazyOp.solo`). Run by many, `LazyInv` holds: who is where between the two
tests says what the guard, the pointer and the native calls so far are.
-/

namespace Libc6Shim

open CSem Outcome

/-! ## The routines, by their atomic steps -/

/-- An atomic step of a thread. -/
inductive ThreadCall where
  /-- Read `mutex->_wrapped_mutex`. -/
  | read
  /-- Lock and unlock `mutex_initialization_mutex`. -/
  | acquire
  | release
  /-- `pthread_mutex_init` begins, and publishes. -/
  | init (type : Word)
  | publish (type : Word)
  /-- Any other native call. -/
  | op (o : MutexOp)

@[reducible] def ThreadAnswer : ThreadCall → Type
  | .read => Ptr
  | .acquire | .release | .op _ => Errno
  | .init _ | .publish _ => Unit

abbrev ThreadProg := Prog ThreadCall ThreadAnswer

def threadCall (c : ThreadCall) : ThreadProg (ThreadAnswer c) := .call c .ret

def readWrapped : ThreadProg Ptr := threadCall .read

def lockGuard : ThreadProg Errno := threadCall .acquire

def unlockGuard : ThreadProg Errno := threadCall .release

def threadAssert (p : Prop) [Decidable p] : ThreadProg Unit :=
  Prog.ofOutcome (require p)

/-- `init_mutex_if_necessary`. -/
def threadInitMutex (linuxKind : Word) : ThreadProg Unit := do
  let m ← readWrapped
  if m = null ∧ linuxKind ≠ linuxPthreadMutexNormal then
    let lockErr ← lockGuard
    threadAssert (lockErr = 0)
    let m ← readWrapped
    if m = null then
      let type ← Prog.ofOutcome (linuxToNativeMutexKind linuxKind)
      threadCall (.init type)
      threadCall (.publish type)
    let unlockErr ← unlockGuard
    threadAssert (unlockErr = 0)

/-- The operations that initialise. -/
inductive LazyOp where
  | lock
  | trylock
  | timedlock (absTimeout : Nat)
  | condWait (cond : Ptr)
  | condTimedwait (cond : Ptr) (abstime : Nat)
deriving DecidableEq

namespace LazyOp

def op : LazyOp → MutexOp
  | .lock => .lock
  | .trylock => .trylock
  | .timedlock absTimeout => .timedlock absTimeout
  | .condWait cond => .condWait cond
  | .condTimedwait cond abstime => .condTimedwait cond abstime

/-- The timed ones translate the error number. -/
def errno : LazyOp → Errno → Errno
  | .timedlock _ | .condTimedwait .. => nativeToLinuxErrno
  | .lock | .trylock | .condWait _ => id

/-- The routine of a thread. -/
def thread (linuxKind : Word) (c : LazyOp) : ThreadProg Errno := do
  threadInitMutex linuxKind
  let err ← threadCall (.op c.op)
  return c.errno err

/-- The routine on its own. -/
def routine (c : LazyOp) (mutex : LinuxMutex) :
    MutexProg (Errno × LinuxMutex) :=
  match c with
  | .lock => shimPthreadMutexLock mutex
  | .trylock => shimPthreadMutexTrylock mutex
  | .timedlock absTimeout => shimPthreadMutexTimedlock mutex absTimeout
  | .condWait cond => shimPthreadCondWait cond mutex
  | .condTimedwait cond abstime => shimPthreadCondTimedwait cond mutex abstime

end LazyOp

/-! ## One thread -/

section Solo

variable (h : (c : MutexCall) → MutexAnswer c)

/-- The memory of a thread on its own, under a libthr that answers `h`. -/
def soloMemory : (c : ThreadCall) → LinuxMutex → ThreadAnswer c × LinuxMutex
  | .read, mutex => (mutex.wrappedMutex, mutex)
  | .acquire, mutex => (h .guardLock, mutex)
  | .release, mutex => (h .guardUnlock, mutex)
  | .init _, mutex => ((), mutex)
  | .publish type, mutex => ((), (MutexOp.init (some { type })).leaves h mutex)
  | .op o, mutex => ((h (.op o mutex.wrappedMutex)).1, o.leaves h mutex)

variable {h}

/-- What a thread on its own returns, with the mutex it leaves. -/
def returned {α : Type} : Outcome α × LinuxMutex → Outcome (α × LinuxMutex)
  | (.ok a, mutex) => .ok (a, mutex)
  | (.error e, _) => .error e

theorem returned_exec_bind {α β : Type} (p : ThreadProg α)
    (f : α → ThreadProg β) (mutex : LinuxMutex) :
    returned ((p >>= f).exec (soloMemory h) mutex) =
      returned (p.exec (soloMemory h) mutex) >>= fun r =>
        returned ((f r.1).exec (soloMemory h) r.2) := by
  rw [Prog.exec_bind]
  cases p.exec (soloMemory h) mutex with
  | mk x mutex' => cases x <;> rfl

theorem returned_read_bind {α : Type} (f : Ptr → ThreadProg α)
    (mutex : LinuxMutex) :
    returned ((readWrapped >>= f).exec (soloMemory h) mutex) =
      returned ((f mutex.wrappedMutex).exec (soloMemory h) mutex) := rfl

theorem returned_assert_bind {α : Type} (p : Prop) [Decidable p]
    (f : Unit → ThreadProg α) (mutex : LinuxMutex) :
    returned ((threadAssert p >>= f).exec (soloMemory h) mutex) =
      require p >>= fun _ => returned ((f ()).exec (soloMemory h) mutex) := by
  unfold threadAssert
  cases require p <;> rfl

theorem run_assert_bind {α : Type} (p : Prop) [Decidable p]
    (f : Unit → MutexProg α) :
    (mutexAssert p >>= f).run h = require p >>= fun _ => (f ()).run h := by
  rw [mutexAssert, Prog.run_bind, Prog.run_ofOutcome]

/-- The last part: the guard is released. -/
theorem unlockGuard_solo (mutex : LinuxMutex) :
    returned ((do
      let unlockErr ← unlockGuard
      threadAssert (unlockErr = 0) : ThreadProg Unit).exec (soloMemory h)
        mutex) =
      (do
        let unlockErr ← callThr .guardUnlock
        mutexAssert (unlockErr = 0)
        return mutex : MutexProg LinuxMutex).run h >>= fun mutex' =>
          .ok ((), mutex') := by
  rw [Prog.run_bind, returned_exec_bind]
  show returned ((threadAssert (h .guardUnlock = 0)).exec _ mutex) =
    (mutexAssert (h .guardUnlock = 0) >>= fun _ => pure mutex).run h >>= _
  rw [run_assert_bind, ← bind_pure (threadAssert _), returned_assert_bind]
  cases require (h .guardUnlock = 0) <;> rfl

/-- The initialisation, run by one thread on its own, is
`initMutexIfNecessary`. -/
theorem threadInitMutex_solo (mutex : LinuxMutex) :
    returned ((threadInitMutex mutex.linuxKind).exec (soloMemory h) mutex) =
      (initMutexIfNecessary mutex).run h >>= fun mutex' => .ok ((), mutex') := by
  rw [threadInitMutex, returned_read_bind, initMutexIfNecessary]
  by_cases hcond : mutex.wrappedMutex = null ∧
      mutex.linuxKind ≠ linuxPthreadMutexNormal
  · rw [if_pos hcond, if_pos hcond, if_pos hcond.1]
    show returned ((threadAssert (h .guardLock = 0) >>= _).exec _ mutex) =
      (mutexAssert (h .guardLock = 0) >>= _).run h >>= _
    rw [returned_assert_bind, run_assert_bind]
    cases require (h .guardLock = 0) with
    | error e => rfl
    | ok u =>
        rw [ok_bind, ok_bind, returned_read_bind, if_pos hcond.1]
        cases linuxToNativeMutexKind mutex.linuxKind with
        | error e => rfl
        | ok type => exact unlockGuard_solo _
  · rw [if_neg hcond, if_neg hcond]
    rfl

theorem LazyOp.solo (c : LazyOp) (mutex : LinuxMutex) :
    returned ((c.thread mutex.linuxKind).exec (soloMemory h) mutex) =
      (c.routine mutex).run h := by
  have hrest : ∀ mutex' : LinuxMutex,
      returned ((do
        let err ← threadCall (.op c.op)
        return c.errno err : ThreadProg Errno).exec (soloMemory h) mutex') =
        (do
          let r ← onNativeMutex c.op mutex'
          return (c.errno r.1, r.2) : MutexProg (Errno × LinuxMutex)).run h :=
    fun _ => rfl
  have hroutine : c.routine mutex = (do
      let mutex' ← initMutexIfNecessary mutex
      let r ← onNativeMutex c.op mutex'
      return (c.errno r.1, r.2)) := by
    cases c with
    | lock => exact (bind_congr fun _ => (bind_pure _).symm)
    | trylock => exact (bind_congr fun _ => (bind_pure _).symm)
    | condWait cond => exact (bind_congr fun _ => (bind_pure _).symm)
    | timedlock absTimeout => exact bind_assoc _ _ _
    | condTimedwait cond abstime => exact bind_assoc _ _ _
  rw [thread, returned_exec_bind, threadInitMutex_solo, hroutine,
    Prog.run_bind]
  cases (initMutexIfNecessary mutex).run h with
  | error e => rfl
  | ok mutex' => exact hrest mutex'

end Solo

/-! ## Many threads -/

/-- What the threads share: the native pointer, who has the guard, the calls
of `pthread_mutex_init` begun and the mutexes they published, by their
types, and the other native calls, each with the thread that made it and the
pointer it was made on. -/
structure Shared (Tid : Type) where
  wrappedMutex : Ptr
  guard : Option Tid
  inits : List Word
  natives : List (Ptr × Word)
  made : List (Tid × MutexOp × Ptr)

/-- The state of the system: what is shared, and what is left of the routine
each thread is in. -/
structure LazySystem (Tid : Type) where
  shared : Shared Tid
  running : Tid → Option (ThreadProg Errno)

/-- A thread calls an operation, takes a step of it, or returns from it. -/
inductive Move where
  | enter (c : LazyOp)
  | step
  | leave

/-- The step `c` of thread `t` on what is shared, with its answer. A native
mutex that is there stays there, and libthr may initialise one that is
not. -/
def Answers {Tid : Type} (t : Tid) (sh : Shared Tid) :
    (c : ThreadCall) → ThreadAnswer c → Shared Tid → Prop
  | .read, m, sh' => m = sh.wrappedMutex ∧ sh' = sh
  | .acquire, err, sh' =>
      sh.guard = none ∧ err = 0 ∧ sh' = { sh with guard := some t }
  | .release, err, sh' =>
      (sh.guard = some t ∧ err = 0 ∧ sh' = { sh with guard := none }) ∨
        (sh.guard ≠ some t ∧ err = eperm ∧ sh' = sh)
  | .init type, _, sh' => sh' = { sh with inits := sh.inits ++ [type] }
  | .publish type, _, sh' => ∃ m, m ≠ null ∧
      sh' = { sh with
        wrappedMutex := m, natives := sh.natives ++ [(m, type)] }
  | .op o, _, sh' => ∃ m, (sh.wrappedMutex ≠ null → m = sh.wrappedMutex) ∧
      sh' = { sh with
        wrappedMutex := m, made := sh.made ++ [(t, o, sh.wrappedMutex)] }

section Threads

variable {Tid : Type}

/-- A step of the system, on a mutex of the kind `linuxKind`. -/
def LazyStep [DecidableEq Tid] (linuxKind : Word) (s : LazySystem Tid) (e : Tid × Move)
    (s' : LazySystem Tid) : Prop :=
  match e with
  | (t, .enter c) => s.running t = none ∧
      s' = { s with
        running := Function.update s.running t (some (c.thread linuxKind)) }
  | (t, .step) => ∃ c k r sh, s.running t = some (.call c k) ∧
      Answers t s.shared c r sh ∧
      s' = ⟨sh, Function.update s.running t (some (k r))⟩
  | (t, .leave) => ∃ err, s.running t = some (.ret err) ∧
      s' = { s with running := Function.update s.running t none }

/-- A static mutex no thread has called anything on. -/
def LazySystem.fresh : LazySystem Tid :=
  ⟨⟨null, none, [], [], []⟩, fun _ => none⟩

/-- The runs of the system. -/
abbrev LazyRuns [DecidableEq Tid] (linuxKind : Word) :
    List (Tid × Move) → LazySystem Tid → Prop :=
  Runs (· = LazySystem.fresh) (LazyStep linuxKind)

/-! ## Where a thread is -/

/-- The places in a routine between two atomic steps. -/
inductive Point where
  | test
  | acquire
  | retest
  | init
  | publish
  | release
  | forward
  | done (err : Errno)

/-- What is left of the routine there. -/
def Point.rest (type : Word) (c : LazyOp) : Point → ThreadProg Errno
  | .test => do
      let m ← readWrapped
      if m = null then acquire else forward
  | .acquire => acquire
  | .retest => retest
  | .init => init
  | .publish => publish
  | .release => release
  | .forward => forward
  | .done err => .ret err
where
  forward : ThreadProg Errno := do
    let err ← threadCall (.op c.op)
    return c.errno err
  release : ThreadProg Errno := do
    let unlockErr ← unlockGuard
    threadAssert (unlockErr = 0)
    forward
  publish : ThreadProg Errno := do
    threadCall (.publish type)
    release
  init : ThreadProg Errno := do
    threadCall (.init type)
    publish
  retest : ThreadProg Errno := do
    let m ← readWrapped
    if m = null then init else release
  acquire : ThreadProg Errno := do
    let lockErr ← lockGuard
    threadAssert (lockErr = 0)
    retest

/-- A routine starts at the first test. -/
theorem LazyOp.thread_eq {linuxKind type : Word}
    (hkind : linuxKind ≠ linuxPthreadMutexNormal)
    (htype : linuxToNativeMutexKind linuxKind = .ok type) (c : LazyOp) :
    c.thread linuxKind = Point.test.rest type c := by
  rw [thread, threadInitMutex, bind_assoc]
  refine bind_congr fun m => ?_
  by_cases hm : m = null
  · rw [if_pos ⟨hm, hkind⟩, if_pos hm]
    rw [bind_assoc]
    refine bind_congr fun lockErr => ?_
    rw [bind_assoc]
    refine bind_congr fun _ => ?_
    rw [bind_assoc]
    refine bind_congr fun m => ?_
    rw [htype]
    by_cases hm : m = null
    · rw [if_pos hm, if_pos hm]
      exact bind_assoc _ _ _
    · rw [if_neg hm, if_neg hm]
      exact bind_assoc _ _ _
  · rw [if_neg (fun hcond => hm hcond.1), if_neg hm]
    rfl

/-- What holds of the shared state, and of a thread `t` at a point. The
guard is `t`'s between its two halves; the pointer is set once the second
test is passed; and whoever has the guard and no pointer is at the only
place a native mutex is made. -/
def PointOk (type : Word) (sh : Shared Tid) (t : Tid) : Point → Prop
  | .test | .acquire => sh.guard ≠ some t
  | .retest => sh.guard = some t ∧ (sh.wrappedMutex = null → sh.inits = [])
  | .init => sh.guard = some t ∧ sh.wrappedMutex = null ∧ sh.inits = []
  | .publish => sh.guard = some t ∧ sh.wrappedMutex = null ∧ sh.inits = [type]
  | .release => sh.guard = some t ∧ sh.wrappedMutex ≠ null
  | .forward | .done _ => sh.guard ≠ some t ∧ sh.wrappedMutex ≠ null

/-- A thread is outside, or at a point that is right. -/
def ThreadOk (type : Word) (sh : Shared Tid) (t : Tid) :
    Option (ThreadProg Errno) → Prop
  | none => sh.guard ≠ some t
  | some p => ∃ c pt, p = Point.rest type c pt ∧ PointOk type sh t pt

/-- What holds of the shared state alone. -/
structure SharedOk (type : Word) (sh : Shared Tid) : Prop where
  set : sh.wrappedMutex ≠ null →
    sh.inits = [type] ∧ sh.natives = [(sh.wrappedMutex, type)]
  unset : sh.wrappedMutex = null → sh.natives = [] ∧ sh.made = []
  free : sh.guard = none → sh.wrappedMutex = null → sh.inits = []
  made : ∀ call ∈ sh.made, call.2.2 = sh.wrappedMutex

/-- What holds of every state. -/
structure LazyInv (type : Word) (s : LazySystem Tid) : Prop where
  shared : SharedOk type s.shared
  threads : ∀ t, ThreadOk type s.shared t (s.running t)

/-- A step of `t` as the other threads see it. -/
structure Undisturbed (t : Tid) (sh sh' : Shared Tid) : Prop where
  guard : ∀ t', t' ≠ t → (sh'.guard = some t' ↔ sh.guard = some t')
  keeps : sh.wrappedMutex ≠ null → sh'.wrappedMutex = sh.wrappedMutex
  locked : ∀ t', t' ≠ t → sh.guard = some t' →
    sh'.wrappedMutex = sh.wrappedMutex ∧ sh'.inits = sh.inits

theorem Undisturbed.refl (t : Tid) (sh : Shared Tid) : Undisturbed t sh sh :=
  ⟨fun _ _ => Iff.rfl, fun _ => rfl, fun _ _ _ => ⟨rfl, rfl⟩⟩

/-- A step that leaves the pointer and the calls of `init` alone. -/
theorem Undisturbed.of_guard {t : Tid} {sh sh' : Shared Tid}
    (hguard : ∀ t', t' ≠ t → (sh'.guard = some t' ↔ sh.guard = some t'))
    (hwrapped : sh'.wrappedMutex = sh.wrappedMutex)
    (hinits : sh'.inits = sh.inits) : Undisturbed t sh sh' :=
  ⟨hguard, fun _ => hwrapped, fun _ _ _ => ⟨hwrapped, hinits⟩⟩

/-- A step under the guard that meets no pointer. -/
theorem Undisturbed.of_locked {t : Tid} {sh sh' : Shared Tid}
    (hguard : sh'.guard = sh.guard) (hlocked : sh.guard = some t)
    (hnull : sh.wrappedMutex = null) : Undisturbed t sh sh' where
  guard _ _ := by rw [hguard]
  keeps hset := absurd hnull hset
  locked t' hne hheld := by
    rw [hlocked] at hheld
    exact absurd (Option.some.inj hheld).symm hne

/-- The frame lemma: where one thread is does not change what is right for
the others. -/
theorem ThreadOk.frame {type : Word} {t t' : Tid} {sh sh' : Shared Tid}
    {p : Option (ThreadProg Errno)} (hframe : Undisturbed t sh sh')
    (hne : t' ≠ t) (hok : ThreadOk type sh t' p) : ThreadOk type sh' t' p := by
  have hguard := hframe.guard t' hne
  cases p with
  | none => exact fun h => hok (hguard.mp h)
  | some p =>
      obtain ⟨c, pt, hp, hpt⟩ := hok
      refine ⟨c, pt, hp, ?_⟩
      have hset : sh.wrappedMutex ≠ null → sh'.wrappedMutex ≠ null := fun h =>
        (hframe.keeps h).symm ▸ h
      cases pt with
      | test => exact fun h => hpt (hguard.mp h)
      | acquire => exact fun h => hpt (hguard.mp h)
      | retest =>
          obtain ⟨hm, hi⟩ := hframe.locked t' hne hpt.1
          exact ⟨hguard.mpr hpt.1, by rw [hm, hi]; exact hpt.2⟩
      | init =>
          obtain ⟨hm, hi⟩ := hframe.locked t' hne hpt.1
          exact ⟨hguard.mpr hpt.1, by rw [hm, hi]; exact hpt.2⟩
      | publish =>
          obtain ⟨hm, hi⟩ := hframe.locked t' hne hpt.1
          exact ⟨hguard.mpr hpt.1, by rw [hm, hi]; exact hpt.2⟩
      | release => exact ⟨hguard.mpr hpt.1, hset hpt.2⟩
      | forward => exact ⟨fun h => hpt.1 (hguard.mp h), hset hpt.2⟩
      | done err => exact ⟨fun h => hpt.1 (hguard.mp h), hset hpt.2⟩

/-- The step lemma: a thread goes from a point that is right to one that
is. -/
theorem PointOk.step {type : Word} {t : Tid} {sh sh' : Shared Tid} {c : LazyOp}
    {pt : Point} {d : ThreadCall} {k : ThreadAnswer d → ThreadProg Errno}
    {r : ThreadAnswer d} (hshared : SharedOk type sh)
    (hpt : PointOk type sh t pt) (hcall : pt.rest type c = .call d k)
    (hanswer : Answers t sh d r sh') :
    (∃ pt' : Point, k r = pt'.rest type c ∧ PointOk type sh' t pt') ∧
      SharedOk type sh' ∧ Undisturbed t sh sh' := by
  cases pt with
  | test =>
      cases hcall
      obtain ⟨rfl, rfl⟩ := hanswer
      refine ⟨?_, hshared, .refl t sh'⟩
      by_cases hnull : sh'.wrappedMutex = null
      · exact ⟨.acquire, if_pos hnull, hpt⟩
      · exact ⟨.forward, if_neg hnull, hpt, hnull⟩
  | acquire =>
      cases hcall
      obtain ⟨hfree, rfl, rfl⟩ := hanswer
      refine ⟨⟨.retest, rfl, rfl, hshared.free hfree⟩, ?_, ?_⟩
      · exact ⟨hshared.set, hshared.unset, nofun, hshared.made⟩
      · refine .of_guard (fun t' hne => ?_) rfl rfl
        rw [hfree]
        exact iff_of_false (fun h => hne (Option.some.inj h).symm) nofun
  | retest =>
      cases hcall
      obtain ⟨rfl, rfl⟩ := hanswer
      refine ⟨?_, hshared, .refl t sh'⟩
      by_cases hnull : sh'.wrappedMutex = null
      · exact ⟨.init, if_pos hnull, hpt.1, hnull, hpt.2 hnull⟩
      · exact ⟨.release, if_neg hnull, hpt.1, hnull⟩
  | init =>
      cases hcall
      obtain rfl := hanswer
      obtain ⟨hlocked, hnull, hnone⟩ := hpt
      refine ⟨⟨.publish, rfl, hlocked, hnull, by rw [hnone]; rfl⟩, ?_,
        .of_locked rfl hlocked hnull⟩
      refine ⟨fun hset => absurd hnull hset, hshared.unset, fun hfree => ?_,
        hshared.made⟩
      rw [hlocked] at hfree
      cases hfree
  | publish =>
      cases hcall
      obtain ⟨m, hm, rfl⟩ := hanswer
      obtain ⟨hlocked, hnull, hone⟩ := hpt
      obtain ⟨hnatives, hmade⟩ := hshared.unset hnull
      refine ⟨⟨.release, rfl, hlocked, hm⟩, ?_, .of_locked rfl hlocked hnull⟩
      refine ⟨fun _ => ⟨hone, by rw [hnatives]; rfl⟩, fun h => absurd h hm,
        fun _ h => absurd h hm, ?_⟩
      rw [hmade]
      exact nofun
  | release =>
      cases hcall
      obtain ⟨hlocked, hset⟩ := hpt
      rcases hanswer with ⟨-, rfl, rfl⟩ | ⟨hnot, -, -⟩
      · refine ⟨⟨.forward, rfl, nofun, hset⟩, ?_, ?_⟩
        · exact ⟨hshared.set, hshared.unset, fun _ h => absurd h hset,
            hshared.made⟩
        · refine .of_guard (fun t' hne => ?_) rfl rfl
          rw [hlocked]
          exact iff_of_false nofun fun h => hne (Option.some.inj h).symm
      · exact absurd hlocked hnot
  | forward =>
      cases hcall
      obtain ⟨m, hkeep, rfl⟩ := hanswer
      obtain ⟨hout, hset⟩ := hpt
      obtain rfl := hkeep hset
      refine ⟨⟨.done _, rfl, hout, hset⟩, ?_, .of_guard (fun _ _ => Iff.rfl) rfl rfl⟩
      refine ⟨hshared.set, fun h => absurd h hset, hshared.free, ?_⟩
      intro call hcall
      rcases List.mem_append.mp hcall with hcall | hcall
      · exact hshared.made call hcall
      · rw [List.mem_singleton.mp hcall]
  | done err => cases hcall

/-! ## Whole runs -/

section Runs

variable [DecidableEq Tid] {linuxKind type : Word}
  {es : List (Tid × Move)} {s s' : LazySystem Tid}

/-- The threads after one of them has moved. -/
theorem threads_update {t : Tid} {sh' : Shared Tid}
    {p : Option (ThreadProg Errno)}
    (hthreads : ∀ t', ThreadOk type s.shared t' (s.running t'))
    (hframe : Undisturbed t s.shared sh') (hp : ThreadOk type sh' t p)
    (t' : Tid) : ThreadOk type sh' t' (Function.update s.running t p t') := by
  by_cases hne : t' = t
  · rw [hne, Function.update_self]
    exact hp
  · rw [Function.update_of_ne hne]
    exact (hthreads t').frame hframe hne

/-- The step lemma of the system: the invariant is kept, a native mutex
stays, and a thread leaves none but with one. -/
theorem LazyInv.step (hkind : linuxKind ≠ linuxPthreadMutexNormal)
    (htype : linuxToNativeMutexKind linuxKind = .ok type)
    (hinv : LazyInv type s) {e : Tid × Move}
    (hstep : LazyStep linuxKind s e s') :
    LazyInv type s' ∧
      (s.shared.wrappedMutex ≠ null →
        s'.shared.wrappedMutex = s.shared.wrappedMutex) ∧
      (∀ t, e = (t, .leave) → s'.shared.wrappedMutex ≠ null) := by
  obtain ⟨t, move⟩ := e
  have hthread := hinv.threads t
  cases move with
  | enter c =>
      obtain ⟨hrunning, rfl⟩ := hstep
      rw [hrunning] at hthread
      refine ⟨⟨hinv.shared, threads_update hinv.threads (.refl t _) ?_⟩,
        fun _ => rfl, nofun⟩
      exact ⟨c, .test, c.thread_eq hkind htype, hthread⟩
  | step =>
      obtain ⟨d, k, r, sh, hrunning, hanswer, rfl⟩ := hstep
      rw [hrunning] at hthread
      obtain ⟨c, pt, hrest, hpt⟩ := hthread
      obtain ⟨⟨pt', hrest', hpt'⟩, hshared, hframe⟩ :=
        hpt.step hinv.shared hrest.symm hanswer
      refine ⟨⟨hshared, threads_update hinv.threads hframe ?_⟩, hframe.keeps,
        nofun⟩
      exact ⟨c, pt', hrest', hpt'⟩
  | leave =>
      obtain ⟨err, hrunning, rfl⟩ := hstep
      rw [hrunning] at hthread
      obtain ⟨c, pt, hrest, hpt⟩ := hthread
      have hdone : s.shared.guard ≠ some t ∧ s.shared.wrappedMutex ≠ null := by
        -- a routine returns from its last point only
        cases pt with
        | done err => exact hpt
        | test => cases hrest
        | acquire => cases hrest
        | retest => cases hrest
        | init => cases hrest
        | publish => cases hrest
        | release => cases hrest
        | forward => cases hrest
      exact ⟨⟨hinv.shared, threads_update hinv.threads (.refl t _) hdone.1⟩,
        fun _ => rfl, fun _ _ => hdone.2⟩

omit [DecidableEq Tid] in
theorem lazyInv_fresh : LazyInv type (.fresh : LazySystem Tid) := by
  refine ⟨⟨absurd rfl, fun _ => ⟨rfl, rfl⟩, fun _ _ => rfl, nofun⟩, ?_⟩
  exact fun t => nofun

/-- The run lemma. -/
theorem lazyInv_of_runs (hkind : linuxKind ≠ linuxPthreadMutexNormal)
    (htype : linuxToNativeMutexKind linuxKind = .ok type)
    (hrun : LazyRuns linuxKind es s) :
    LazyInv type s ∧
      ((∃ t, (t, .leave) ∈ es) → s.shared.wrappedMutex ≠ null) := by
  refine Runs.invariant (I := fun es s => LazyInv type s ∧
    ((∃ t, (t, .leave) ∈ es) → s.shared.wrappedMutex ≠ null)) ?_ ?_ hrun
  · rintro s rfl
    exact ⟨lazyInv_fresh, nofun⟩
  · intro es s e s' _ ⟨hinv, hleft⟩ hstep
    obtain ⟨hinv', hkeeps, hleave⟩ := hinv.step hkind htype hstep
    refine ⟨hinv', ?_⟩
    rintro ⟨t, ht⟩
    rcases List.mem_append.mp ht with ht | ht
    · have hset := hleft ⟨t, ht⟩
      rw [hkeeps hset]
      exact hset
    · exact hleave t (List.mem_singleton.mp ht).symm

omit [DecidableEq Tid] in
/-- `pthread_mutex_init` has not been called, or has been called once. -/
theorem LazyInv.inits (hinv : LazyInv type s) :
    s.shared.inits = [] ∨ s.shared.inits = [type] := by
  by_cases hnull : s.shared.wrappedMutex = null
  · cases hguard : s.shared.guard with
    | none => exact .inl (hinv.shared.free hguard hnull)
    | some t =>
        have hthread := hinv.threads t
        cases hp : s.running t with
        | none =>
            rw [hp] at hthread
            exact absurd hguard hthread
        | some p =>
            rw [hp] at hthread
            obtain ⟨c, pt, -, hpt⟩ := hthread
            cases pt with
            | test => exact absurd hguard hpt
            | acquire => exact absurd hguard hpt
            | retest => exact .inl (hpt.2 hnull)
            | init => exact .inl hpt.2.2
            | publish => exact .inr hpt.2.2
            | release => exact absurd hnull hpt.2
            | forward => exact absurd hguard hpt.1
            | done err => exact absurd hguard hpt.1
  · exact .inr (hinv.shared.set hnull).1

omit [DecidableEq Tid] in
/-- Away from the guard a thread can go on. -/
theorem PointOk.goes_on {sh : Shared Tid} {t : Tid} {pt : Point}
    (hpt : PointOk type sh t pt) (hfree : pt = .acquire → sh.guard = none)
    (c : LazyOp) :
    (∃ err, pt.rest type c = .ret err) ∨
      ∃ d k r sh', pt.rest type c = .call d k ∧ Answers t sh d r sh' := by
  cases pt with
  | test => exact .inr ⟨.read, _, sh.wrappedMutex, sh, rfl, rfl, rfl⟩
  | acquire => exact .inr ⟨.acquire, _, (0 : Errno), _, rfl, hfree rfl, rfl, rfl⟩
  | retest => exact .inr ⟨.read, _, sh.wrappedMutex, sh, rfl, rfl, rfl⟩
  | init => exact .inr ⟨.init type, _, (), _, rfl, rfl⟩
  | publish =>
      exact .inr ⟨.publish type, _, (), _, rfl, 1, Nat.one_ne_zero, rfl⟩
  | release =>
      exact .inr ⟨.release, _, (0 : Errno), _, rfl, .inl ⟨hpt.1, rfl, rfl⟩⟩
  | forward =>
      exact .inr ⟨.op c.op, _, (0 : Errno), _, rfl, sh.wrappedMutex,
        fun _ => rfl, rfl⟩
  | done err => exact .inl ⟨err, rfl⟩

/-- The threads do not deadlock: as long as one is inside, one can move. -/
theorem lazyInit_progress (hkind : linuxKind ≠ linuxPthreadMutexNormal)
    (htype : linuxToNativeMutexKind linuxKind = .ok type)
    (hrun : LazyRuns linuxKind es s) {t : Tid} (hinside : s.running t ≠ none) :
    ∃ t' s', LazyStep linuxKind s (t', .step) s' ∨
      LazyStep linuxKind s (t', .leave) s' := by
  obtain ⟨hinv, -⟩ := lazyInv_of_runs hkind htype hrun
  have hmoves : ∀ t c pt, s.running t = some (Point.rest type c pt) →
      PointOk type s.shared t pt →
      (pt = .acquire → s.shared.guard = none) →
      ∃ s', LazyStep linuxKind s (t, .step) s' ∨
        LazyStep linuxKind s (t, .leave) s' := by
    intro t c pt hrunning hpt hfree
    rcases hpt.goes_on hfree c with ⟨err, hret⟩ | ⟨d, k, r, sh, hcall, hanswer⟩
    · exact ⟨_, .inr ⟨err, hrunning.trans (congrArg some hret), rfl⟩⟩
    · exact ⟨_, .inl ⟨d, k, r, sh, hrunning.trans (congrArg some hcall),
        hanswer, rfl⟩⟩
  have hpoint : ∀ t, s.running t ≠ none →
      ∃ c pt, s.running t = some (Point.rest type c pt) ∧
        PointOk type s.shared t pt := by
    intro t hne
    have hthread := hinv.threads t
    cases hp : s.running t with
    | none => exact absurd hp hne
    | some p =>
        rw [hp] at hthread
        obtain ⟨c, pt, rfl, hpt⟩ := hthread
        exact ⟨c, pt, rfl, hpt⟩
  cases hguard : s.shared.guard with
  | none =>
      obtain ⟨c, pt, hrunning, hpt⟩ := hpoint t hinside
      exact ⟨t, hmoves t c pt hrunning hpt fun _ => hguard⟩
  | some t' =>
      -- whoever has the guard is inside, and not waiting for it
      have hne : s.running t' ≠ none := by
        intro hp
        have hthread := hinv.threads t'
        rw [hp] at hthread
        exact hthread hguard
      obtain ⟨c, pt, hrunning, hpt⟩ := hpoint t' hne
      refine ⟨t', hmoves t' c pt hrunning hpt ?_⟩
      rintro rfl
      exact absurd hguard hpt

theorem LazyRuns.enter {t : Tid} (hrun : LazyRuns linuxKind es s) (c : LazyOp)
    (hout : s.running t = none) :
    LazyRuns linuxKind (es ++ [(t, .enter c)]) { s with
      running := Function.update s.running t (some (c.thread linuxKind)) } :=
  .snoc hrun ⟨hout, rfl⟩

theorem LazyRuns.step {t : Tid} {d : ThreadCall}
    {k : ThreadAnswer d → ThreadProg Errno} {r : ThreadAnswer d}
    {sh : Shared Tid} (hrun : LazyRuns linuxKind es s)
    (hrunning : s.running t = some (.call d k))
    (hanswer : Answers t s.shared d r sh) :
    LazyRuns linuxKind (es ++ [(t, .step)])
      ⟨sh, Function.update s.running t (some (k r))⟩ :=
  .snoc hrun ⟨d, k, r, sh, hrunning, hanswer, rfl⟩

end Runs

end Threads

end Libc6Shim
