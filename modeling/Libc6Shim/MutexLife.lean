import Libc6Shim.CSemSystem
import Libc6Shim.Mutex

/-!
# The life of a mutex

Whether a shim mutex may meet one of the shim's assertions depends on its
whole life: a mutex is born by `pthread_mutex_init` or by a static
initializer, is locked, waited on and unlocked by whoever holds it, and
dies by `pthread_mutex_destroy`, after which it may be born again. A life is
a run of `LifeStep`, and each operation in it comes with the answers libthr
gives it.

What carries the proofs is `LifeInv`: once any operation has been through a
mutex its native pointer is set, so that only a mutex that has just been
born by a static initializer has none, and such a mutex has no holder. The
one operation that is legal then and does not initialise is `destroy`.
-/

namespace Libc6Shim

open CSem Outcome

variable {Tid : Type}

/-! ## Lives -/

def eownerdead : Errno := 96
def enotrecoverable : Errno := 95

/-- An operation on a mutex, with the thread that does it. -/
inductive LifeCall (Tid : Type) where
  | init (linuxAttr : Option LinuxMutexattr)
  | lock (t : Tid)
  | trylock (t : Tid)
  | timedlock (t : Tid) (absTimeout : Nat)
  | condWait (t : Tid) (cond : Ptr)
  | condTimedwait (t : Tid) (cond : Ptr) (abstime : Nat)
  | unlock (t : Tid)
  | destroy
deriving DecidableEq

/-- What libthr answers. -/
abbrev LibthrAnswers := (c : MutexCall) → MutexAnswer c

/-- What happens to a mutex: it is set to a static initializer of one of the
four kinds, or an operation is called. -/
inductive LifeEvent (Tid : Type) where
  | static (linuxKind : BitVec 2)
  | call (c : LifeCall Tid) (h : LibthrAnswers)

/-- The mutex in memory, whether it has been born and not destroyed since,
and how many times each thread holds it. -/
structure MutexLife (Tid : Type) where
  mutex : LinuxMutex
  alive : Bool
  holds : Tid → Nat

/-- The memory a static initializer leaves. -/
def staticMutex (linuxKind : BitVec 2) : LinuxMutex :=
  ⟨null, linuxKind.setWidth 32⟩

/-- The thread that called a lock operation has the mutex. -/
def Acquired (err : Errno) : Prop := err = 0 ∨ err = eownerdead

instance (err : Errno) : Decidable (Acquired err) :=
  inferInstanceAs (Decidable (_ ∨ _))

namespace LifeCall

/-- The shim's routine for the operation. -/
def routine (c : LifeCall Tid) (mutex : LinuxMutex) :
    MutexProg (Errno × LinuxMutex) :=
  match c with
  | .init linuxAttr => shimPthreadMutexInit mutex linuxAttr
  | .lock _ => shimPthreadMutexLock mutex
  | .trylock _ => shimPthreadMutexTrylock mutex
  | .timedlock _ absTimeout => shimPthreadMutexTimedlock mutex absTimeout
  | .condWait _ cond => shimPthreadCondWait cond mutex
  | .condTimedwait _ cond abstime => shimPthreadCondTimedwait cond mutex abstime
  | .unlock _ => shimPthreadMutexUnlock mutex
  | .destroy => shimPthreadMutexDestroy mutex

/-- The native operations it may be forwarded to. -/
def IsNative (c : LifeCall Tid) (o : MutexOp) : Prop :=
  match c with
  | .init _ => ∃ attr, o = .init attr
  | .lock _ => o = .lock
  | .trylock _ => o = .trylock
  | .timedlock _ absTimeout => o = .timedlock absTimeout
  | .condWait _ cond => o = .condWait cond
  | .condTimedwait _ cond abstime => o = .condTimedwait cond abstime
  | .unlock _ => o = .unlock
  | .destroy => o = .destroy

/-- The error number it returns for the native one. -/
def errno : LifeCall Tid → Errno → Errno
  | .timedlock .. | .condTimedwait .. => nativeToLinuxErrno
  | _ => id

/-- What POSIX allows: a mutex is born once in a life, an attribute object
is one that `init` accepts, only the holder waits and unlocks, and a mutex
is destroyed while it is unlocked. -/
def Legal (s : MutexLife Tid) : LifeCall Tid → Prop
  | .init linuxAttr =>
      s.alive = false ∧ ∀ a, linuxAttr = some a → a.linuxPrioceiling = 0
  | .lock _ | .trylock _ | .timedlock .. => s.alive = true
  | .condWait t _ | .condTimedwait t .. | .unlock t =>
      s.alive = true ∧ 0 < s.holds t
  | .destroy => s.alive = true ∧ ∀ t, s.holds t = 0

/-- The life after an operation that returned `err` and left `mutex`. -/
def after [DecidableEq Tid] (s : MutexLife Tid) (err : Errno) (mutex : LinuxMutex) :
    LifeCall Tid → MutexLife Tid
  | .init _ => ⟨mutex, err = 0, fun _ => 0⟩
  | .lock t | .trylock t | .timedlock t _ =>
      ⟨mutex, s.alive,
        if Acquired err then Function.update s.holds t (s.holds t + 1)
        else s.holds⟩
  | .condWait t _ | .condTimedwait t .. =>
      ⟨mutex, s.alive,
        if err = enotrecoverable then Function.update s.holds t (s.holds t - 1)
        else s.holds⟩
  | .unlock t =>
      ⟨mutex, s.alive,
        if err = 0 then Function.update s.holds t (s.holds t - 1) else s.holds⟩
  | .destroy => ⟨mutex, err ≠ 0, s.holds⟩

end LifeCall

/-- No assertion fails in the routine `p` on `mutex`, and its last call is
the native operation `o` on the pointer `m`: what that answers, its error
number converted by `f`, is what the routine returns and leaves behind. -/
def EndsIn (h : LibthrAnswers) (p : MutexProg (Errno × LinuxMutex))
    (f : Errno → Errno) (o : MutexOp) (m : Ptr) (mutex : LinuxMutex) : Prop :=
  (∃ before, p.calls h = before ++ [.op o m]) ∧
    p.run h = .ok (f (h (.op o m)).1,
      { mutex with wrappedMutex := (h (.op o m)).2 })

/-- The operation is forwarded to the native mutex. -/
def LifeCall.Forwarded (h : LibthrAnswers) (c : LifeCall Tid)
    (mutex : LinuxMutex) : Prop :=
  ∃ o m, c.IsNative o ∧ EndsIn h (c.routine mutex) c.errno o m mutex

/-- The native operations that may be the first on a mutex. -/
def MutexOp.First (o : MutexOp) : Prop :=
  (∃ attr, o = .init attr) ∨ o = .lock ∨ o = .trylock ∨
    ∃ absTimeout, o = .timedlock absTimeout

/-- What is relied on in libthr. -/
structure Libthr (h : LibthrAnswers) : Prop where
  /-- An operation that may come first leaves the mutex initialised. -/
  first : ∀ o m, o.First → (h (.op o m)).2 ≠ null
  /-- No operation takes the native pointer away. -/
  keeps : ∀ o m, m ≠ null → (h (.op o m)).2 ≠ null
  guardLock : h .guardLock = 0
  guardUnlock : h .guardUnlock = 0

/-- One step of a life. An operation that aborts is no step. -/
def LifeStep [DecidableEq Tid] (s : MutexLife Tid) (e : LifeEvent Tid) (s' : MutexLife Tid) :
    Prop :=
  match e with
  | .static linuxKind =>
      s.alive = false ∧ s' = ⟨staticMutex linuxKind, true, fun _ => 0⟩
  | .call c h =>
      Libthr h ∧ c.Legal s ∧ ∃ err mutex,
        (c.routine s.mutex).run h = .ok (err, mutex) ∧ s' = c.after s err mutex

/-- An event that may come in this state, with libthr as it should be. -/
def LifeEvent.Legal (s : MutexLife Tid) : LifeEvent Tid → Prop
  | .static _ => s.alive = false
  | .call c h => Libthr h ∧ c.Legal s

/-- An operation is forwarded, and no assertion fails. -/
def LifeEvent.Forwarded (s : MutexLife Tid) : LifeEvent Tid → Prop
  | .static _ => True
  | .call c h => c.Forwarded h s.mutex

/-- Memory nothing is known of. -/
def Unborn (s : MutexLife Tid) : Prop :=
  s.alive = false ∧ ∀ t, s.holds t = 0

/-- The lives of a mutex. -/
abbrev Lives [DecidableEq Tid] : List (LifeEvent Tid) → MutexLife Tid → Prop :=
  Runs Unborn LifeStep

/-! ## Operations, by the mutex they meet -/

/-- A mutex the lazy initialisation can deal with. -/
def Initialisable (mutex : LinuxMutex) : Prop :=
  mutex.wrappedMutex ≠ null ∨ ∃ linuxKind, mutex = staticMutex linuxKind

/-- A mutex the operation can deal with. -/
def LifeCall.Ready (mutex : LinuxMutex) : LifeCall Tid → Prop
  | .init linuxAttr => ∀ a, linuxAttr = some a → a.linuxPrioceiling = 0
  | .lock _ | .trylock _ | .timedlock .. => Initialisable mutex
  | .condWait .. | .condTimedwait .. | .unlock _ | .destroy =>
      mutex.wrappedMutex ≠ null

section Operations

variable {h : LibthrAnswers} {mutex : LinuxMutex} {o : MutexOp}

theorem endsIn_onNativeMutex (o : MutexOp) (mutex : LinuxMutex) :
    EndsIn h (onNativeMutex o mutex) id o mutex.wrappedMutex mutex :=
  ⟨⟨[], calls_onNativeMutex o mutex⟩, run_onNativeMutex o mutex⟩

theorem endsIn_asserting (o : MutexOp) (hset : mutex.wrappedMutex ≠ null) :
    EndsIn h (asserting o mutex) id o mutex.wrappedMutex mutex := by
  rw [asserting_of o hset]
  exact endsIn_onNativeMutex o mutex

/-- The lazy initialisation returns, and touches the pointer only. -/
theorem initMutexIfNecessary_returns (hlibthr : Libthr h)
    (hmutex : Initialisable mutex) :
    ∃ m, (initMutexIfNecessary mutex).run h =
        .ok { mutex with wrappedMutex := m } ∧
      (mutex.wrappedMutex ≠ null → m = mutex.wrappedMutex) := by
  by_cases hdone : mutex.wrappedMutex ≠ null ∨
      mutex.linuxKind = linuxPthreadMutexNormal
  · rw [initMutexIfNecessary_of_done hdone]
    exact ⟨mutex.wrappedMutex, rfl, fun _ => rfl⟩
  · obtain ⟨hnull, hkind⟩ := not_or.mp hdone
    obtain ⟨linuxKind, rfl⟩ := hmutex.resolve_left hnull
    obtain ⟨type, htype⟩ := linuxToNativeMutexKind_of_bits linuxKind
    obtain ⟨hrun, -⟩ := initMutexIfNecessary_of_static hlibthr.guardLock
      hlibthr.guardUnlock rfl hkind htype
    exact ⟨_, hrun, fun hset => absurd rfl hset⟩

theorem endsIn_initialising (hlibthr : Libthr h)
    (hmutex : Initialisable mutex) (o : MutexOp) :
    ∃ m, EndsIn h (initialising o mutex) id o m mutex ∧
      (mutex.wrappedMutex ≠ null → m = mutex.wrappedMutex) := by
  obtain ⟨m, hinit, hm⟩ := initMutexIfNecessary_returns hlibthr hmutex
  obtain ⟨hrun, hcalls⟩ := initialising_of (o := o) hinit
  exact ⟨m, ⟨⟨_, hcalls⟩, hrun⟩, hm⟩

theorem endsIn_translated {p : MutexProg (Errno × LinuxMutex)} {m : Ptr}
    (hp : EndsIn h p id o m mutex) :
    EndsIn h (translated p) nativeToLinuxErrno o m mutex := by
  obtain ⟨⟨before, hcalls⟩, hrun⟩ := hp
  obtain ⟨hrun', hcalls'⟩ := translated_of hrun
  exact ⟨⟨before, hcalls'.trans hcalls⟩, hrun'⟩

/-- An operation that can deal with its mutex is forwarded, and libthr
leaves a native pointer in it. -/
theorem LifeCall.forwarded_of_ready {c : LifeCall Tid} (hlibthr : Libthr h)
    (hready : c.Ready mutex) :
    ∃ o m, c.IsNative o ∧ EndsIn h (c.routine mutex) c.errno o m mutex ∧
      (h (.op o m)).2 ≠ null := by
  cases c with
  | init linuxAttr =>
      obtain ⟨attr, hinit⟩ : ∃ attr, shimPthreadMutexInit mutex linuxAttr =
          onNativeMutex (.init attr) mutex := shimPthreadMutexInit_of hready
      refine ⟨.init attr, mutex.wrappedMutex, ⟨attr, rfl⟩, ?_,
        hlibthr.first _ _ (.inl ⟨attr, rfl⟩)⟩
      rw [routine, hinit]
      exact endsIn_onNativeMutex _ mutex
  | lock t =>
      obtain ⟨m, hends, -⟩ := endsIn_initialising hlibthr hready .lock
      exact ⟨.lock, m, rfl, hends, hlibthr.first _ _ (.inr (.inl rfl))⟩
  | trylock t =>
      obtain ⟨m, hends, -⟩ := endsIn_initialising hlibthr hready .trylock
      exact ⟨.trylock, m, rfl, hends,
        hlibthr.first _ _ (.inr (.inr (.inl rfl)))⟩
  | timedlock t absTimeout =>
      obtain ⟨m, hends, -⟩ :=
        endsIn_initialising hlibthr hready (.timedlock absTimeout)
      exact ⟨.timedlock absTimeout, m, rfl, endsIn_translated hends,
        hlibthr.first _ _ (.inr (.inr (.inr ⟨absTimeout, rfl⟩)))⟩
  | condWait t cond =>
      obtain ⟨m, hends, hm⟩ :=
        endsIn_initialising hlibthr (.inl hready) (.condWait cond)
      exact ⟨.condWait cond, m, rfl, hends,
        hlibthr.keeps _ _ (hm hready ▸ hready)⟩
  | condTimedwait t cond abstime =>
      obtain ⟨m, hends, hm⟩ :=
        endsIn_initialising hlibthr (.inl hready) (.condTimedwait cond abstime)
      exact ⟨.condTimedwait cond abstime, m, rfl, endsIn_translated hends,
        hlibthr.keeps _ _ (hm hready ▸ hready)⟩
  | unlock t =>
      exact ⟨.unlock, mutex.wrappedMutex, rfl, endsIn_asserting .unlock hready,
        hlibthr.keeps _ _ hready⟩
  | destroy =>
      exact ⟨.destroy, mutex.wrappedMutex, rfl,
        endsIn_asserting .destroy hready, hlibthr.keeps _ _ hready⟩

end Operations

/-! ## Whole lives -/

section Lives

variable {es : List (LifeEvent Tid)} {s s' : MutexLife Tid}

/-- The last thing that happened to the mutex is its birth by a static
initializer. -/
def JustStatic (es : List (LifeEvent Tid)) : Prop :=
  ∃ linuxKind, es.getLast? = some (.static linuxKind)

theorem justStatic_static (es : List (LifeEvent Tid)) (linuxKind : BitVec 2) :
    JustStatic (es ++ [.static linuxKind]) :=
  ⟨linuxKind, List.getLast?_concat⟩

theorem not_justStatic_call (es : List (LifeEvent Tid)) (c : LifeCall Tid)
    (h : LibthrAnswers) : ¬JustStatic (es ++ [.call c h]) := by
  rintro ⟨linuxKind, hlast⟩
  rw [List.getLast?_concat] at hlast
  cases hlast

/-- What every life keeps. -/
structure LifeInv (es : List (LifeEvent Tid)) (s : MutexLife Tid) : Prop where
  /-- Nobody holds a mutex that is not there. -/
  dead : s.alive = false → ∀ t, s.holds t = 0
  /-- A mutex just born by a static initializer is as that left it. -/
  born : JustStatic es → (∃ linuxKind, s.mutex = staticMutex linuxKind) ∧
    ∀ t, s.holds t = 0
  /-- Any other has its native pointer. -/
  set : s.alive = true → ¬JustStatic es → s.mutex.wrappedMutex ≠ null

/-- A legal operation can deal with its mutex, unless it destroys one that
was just born by a static initializer. -/
theorem LifeInv.ready (hinv : LifeInv es s) {c : LifeCall Tid}
    (hlegal : c.Legal s) (hdestroy : ¬(c = .destroy ∧ JustStatic es)) :
    c.Ready s.mutex := by
  have hable : s.alive = true → Initialisable s.mutex := by
    intro halive
    by_cases hstatic : JustStatic es
    · exact .inr (hinv.born hstatic).1
    · exact .inl (hinv.set halive hstatic)
  have hheld : ∀ t, s.alive = true ∧ 0 < s.holds t →
      s.mutex.wrappedMutex ≠ null := by
    rintro t ⟨halive, hpos⟩
    refine hinv.set halive fun hstatic => ?_
    exact absurd ((hinv.born hstatic).2 t) (Nat.pos_iff_ne_zero.mp hpos)
  cases c with
  | init linuxAttr => exact hlegal.2
  | lock t => exact hable hlegal
  | trylock t => exact hable hlegal
  | timedlock t absTimeout => exact hable hlegal
  | condWait t cond => exact hheld t hlegal
  | condTimedwait t cond abstime => exact hheld t hlegal
  | unlock t => exact hheld t hlegal
  | destroy => exact hinv.set hlegal.1 fun hstatic => hdestroy ⟨rfl, hstatic⟩

/-- Destroying a mutex that was just born by a static initializer trips the
assertion. -/
theorem LifeInv.destroy_aborts (hinv : LifeInv es s) (hstatic : JustStatic es)
    (h : LibthrAnswers) :
    ((LifeCall.destroy : LifeCall Tid).routine s.mutex).run h =
      .error .abort := by
  obtain ⟨⟨linuxKind, hmutex⟩, -⟩ := hinv.born hstatic
  exact asserting_of_null .destroy (by rw [hmutex]; rfl)

/-- An operation that leaves no living mutex leaves no holder. -/
theorem LifeCall.after_dead [DecidableEq Tid] {c : LifeCall Tid} {err : Errno}
    {mutex : LinuxMutex} (hlegal : c.Legal s)
    (hdead : (c.after s err mutex).alive = false) (t : Tid) :
    (c.after s err mutex).holds t = 0 := by
  have halive : s.alive = true → s.alive ≠ false := fun h h' => by
    rw [h] at h'
    cases h'
  cases c with
  | init linuxAttr => rfl
  | lock t => exact absurd hdead (halive hlegal)
  | trylock t => exact absurd hdead (halive hlegal)
  | timedlock t absTimeout => exact absurd hdead (halive hlegal)
  | condWait t cond => exact absurd hdead (halive hlegal.1)
  | condTimedwait t cond abstime => exact absurd hdead (halive hlegal.1)
  | unlock t => exact absurd hdead (halive hlegal.1)
  | destroy => exact hlegal.2 t

/-- The step lemma. -/
theorem LifeInv.step [DecidableEq Tid] {e : LifeEvent Tid} (hinv : LifeInv es s)
    (hstep : LifeStep s e s') : LifeInv (es ++ [e]) s' := by
  cases e with
  | static linuxKind =>
      obtain ⟨-, rfl⟩ := hstep
      exact {
        dead := nofun
        born := fun _ => ⟨⟨linuxKind, rfl⟩, fun _ => rfl⟩
        set := fun _ hnot => absurd (justStatic_static es linuxKind) hnot }
  | call c h =>
      obtain ⟨hlibthr, hlegal, err, mutex, hrun, rfl⟩ := hstep
      have hready : c.Ready s.mutex := by
        refine hinv.ready hlegal ?_
        rintro ⟨rfl, hstatic⟩
        rw [hinv.destroy_aborts hstatic] at hrun
        cases hrun
      obtain ⟨o, m, -, ⟨-, hends⟩, hset⟩ := c.forwarded_of_ready hlibthr hready
      have hmutex : mutex.wrappedMutex ≠ null := by
        rw [hends] at hrun
        cases hrun
        exact hset
      exact {
        dead := LifeCall.after_dead hlegal
        born := fun hstatic => absurd hstatic (not_justStatic_call es c h)
        set := by cases c <;> exact fun _ _ => hmutex }

/-- The run lemma. -/
theorem Lives.inv [DecidableEq Tid] (hlife : Lives es s) : LifeInv es s := by
  refine Runs.invariant (I := LifeInv) ?_ ?_ hlife
  · rintro s ⟨hdead, hholds⟩
    refine ⟨fun _ => hholds, nofun, fun halive _ => ?_⟩
    rw [hdead] at halive
    cases halive
  · intro es s e s' _ hinv hstep
    exact hinv.step hstep

/-- Anywhere in the life of a mutex, the next legal operation is forwarded
exactly if it does not destroy a mutex just born by a static initializer. -/
theorem Lives.forwarded_iff [DecidableEq Tid] (hlife : Lives es s)
    {h : LibthrAnswers} (hlibthr : Libthr h) {c : LifeCall Tid}
    (hlegal : c.Legal s) :
    c.Forwarded h s.mutex ↔ ¬(c = .destroy ∧ JustStatic es) := by
  have hinv := hlife.inv
  constructor
  · rintro ⟨o, m, -, -, hrun⟩ ⟨rfl, hstatic⟩
    rw [hinv.destroy_aborts hstatic] at hrun
    cases hrun
  · intro hdestroy
    obtain ⟨o, m, hnative, hends, -⟩ :=
      c.forwarded_of_ready hlibthr (hinv.ready hlegal hdestroy)
    exact ⟨o, m, hnative, hends⟩

/-- The event does not destroy a mutex just born by a static initializer. -/
def LifeEvent.Allowed (past : List (LifeEvent Tid)) : LifeEvent Tid → Prop
  | .static _ => True
  | .call c _ => ¬(c = .destroy ∧ JustStatic past)

/-- A life in which all events are allowed is one in which no destruction
comes right after a static birth. -/
theorem allowed_iff_not_static_destroy :
    (∀ es₁ e es₂, es = es₁ ++ e :: es₂ → LifeEvent.Allowed es₁ e) ↔
      ∀ es₁ linuxKind h es₂,
        es ≠ es₁ ++ .static linuxKind :: .call .destroy h :: es₂ := by
  constructor
  · intro hallowed es₁ linuxKind h es₂ heq
    rw [← List.singleton_append, ← List.append_assoc] at heq
    exact hallowed _ _ _ heq ⟨rfl, justStatic_static es₁ linuxKind⟩
  · intro hnot es₁ e es₂ heq
    cases e with
    | static linuxKind => trivial
    | call c h =>
        rintro ⟨rfl, linuxKind, hlast⟩
        obtain ⟨es₀, rfl⟩ := List.getLast?_eq_some_iff.mp hlast
        rw [List.append_assoc, List.singleton_append] at heq
        exact hnot es₀ linuxKind h es₂ heq

/-- In a whole life of a mutex, every operation is forwarded to the native
mutex and no assertion fails, exactly if the mutex is never destroyed right
after its birth by a static initializer. -/
theorem mutex_life_forwarded_iff [DecidableEq Tid] (hunborn : Unborn s)
    (hlegal : Throughout LifeStep (fun _ s e => e.Legal s) [] s es) :
    Throughout LifeStep (fun _ s e => e.Forwarded s) [] s es ↔
      ∀ es₁ linuxKind h es₂,
        es ≠ es₁ ++ .static linuxKind :: .call .destroy h :: es₂ := by
  have hlife : Lives [] s := .nil hunborn
  refine (Runs.throughout_iff LifeEvent.Allowed ?_ ?_ hlife hlegal).trans
    allowed_iff_not_static_destroy
  · intro past s e hlife hlegal
    cases e with
    | static linuxKind => exact Iff.rfl
    | call c h => exact Lives.forwarded_iff hlife hlegal.1 hlegal.2
  · intro past s e hlife hlegal hforwarded
    cases e with
    | static linuxKind => exact ⟨_, hlegal, rfl⟩
    | call c h =>
        obtain ⟨o, m, -, -, hrun⟩ := hforwarded
        exact ⟨_, hlegal.1, hlegal.2, _, _, hrun, rfl⟩

/-- An operation at the head of a life, by what it returns. -/
theorem throughout_call [DecidableEq Tid]
    {P : List (LifeEvent Tid) → MutexLife Tid → LifeEvent Tid → Prop}
    {c : LifeCall Tid} {h : LibthrAnswers} {err : Errno} {mutex : LinuxMutex}
    {past : List (LifeEvent Tid)}
    (hrun : (c.routine s.mutex).run h = .ok (err, mutex))
    (hP : P past s (.call c h))
    (hrest : Throughout LifeStep P (past ++ [.call c h])
      (c.after s err mutex) es) :
    Throughout LifeStep P past s (.call c h :: es) := by
  refine ⟨hP, ?_⟩
  rintro s' ⟨-, -, err', mutex', hrun', rfl⟩
  rw [hrun] at hrun'
  cases hrun'
  exact hrest

end Lives

/-- A libthr in which every call succeeds. -/
def obligingLibthr : LibthrAnswers
  | .op _ _ => (0, 1)
  | .guardLock => (0 : Errno)
  | .guardUnlock => (0 : Errno)

theorem libthr_obligingLibthr : Libthr obligingLibthr where
  first _ _ _ := Nat.one_ne_zero
  keeps _ _ _ := Nat.one_ne_zero
  guardLock := rfl
  guardUnlock := rfl

/-- Memory before a first birth. -/
def unborn : MutexLife Nat := ⟨⟨null, 0⟩, false, fun _ => 0⟩

/-- A mutex is set to `PTHREAD_MUTEX_INITIALIZER`, and destroyed. -/
def staticDestroy : List (LifeEvent Nat) :=
  [.static 0, .call .destroy obligingLibthr]

/-- A recursive one is locked and unlocked before it is destroyed. -/
def staticLockDestroy : List (LifeEvent Nat) :=
  [.static 1, .call (.lock 7) obligingLibthr, .call (.unlock 7) obligingLibthr,
    .call .destroy obligingLibthr]

theorem static_destroy_not_forwarded :
    Unborn unborn ∧
      Throughout LifeStep (fun _ s e => e.Legal s) [] unborn staticDestroy ∧
      ¬Throughout LifeStep (fun _ s e => e.Forwarded s) [] unborn
        staticDestroy ∧
      (shimPthreadMutexDestroy (staticMutex 0)).run obligingLibthr =
        .error .abort := by
  refine ⟨⟨rfl, fun _ => rfl⟩, ⟨rfl, ?_⟩, ?_, rfl⟩
  · rintro s ⟨-, rfl⟩
    refine ⟨⟨libthr_obligingLibthr, rfl, fun _ => rfl⟩, ?_⟩
    exact fun _ _ => trivial
  · rintro ⟨-, hrest⟩
    obtain ⟨⟨o, m, -, -, hrun⟩, -⟩ := hrest _ ⟨rfl, rfl⟩
    exact absurd hrun nofun

theorem locked_destroy_forwarded :
    Throughout LifeStep (fun _ s e => e.Forwarded s) [] unborn
      staticLockDestroy := by
  have hfree : ∀ t : Nat,
      Function.update (Function.update (fun _ => 0) 7 1) 7 0 t = 0 := by
    intro t
    rw [Function.update_idem, Function.update_eq_self]
  have hlegal : Throughout LifeStep (fun _ s e => e.Legal s) [] unborn
      staticLockDestroy := by
    refine ⟨rfl, ?_⟩
    rintro s ⟨-, rfl⟩
    refine throughout_call rfl ⟨libthr_obligingLibthr, rfl⟩ ?_
    refine throughout_call rfl ⟨libthr_obligingLibthr, rfl, Nat.one_pos⟩ ?_
    exact throughout_call rfl ⟨libthr_obligingLibthr, rfl, hfree⟩ trivial
  refine (mutex_life_forwarded_iff ⟨rfl, fun _ => rfl⟩ hlegal).mpr ?_
  intro es₁ linuxKind h es₂ heq
  rcases es₁ with _ | ⟨e₁, _ | ⟨e₂, _ | ⟨e₃, es₃⟩⟩⟩
  · cases heq
  · cases heq
  · cases heq
  · have hlen := congrArg List.length heq
    simp [staticLockDestroy] at hlen
    omega

end Libc6Shim
