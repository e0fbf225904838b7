import Libc6Shim.CSemSystem
import Libc6Shim.MutexLife

/-!
# Mutexes that are the same to Linux

There are several ways to a default mutex, and to a mutex of a given kind
(`Creation`). Each ends in a native mutex whose attributes were chosen by
other code: by the lazy initialisation, by `pthread_mutex_init`, or by
libthr, for a null attribute pointer and for a mutex it finds
uninitialised. Two mutexes are compared by the results of a sequence of
calls on them, each by some thread (`SharedMutex.results`).

A native mutex is a machine of libthr's (`MutexLib`), and what the shim adds
to it is little: once it is there its calls go straight down
(`results_initialised`), and a static mutex has it after the first call
that locks (`results_static`). What is left of the question is whether the
attributes are the same: libthr's default kind is not the one a fresh
attribute object asks for, which a relock by the owner shows
(`MutexLib.results_normal_iff`). So two creations are told apart by an unlock
that comes first, if one of them is static, and by a relock, if one leaves
the kind to libthr and the other asks for the normal one.
-/

namespace Libc6Shim

open CSem Outcome

variable {Tid σ : Type}

/-! ## Native mutexes -/

/-- A call of the sequence. -/
inductive LockOp where
  | lock
  | trylock
  | unlock
deriving DecidableEq

/-- libthr: the machine a native mutex is. A call that has to wait has no
result; when it is woken it is made again. `addr` is where libthr puts the
mutex. -/
structure MutexLib (Tid σ : Type) where
  start : σ
  step : NativeMutexattr → Tid → LockOp → σ → Option Errno × σ
  owner : σ → Option Tid
  addr : Ptr
  addr_ne : addr ≠ null

namespace MutexLib

/-- A thread locks the mutex it holds. -/
def Relock (lib : MutexLib Tid σ) (s : σ) (ev : Tid × LockOp) : Prop :=
  ev.2 = .lock ∧ lib.owner s = some ev.1

/-- What the manual says of the kinds `NORMAL` and `ERRORCHECK`. -/
structure Documented (lib : MutexLib Tid σ) : Prop where
  /-- An error checking mutex reports the deadlock. -/
  relock_errorcheck : ∀ attr s ev, attr.type = pthreadMutexErrorcheck →
    lib.Relock s ev → (lib.step attr ev.1 ev.2 s).1 = some edeadlk
  /-- A normal one deadlocks. -/
  relock_normal : ∀ attr s ev, attr.type = pthreadMutexNormal →
    lib.Relock s ev → (lib.step attr ev.1 ev.2 s).1 = none
  /-- They do not differ in anything else. -/
  alike : ∀ (attr : NativeMutexattr) s ev, ¬lib.Relock s ev →
    lib.step { attr with type := pthreadMutexNormal } ev.1 ev.2 s =
      lib.step { attr with type := pthreadMutexErrorcheck } ev.1 ev.2 s

/-- The results of a sequence of calls on a native mutex. -/
def results (lib : MutexLib Tid σ) (attr : NativeMutexattr) :
    σ → List (Tid × LockOp) → List (Option Errno)
  | _, [] => []
  | s, ev :: evs =>
      (lib.step attr ev.1 ev.2 s).1 ::
        lib.results attr (lib.step attr ev.1 ev.2 s).2 evs

/-- How a mutex of libthr's default kind moves. -/
def DefaultStep (lib : MutexLib Tid σ) (s : σ) (ev : Tid × LockOp) (s' : σ) :
    Prop :=
  s' = (lib.step {} ev.1 ev.2 s).2

/-- No thread of the sequence locks the mutex while it holds it. -/
def NeverRelocks (lib : MutexLib Tid σ) (s : σ) (evs : List (Tid × LockOp)) :
    Prop :=
  Throughout lib.DefaultStep (fun _ s ev => ¬lib.Relock s ev) [] s evs

theorem neverRelocks_cons {lib : MutexLib Tid σ} {s : σ} {ev : Tid × LockOp}
    {evs : List (Tid × LockOp)} :
    lib.NeverRelocks s (ev :: evs) ↔
      ¬lib.Relock s ev ∧ lib.NeverRelocks (lib.step {} ev.1 ev.2 s).2 evs := by
  constructor
  · rintro ⟨hev, hrest⟩
    exact ⟨hev, throughout_past _ _ (hrest _ rfl)⟩
  · rintro ⟨hev, hrest⟩
    exact ⟨hev, fun s' hs => hs ▸ throughout_past _ _ hrest⟩

/-- Normal mutexes are told from those of the default kind by a relock, and
by nothing else. -/
theorem results_normal_iff {lib : MutexLib Tid σ} (hlib : lib.Documented)
    (s : σ) (evs : List (Tid × LockOp)) :
    lib.results { type := pthreadMutexNormal } s evs = lib.results {} s evs ↔
      lib.NeverRelocks s evs := by
  induction evs generalizing s with
  | nil => exact iff_of_true rfl trivial
  | cons ev evs ih =>
      rw [results, results, List.cons.injEq, neverRelocks_cons]
      by_cases hre : lib.Relock s ev
      · refine iff_of_false (fun heq => ?_) (fun hnever => hnever.1 hre)
        have hdead := hlib.relock_errorcheck {} s ev rfl hre
        have hwait := hlib.relock_normal { type := pthreadMutexNormal } s ev rfl hre
        rw [heq.1, hdead] at hwait
        cases hwait
      · have hstep : lib.step { type := pthreadMutexNormal } ev.1 ev.2 s =
            lib.step {} ev.1 ev.2 s := hlib.alike {} s ev hre
        rw [hstep, ih]
        exact and_congr_left' (iff_of_true rfl hre)

end MutexLib

/-! ## Shim mutexes -/

/-- A mutex of the program: its kind in memory, and what libthr has behind
its pointer. -/
structure SharedMutex (σ : Type) where
  linuxKind : Word
  native : Option (NativeMutexattr × σ)

/-- The mutex in memory; the pointer is libthr's to write. -/
def SharedMutex.memory (lib : MutexLib Tid σ) (m : SharedMutex σ) :
    LinuxMutex :=
  ⟨if m.native.isSome then lib.addr else null, m.linuxKind⟩

/-- An operation on the native mutex, which libthr first makes one of its
default kind if it is not initialised. -/
def MutexLib.operate (lib : MutexLib Tid σ) (t : Tid) (op : LockOp)
    (native : Option (NativeMutexattr × σ)) :
    Option (Errno × Ptr) × Option (NativeMutexattr × σ) :=
  let (attr, s) := native.getD ({}, lib.start)
  let (err, s') := lib.step attr t op s
  (err.map (·, lib.addr), some (attr, s'))

/-- How libthr answers the calls of a thread's routine. Those that play no
role here leave the mutex alone. -/
def MutexLib.answer (lib : MutexLib Tid σ) (t : Tid) :
    (c : MutexCall) → Option (NativeMutexattr × σ) →
      Option (MutexAnswer c) × Option (NativeMutexattr × σ)
  | .op (.init attr) _, _ =>
      (some (0, lib.addr), some (attr.getD {}, lib.start))
  | .op .lock _, native => lib.operate t .lock native
  | .op .trylock _, native => lib.operate t .trylock native
  | .op .unlock _, native => lib.operate t .unlock native
  | .op _ m, native => (some (0, m), native)
  | .guardLock, native | .guardUnlock, native => (some 0, native)

def LockOp.routine : LockOp → LinuxMutex → MutexProg (Errno × LinuxMutex)
  | .lock => shimPthreadMutexLock
  | .trylock => shimPthreadMutexTrylock
  | .unlock => shimPthreadMutexUnlock

/-- A call on the mutex: its result, if it returns, and the mutex after. -/
def SharedMutex.call (lib : MutexLib Tid σ) (m : SharedMutex σ)
    (ev : Tid × LockOp) : Outcome (Option Errno) × SharedMutex σ :=
  let (r, native) :=
    (ev.2.routine (m.memory lib)).advance (lib.answer ev.1) m.native
  (Option.map Prod.fst <$> r, { m with native })

/-- The results of a sequence of calls. A failed assertion ends it. -/
def SharedMutex.results (lib : MutexLib Tid σ) :
    SharedMutex σ → List (Tid × LockOp) → List (Outcome (Option Errno))
  | _, [] => []
  | m, ev :: evs =>
      match m.call lib ev with
      | (.ok r, m') => .ok r :: SharedMutex.results lib m' evs
      | (.error e, _) => [.error e]

/-! ## Creations -/

/-- The ways a program makes a mutex. -/
inductive Creation where
  /-- A static initializer. -/
  | static (linuxKind : BitVec 2)
  /-- `pthread_mutex_init` with null attributes. -/
  | initNull
  /-- `pthread_mutex_init` with a fresh attribute object. -/
  | initFresh
  /-- The same after `settype`. -/
  | initTyped (linuxKind : BitVec 2)

/-- What the program does, in memory it knows nothing of. -/
def Creation.routine (attr : LinuxMutexattr) (mutex : LinuxMutex) :
    Creation → MutexProg (Errno × LinuxMutex)
  | .static linuxKind => return (0, staticMutex linuxKind)
  | .initNull => shimPthreadMutexInit mutex none
  | .initFresh => do
      let (_, attr) := shimPthreadMutexattrInit attr
      shimPthreadMutexInit mutex (some attr)
  | .initTyped linuxKind => do
      let (_, attr) := shimPthreadMutexattrInit attr
      let (_, attr) ← Prog.ofOutcome
        (shimPthreadMutexattrSettype attr linuxKind.toNat)
      shimPthreadMutexInit mutex (some attr)

/-- The creation returns, and leaves the mutex `m`. -/
def Creation.Makes (lib : MutexLib Tid σ) (c : Creation) (m : SharedMutex σ) :
    Prop :=
  ∃ attr mutex t err,
    (c.routine attr mutex).advance (lib.answer t) none =
      (.ok (some (err, m.memory lib)), m.native)

/-- Two creations a program may take for the same. -/
inductive Creation.SameToLinux : Creation → Creation → Prop where
  | static_null : SameToLinux (.static 0) .initNull
  | static_fresh : SameToLinux (.static 0) .initFresh
  | null_fresh : SameToLinux .initNull .initFresh
  | typed (linuxKind : BitVec 2) :
      SameToLinux (.static linuxKind) (.initTyped linuxKind)

/-- A static initializer. -/
def Creation.IsStatic : Creation → Prop
  | .static _ => True
  | _ => False

/-- No kind, or the normal one, is asked for without an attribute object. -/
def Creation.WithoutKind : Creation → Prop
  | .static linuxKind => linuxKind = 0
  | .initNull => True
  | _ => False

/-- The normal kind is asked for with an attribute object. -/
def Creation.NormalKind : Creation → Prop
  | .initFresh => True
  | .initTyped linuxKind => linuxKind = 0
  | _ => False

/-- Mutexes made either way give the same results. -/
def Creation.Alike (lib : MutexLib Tid σ) (evs : List (Tid × LockOp))
    (c c' : Creation) : Prop :=
  ∀ m m' : SharedMutex σ, c.Makes lib m → c'.Makes lib m' →
    m.results lib evs = m'.results lib evs

/-! ## Calls on a shim mutex -/

section Calls

variable {lib : MutexLib Tid σ} {attr : NativeMutexattr} {s : σ}
  {linuxKind : Word} {ev : Tid × LockOp} {evs : List (Tid × LockOp)}

theorem advance_onNativeMutex
    {h : (c : MutexCall) → σ → Option (MutexAnswer c) × σ} {o : MutexOp}
    {mutex : LinuxMutex} {n n' : σ} {r : Option (Errno × Ptr)}
    (hop : h (.op o mutex.wrappedMutex) n = (r, n')) :
    (onNativeMutex o mutex).advance h n =
      (.ok (r.map fun r => (r.1, { mutex with wrappedMutex := r.2 })), n') := by
  cases r with
  | none => exact Prog.advance_call_of_none hop
  | some r => exact Prog.advance_call_of_some hop

/-- Every operation of the sequence is one of libthr's. -/
def LockOp.native : LockOp → MutexOp
  | .lock => .lock
  | .trylock => .trylock
  | .unlock => .unlock

theorem LockOp.routine_of_set {mutex : LinuxMutex}
    (hset : mutex.wrappedMutex ≠ null) (op : LockOp) :
    op.routine mutex = onNativeMutex op.native mutex := by
  have hinit : initMutexIfNecessary mutex = pure mutex :=
    initMutexIfNecessary_of_done (.inl hset)
  cases op with
  | lock =>
      rw [routine, shimPthreadMutexLock, initialising, hinit]
      rfl
  | trylock =>
      rw [routine, shimPthreadMutexTrylock, initialising, hinit]
      rfl
  | unlock => exact asserting_of .unlock hset

theorem MutexLib.answer_op (t : Tid) (op : LockOp) (m : Ptr)
    (native : Option (NativeMutexattr × σ)) :
    lib.answer t (.op op.native m) native = lib.operate t op native := by
  cases op <;> rfl

/-- The calls on a mutex that libthr has initialised go straight down. -/
theorem call_initialised :
    (⟨linuxKind, some (attr, s)⟩ : SharedMutex σ).call lib ev =
      (.ok (lib.step attr ev.1 ev.2 s).1,
        ⟨linuxKind, some (attr, (lib.step attr ev.1 ev.2 s).2)⟩) := by
  have hop : lib.answer ev.1 (.op ev.2.native lib.addr) (some (attr, s)) =
      ((lib.step attr ev.1 ev.2 s).1.map (·, lib.addr),
        some (attr, (lib.step attr ev.1 ev.2 s).2)) :=
    MutexLib.answer_op ev.1 ev.2 lib.addr _
  unfold SharedMutex.call
  rw [LockOp.routine_of_set (show lib.addr ≠ null from lib.addr_ne),
    advance_onNativeMutex hop]
  cases (lib.step attr ev.1 ev.2 s).1 <;> rfl

theorem results_initialised :
    (⟨linuxKind, some (attr, s)⟩ : SharedMutex σ).results lib evs =
      (lib.results attr s evs).map .ok := by
  induction evs generalizing s with
  | nil => rfl
  | cons ev evs ih =>
      rw [SharedMutex.results, call_initialised, MutexLib.results,
        List.map_cons]
      exact congrArg _ ih

end Calls

/-! ## The native mutex behind each creation -/

section Creations

variable {lib : MutexLib Tid σ} {m m' : SharedMutex σ} {c c' : Creation}
  {evs : List (Tid × LockOp)}

/-- The native kind for one of the four. -/
def nativeMutexKind (linuxKind : BitVec 2) : Word :=
  match linuxKind with
  | 0 => pthreadMutexNormal
  | 1 => pthreadMutexRecursive
  | 2 => pthreadMutexErrorcheck
  | 3 => pthreadMutexAdaptiveNp

theorem linuxToNativeMutexKind_eq (linuxKind : BitVec 2) :
    linuxToNativeMutexKind (linuxKind.setWidth 32) =
      .ok (nativeMutexKind linuxKind) := by
  match linuxKind with
  | 0 | 1 | 2 | 3 => rfl

/-- The attributes the native mutex has once it is there. -/
def Creation.nativeAttr : Creation → NativeMutexattr
  | .static linuxKind =>
      if linuxKind = 0 then {} else { type := nativeMutexKind linuxKind }
  | .initNull => {}
  | .initFresh => { type := pthreadMutexNormal }
  | .initTyped linuxKind => { type := nativeMutexKind linuxKind }

/-- The sequence begins with an unlock. -/
def StartsUnlocking (evs : List (Tid × LockOp)) : Prop :=
  ∃ t, evs.head? = some (t, .unlock)

/-- The attributes two creations end in are the same, or those of libthr's
default and the normal kind. -/
theorem Creation.SameToLinux.nativeAttr (hsame : c.SameToLinux c') :
    ¬(c.WithoutKind ∧ c'.NormalKind) ∧ c.nativeAttr = c'.nativeAttr ∨
      (c.WithoutKind ∧ c'.NormalKind) ∧
        c.nativeAttr = {} ∧ c'.nativeAttr = { type := pthreadMutexNormal } := by
  cases hsame with
  | static_null => exact .inl ⟨fun h => h.2, rfl⟩
  | static_fresh => exact .inr ⟨⟨rfl, trivial⟩, rfl, rfl⟩
  | null_fresh => exact .inr ⟨⟨trivial, trivial⟩, rfl, rfl⟩
  | typed linuxKind =>
      by_cases hkind : linuxKind = 0
      · subst hkind
        exact .inr ⟨⟨rfl, rfl⟩, rfl, rfl⟩
      · exact .inl ⟨fun h => hkind h.1, if_neg hkind⟩

/-- The second of the two is not static. -/
theorem Creation.SameToLinux.init (hsame : c.SameToLinux c')
    (linuxKind : BitVec 2) : c' ≠ .static linuxKind := by
  cases hsame <;> nofun

/-- Every other creation than a static one is a native `init`. -/
theorem Creation.routine_of_init (attr : LinuxMutexattr) (mutex : LinuxMutex)
    (c : Creation) (hinit : ∀ linuxKind, c ≠ .static linuxKind) :
    ∃ a : Option NativeMutexattr, a.getD {} = c.nativeAttr ∧
      c.routine attr mutex = onNativeMutex (.init a) mutex := by
  cases c with
  | static linuxKind => exact absurd rfl (hinit linuxKind)
  | initNull => exact ⟨none, rfl, rfl⟩
  | initFresh => exact ⟨some _, rfl, rfl⟩
  | initTyped linuxKind =>
      refine ⟨some { type := nativeMutexKind linuxKind }, rfl, ?_⟩
      match linuxKind with
      | 0 | 1 | 2 | 3 => rfl

theorem Creation.advance_init {c : Creation} (attr : LinuxMutexattr)
    (mutex : LinuxMutex) (t : Tid)
    (hinit : ∀ linuxKind, c ≠ .static linuxKind) :
    (c.routine attr mutex).advance (lib.answer t) none =
      (.ok (some (0, { mutex with wrappedMutex := lib.addr })),
        some (c.nativeAttr, lib.start)) := by
  obtain ⟨a, ha, hroutine⟩ := c.routine_of_init attr mutex hinit
  have hop : lib.answer t (.op (.init a) mutex.wrappedMutex) none =
      (some (0, lib.addr), some (c.nativeAttr, lib.start)) := by
    rw [← ha]
    rfl
  rw [hroutine, advance_onNativeMutex hop]
  rfl

/-- A static mutex is memory only. -/
theorem Creation.Makes.eq_static {linuxKind : BitVec 2}
    (hmakes : (Creation.static linuxKind).Makes lib m) :
    m = ⟨linuxKind.setWidth 32, none⟩ := by
  obtain ⟨attr, mutex, t, err, hrun⟩ := hmakes
  obtain ⟨hmemory, hnative⟩ := Prod.mk.inj hrun
  obtain ⟨kind, native⟩ := m
  obtain rfl : none = native := hnative
  cases hmemory
  rfl

/-- Any other has its native mutex. -/
theorem Creation.Makes.eq_init (hmakes : c.Makes lib m)
    (hinit : ∀ linuxKind, c ≠ .static linuxKind) :
    m = ⟨m.linuxKind, some (c.nativeAttr, lib.start)⟩ := by
  obtain ⟨attr, mutex, t, err, hrun⟩ := hmakes
  rw [advance_init attr mutex t hinit] at hrun
  obtain ⟨-, hnative⟩ := Prod.mk.inj hrun
  obtain ⟨kind, native⟩ := m
  exact congrArg _ hnative.symm

/-- Every creation succeeds. -/
theorem Creation.exists_makes (lib : MutexLib Tid σ) (t : Tid) (c : Creation) :
    ∃ m, c.Makes lib m := by
  by_cases hinit : ∀ linuxKind, c ≠ .static linuxKind
  · exact ⟨⟨0, some (c.nativeAttr, lib.start)⟩, defaultMutexattr, ⟨null, 0⟩,
      t, 0, advance_init defaultMutexattr ⟨null, 0⟩ t hinit⟩
  · simp only [not_forall, not_not] at hinit
    obtain ⟨linuxKind, rfl⟩ := hinit
    exact ⟨⟨linuxKind.setWidth 32, none⟩, defaultMutexattr, ⟨null, 0⟩, t, 0,
      rfl⟩

/-! ## Results -/

/-- A static mutex cannot be unlocked first. -/
theorem results_static_unlock (linuxKind : Word) (t : Tid) :
    (⟨linuxKind, none⟩ : SharedMutex σ).results lib ((t, .unlock) :: evs) =
      [.error .abort] := by
  rfl

/-- The lazy initialisation makes the native mutex of a static one, unless
that is left to libthr. -/
theorem advance_initMutexIfNecessary (t : Tid) {linuxKind : BitVec 2}
    (hkind : linuxKind ≠ 0) :
    (initMutexIfNecessary (staticMutex linuxKind)).advance (lib.answer t)
        none =
      (.ok (some { staticMutex linuxKind with wrappedMutex := lib.addr }),
        some ((Creation.static linuxKind).nativeAttr, lib.start)) := by
  match linuxKind with
  | 0 => exact absurd rfl hkind
  | 1 | 2 | 3 => rfl

theorem LockOp.routine_of_locks {op : LockOp} (hlocks : op ≠ .unlock)
    (mutex : LinuxMutex) : op.routine mutex = initialising op.native mutex := by
  cases op with
  | lock => rfl
  | trylock => rfl
  | unlock => exact absurd rfl hlocks

/-- Its first lock or trylock finds a native mutex with the attributes of its
kind. -/
theorem call_static (linuxKind : BitVec 2) {ev : Tid × LockOp}
    (hlocks : ev.2 ≠ .unlock) :
    (⟨linuxKind.setWidth 32, none⟩ : SharedMutex σ).call lib ev =
      (⟨linuxKind.setWidth 32,
        some ((Creation.static linuxKind).nativeAttr, lib.start)⟩ :
          SharedMutex σ).call lib ev := by
  obtain ⟨attr, hattr⟩ : ∃ attr, (Creation.static linuxKind).nativeAttr = attr :=
    ⟨_, rfl⟩
  obtain ⟨err, s', hstep⟩ : ∃ err s',
      lib.step attr ev.1 ev.2 lib.start = (err, s') := ⟨_, _, rfl⟩
  have hop : ∀ native : Option (NativeMutexattr × σ),
      native.getD ({}, lib.start) = (attr, lib.start) → ∀ m,
        lib.answer ev.1 (.op ev.2.native m) native =
          (err.map (·, lib.addr), some (attr, s')) := by
    intro native hnative m
    simp only [MutexLib.answer_op, MutexLib.operate, hnative, hstep]
  have hstatic : (ev.2.routine (staticMutex linuxKind)).advance
      (lib.answer ev.1) none =
        (.ok ((err.map (·, lib.addr)).map fun r =>
          (r.1, { staticMutex linuxKind with wrappedMutex := r.2 })),
          some (attr, s')) := by
    rw [LockOp.routine_of_locks hlocks, initialising]
    by_cases hkind : linuxKind = 0
    · subst hkind
      obtain rfl : {} = attr := hattr
      rw [initMutexIfNecessary_of_done (.inr rfl), pure_bind,
        advance_onNativeMutex (hop none rfl _)]
    · rw [Prog.advance_bind_of (advance_initMutexIfNecessary ev.1 hkind),
        hattr, advance_onNativeMutex (hop _ rfl _)]
  rw [call_initialised, hattr, hstep]
  unfold SharedMutex.call
  rw [show SharedMutex.memory lib ⟨linuxKind.setWidth 32, none⟩ =
    staticMutex linuxKind from rfl, hstatic]
  cases err <;> rfl

theorem results_static (linuxKind : BitVec 2)
    (hlocks : ¬StartsUnlocking evs) :
    (⟨linuxKind.setWidth 32, none⟩ : SharedMutex σ).results lib evs =
      (lib.results (Creation.static linuxKind).nativeAttr lib.start evs).map
        .ok := by
  have hnative : (⟨linuxKind.setWidth 32,
      some ((Creation.static linuxKind).nativeAttr, lib.start)⟩ :
        SharedMutex σ).results lib evs = _ := results_initialised
  rw [← hnative]
  cases evs with
  | nil => rfl
  | cons ev evs =>
      have hev : ev.2 ≠ .unlock := by
        intro hunlock
        exact hlocks ⟨ev.1, congrArg some (Prod.ext rfl hunlock)⟩
      rw [SharedMutex.results, SharedMutex.results, call_static linuxKind hev]

/-- The results a mutex gives are those of its native mutex, if it has one
or does not begin with an unlock. -/
theorem Creation.Makes.results (hmakes : c.Makes lib m)
    (hlocks : c.IsStatic → ¬StartsUnlocking evs) :
    m.results lib evs = (lib.results c.nativeAttr lib.start evs).map .ok := by
  by_cases hinit : ∀ linuxKind, c ≠ .static linuxKind
  · rw [hmakes.eq_init hinit, results_initialised]
  · simp only [not_forall, not_not] at hinit
    obtain ⟨linuxKind, rfl⟩ := hinit
    rw [hmakes.eq_static]
    exact results_static linuxKind (hlocks trivial)

/-- So creations are compared by the attributes they end in. -/
theorem Creation.alike_iff_results (t : Tid)
    (hlocks : c.IsStatic → ¬StartsUnlocking evs)
    (hlocks' : c'.IsStatic → ¬StartsUnlocking evs) :
    Creation.Alike lib evs c c' ↔
      lib.results c.nativeAttr lib.start evs =
        lib.results c'.nativeAttr lib.start evs := by
  constructor
  · intro halike
    obtain ⟨m, hm⟩ := Creation.exists_makes lib t c
    obtain ⟨m', hm'⟩ := Creation.exists_makes lib t c'
    have hsame := halike m m' hm hm'
    rw [hm.results hlocks, hm'.results hlocks'] at hsame
    exact List.map_injective_iff.mpr (fun _ _ => Except.ok.inj) hsame
  · intro hsame m m' hm hm'
    rw [hm.results hlocks, hm'.results hlocks', hsame]

/-- An unlock that comes first tells a static mutex from any other. -/
theorem Creation.not_alike_of_unlock (hstatic : c.IsStatic)
    (hinit : ∀ linuxKind, c' ≠ .static linuxKind)
    (hunlock : StartsUnlocking evs) : ¬Creation.Alike lib evs c c' := by
  intro halike
  obtain ⟨t, hhead⟩ := hunlock
  cases evs with
  | nil => cases hhead
  | cons ev evs =>
      obtain rfl := Option.some.inj hhead
      cases c with
      | initNull => exact hstatic
      | initFresh => exact hstatic
      | initTyped linuxKind => exact hstatic
      | static linuxKind =>
          obtain ⟨m, hm⟩ := Creation.exists_makes lib t (.static linuxKind)
          obtain ⟨m', hm'⟩ := Creation.exists_makes lib t c'
          have hsame := halike m m' hm hm'
          rw [hm.eq_static, results_static_unlock, hm'.eq_init hinit,
            results_initialised] at hsame
          cases hsame

end Creations

/-- Two creations that are the same to Linux give the same results exactly
if the sequence of calls does not begin with an unlock, where one is static,
and no thread relocks, where one asks for the normal kind and the other for
none. -/
theorem sameToLinux_alike_iff {lib : MutexLib Tid σ} (hlib : lib.Documented)
    (evs : List (Tid × LockOp)) {c c' : Creation}
    (hsame : Creation.SameToLinux c c') :
    Creation.Alike lib evs c c' ↔
      (c.IsStatic → ¬StartsUnlocking evs) ∧
        (c.WithoutKind ∧ c'.NormalKind → lib.NeverRelocks lib.start evs) := by
  have hinit := hsame.init
  have hlocks' : c'.IsStatic → ¬StartsUnlocking evs := by
    intro hstatic
    cases c' with
    | static linuxKind => exact absurd rfl (hinit linuxKind)
    | initNull => exact hstatic.elim
    | initFresh => exact hstatic.elim
    | initTyped linuxKind => exact hstatic.elim
  cases evs with
  | nil =>
      refine iff_of_true (fun m m' _ _ => rfl) ⟨fun _ => ?_, fun _ => trivial⟩
      exact nofun
  | cons ev evs =>
      by_cases hlocks : c.IsStatic → ¬StartsUnlocking (ev :: evs)
      · rw [Creation.alike_iff_results ev.1 hlocks hlocks',
          and_iff_right hlocks]
        rcases hsame.nativeAttr with ⟨hno, hattr⟩ | ⟨hyes, hdefault, hnormal⟩
        · exact iff_of_true (by rw [hattr]) fun h => absurd h hno
        · rw [hdefault, hnormal, eq_comm,
            MutexLib.results_normal_iff hlib lib.start]
          exact ⟨fun h _ => h, fun h => h hyes⟩
      · obtain ⟨hstatic, hunlock⟩ := Classical.not_imp.mp hlocks
        exact iff_of_false (Creation.not_alike_of_unlock hstatic hinit
          (not_not.mp hunlock)) fun h => hlocks h.1

/-- A libthr whose mutexes have no waiters: the owner of each, and how often
it has it. -/
def plainMutexLib : MutexLib Nat (Option Nat × Nat) where
  start := (none, 0)
  step attr t op s :=
    match op, s.1 with
    | .lock, none | .trylock, none => (some 0, (some t, 1))
    | .lock, some o =>
        if o ≠ t then (none, s)
        else if attr.type = pthreadMutexNormal then (none, s)
        else if attr.type = pthreadMutexRecursive then
          (some 0, (s.1, s.2 + 1))
        else (some edeadlk, s)
    | .trylock, some o =>
        if o = t ∧ attr.type = pthreadMutexRecursive then
          (some 0, (s.1, s.2 + 1))
        else (some 16, s)
    | .unlock, o =>
        if o ≠ some t then (some 1, s)
        else if s.2 ≤ 1 then (some 0, (none, 0))
        else (some 0, (s.1, s.2 - 1))
  owner := Prod.fst
  addr := 1
  addr_ne := by decide

theorem plainMutexLib_documented : plainMutexLib.Documented where
  relock_errorcheck := by
    rintro attr ⟨o, n⟩ ⟨t, op⟩ hattr ⟨hop, howner⟩
    obtain rfl : op = .lock := hop
    obtain rfl : o = some t := howner
    simp [plainMutexLib, hattr, pthreadMutexErrorcheck, pthreadMutexNormal,
      pthreadMutexRecursive]
  relock_normal := by
    rintro attr ⟨o, n⟩ ⟨t, op⟩ hattr ⟨hop, howner⟩
    obtain rfl : op = .lock := hop
    obtain rfl : o = some t := howner
    simp [plainMutexLib, hattr]
  alike := by
    rintro attr ⟨o, n⟩ ⟨t, op⟩ hno
    cases op with
    | lock =>
        cases o with
        | none => rfl
        | some o =>
            have hne : o ≠ t := fun heq => hno ⟨rfl, congrArg some heq⟩
            simp [plainMutexLib, hne]
    | trylock =>
        cases o with
        | none => rfl
        | some o =>
            simp [plainMutexLib, pthreadMutexNormal, pthreadMutexErrorcheck,
              pthreadMutexRecursive]
    | unlock => rfl

/-- Two threads take turns, and nothing is told apart. A relock does not tell
error checking mutexes apart, nor an unlock that comes first those that were
initialised. -/
theorem turns_alike :
    plainMutexLib.Documented ∧
      (∀ c c', Creation.SameToLinux c c' → Creation.Alike plainMutexLib
        [(1, .lock), (2, .trylock), (1, .unlock), (2, .lock)] c c') ∧
      Creation.Alike plainMutexLib [(1, .lock), (1, .lock)] (.static 2)
        (.initTyped 2) ∧
      Creation.Alike plainMutexLib [(1, .unlock), (1, .lock)] .initNull
        .initFresh := by
  have hlib := plainMutexLib_documented
  refine ⟨hlib, fun c c' hsame => ?_, ?_, ?_⟩
  · refine (sameToLinux_alike_iff hlib _ hsame).mpr ⟨fun _ => ?_, fun _ => ?_⟩
    · rintro ⟨t, hhead⟩
      cases hhead
    · simp only [MutexLib.neverRelocks_cons]
      refine ⟨?_, ?_, ?_, ?_, trivial⟩
      · rintro ⟨-, howner⟩
        cases howner
      · rintro ⟨hop, -⟩
        cases hop
      · rintro ⟨hop, -⟩
        cases hop
      · rintro ⟨-, howner⟩
        cases howner
  · refine (sameToLinux_alike_iff hlib _ (.typed 2)).mpr ⟨fun _ => ?_, ?_⟩
    · rintro ⟨t, hhead⟩
      cases hhead
    · rintro ⟨hkind, -⟩
      exact absurd (show (2 : BitVec 2) = 0 from hkind) (by decide)
  · refine (sameToLinux_alike_iff hlib _ .null_fresh).mpr
      ⟨fun hstatic => hstatic.elim, fun _ => ?_⟩
    simp only [MutexLib.neverRelocks_cons]
    refine ⟨?_, ?_, trivial⟩
    · rintro ⟨hop, -⟩
      cases hop
    · rintro ⟨-, howner⟩
      cases howner

/-- The static mutex reports a relock, and one with fresh attributes
deadlocks. -/
theorem relock_tells_static_from_fresh :
    plainMutexLib.Documented ∧ ¬∀ c c', Creation.SameToLinux c c' →
      Creation.Alike plainMutexLib [(1, .lock), (1, .lock)] c c' := by
  refine ⟨plainMutexLib_documented, fun halike => ?_⟩
  obtain ⟨m, hm⟩ := Creation.exists_makes plainMutexLib 1 (.static 0)
  obtain ⟨m', hm'⟩ := Creation.exists_makes plainMutexLib 1 .initFresh
  have hsame := halike _ _ .static_fresh m m' hm hm'
  have hstatic : m.results plainMutexLib [(1, .lock), (1, .lock)] =
      [.ok (some 0), .ok (some edeadlk)] := by
    rw [hm.eq_static]
    rfl
  have hfresh : m'.results plainMutexLib [(1, .lock), (1, .lock)] =
      [.ok (some 0), .ok none] := by
    rw [hm'.eq_init (fun _ => nofun)]
    rfl
  rw [hstatic, hfresh] at hsame
  cases hsame

end Libc6Shim
