import Libc6Shim.OpenRequests

/-!
# Shared memory objects

`shm_open` (`src/libc/fcntl.c`) is an `open` under `/compat/linux/dev/shm`.
The descriptor is to be closed on exec, but the flag for it is added to the
mode, where the native side drops it; so no request is made as it should be
(`shmOpen_never_safe`).

The path is the directory and the name, one behind the other and cut to fit a
buffer: it is the object's own for names of moderate length with exactly one
slash in front (`shmBuf_eq_iff`).
-/

namespace Libc6Shim

open CSem Buf Outcome Routine

/-! ## The shim -/

/-- What `snprintf` leaves of the path in a buffer of `PATH_MAX` bytes. -/
def shmBuf (path : Buf) : Buf :=
  (lit "/compat/linux/dev/shm" ++ path).take (pathMax - 1)

/-- The flags `shm_open` is prepared for. -/
def knownShmFlags : Word :=
  linuxORdonly ||| linuxORdwr ||| linuxOCreat ||| linuxOExcl ||| linuxOTrunc

def shmFlagPairs : List (Word × Word) :=
  [(linuxOWronly, oWronly), (linuxORdwr, oRdwr), (linuxOCreat, oCreat),
    (linuxOExcl, oExcl), (linuxOTrunc, oTrunc)]

/-- Of the last argument of `open`, the native side looks at the width of a
mode. -/
def shimShmOpen (path : Buf) (linuxFlags mode : Word) :
    FileRoutine (Option Word) := do
  Outcome.require (linuxFlags &&& knownShmFlags = linuxFlags)
  callFile (.open (shmBuf path) (setFlags 0 shmFlagPairs linuxFlags)
    ((mode ||| oCloexec).setWidth 16))

/-! ## What is asked for -/

/-- The object's own path. -/
def shmPath (name : Buf) : Buf :=
  lit "/compat/linux/dev/shm/" ++ name.dropWhile (· = 47)

/-- The native `open` a request stands for. -/
def shmAsked (name : Buf) (linuxFlags mode : Word) : FileCall :=
  .open (shmPath name) (openCounterparts linuxFlags ||| oCloexec)
    (mode.setWidth 16)

/-- The request fails, or is made of the native side, once and as it
stands. -/
def ShmOpensSafely (name : Buf) (linuxFlags mode : Word) : Prop :=
  ∀ h e, (∃ e', run h (shimShmOpen name linuxFlags mode) e = .ok (none, e')) ∨
    calls h (shimShmOpen name linuxFlags mode) e =
      [shmAsked name linuxFlags mode]

/-- The two names are opened as one. -/
def SameShm (name other : Buf) (linuxFlags mode : Word) : Prop :=
  ∀ h e, calls h (shimShmOpen name linuxFlags mode) e =
    calls h (shimShmOpen other linuxFlags mode) e

/-! ## What is opened -/

section

variable {name other : Buf} {linuxFlags mode : Word}

/-- The flag does not fit into a mode. -/
theorem cloexec_dropped : (mode ||| oCloexec).setWidth 16 = mode.setWidth 16 := by
  rw [BitVec.setWidth_or]
  exact BitVec.or_zero

theorem shimShmOpen_eq (hknown : linuxFlags &&& knownShmFlags = linuxFlags) :
    shimShmOpen name linuxFlags mode =
      callFile (.open (shmBuf name) (setFlags 0 shmFlagPairs linuxFlags)
        (mode.setWidth 16)) := by
  rw [shimShmOpen, require_of hknown, cloexec_dropped]
  rfl

/-- No flag of the table asks for a close on exec. -/
theorem shmFlags_not_cloexec (linuxFlags : Word) :
    (setFlags 0 shmFlagPairs linuxFlags).getLsbD 20 = false := by
  rw [getLsbD_setFlags]
  simp [shmFlagPairs, oWronly, oRdwr, oCreat, oExcl, oTrunc]

theorem flags_ne_asked :
    setFlags 0 shmFlagPairs linuxFlags ≠ openCounterparts linuxFlags ||| oCloexec := by
  intro h
  have hbit := shmFlags_not_cloexec linuxFlags
  have hcloexec : oCloexec.getLsbD 20 = true := rfl
  rw [h, BitVec.getLsbD_or, hcloexec, Bool.or_true] at hbit
  cases hbit

theorem not_shmOpensSafely (hknown : linuxFlags &&& knownShmFlags = linuxFlags) :
    ¬ShmOpensSafely name linuxFlags mode := by
  intro hsafe
  rcases hsafe openDoors 0 with ⟨e', hrun⟩ | hcalls
  · rw [shimShmOpen_eq hknown] at hrun
    cases hrun
  · rw [shimShmOpen_eq hknown, callFile, calls_native, shmAsked] at hcalls
    injection hcalls with hopen
    injection hopen with _ hflags
    exact flags_ne_asked hflags

theorem shmBuf_eq (name : Buf) :
    shmBuf name = lit "/compat/linux/dev/shm" ++ name.take 1002 := by
  rw [shmBuf, List.take_append]
  rfl

/-- Of a name, what fits behind the directory is told apart. -/
theorem shmBuf_inj : shmBuf name = shmBuf other ↔
    name.take 1002 = other.take 1002 := by
  rw [shmBuf_eq, shmBuf_eq, List.append_right_inj]

theorem sameShm_iff (hknown : linuxFlags &&& knownShmFlags = linuxFlags) :
    SameShm name other linuxFlags mode ↔ name.take 1002 = other.take 1002 := by
  rw [← shmBuf_inj, SameShm, shimShmOpen_eq hknown, shimShmOpen_eq hknown]
  constructor
  · intro h
    have hcalls := h openDoors 0
    rw [callFile, callFile, calls_native, calls_native] at hcalls
    injection hcalls with hopen
    injection hopen
  · intro h _ _
    rw [h]

/-- Only a name that begins with some other byte is left as it is. -/
theorem take_eq_dropWhile_iff (object : Buf) (n : Nat) (hn : 0 < n) :
    object.take n = object.dropWhile (· = 47) ↔
      object.head? ≠ some 47 ∧ object.length ≤ n := by
  cases object with
  | nil => exact iff_of_true (by rw [List.take_nil]; rfl) ⟨nofun, Nat.zero_le _⟩
  | cons x object =>
      obtain ⟨n, rfl⟩ := Nat.exists_eq_add_of_lt hn
      by_cases hx : x = 47
      · refine iff_of_false (fun heq => ?_) (fun h => h.1 (congrArg some hx))
        -- what is left begins with another byte, if with any
        have hmem := List.head?_dropWhile_not (· = 47) (x :: object)
        rw [← heq, Nat.zero_add, List.take_succ_cons] at hmem
        simp [hx] at hmem
      · have hdrop : (x :: object).dropWhile (· = 47) = x :: object :=
          List.dropWhile_cons_of_neg (by simpa using hx)
        rw [hdrop, List.take_eq_self_iff]
        exact ⟨fun h => ⟨fun h47 => hx (Option.some.inj h47), h⟩, fun h => h.2⟩

/-- The path is the object's own exactly if there is one slash in front of the
name, and the name fits. -/
theorem shmBuf_eq_iff : shmBuf name = shmPath name ↔
    ∃ object, name = 47 :: object ∧ object.head? ≠ some 47 ∧
      object.length ≤ 1001 := by
  have hdir : lit "/compat/linux/dev/shm/" = lit "/compat/linux/dev/shm" ++ [47] :=
    rfl
  rw [shmBuf_eq, shmPath, hdir, List.append_assoc, List.append_right_inj,
    List.singleton_append]
  constructor
  · intro heq
    cases name with
    | nil => cases heq
    | cons x object =>
        rw [List.take_succ_cons, List.cons.injEq] at heq
        obtain ⟨rfl, hobject⟩ := heq
        rw [List.dropWhile_cons_of_pos (by decide)] at hobject
        exact ⟨object, rfl, (take_eq_dropWhile_iff object 1001 (by decide)).mp hobject⟩
  · rintro ⟨object, rfl, hobject⟩
    rw [List.take_succ_cons, List.dropWhile_cons_of_pos (by decide),
      (take_eq_dropWhile_iff object 1001 (by decide)).mpr hobject]

end

/-- No object is opened as it was asked for, and two names are opened as one
exactly if they begin with the same 1002 bytes. -/
theorem shmOpen_never_safe (linuxFlags : Word)
    (hknown : linuxFlags &&& knownShmFlags = linuxFlags) :
    (∀ name mode, ¬ShmOpensSafely name linuxFlags mode) ∧
      ∀ name other mode, SameShm name other linuxFlags mode ↔
        name.take 1002 = other.take 1002 :=
  ⟨fun _ _ => not_shmOpensSafely hknown, fun _ _ _ => sameShm_iff hknown⟩

theorem lock_not_safe : ¬ShmOpensSafely (lit "/lock") linuxORdonly 0 :=
  (shmOpen_never_safe linuxORdonly (by decide)).1 (lit "/lock") 0

/-- The frames of a game, made for the game alone, and handed on to whatever
it starts. -/
theorem frames_not_safe :
    calls openDoors (shimShmOpen (lit "/frames") (linuxORdwr ||| linuxOCreat)
        0o600) 0 =
      [.open (lit "/compat/linux/dev/shm/frames") (oRdwr ||| oCreat) 0o600] ∧
      ¬ShmOpensSafely (lit "/frames") (linuxORdwr ||| linuxOCreat) 0o600 :=
  ⟨rfl, not_shmOpensSafely (by decide)⟩

end Libc6Shim
