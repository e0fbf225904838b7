import Libc6Shim.Fcntl

/-!
# Record locks

`F_SETLK` and `F_SETLKW` hand a converted lock down. Its offsets are signed
on both sides, but `struct linux_flock` declares them unsigned: where they
are narrower than the native ones, a negative offset comes out as a large
positive one. On amd64 the widths are the same (`recordLock_kept_iff`).
-/

namespace Libc6Shim

open CSem Outcome Routine

/-! ## Kinds of locks -/

inductive LockKind where
  | read
  | write
  | unlock
deriving Repr, DecidableEq

def linuxLockKind (lType : BitVec 16) : Option LockKind :=
  if lType = linuxFRdlck then some .read
  else if lType = linuxFWrlck then some .write
  else if lType = linuxFUnlck then some .unlock
  else none

def nativeLockKind (lType : BitVec 16) : Option LockKind :=
  if lType = fRdlck then some .read
  else if lType = fWrlck then some .write
  else if lType = fUnlck then some .unlock
  else none

/-- `lock` is the same lock as `src`: of the same kind, on the same bytes. -/
structure SameLock {abi : Abi} (src : LinuxFlock abi) (lock : NativeFlock) :
    Prop where
  kind : nativeLockKind lock.lType = linuxLockKind src.lType
  whence : lock.lWhence = src.lWhence
  start : lock.lStart.toInt = src.lStart.toInt
  len : lock.lLen.toInt = src.lLen.toInt

/-- Both commands hand down the lock they were given, whatever comes of
it. -/
def LockKept {abi : Abi} (src : LinuxFlock abi) : Prop :=
  ∃ lock, SameLock src lock ∧ ∀ h e fd arg,
    calls h (shimFcntl fd linuxFSetlk arg src) e = [.setlk fd lock] ∧
      calls h (shimFcntl fd linuxFSetlkw arg src) e = [.setlkw fd lock]

/-! ## Offsets -/

/-- A zero-extended number has the same signed value if it was not
negative. -/
theorem toInt_setWidth_iff {w v : Nat} (h : w < v) (x : BitVec w) :
    (x.setWidth v).toInt = x.toInt ↔ 0 ≤ x.toInt := by
  have hlt := x.isLt
  have hpow : 2 * 2 ^ w ≤ 2 ^ v := by
    rw [← Nat.pow_succ']
    exact Nat.pow_le_pow_right Nat.two_pos h
  have hnat : (x.setWidth v).toNat = x.toNat := by
    rw [BitVec.toNat_setWidth, Nat.mod_eq_of_lt (by omega)]
  have hwide : (x.setWidth v).toInt = x.toNat := by
    rw [BitVec.toInt_eq_toNat_of_lt (by rw [hnat]; omega), hnat]
  rw [hwide, BitVec.toInt_eq_toNat_cond]
  split <;> omega

/-- An offset of the ABI is what it was, or was not negative. -/
theorem offset_kept_iff (abi : Abi) (x : BitVec (8 * abi.wordBytes)) :
    (x.setWidth 64).toInt = x.toInt ↔ abi = .amd64 ∨ 0 ≤ x.toInt := by
  cases abi with
  | i386 =>
      rw [toInt_setWidth_iff (show 8 * Abi.i386.wordBytes < 64 by decide)]
      exact ⟨.inr, fun h => h.resolve_left (by decide)⟩
  | amd64 =>
      refine iff_of_true ?_ (.inl rfl)
      exact congrArg BitVec.toInt (BitVec.setWidth_eq (n := 64) x)

/-! ## The lock handed down -/

section

variable {abi : Abi} {src : LinuxFlock abi}

/-- A lock of one of the three kinds is converted, offsets zero-extended. -/
theorem copyLinuxFlock_ok {kind : LockKind}
    (hkind : linuxLockKind src.lType = some kind) :
    ∃ lock, copyLinuxFlock src = .ok lock ∧
      nativeLockKind lock.lType = some kind ∧ lock.lWhence = src.lWhence ∧
      lock.lStart = src.lStart.setWidth 64 ∧
      lock.lLen = src.lLen.setWidth 64 := by
  rw [linuxLockKind] at hkind
  split at hkind
  · rename_i hread
    cases hkind
    exact ⟨_, by rw [copyLinuxFlock, if_pos hread]; rfl, rfl, rfl, rfl, rfl⟩
  · rename_i hread
    split at hkind
    · rename_i hwrite
      cases hkind
      exact ⟨_, by rw [copyLinuxFlock, if_neg hread, if_pos hwrite]; rfl, rfl,
        rfl, rfl, rfl⟩
    · rename_i hwrite
      split at hkind
      · rename_i hunlock
        cases hkind
        exact ⟨_, by rw [copyLinuxFlock, if_neg hread, if_neg hwrite,
          if_pos hunlock]; rfl, rfl, rfl, rfl, rfl⟩
      · cases hkind

/-- What is handed down is what the lock was converted to. -/
theorem calls_setlk {lock : NativeFlock} (hcopy : copyLinuxFlock src = .ok lock)
    (h : (c : FcntlCall) → Except Errno (FcntlAnswer c)) (e : Errno)
    (fd arg : Word) :
    calls h (shimFcntl fd linuxFSetlk arg src) e = [.setlk fd lock] ∧
      calls h (shimFcntl fd linuxFSetlkw arg src) e = [.setlkw fd lock] := by
  have hset : shimFcntl fd linuxFSetlk arg src =
      (do
        let lock ← copyLinuxFlock src
        callFcntl (.setlk fd lock) : FcntlRoutine (Option Word)) := rfl
  have hsetw : shimFcntl fd linuxFSetlkw arg src =
      (do
        let lock ← copyLinuxFlock src
        callFcntl (.setlkw fd lock) : FcntlRoutine (Option Word)) := rfl
  rw [hset, hsetw, hcopy]
  exact ⟨calls_native _, calls_native _⟩

end

/-- A lock is handed down as it is exactly if the ABI's offsets are as wide as
the native ones, or neither offset is negative. -/
theorem recordLock_kept_iff {abi : Abi} (src : LinuxFlock abi)
    (hkind : (linuxLockKind src.lType).isSome) :
    LockKept src ↔
      abi = .amd64 ∨ 0 ≤ src.lStart.toInt ∧ 0 ≤ src.lLen.toInt := by
  obtain ⟨kind, hkind⟩ := Option.isSome_iff_exists.mp hkind
  obtain ⟨lock, hcopy, hnative, hwhence, hstart, hlen⟩ := copyLinuxFlock_ok hkind
  have hcalls := calls_setlk hcopy
  rw [or_and_left, ← offset_kept_iff, ← offset_kept_iff, ← hstart, ← hlen]
  constructor
  · rintro ⟨lock', hsame, hcalls'⟩
    have heq := (hcalls (fun _ => .error enosys) 0 0 0).1.symm.trans
      (hcalls' (fun _ => .error enosys) 0 0 0).1
    cases heq
    exact ⟨hsame.start, hsame.len⟩
  · rintro ⟨hs, hl⟩
    exact ⟨lock, ⟨hnative.trans hkind.symm, hwhence, hs, hl⟩, hcalls⟩

/-- The last ten bytes of a file, for writing. -/
def lastBytes (abi : Abi) : LinuxFlock abi := ⟨linuxFWrlck, 2, -10, 10, 0⟩

theorem lastBytes_kept : LockKept (lastBytes .amd64) :=
  (recordLock_kept_iff (lastBytes .amd64) rfl).mpr (.inl rfl)

/-- On the narrower ABI they are looked for four gigabytes behind its end. -/
theorem lastBytes_not_kept : ¬LockKept (lastBytes .i386) := by
  rintro ⟨lock, hsame, hcalls⟩
  have hcall := (hcalls (fun _ => .error enosys) 0 0 0).1
  have hcopied : calls (fun _ => .error enosys)
      (shimFcntl 0 linuxFSetlk 0 (lastBytes .i386)) 0 =
      [.setlk 0 ⟨0xfffffff6, 10, 0, fWrlck, 2⟩] := rfl
  cases hcopied.symm.trans hcall
  exact absurd hsame.start (by decide)

end Libc6Shim
