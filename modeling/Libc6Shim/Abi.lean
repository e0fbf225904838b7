import Mathlib
import Libc6Shim.CSemBuffer
import Libc6Shim.CSemProg

/-!
# The two ABIs, and error numbers

The shim is built for i386 and amd64. They differ in the width of `size_t`
and of pointers, and with it in the alignment of control messages.

Error numbers are translated in both directions by `src/util.c`. Native
numbers are FreeBSD's.
-/

namespace Libc6Shim

open CSem

/-- An `int` or `unsigned int` used as a word of flags or an enumerator. -/
abbrev Word := BitVec 32

/-- `PATH_MAX`, the same on both. -/
def pathMax : Nat := 1024

inductive Abi where
  | i386
  | amd64
deriving Repr, DecidableEq

namespace Abi

/-- `sizeof(size_t)`, also `_ALIGNBYTES + 1`. -/
def wordBytes : Abi → Nat
  | .i386 => 4
  | .amd64 => 8

/-- One more than the largest `size_t`. -/
def sizeMod (abi : Abi) : Nat := 256 ^ abi.wordBytes

/-- `_ALIGN(n)`, which works on an unsigned word: the sum wraps. -/
def align (abi : Abi) (n : Nat) : Nat :=
  (n + (abi.wordBytes - 1)) % abi.sizeMod / abi.wordBytes * abi.wordBytes

/-- `a - b` in `size_t`. -/
def sizeSub (abi : Abi) (a b : Nat) : Nat :=
  (a + (abi.sizeMod - b)) % abi.sizeMod

theorem wordBytes_cases (abi : Abi) :
    abi.wordBytes = 4 ∧ abi.sizeMod = 2 ^ 32 ∨
      abi.wordBytes = 8 ∧ abi.sizeMod = 2 ^ 64 := by
  cases abi
  · exact .inl ⟨rfl, rfl⟩
  · exact .inr ⟨rfl, rfl⟩

theorem sizeMod_ge (abi : Abi) : 2 ^ 32 ≤ abi.sizeMod := by
  rcases abi.wordBytes_cases with ⟨-, h⟩ | ⟨-, h⟩
  · exact h.ge
  · rw [h]
    decide

/-- Away from the top of the address space `_ALIGN` rounds up. -/
theorem align_spec (abi : Abi) {n : Nat} (h : n + abi.wordBytes ≤ abi.sizeMod) :
    n ≤ abi.align n ∧ abi.align n < n + abi.wordBytes := by
  rcases abi.wordBytes_cases with ⟨hw, hm⟩ | ⟨hw, hm⟩
  · rw [hw, hm] at h
    rw [align, hw, hm]
    omega
  · rw [hw, hm] at h
    rw [align, hw, hm]
    omega

theorem sizeSub_of_le (abi : Abi) {a b : Nat} (hb : b ≤ a)
    (ha : a < abi.sizeMod) : abi.sizeSub a b = a - b := by
  rw [sizeSub, show a + (abi.sizeMod - b) = (a - b) + abi.sizeMod by omega,
    Nat.add_mod_right, Nat.mod_eq_of_lt (by omega)]

/-- A difference that would be negative is huge. -/
theorem sizeSub_of_lt (abi : Abi) {a b : Nat} (hb : a < b)
    (hle : b ≤ abi.sizeMod) : abi.sizeSub a b = abi.sizeMod - (b - a) := by
  rw [sizeSub, Nat.mod_eq_of_lt (by omega)]
  omega

end Abi

/-! ## Error numbers -/

def eperm : Errno := 1
def edeadlk : Errno := 11
def eacces : Errno := 13
def efault : Errno := 14
def einval : Errno := 22
def eagain : Errno := 35
def einprogress : Errno := 36
def etimedout : Errno := 60
def enosys : Errno := 78

def linuxEagain : Errno := 11
def linuxEnosys : Errno := 38
def linuxEtimedout : Errno := 110
def linuxEinprogress : Errno := 115

def nativeToLinuxErrno (error : Errno) : Errno :=
  if error = eagain then linuxEagain
  else if error = enosys then linuxEnosys
  else if error = etimedout then linuxEtimedout
  else if error = einprogress then linuxEinprogress
  else error

def linuxToNativeErrno (error : Errno) : Errno :=
  if error = linuxEagain then eagain
  else if error = linuxEnosys then enosys
  else if error = linuxEtimedout then etimedout
  else if error = linuxEinprogress then einprogress
  else error

/-- The native errors that have another number under Linux, as far as the
shim knows. -/
def Renumbered (error : Errno) : Prop :=
  error = eagain ∨ error = enosys ∨ error = etimedout ∨ error = einprogress

theorem nativeToLinuxErrno_eq_self_iff {e : Errno} :
    nativeToLinuxErrno e = e ↔ ¬Renumbered e := by
  constructor
  · rintro h (rfl | rfl | rfl | rfl) <;> revert h <;> decide
  · intro h
    simp only [Renumbered, not_or] at h
    obtain ⟨h1, h2, h3, h4⟩ := h
    rw [nativeToLinuxErrno, if_neg h1, if_neg h2, if_neg h3, if_neg h4]

end Libc6Shim
