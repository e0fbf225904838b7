import Libc6Shim.FileCalls

/-!
# What `open` asks for

Linux's flags are a mask, and `open` is to hand down the mask of their native
counterparts. One of them is not a bit of its own: `O_TMPFILE` contains the
bit of `O_DIRECTORY`, so the test for it also holds of a plain request for a
directory, which is then refused before it gets to the native `open`
(`shimOpen_asked_iff`).
-/

namespace Libc6Shim

open CSem Buf Outcome Routine

/-- The flags that both systems have for `open`: Linux's, and FreeBSD's of
the same name. Reading is no flag on either. -/
def openFlagCounterparts : List (Word × Word) :=
  [(linuxOWronly, oWronly), (linuxORdwr, oRdwr),
    (linuxOCreat, oCreat), (linuxOExcl, oExcl), (linuxONoctty, oNoctty),
    (linuxOTrunc, oTrunc), (linuxOAppend, oAppend),
    (linuxONonblock, oNonblock), (linuxODirectory, oDirectory),
    (linuxOCloexec, oCloexec)]

/-- The union of the native counterparts of the flags in `linuxFlags`. -/
def openCounterparts (linuxFlags : Word) : Word :=
  unionOf openFlagCounterparts linuxFlags

/-- The native `open` a request stands for, on the path `p`. -/
def openAsked (p : Buf) (linuxFlags mode : Word) : FileCall :=
  .open p (openCounterparts linuxFlags)
    (if linuxFlags &&& linuxOCreat ≠ 0 then mode.setWidth 16 else 0)

/-- The request is refused because its path is hidden, or is made of the
native side, once and as it stands. -/
def OpensAsAsked (h : (c : FileCall) → Except Errno (FileAnswer c)) (e : Errno)
    (linuxEmulPath path : Buf) (linuxFlags mode : Word) : Prop :=
  let r := shimOpen linuxEmulPath path linuxFlags mode
  redirect linuxEmulPath path = none ∧ calls h r e = [] ∧
      run h r e = .ok (none, eacces) ∨
    ∃ p, redirect linuxEmulPath path = some p ∧
      calls h r e = [openAsked p linuxFlags mode] ∧
      run h r e = run h (callFile (openAsked p linuxFlags mode)) e

/-- What `shim_open_impl` tests and sets is what the two systems have. -/
theorem openFlagPairs_eq : openFlagPairs = openFlagCounterparts := by decide

theorem setFlags_openFlagPairs (linuxFlags : Word) :
    setFlags 0 openFlagPairs linuxFlags = openCounterparts linuxFlags := by
  rw [openFlagPairs_eq, setFlags_eq_union, openCounterparts]
  exact BitVec.zero_or

/-- `O_CREAT` is looked for after the translation. -/
theorem creat_translated_iff (linuxFlags : Word) :
    openCounterparts linuxFlags &&& oCreat ≠ 0 ↔
      linuxFlags &&& linuxOCreat ≠ 0 := by
  have hnative := and_bit_ne_zero (w := openCounterparts linuxFlags)
    (m := oCreat) (i := 9) rfl (by decide)
  rw [← decide_eq_true_iff (p := openCounterparts linuxFlags &&& oCreat ≠ 0),
    hnative, ← setFlags_openFlagPairs, getLsbD_setFlags]
  simp [openFlagPairs, oWronly, oRdwr, oCreat, oExcl, oNoctty, oTrunc, oAppend,
    oNonblock, oDirectory, oCloexec]

section

variable {linuxEmulPath path p : Buf} {linuxFlags mode : Word}

theorem shimOpen_hidden (hp : redirect linuxEmulPath path = none) :
    shimOpen linuxEmulPath path linuxFlags mode = (do
      set eacces
      return none) := by
  rw [shimOpen, hp]

theorem shimOpen_eq (hp : redirect linuxEmulPath path = some p)
    (hknown : linuxFlags &&& knownLinuxOpenFlags = linuxFlags) :
    shimOpen linuxEmulPath path linuxFlags mode =
      if linuxFlags &&& linuxOTmpfile ≠ 0 then pure none
      else callFile (openAsked p linuxFlags mode) := by
  rw [shimOpen, hp]
  dsimp only
  have hmode : (if openCounterparts linuxFlags &&& oCreat ≠ 0 then
      mode.setWidth 16 else 0) =
      if linuxFlags &&& linuxOCreat ≠ 0 then mode.setWidth 16 else 0 :=
    if_congr (creat_translated_iff _) rfl rfl
  rw [require_of hknown, setFlags_openFlagPairs, hmode]
  rfl

/-- Without the bit of its own, the test for `O_TMPFILE` is one for
`O_DIRECTORY`. -/
theorem tmpfile_iff_directory (htmp : linuxFlags &&& 0x400000 = 0) :
    linuxFlags &&& linuxOTmpfile = linuxFlags &&& linuxODirectory := by
  rw [linuxOTmpfile, BitVec.and_or_distrib_left, htmp]
  exact BitVec.zero_or

/-- Known requests are handed down exactly if they are not for a
directory. -/
theorem shimOpen_asked_iff
    (hknown : linuxFlags &&& knownLinuxOpenFlags = linuxFlags)
    (htmp : linuxFlags &&& 0x400000 = 0)
    (h : (c : FileCall) → Except Errno (FileAnswer c)) (e : Errno) :
    OpensAsAsked h e linuxEmulPath path linuxFlags mode ↔
      linuxFlags &&& linuxODirectory = 0 ∨ redirect linuxEmulPath path = none := by
  rw [OpensAsAsked, ← tmpfile_iff_directory htmp]
  cases hp : redirect linuxEmulPath path with
  | none =>
      rw [shimOpen_hidden hp]
      exact iff_of_true (.inl ⟨rfl, rfl, rfl⟩) (.inr rfl)
  | some p =>
      rw [shimOpen_eq hp hknown]
      by_cases hdir : linuxFlags &&& linuxOTmpfile = 0
      · rw [if_neg (not_not.mpr hdir)]
        exact iff_of_true (.inr ⟨p, rfl, calls_native _, rfl⟩) (.inl hdir)
      · rw [if_pos hdir]
        refine iff_of_false ?_ ?_
        · rintro (⟨hnone, -⟩ | ⟨q, -, hcalls, -⟩)
          · cases hnone
          · cases hcalls
        · rintro (hzero | hnone)
          · exact hdir hzero
          · cases hnone

end

/-- A file system on which everything can be opened. -/
def openDoors : (c : FileCall) → Except Errno (FileAnswer c)
  | .open .. => .ok 3
  | _ => .error enosys

/-- A directory is asked for, and nobody is asked. -/
theorem opendir_not_asked :
    ¬OpensAsAsked openDoors 0 (lit "/compat/linux") (lit "/tmp")
      linuxODirectory 0 := by
  have hp : redirect (lit "/compat/linux") (lit "/tmp") = some (lit "/tmp") := by
    decide
  rintro (⟨hnone, -⟩ | ⟨q, -, hcalls, -⟩)
  · rw [hp] at hnone
    cases hnone
  · rw [shimOpen_eq hp (by decide), if_pos (by decide)] at hcalls
    cases hcalls

theorem creat_asked :
    OpensAsAsked openDoors 0 (lit "/compat/linux") (lit "/tmp/log")
      (linuxOWronly ||| linuxOCreat ||| linuxOAppend) 0o644 :=
  (shimOpen_asked_iff (by decide) (by decide) openDoors 0).mpr
    (.inl (by decide))

end Libc6Shim
