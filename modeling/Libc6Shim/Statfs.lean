import Libc6Shim.FileCalls

/-!
# Open files and file systems

The calls of `src/libc/sys/stat.c` on a descriptor, and `statfs` and `fstatfs`
of `src/libc/sys/mount.c`. Each asks the native side for its record and copies
that field by field into the Linux one; as with `stat`, the two forms of a
call differ in the record's layout alone.
-/

namespace Libc6Shim

open CSem Outcome

/-! ## The native calls -/

/-- FreeBSD's `struct statfs`, as far as it is copied. -/
structure NativeStatfs where
  fType : BitVec 32
  fBsize : BitVec 64
  fBlocks : BitVec 64
  fBfree : BitVec 64
  fBavail : BitVec 64
  fFiles : BitVec 64
  fFfree : BitVec 64
  fNamemax : BitVec 32
deriving Repr, DecidableEq

inductive StatfsCall where
  | fstat (fd : Word)
  | fstatat (dirfd : Word) (path : Buf) (flags : Word)
  | statfs (path : Buf)
  | fstatfs (fd : Word)
deriving DecidableEq

@[reducible] def StatfsAnswer : StatfsCall → Type
  | .fstat _ | .fstatat .. => NativeStat
  | .statfs _ | .fstatfs _ => NativeStatfs

abbrev StatfsRoutine := Routine StatfsCall StatfsAnswer

def callStatfs (c : StatfsCall) : StatfsRoutine (Option (StatfsAnswer c)) :=
  Routine.native c

/-! ## `fstat` -/

/-- `__fxstat` and `__fxstat64`. -/
def fxstat (l : StatLayout) (fd : Word) :
    StatfsRoutine (Option (LinuxStat l)) := do
  match ← callStatfs (.fstat fd) with
  | some sb => return some (copyStatBuf l sb)
  | none => return none

def shimFxstat (abi : Abi) (fd : Word) :
    StatfsRoutine (Option (LinuxStat (linuxStat abi))) :=
  fxstat (linuxStat abi) fd

def shimFxstat64 (abi : Abi) (fd : Word) :
    StatfsRoutine (Option (LinuxStat (linuxStat64 abi))) :=
  fxstat (linuxStat64 abi) fd

def linuxAtSymlinkNofollow : Word := 0x0100
def linuxAtEmptyPath : Word := 0x1000

def knownLinuxAtFlags : Word := linuxAtSymlinkNofollow ||| linuxAtEmptyPath

def atSymlinkNofollow : Word := 0x0200
def atEmptyPath : Word := 0x4000

def linuxToNativeFstatatFlags (linuxFlags : Word) : Outcome Word := do
  Outcome.require (linuxFlags &&& ~~~knownLinuxAtFlags = 0)
  return setFlags 0
    [(linuxAtSymlinkNofollow, atSymlinkNofollow), (linuxAtEmptyPath, atEmptyPath)]
    linuxFlags

def shimFxstatat64 (abi : Abi) (dirfd : Word) (path : Buf) (linuxFlags : Word) :
    StatfsRoutine (Option (LinuxStat (linuxStat64 abi))) := do
  let flags ← linuxToNativeFstatatFlags linuxFlags
  match ← callStatfs (.fstatat dirfd path flags) with
  | some sb => return some (copyStatBuf _ sb)
  | none => return none

/-! ## `statfs` -/

/-- The widths of the fields of a Linux `struct statfs`: of the counts of
blocks and files, and of the others. -/
structure StatfsLayout where
  wordBits : Nat
  countBits : Nat

/-- `struct linux_statfs`. -/
def linuxStatfs : Abi → StatfsLayout
  | .i386 => ⟨32, 32⟩
  | .amd64 => ⟨64, 64⟩

/-- `struct linux_statfs64`. -/
def linuxStatfs64 : Abi → StatfsLayout
  | .i386 => ⟨32, 64⟩
  | .amd64 => linuxStatfs .amd64

structure LinuxStatfs (l : StatfsLayout) where
  fType : BitVec l.wordBits
  fBsize : BitVec l.wordBits
  fBlocks : BitVec l.countBits
  fBfree : BitVec l.countBits
  fBavail : BitVec l.countBits
  fFiles : BitVec l.countBits
  fFfree : BitVec l.countBits
  fFsid : BitVec 64
  fNamelen : BitVec l.wordBits
  fFrsize : BitVec l.wordBits
  fFlags : BitVec l.wordBits

/-- `copy_statfs_buf` and `copy_statfs64_buf`. -/
def copyStatfsBuf (l : StatfsLayout) (src : NativeStatfs) : LinuxStatfs l where
  fType := src.fType.setWidth _
  fBsize := src.fBsize.setWidth _
  fBlocks := src.fBlocks.setWidth _
  fBfree := src.fBfree.setWidth _
  fBavail := src.fBavail.setWidth _
  fFiles := src.fFiles.setWidth _
  fFfree := src.fFfree.setWidth _
  fFsid := 0
  fNamelen := src.fNamemax.setWidth _
  fFrsize := 0
  fFlags := 0

/-- `fstatfs` and `fstatfs64`. -/
def fstatfs (l : StatfsLayout) (fd : Word) :
    StatfsRoutine (Option (LinuxStatfs l)) := do
  match ← callStatfs (.fstatfs fd) with
  | some buf => return some (copyStatfsBuf l buf)
  | none => return none

/-- `statfs` and `statfs64`. -/
def statfs (l : StatfsLayout) (path : Buf) :
    StatfsRoutine (Option (LinuxStatfs l)) := do
  match ← callStatfs (.statfs path) with
  | some buf => return some (copyStatfsBuf l buf)
  | none => return none

def shimFstatfs (abi : Abi) (fd : Word) :
    StatfsRoutine (Option (LinuxStatfs (linuxStatfs abi))) :=
  fstatfs (linuxStatfs abi) fd

def shimFstatfs64 (abi : Abi) (fd : Word) :
    StatfsRoutine (Option (LinuxStatfs (linuxStatfs64 abi))) :=
  fstatfs (linuxStatfs64 abi) fd

def shimStatfs (abi : Abi) (path : Buf) :
    StatfsRoutine (Option (LinuxStatfs (linuxStatfs abi))) :=
  statfs (linuxStatfs abi) path

def shimStatfs64 (abi : Abi) (path : Buf) :
    StatfsRoutine (Option (LinuxStatfs (linuxStatfs64 abi))) :=
  statfs (linuxStatfs64 abi) path

end Libc6Shim
