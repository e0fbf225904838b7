import Libc6Shim.Abi
import Libc6Shim.CSemFlags
import Libc6Shim.CSemString

/-!
# Files by their paths

The calls that take the path of a file: `open` (`src/libc/fcntl.c`), `fopen`
(`src/libc/stdio.c`), `access` (`src/libc/unistd.c`) and the `stat` family
(`src/libc/sys/stat.c`), with the redirection of `src/util.c` that most of
them put a path through.

A path is a string; where the source looks at its bytes by number, the
object it is in ends with its NUL. A null pointer handed down as a path is
`none`.
-/

namespace Libc6Shim

open CSem Buf

/-! ## The native calls -/

/-- `struct timespec`, the same on both sides. -/
structure Timespec where
  tvSec : Int
  tvNsec : Int
deriving Repr, DecidableEq

/-- FreeBSD's `struct stat`. -/
structure NativeStat where
  stDev : BitVec 64
  stIno : BitVec 64
  stNlink : BitVec 64
  stMode : BitVec 16
  stUid : BitVec 32
  stGid : BitVec 32
  stRdev : BitVec 64
  stSize : BitVec 64
  stBlksize : BitVec 32
  stBlocks : BitVec 64
  stAtim : Timespec
  stMtim : Timespec
  stCtim : Timespec
deriving Repr, DecidableEq

inductive FileCall where
  | open (path : Buf) (flags : Word) (mode : BitVec 16)
  | fopen (path mode : Buf)
  | fmemopen (size : Nat) (mode : Buf)
  | fwrite (stream : Ptr) (buf : Buf)
  | rewind (stream : Ptr)
  | access (path : Buf) (mode : Word)
  | stat (path : Option Buf)
  | lstat (path : Option Buf)
deriving DecidableEq

/-- What a call that succeeds answers with. -/
@[reducible] def FileAnswer : FileCall → Type
  | .open .. => Word
  | .fopen .. | .fmemopen .. => Ptr
  | .fwrite .. => Nat
  | .rewind _ | .access .. => Unit
  | .stat _ | .lstat _ => NativeStat

abbrev FileRoutine := Routine FileCall FileAnswer

def callFile (c : FileCall) : FileRoutine (Option (FileAnswer c)) :=
  Routine.native c

/-! ## Redirection -/

/-- The table `init_redirects` builds, for the value of
`compat.linux.emul_path`. -/
def procfsRedirects (linuxEmulPath : Buf) : List (Buf × Buf) :=
  [(lit "/proc/self/maps", lit "/dev/null"),
    (lit "/proc/cpuinfo", linuxEmulPath ++ lit "/" ++ lit "/proc/cpuinfo")]

def redirect (linuxEmulPath path : Buf) : Option Buf :=
  if lit "/dev/nvidia-uvm" = path then some (lit "/dev/null")
  else if startsWith path (lit "/proc/") then
    (procfsRedirects linuxEmulPath).lookup path
  else if startsWith path (lit "/sys/") then none
  else if path = lit "/etc/ssl/certs/ca-certificates.crt" then
    some (lit "/etc/ssl/cert.pem")
  else some path

/-! ## `open` -/

def linuxORdonly : Word := 0x00000
def linuxOWronly : Word := 0x00001
def linuxORdwr : Word := 0x00002
def linuxOCreat : Word := 0x00040
def linuxOExcl : Word := 0x00080
def linuxONoctty : Word := 0x00100
def linuxOTrunc : Word := 0x00200
def linuxOAppend : Word := 0x00400
def linuxONonblock : Word := 0x00800
def linuxODirectory : Word := 0x10000
def linuxOCloexec : Word := 0x80000
def linuxOTmpfile : Word := 0x400000 ||| linuxODirectory

def knownLinuxOpenFlags : Word :=
  linuxORdonly ||| linuxOWronly ||| linuxORdwr ||| linuxOCreat |||
  linuxOExcl ||| linuxONoctty ||| linuxOTrunc ||| linuxOAppend |||
  linuxONonblock ||| linuxODirectory ||| linuxOCloexec ||| linuxOTmpfile

def oWronly : Word := 0x0001
def oRdwr : Word := 0x0002
def oNonblock : Word := 0x0004
def oAppend : Word := 0x0008
def oCreat : Word := 0x0200
def oTrunc : Word := 0x0400
def oExcl : Word := 0x0800
def oNoctty : Word := 0x8000
def oDirectory : Word := 0x20000
def oCloexec : Word := 0x100000

/-- The flags of `open`, in the source's order: Linux bit, native bit. -/
def openFlagPairs : List (Word × Word) :=
  [(linuxOWronly, oWronly), (linuxORdwr, oRdwr), (linuxOCreat, oCreat),
    (linuxOExcl, oExcl), (linuxONoctty, oNoctty), (linuxOTrunc, oTrunc),
    (linuxOAppend, oAppend), (linuxONonblock, oNonblock),
    (linuxODirectory, oDirectory), (linuxOCloexec, oCloexec)]

/-- `mode` is what the caller passed behind the flags, if anything. -/
def shimOpen (linuxEmulPath path : Buf) (linuxFlags mode : Word) :
    FileRoutine (Option Word) := do
  match redirect linuxEmulPath path with
  | none =>
      set eacces
      return none
  | some p =>
      Outcome.require (linuxFlags &&& knownLinuxOpenFlags = linuxFlags)
      let flags := setFlags 0 openFlagPairs linuxFlags
      if linuxFlags &&& linuxOTmpfile ≠ 0 then return none
      else
        let mode : BitVec 16 :=
          if flags &&& oCreat ≠ 0 then mode.setWidth 16 else 0
        callFile (.open p flags mode)

def shimOpen64 (linuxEmulPath path : Buf) (linuxFlags mode : Word) :
    FileRoutine (Option Word) :=
  shimOpen linuxEmulPath path linuxFlags mode

/-! ## `fopen` -/

/-- `strchr(path + off, c)`: the string from there on, if `c` is in it. -/
def strchrFrom (path : Buf) (off : Nat) (c : UInt8) : Outcome (Option Buf) := do
  let tail ← cstrAt (path ++ [0]) off
  let found := tail.dropWhile (· ≠ c)
  return if found = [] then none else some found

/-- The path is that of a thread's name. The search for the slash begins one
byte behind the prefix, whose `sizeof` counts its NUL. -/
def isTaskComm (path : Buf) : Outcome Bool := do
  if startsWith path (lit "/proc/self/task/") then
    let tail ← strchrFrom path ((lit "/proc/self/task/").length + 1) 47
    return tail = some (lit "/comm")
  else return false

def nvidiaParams : Buf := lit "ModifyDeviceFiles: 0\n" ++ [0]

def shimFopen (linuxEmulPath path mode : Buf) : FileRoutine (Option Ptr) := do
  if path = lit "/proc/driver/nvidia/params" then
    Outcome.require (mode = lit "r")
    match ← callFile (.fmemopen nvidiaParams.length (lit "r+")) with
    | some mem =>
        let _ ← callFile (.fwrite mem nvidiaParams)
        let _ ← callFile (.rewind mem)
        return some mem
    | none => (.error .fault : Outcome (Option Ptr))
  else if ← isTaskComm path then
    Outcome.require (mode = lit "wb")
    callFile (.fopen (lit "/dev/null") mode)
  else
    match redirect linuxEmulPath path with
    | none =>
        set eacces
        return none
    | some p => callFile (.fopen p mode)

def shimFopen64 (linuxEmulPath path mode : Buf) : FileRoutine (Option Ptr) :=
  shimFopen linuxEmulPath path mode

/-! ## `access` -/

def shimAccess (linuxEmulPath path : Buf) (mode : Word) :
    FileRoutine (Option Unit) := do
  match redirect linuxEmulPath path with
  | none =>
      set eacces
      return none
  | some p => callFile (.access p mode)

/-! ## The `stat` family -/

/-- The widths of the fields of a Linux `struct stat` that differ between
them. -/
structure StatLayout where
  inoBits : Nat
  nlinkBits : Nat
  sizeBits : Nat
  blksizeBits : Nat
  blocksBits : Nat

/-- `struct linux_stat`. -/
def linuxStat : Abi → StatLayout
  | .i386 => ⟨32, 32, 32, 32, 32⟩
  | .amd64 => ⟨64, 64, 64, 64, 64⟩

/-- `struct linux_stat64`. -/
def linuxStat64 : Abi → StatLayout
  | .i386 => ⟨64, 32, 64, 32, 64⟩
  | .amd64 => linuxStat .amd64

structure LinuxStat (l : StatLayout) where
  stDev : BitVec 64
  stIno : BitVec l.inoBits
  stNlink : BitVec l.nlinkBits
  stMode : BitVec 32
  stUid : BitVec 32
  stGid : BitVec 32
  stRdev : BitVec 64
  stSize : BitVec l.sizeBits
  stBlksize : BitVec l.blksizeBits
  stBlocks : BitVec l.blocksBits
  stAtim : Timespec
  stMtim : Timespec
  stCtim : Timespec

/-- `copy_stat_buf` and `copy_stat_buf64`: field by field, each cut to the
width it is stored with. -/
def copyStatBuf (l : StatLayout) (src : NativeStat) : LinuxStat l where
  stDev := src.stDev
  stIno := src.stIno.setWidth _
  stNlink := src.stNlink.setWidth _
  stMode := src.stMode.setWidth _
  stUid := src.stUid
  stGid := src.stGid
  stRdev := src.stRdev
  stSize := src.stSize.setWidth _
  stBlksize := src.stBlksize.signExtend _
  stBlocks := src.stBlocks.setWidth _
  stAtim := src.stAtim
  stMtim := src.stMtim
  stCtim := src.stCtim

def makeDevId (major minor : BitVec 32) : BitVec 64 :=
  (major &&& 0x00000fff).setWidth 64 <<< 8 |||
  (major &&& 0xfffff000).setWidth 64 <<< 32 |||
  (minor &&& 0x000000ff).setWidth 64 <<< 0 |||
  (minor &&& 0xffffff00).setWidth 64 <<< 12

/-- `FIX_NV_DEV_ID`: the device number of an NVIDIA node, by its name. -/
def fixNvDevId (abi : Abi) {l : StatLayout} (path : Buf)
    (statBuf : LinuxStat l) : FileRoutine (LinuxStat l) := do
  if startsWith path (lit "/dev/nvidia") then
    let tail := path.drop (lit "/dev/nvidia").length
    if tail.head? = some 99 then
      return { statBuf with stRdev := makeDevId 195 255 }
    else if tail.head? = some 45 then
      return { statBuf with stRdev := makeDevId 195 254 }
    else
      set (0 : Errno)
      let (i, err) := strtoulErrno (abi.sizeMod - 1) tail
      match err with
      | some e =>
          set e
          return statBuf
      | none =>
          Outcome.require (i < 254)
          return { statBuf with stRdev := makeDevId 195 (BitVec.ofNat 32 i) }
  else return statBuf

/-- `__lxstat` and `__lxstat64`. -/
def lxstat (l : StatLayout) (linuxEmulPath path : Buf) :
    FileRoutine (Option (LinuxStat l)) := do
  match ← callFile (.lstat (redirect linuxEmulPath path)) with
  | some sb => return some (copyStatBuf l sb)
  | none => return none

/-- `__xstat` and `__xstat64`. -/
def xstat (abi : Abi) (l : StatLayout) (path : Buf) :
    FileRoutine (Option (LinuxStat l)) := do
  match ← callFile (.stat (some path)) with
  | some sb => some <$> fixNvDevId abi path (copyStatBuf l sb)
  | none => return none

def shimLxstat (abi : Abi) (linuxEmulPath path : Buf) :
    FileRoutine (Option (LinuxStat (linuxStat abi))) :=
  lxstat (linuxStat abi) linuxEmulPath path

def shimLxstat64 (abi : Abi) (linuxEmulPath path : Buf) :
    FileRoutine (Option (LinuxStat (linuxStat64 abi))) :=
  lxstat (linuxStat64 abi) linuxEmulPath path

def shimXstat (abi : Abi) (path : Buf) :
    FileRoutine (Option (LinuxStat (linuxStat abi))) :=
  xstat abi (linuxStat abi) path

def shimXstat64 (abi : Abi) (path : Buf) :
    FileRoutine (Option (LinuxStat (linuxStat64 abi))) :=
  xstat abi (linuxStat64 abi) path

end Libc6Shim
