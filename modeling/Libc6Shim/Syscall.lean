import Libc6Shim.Fcntl
import Libc6Shim.SockCalls

/-!
# Direct system calls

`syscall` (`src/libc/sys/syscall.c`), with the `mmap` of
`src/libc/sys/mman.c`, the `clock_gettime` of `src/libc/time.c` and the
`get_robust_list` of `src/futexes.c`. Its arguments are what `va_arg` finds
behind the number, each in a slot as wide as a `long`; an `int` is the low
half of its slot on amd64.

A buffer that is only handed on is a pointer here, as it is for `read` and
`write`; what the source stores itself goes to `Mem`.
-/

namespace Libc6Shim

open CSem Buf

/-- A `long`. -/
abbrev Long (abi : Abi) := BitVec (8 * abi.wordBytes)

/-- The variable arguments, slot by slot. -/
abbrev VaList (abi : Abi) := Nat → Long abi

namespace VaList

variable {abi : Abi} (args : VaList abi)

/-- `va_arg(args, int)`. -/
def int (i : Nat) : Word := (args i).setWidth 32

/-- `va_arg(args, size_t)`, or a pointer. -/
def size (i : Nat) : Nat := (args i).toNat

end VaList

/-! ## The native calls -/

inductive SysCall where
  | sock (c : SockCall)
  | file (c : FileCall)
  | fcntl (c : FcntlCall)
  | mmap (addr : Ptr) (len : Nat) (prot flags fd : Word) (offset : BitVec 64)
  | clockGettime (clockId : Word) (tp : Ptr)
  | umtxOp (obj : Ptr) (op : Word) (val uaddr : Nat) (uaddr2 : Ptr)
  | getpid
  | fork
  | getthreadid
  | thrKill (tid sig : Word)
  | getrandom (buf : Ptr) (buflen : Nat) (flags : Word)
  | memfdCreate (name : Ptr) (flags : Word)

/-- What a call that succeeds answers with. -/
@[reducible] def SysAnswer : SysCall → Type
  | .sock c => SockAnswer c
  | .file c => FileAnswer c
  | .fcntl c => FcntlAnswer c
  | .mmap .. => Ptr
  | .clockGettime .. | .umtxOp .. | .thrKill .. => Unit
  | .getpid | .fork | .getthreadid | .memfdCreate .. => Word
  | .getrandom .. => Nat

abbrev SysRoutine := Routine SysCall SysAnswer

def callSys (c : SysCall) : SysRoutine (Option (SysAnswer c)) :=
  Routine.native c

def onSock {α : Type} (p : SockRoutine α) : SysRoutine α :=
  p.embed .sock fun _ a => a

theorem onSock_callNative (c : SockCall) :
    onSock (callNative c) = callSys (.sock c) := by
  funext e
  refine congrArg (Prog.call (SysCall.sock c)) (funext fun r => ?_)
  cases r <;> rfl

def onFile {α : Type} (p : FileRoutine α) : SysRoutine α :=
  p.embed .file fun _ a => a

def onFcntl {α : Type} (p : FcntlRoutine α) : SysRoutine α :=
  p.embed .fcntl fun _ a => a

/-! ## `mmap` -/

def linuxMapShared : Word := 0x0001
def linuxMapPrivate : Word := 0x0002
def linuxMapFixed : Word := 0x0010
def linuxMapAnon : Word := 0x0020
def linuxMap32bit : Word := 0x0040
def linuxMapExecutable : Word := 0x1000
def linuxMapNoreserve : Word := 0x4000

def knownLinuxMmapFlags : Word :=
  linuxMapShared ||| linuxMapPrivate ||| linuxMapFixed ||| linuxMapAnon |||
  linuxMap32bit ||| linuxMapExecutable ||| linuxMapNoreserve

def mapShared : Word := 0x0001
def mapPrivate : Word := 0x0002
def mapFixed : Word := 0x0010
def mapAnon : Word := 0x1000
def map32bit : Word := 0x80000

/-- `none` is `MAP_FAILED`. -/
def shimMmap64 (abi : Abi) (addr : Ptr) (len : Nat) (prot linuxFlags fd : Word)
    (offset : BitVec 64) : SysRoutine (Option Ptr) := do
  Outcome.require (linuxFlags &&& knownLinuxMmapFlags = linuxFlags)
  let flags := setFlags 0
    [(linuxMapShared, mapShared),
      (linuxMapPrivate, mapPrivate ||| if fd = -1 then mapAnon else 0),
      (linuxMapFixed, mapFixed), (linuxMapAnon, mapAnon)] linuxFlags
  let nativeFd ← show Outcome Word from do
    if linuxFlags &&& linuxMapAnon ≠ 0 then
      Outcome.require (fd = -1 ∨ fd = 0)
      return -1
    else return fd
  let flags ← show Outcome Word from do
    if linuxFlags &&& linuxMap32bit ≠ 0 then
      Outcome.require (abi = .amd64 ∧ linuxFlags &&& linuxMapFixed = 0)
      return flags ||| map32bit
    else return flags
  callSys (.mmap addr len prot flags nativeFd offset)

/-- A `linux_off_t` is as wide as a `long`. -/
def shimMmap (abi : Abi) (addr : Ptr) (len : Nat) (prot linuxFlags fd : Word)
    (offset : Long abi) : SysRoutine (Option Ptr) :=
  shimMmap64 abi addr len prot linuxFlags fd (offset.signExtend 64)

/-! ## `clock_gettime` -/

def linuxClockRealtime : Word := 0
def linuxClockMonotonic : Word := 1
def linuxClockMonotonicRaw : Word := 4
def linuxClockRealtimeCoarse : Word := 5
def linuxClockMonotonicCoarse : Word := 6
def linuxClockBoottime : Word := 7

def clockRealtime : Word := 0
def clockMonotonic : Word := 4
def clockRealtimeFast : Word := 10
def clockMonotonicFast : Word := 12

def linuxToNativeClockid (linuxClockId : Word) : Outcome Word :=
  if linuxClockId = linuxClockRealtime then .ok clockRealtime
  else if linuxClockId = linuxClockMonotonic then .ok clockMonotonic
  else if linuxClockId = linuxClockMonotonicRaw then .ok clockMonotonicFast
  else if linuxClockId = linuxClockRealtimeCoarse then .ok clockRealtimeFast
  else if linuxClockId = linuxClockMonotonicCoarse then .ok clockMonotonicFast
  else if linuxClockId = linuxClockBoottime then .ok clockMonotonic
  else .error .abort

def shimClockGettime (linuxClockId : Word) (tp : Ptr) :
    SysRoutine (Option Unit) := do
  let clockId ← linuxToNativeClockid linuxClockId
  callSys (.clockGettime clockId tp)

/-! ## `get_robust_list` -/

/-- `FUTEX_OFFSET`. -/
def futexOffset (abi : Abi) : Long abi :=
  match abi with
  | .i386 => -20
  | .amd64 => -32

/-- `list` is the thread's own `struct robust_list_head`, of three words. -/
def getRobustList (abi : Abi) (list : Ptr) (mem : Mem) (pid : Word)
    (listHead structLen : Ptr) : Outcome (Word × Mem) := do
  if listHead = null ∨ structLen = null then return (-1, mem)
  else
    Outcome.require (pid = 0)
    let word := abi.wordBytes
    let head ← (mem.obj list).store 0
      (leBytes word list ++ leBytes word (futexOffset abi).toNat ++
        leBytes word null)
    let mem := mem.update list head
    let out ← (mem.obj listHead).store 0 (leBytes word list)
    let mem := mem.update listHead out
    let out ← (mem.obj structLen).store 0 (leBytes word (3 * word))
    return (0, mem.update structLen out)

/-! ## Results -/

/-- An `int`, where `none` is `-1`. -/
def intResult (r : Option Word) : Word := r.getD (-1)

/-- The `int` of a call that answers with nothing. -/
def errResult (r : Option Unit) : Word := if r.isSome then 0 else -1

/-- An `ssize_t` stored in an `int`. -/
def narrowResult (r : Option Nat) : Word :=
  match r with
  | some n => BitVec.ofNat 32 n
  | none => -1

/-- A pointer or an `ssize_t`, as a `long`. -/
def longResult (abi : Abi) (r : Option Nat) : Long abi :=
  match r with
  | some n => BitVec.ofNat _ n
  | none => -1

/-- `pipe2` leaves the two descriptors where `fildes` points. -/
def storePipe (mem : Mem) (fildes : Ptr) (r : Option (Word × Word)) :
    Outcome (Word × Mem) :=
  match r with
  | some (reads, writes) => do
      let out ← (mem.obj fildes).store 0
        (leBytes 4 reads.toNat ++ leBytes 4 writes.toNat)
      return (0, mem.update fildes out)
  | none => return (-1, mem)

/-! ## `syscall` -/

section Numbers

variable (abi : Abi)

/-- The number of a call, of those two, under the ABI. -/
def sysNumber (i386 amd64 : Nat) : Long abi :=
  match abi with
  | .i386 => BitVec.ofNat _ i386
  | .amd64 => BitVec.ofNat _ amd64

def linuxFork := sysNumber abi 2 57
def linuxWrite := sysNumber abi 4 1
def linuxOpen := sysNumber abi 5 2
def linuxGetpid := sysNumber abi 20 39
def linuxCapget := sysNumber abi 184 125
def linuxGettid := sysNumber abi 224 186
def linuxFutex := sysNumber abi 240 202
def linuxClockGettime := sysNumber abi 265 228
def linuxTgkill := sysNumber abi 270 234
def linuxGetRobustList := sysNumber abi 312 274
def linuxPipe2 := sysNumber abi 331 293
def linuxGetrandom := sysNumber abi 355 318
def linuxMemfdCreate := sysNumber abi 356 319

/-- On amd64 only. -/
def linuxMmap : Option (Long abi) :=
  match abi with
  | .i386 => none
  | .amd64 => some (BitVec.ofNat _ 9)

end Numbers

def linuxMfdCloexec : Word := 0x01
def linuxMfdAllowSealing : Word := 0x02
def linuxMfdExec : Word := 0x10

def mfdCloexec : Word := 0x01
def mfdAllowSealing : Word := 0x02

def futexWaitPrivate : Word := 0x80
def futexWakePrivate : Word := 0x81

def umtxOpWait : Word := 2
def umtxOpWake : Word := 3

/-- The futex operations, whose error number is translated. A `struct
timespec` is two words. -/
def syscallFutex (abi : Abi) (uaddr : Ptr) (futexOp val : Word)
    (timeout : Ptr) : SysRoutine (Option Unit) := do
  let err ←
    if futexOp = futexWaitPrivate then
      callSys (.umtxOp uaddr umtxOpWait val.toNat (2 * abi.wordBytes) timeout)
    else if futexOp = futexWakePrivate then
      callSys (.umtxOp uaddr umtxOpWake val.toNat 0 null)
    else do
      set enosys
      return none
  if err.isNone then modify nativeToLinuxErrno
  return err

/-- `robustList` is where the thread keeps its own list of robust futexes. -/
def shimSyscall (abi : Abi) (linuxEmulPath : Buf) (robustList : Ptr) (mem : Mem)
    (number : Long abi) (args : VaList abi) : SysRoutine (Long abi × Mem) := do
  if number = linuxWrite abi then
    let n ← callSys (.sock (.write (args.int 0) (args.size 1) (args.size 2)))
    return ((narrowResult n).signExtend _, mem)
  else if number = linuxOpen abi then
    let path ← cstrAt (mem.obj (args.size 0)) 0
    let fd ← onFile (shimOpen linuxEmulPath path (args.int 1) (args.int 2))
    return ((intResult fd).signExtend _, mem)
  else if linuxMmap abi = some number then
    let p ← shimMmap abi (args.size 0) (args.size 1) (args.int 2) (args.int 3)
      (args.int 4) (args 5)
    return (longResult abi p, mem)
  else if number = linuxGetpid abi then
    let pid ← callSys .getpid
    return ((intResult pid).signExtend _, mem)
  else if number = linuxFork abi then
    let pid ← callSys .fork
    return ((intResult pid).signExtend _, mem)
  else if number = linuxGettid abi then
    let tid ← callSys .getthreadid
    return ((intResult tid).signExtend _, mem)
  else if number = linuxCapget abi then
    set (nativeToLinuxErrno eperm)
    return (-1, mem)
  else if number = linuxFutex abi then
    let err ← syscallFutex abi (args.size 0) (args.int 1) (args.int 2)
      (args.size 3)
    return ((errResult err).signExtend _, mem)
  else if number = linuxClockGettime abi then
    let err ← shimClockGettime (args.int 0) (args.size 1)
    return ((errResult err).signExtend _, mem)
  else if number = linuxTgkill abi then
    let pid ← callSys .getpid
    Outcome.require (args.int 0 = intResult pid)
    Outcome.require (args.int 2 = 0)
    let err ← callSys (.thrKill (args.int 1) (args.int 2))
    return ((errResult err).signExtend _, mem)
  else if number = linuxGetRobustList abi then
    let (err, mem) ← getRobustList abi robustList mem (args.int 0)
      (args.size 1) (args.size 2)
    return (err.signExtend _, mem)
  else if number = linuxPipe2 abi then
    let fds ← onFcntl (shimPipe2 (args.int 1))
    let (err, mem) ← storePipe mem (args.size 0) fds
    return (err.signExtend _, mem)
  else if number = linuxGetrandom abi then
    let err ← callSys (.getrandom (args.size 0) (args.size 1) (args.int 2))
    return ((narrowResult err).signExtend _, mem)
  else if number = linuxMemfdCreate abi then
    let linuxFlags := args.int 1
    Outcome.require (linuxFlags &&&
      ~~~(linuxMfdCloexec ||| linuxMfdAllowSealing ||| linuxMfdExec) = 0)
    let flags := setFlags 0 [(linuxMfdCloexec, mfdCloexec),
      (linuxMfdAllowSealing, mfdAllowSealing)] linuxFlags
    let err ← callSys (.memfdCreate (args.size 0) flags)
    return ((intResult err).signExtend _, mem)
  else (.error .abort : Outcome (Long abi × Mem))

end Libc6Shim
