import Libc6Shim.FileCalls

/-!
# Descriptors

`fcntl` (`src/libc/fcntl.c`) and `pipe2` (`src/libc/unistd.c`). The third
argument of `fcntl` is read as an `int` or as a pointer to a lock, by the
command; the routine here is given both readings of it.
-/

namespace Libc6Shim

open CSem

/-! ## Commands and locks -/

def linuxFGetfd : Word := 1
def linuxFSetfd : Word := 2
def linuxFGetfl : Word := 3
def linuxFSetfl : Word := 4
def linuxFGetlk : Word := 5
def linuxFSetlk : Word := 6
def linuxFSetlkw : Word := 7
def linuxFSetown : Word := 8
def linuxFGetown : Word := 9
def linuxFDupfdCloexec : Word := 1030
def linuxFAddSeals : Word := 1033

def linuxFdCloexec : Word := 1
def fdCloexec : Word := 1

def linuxFRdlck : BitVec 16 := 0
def linuxFWrlck : BitVec 16 := 1
def linuxFUnlck : BitVec 16 := 2

def fRdlck : BitVec 16 := 1
def fUnlck : BitVec 16 := 2
def fWrlck : BitVec 16 := 3

/-- `struct linux_flock`, whose offsets are as wide as a `size_t`, and
unsigned. -/
structure LinuxFlock (abi : Abi) where
  lType : BitVec 16
  lWhence : BitVec 16
  lStart : BitVec (8 * abi.wordBytes)
  lLen : BitVec (8 * abi.wordBytes)
  lPid : BitVec 32
deriving DecidableEq

/-- FreeBSD's `struct flock`. -/
structure NativeFlock where
  lStart : BitVec 64
  lLen : BitVec 64
  lPid : BitVec 32
  lType : BitVec 16
  lWhence : BitVec 16
deriving Repr, DecidableEq

def copyLinuxFlock {abi : Abi} (src : LinuxFlock abi) : Outcome NativeFlock := do
  let lType ←
    if src.lType = linuxFRdlck then .ok fRdlck
    else if src.lType = linuxFWrlck then .ok fWrlck
    else if src.lType = linuxFUnlck then .ok fUnlck
    else .error .abort
  return {
    lStart := src.lStart.setWidth 64, lLen := src.lLen.setWidth 64,
    lPid := src.lPid, lType, lWhence := src.lWhence }

/-! ## The native calls -/

inductive FcntlCall where
  | getfd (fd : Word)
  | setfd (fd arg : Word)
  | getfl (fd : Word)
  | setfl (fd flags : Word)
  | setlk (fd : Word) (lock : NativeFlock)
  | setlkw (fd : Word) (lock : NativeFlock)
  | dupfdCloexec (fd arg : Word)
  | addSeals (fd flags : Word)
  | pipe2 (flags : Word)
deriving DecidableEq

/-- What a call that succeeds answers with. -/
@[reducible] def FcntlAnswer : FcntlCall → Type
  | .pipe2 _ => Word × Word
  | _ => Word

abbrev FcntlRoutine := Routine FcntlCall FcntlAnswer

def callFcntl (c : FcntlCall) : FcntlRoutine (Option (FcntlAnswer c)) :=
  Routine.native c

/-! ## The shim -/

/-- The status flags `F_GETFL` is prepared for. -/
def knownGetflFlags : Word := linuxOWronly ||| oRdwr ||| oNonblock

/-- The status flags `F_SETFL` is prepared for. -/
def knownLinuxSetflFlags : Word := linuxORdwr ||| linuxONonblock

def nativeToLinuxStatus (flags : Word) : Outcome Word := do
  Outcome.require (flags &&& ~~~knownGetflFlags = 0)
  return setFlags 0
    [(oWronly, linuxOWronly), (oRdwr, linuxORdwr), (oNonblock, linuxONonblock)]
    flags

def linuxToNativeStatus (linuxFlags : Word) : Outcome Word := do
  Outcome.require (linuxFlags &&& ~~~knownLinuxSetflFlags = 0)
  return setFlags 0 [(linuxORdwr, oRdwr), (linuxONonblock, oNonblock)]
    linuxFlags

/-- `none` is `-1`, also where the source takes it for a word of flags. -/
def shimFcntl {abi : Abi} (fd cmd arg : Word) (lock : LinuxFlock abi) :
    FcntlRoutine (Option Word) := do
  if cmd = linuxFGetfd then callFcntl (.getfd fd)
  else if cmd = linuxFSetfd then
    callFcntl (.setfd fd (if arg &&& linuxFdCloexec ≠ 0 then fdCloexec else 0))
  else if cmd = linuxFGetfl then
    let flags ← callFcntl (.getfl fd)
    let linuxFlags ← nativeToLinuxStatus (flags.getD (-1))
    return some linuxFlags
  else if cmd = linuxFSetfl then
    let flags ← linuxToNativeStatus arg
    callFcntl (.setfl fd flags)
  else if cmd = linuxFGetlk then (.error .abort : Outcome (Option Word))
  else if cmd = linuxFSetlk then
    let lock ← copyLinuxFlock lock
    callFcntl (.setlk fd lock)
  else if cmd = linuxFSetlkw then
    let lock ← copyLinuxFlock lock
    callFcntl (.setlkw fd lock)
  else if cmd = linuxFSetown then (.error .abort : Outcome (Option Word))
  else if cmd = linuxFGetown then (.error .abort : Outcome (Option Word))
  else if cmd = linuxFDupfdCloexec then callFcntl (.dupfdCloexec fd arg)
  else if cmd = linuxFAddSeals then callFcntl (.addSeals fd arg)
  else (.error .abort : Outcome (Option Word))

def shimFcntl64 {abi : Abi} (fd cmd arg : Word) (lock : LinuxFlock abi) :
    FcntlRoutine (Option Word) :=
  shimFcntl fd cmd arg lock

def shimPipe2 (linuxFlags : Word) : FcntlRoutine (Option (Word × Word)) := do
  Outcome.require
    (linuxFlags &&& (linuxOCloexec ||| linuxONonblock) = linuxFlags)
  callFcntl (.pipe2
    (setFlags 0 [(linuxONonblock, oNonblock), (linuxOCloexec, oCloexec)]
      linuxFlags))

end Libc6Shim
