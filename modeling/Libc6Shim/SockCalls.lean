import Libc6Shim.SockAddr
import Libc6Shim.SockControl

/-!
# The socket entry points

The `shim_*_impl` functions of `src/libc/sys/socket.c`, with `read` and
`write` of `src/libc/unistd.c`, as routines over the native calls they
make. The signature of those calls is `SockCall`: what a call passes down,
and in `SockAnswer` what comes back when it succeeds - the bytes it stores
included, since it is the shim that provides the memory for them.

Locals that C leaves uninitialised start with whatever the stack holds
(`Stack`). A result of `none` is the `-1` of the C interface.
-/

namespace Libc6Shim

open CSem Buf

/-! ## The native calls -/

/-- What `recvmsg` is handed: the room for a name (null when there is none),
the iovec, and the size of the control array. -/
structure RecvRequest where
  msgNamelen : Option Nat
  msgIov : Ptr
  msgIovlen : Nat
  msgControllen : BitVec 32

/-- What `recvmsg` leaves in its message when it succeeds. `msg_controllen`
is a `socklen_t`. -/
structure RecvAnswer where
  nbytes : Nat
  msgName : Buf
  msgIovlen : Nat
  msgControl : Buf
  msgFlags : Word
  length_msgControl : msgControl.length < 2 ^ 32

inductive SockCall where
  | read (fd : Word) (buf : Ptr) (nbytes : Nat)
  | write (fd : Word) (buf : Ptr) (nbytes : Nat)
  | recv (s : Word) (buf : Ptr) (len : Nat) (flags : Word)
  | send (s : Word) (msg : Ptr) (len : Nat) (flags : Word)
  | recvfrom (s : Word) (buf : Ptr) (len : Nat) (flags : Word)
      (fromlen : Option Nat)
  | sendto (s : Word) (msg : Ptr) (len : Nat) (flags : Word) (addr : Buf)
  | recvmsg (s : Word) (msg : RecvRequest) (flags : Word)
  | sendmsg (s : Word) (msg : NativeMsghdr) (flags : Word)
  | socket (domain type protocol : Word)
  | socketpair (domain type protocol : Word)
  | bind (s : Word) (addr : Buf)
  | connect (s : Word) (addr : Buf)
  | getsockname (s : Word) (namelen : Nat)
  | getsockopt (s level optname : Word) (optlen : Nat)
  | setsockopt (s level optname : Word) (optval : Option Buf) (optlen : Nat)

/-- What a call that succeeds answers with. -/
@[reducible] def SockAnswer : SockCall → Type
  | .read .. | .write .. | .recv .. | .send .. | .sendto .. | .sendmsg .. => Nat
  | .recvfrom .. => Nat × Buf
  | .recvmsg .. => RecvAnswer
  | .socket .. => Word
  | .socketpair .. => Word × Word
  | .bind .. | .connect .. | .setsockopt .. => Unit
  | .getsockname .. | .getsockopt .. => Buf

abbrev SockRoutine := Routine SockCall SockAnswer

/-- Make the native call `c`. -/
def callNative (c : SockCall) : SockRoutine (Option (SockAnswer c)) :=
  Routine.native c

/-- What the stack holds where an uninitialised local will be. -/
structure Stack where
  bytes : Nat → Buf
  length_bytes : ∀ n, (bytes n).length = n

/-- A stack of nothing but one byte. -/
def Stack.filled (x : UInt8) : Stack :=
  ⟨fun n => .replicate n x, fun _ => List.length_replicate⟩

/-- `if (r == -1) { errno = native_to_linux_errno(errno); }` -/
def translateErrno {α : Type} (r : Option α) : SockRoutine (Option α) := do
  if r.isNone then modify nativeToLinuxErrno
  return r

/-! ## Data -/

def shimRead (fd : Word) (buf : Ptr) (nbytes : Nat) :
    SockRoutine (Option Nat) :=
  callNative (.read fd buf nbytes)

def shimWrite (fd : Word) (buf : Ptr) (nbytes : Nat) :
    SockRoutine (Option Nat) :=
  callNative (.write fd buf nbytes)

def shimRecv (s : Word) (buf : Ptr) (len : Nat) (linuxFlags : Word) :
    SockRoutine (Option Nat) := do
  let flags ← linuxToNativeMsgFlags linuxFlags
  let nbytes ← callNative (.recv s buf len flags)
  translateErrno nbytes

def shimRecvChk (fd : Word) (buf : Ptr) (len buflen : Nat) (flags : Word) :
    SockRoutine (Option Nat) := do
  Outcome.require (len ≤ buflen)
  callNative (.recv fd buf len flags)

def shimSend (s : Word) (msg : Ptr) (len : Nat) (linuxFlags : Word) :
    SockRoutine (Option Nat) := do
  let flags ← linuxToNativeMsgFlags linuxFlags
  let nbytes ← callNative (.send s msg len flags)
  translateErrno nbytes

/-- With a `linux_from` comes the length behind `linux_fromlen`; the answer
has both as they are left. -/
def shimRecvfrom (stack : Stack) (s : Word) (buf : Ptr) (len : Nat)
    (linuxFlags : Word) (linuxFrom : Option (Buf × Nat)) :
    SockRoutine (Option Nat × Option (Buf × Nat)) := do
  let flags ← linuxToNativeMsgFlags linuxFlags
  match linuxFrom with
  | some (linuxAddr, linuxLen) =>
      let answer ← callNative
        (.recvfrom s buf len flags (some sizeofSockaddrStorage))
      match answer with
      | some (nbytes, stored) =>
          let name := (stack.bytes sizeofSockaddrStorage).patch 0 stored
          let linuxFrom ← nativeToLinuxSockaddr linuxAddr linuxLen name
          return (some nbytes, some linuxFrom)
      | none =>
          let nbytes ← translateErrno none
          return (nbytes, some (linuxAddr, linuxLen))
  | none =>
      let answer ← callNative (.recvfrom s buf len flags none)
      let nbytes ← translateErrno (answer.map Prod.fst)
      return (nbytes, none)

/-! ## Addresses handed down -/

/-- The native address of `bind`, `connect` and `sendto`: the switch the
three share. -/
def nativeAddrOf (stack : Stack) (linuxAddr : Buf) (addrlen : Nat) :
    Outcome Buf := do
  let family ← linuxSaFamily linuxAddr
  if family = linuxPfUnix then
    Outcome.require (addrlen ≤ sizeofLinuxSockaddrUn)
    linuxToNativeSockaddrUn (stack.bytes sizeofSockaddrUn) linuxAddr
  else if family = linuxPfInet then
    Outcome.require (addrlen = sizeofSockaddrIn)
    linuxToNativeSockaddrIn (stack.bytes sizeofSockaddrIn) linuxAddr
  else if family = linuxPfInet6 then
    Outcome.require (addrlen = sizeofSockaddrIn6)
    linuxToNativeSockaddrIn6 (stack.bytes sizeofSockaddrIn6) linuxAddr
  else .error .abort

def shimBind (stack : Stack) (s : Word) (linuxAddr : Buf) (addrlen : Nat) :
    SockRoutine (Option Unit) := do
  let addr ← nativeAddrOf stack linuxAddr addrlen
  callNative (.bind s addr)

def shimConnect (stack : Stack) (s : Word) (linuxName : Buf) (namelen : Nat) :
    SockRoutine (Option Unit) := do
  let addr ← nativeAddrOf stack linuxName namelen
  let err ← callNative (.connect s addr)
  translateErrno err

def shimSendto (stack : Stack) (s : Word) (msg : Ptr) (len : Nat)
    (linuxFlags : Word) (linuxTo : Buf) (tolen : Nat) :
    SockRoutine (Option Nat) := do
  let addr ← nativeAddrOf stack linuxTo tolen
  let flags ← linuxToNativeMsgFlags linuxFlags
  let nbytes ← callNative (.sendto s msg len flags addr)
  translateErrno nbytes

/-! ## Messages -/

/-- What a successful `recvmsg` writes back before the control data: the
fields of the message, and the name if there was room for one. -/
def receiveHead (stack : Stack) (mem : Mem) (linuxMsg : LinuxMsghdr)
    (answer : RecvAnswer) : Outcome (Mem × LinuxMsghdr) := do
  let linuxMsg := { linuxMsg with msgIovlen := answer.msgIovlen }
  let linuxMsg := { linuxMsg with
    msgFlags := ← nativeToLinuxMsgFlags answer.msgFlags }
  if linuxMsg.msgName ≠ null then
    let name := (stack.bytes sizeofSockaddrStorage).patch 0 answer.msgName
    let (linuxAddr, linuxLen) ← nativeToLinuxSockaddr
      (mem.obj linuxMsg.msgName) linuxMsg.msgNamelen name
    return (mem.update linuxMsg.msgName linuxAddr,
      { linuxMsg with msgNamelen := linuxLen })
  else return (mem, linuxMsg)

/-- The message `recvmsg` has filled in, as the conversion of its control
data sees it. -/
def RecvAnswer.msg (answer : RecvAnswer) : NativeMsghdr :=
  { NativeMsghdr.ofControl answer.msgControl with
    msgNamelen := answer.msgName.length, msgIovlen := answer.msgIovlen,
    msgFlags := answer.msgFlags }

def receiveMsg (abi : Abi) (stack : Stack) (mem : Mem)
    (linuxMsg : LinuxMsghdr) (answer : RecvAnswer) :
    Outcome (Mem × LinuxMsghdr) := do
  let (mem, linuxMsg) ← receiveHead stack mem linuxMsg answer
  nativeToLinuxMsgControl abi mem linuxMsg answer.msg

/-- The message `recvmsg` is handed for the caller's. -/
def recvRequest (linuxMsg : LinuxMsghdr) : RecvRequest where
  msgNamelen :=
    if linuxMsg.msgName ≠ null then some sizeofSockaddrStorage else none
  msgIov := linuxMsg.msgIov
  msgIovlen := linuxMsg.msgIovlen
  msgControllen := BitVec.ofNat 32 linuxMsg.msgControllen

def shimRecvmsg (abi : Abi) (stack : Stack) (mem : Mem) (s : Word)
    (linuxMsg : LinuxMsghdr) (linuxFlags : Word) :
    SockRoutine (Option Nat × Mem × LinuxMsghdr) := do
  let flags ← linuxToNativeMsgFlags linuxFlags
  let answer ← callNative (.recvmsg s (recvRequest linuxMsg) flags)
  match answer with
  | some answer =>
      let out ← receiveMsg abi stack mem linuxMsg answer
      return (some answer.nbytes, out)
  | none =>
      let nbytes ← translateErrno none
      return (nbytes, mem, linuxMsg)

def shimSendmsg (abi : Abi) (stack : Stack) (mem : Mem) (s : Word)
    (linuxMsg : LinuxMsghdr) (linuxFlags : Word) :
    SockRoutine (Option Nat) := do
  let msg : NativeMsghdr :=
    { msgName := none, msgNamelen := 0,
      msgIov := linuxMsg.msgIov, msgIovlen := linuxMsg.msgIovlen,
      msgControl := some (stack.bytes linuxMsg.msgControllen),
      msgControllen := BitVec.ofNat 32 linuxMsg.msgControllen, msgFlags := 0 }
  let msg ← show Outcome NativeMsghdr from do
    if linuxMsg.msgName ≠ null then
      let (name, namelen) ← linuxToNativeSockaddr
        (stack.bytes sizeofSockaddrStorage) sizeofSockaddrStorage
        (mem.obj linuxMsg.msgName)
      linuxToNativeMsgControl abi mem
        { msg with msgName := some name, msgNamelen := namelen } linuxMsg
    else linuxToNativeMsgControl abi mem msg linuxMsg
  let flags ← linuxToNativeMsgFlags linuxFlags
  let nbytes ← callNative (.sendmsg s msg flags)
  translateErrno nbytes

/-! ## Sockets -/

def shimSocket (domain type protocol : Word) : SockRoutine (Option Word) := do
  let domain ← linuxToNativeDomain domain
  let type ← linuxToNativeSockType type
  callNative (.socket domain type protocol)

def shimSocketpair (domain type protocol : Word) :
    SockRoutine (Option (Word × Word)) := do
  let domain ← linuxToNativeDomain domain
  let type ← linuxToNativeSockType type
  callNative (.socketpair domain type protocol)

/-- The name and the length behind `linux_namelen`, as they are left. -/
def shimGetsockname (stack : Stack) (s : Word) (linuxName : Buf)
    (linuxNamelen : Nat) : SockRoutine (Option Unit × Buf × Nat) := do
  let err ← callNative (.getsockname s sizeofSockaddrStorage)
  match err with
  | some stored =>
      let name := (stack.bytes sizeofSockaddrStorage).patch 0 stored
      let out ← nativeToLinuxSockaddr linuxName linuxNamelen name
      return (some (), out)
  | none => return (none, linuxName, linuxNamelen)

/-! ## Socket options -/

def linuxSoReuseaddr : Word := 2
def linuxSoError : Word := 4
def linuxSoBroadcast : Word := 6
def linuxSoSndbuf : Word := 7
def linuxSoRcvbuf : Word := 8
def linuxSoKeepalive : Word := 9
def linuxSoPasscred : Word := 16

def soReuseaddr : Word := 0x0004
def soKeepalive : Word := 0x0008
def soBroadcast : Word := 0x0020
def soSndbuf : Word := 0x1001
def soRcvbuf : Word := 0x1002
def soError : Word := 0x1007

def linuxToNativeSoOpt (linuxOptname : Word) : Outcome Word :=
  if linuxOptname = linuxSoReuseaddr then .ok soReuseaddr
  else if linuxOptname = linuxSoError then .ok soError
  else if linuxOptname = linuxSoBroadcast then .ok soBroadcast
  else if linuxOptname = linuxSoSndbuf then .ok soSndbuf
  else if linuxOptname = linuxSoRcvbuf then .ok soRcvbuf
  else if linuxOptname = linuxSoKeepalive then .ok soKeepalive
  else .error .abort

def linuxIpMtuDiscover : Word := 10
def linuxIpRecverr : Word := 11
def linuxIpRecvtos : Word := 13

def ipDontfrag : Word := 67

/-- `-1` is handed down for an option that FreeBSD does not have. -/
def linuxToNativeIp4Opt (linuxOptname : Word) : Outcome Word :=
  if linuxOptname = linuxIpRecverr then .ok (-1)
  else if linuxOptname = linuxIpRecvtos then .ok ipRecvtos
  else if linuxOptname = linuxIpMtuDiscover then .ok ipDontfrag
  else .error .abort

def linuxIpv6V6only : Word := 26
def ipv6V6only : Word := 27

def linuxToNativeIp6Opt (linuxOptname : Word) : Outcome Word :=
  if linuxOptname = linuxIpv6V6only then .ok ipv6V6only
  else .error .abort

def linuxTcpNodelay : Word := 1
def linuxTcpKeepidle : Word := 4
def linuxTcpKeepintvl : Word := 5
def linuxTcpUserTimeout : Word := 18

def tcpNodelay : Word := 1
def tcpKeepidle : Word := 256
def tcpKeepintvl : Word := 512

def linuxToNativeTcpOpt (linuxOptname : Word) : Outcome Word :=
  if linuxOptname = linuxTcpNodelay then .ok tcpNodelay
  else if linuxOptname = linuxTcpKeepidle then .ok tcpKeepidle
  else if linuxOptname = linuxTcpKeepintvl then .ok tcpKeepintvl
  else if linuxOptname = linuxTcpUserTimeout then .ok (-1)
  else .error .abort

def solLocal : Word := 0
def localCredsPersistent : Word := 3

/-- The native level and option of a Linux one, outside `SOL_SOCKET`. An
IPv6 option is asked for at the IPv4 level. -/
def linuxToNativeOpt (linuxLevel linuxOptname : Word) :
    Outcome (Word × Word) := do
  if linuxLevel = linuxSolIp then
    return (ipprotoIp, ← linuxToNativeIp4Opt linuxOptname)
  else if linuxLevel = linuxSolIpv6 then
    return (ipprotoIp, ← linuxToNativeIp6Opt linuxOptname)
  else if linuxLevel = linuxSolTcp then
    return (ipprotoTcp, ← linuxToNativeTcpOpt linuxOptname)
  else .error .abort

/-- `hasCreds` says whether the system defines `LOCAL_CREDS_PERSISTENT`. The
answer is what the native call stores in `optval`. -/
def shimGetsockopt (hasCreds : Bool) (s linuxLevel linuxOptname : Word)
    (optlen : Nat) : SockRoutine (Option Buf) := do
  if linuxLevel = linuxSolSocket then
    if linuxOptname = linuxSoPasscred then
      if hasCreds then
        callNative (.getsockopt s solLocal localCredsPersistent optlen)
      else return none
    else
      let optname ← linuxToNativeSoOpt linuxOptname
      callNative (.getsockopt s solSocket optname optlen)
  else
    let (level, optname) ← linuxToNativeOpt linuxLevel linuxOptname
    callNative (.getsockopt s level optname optlen)

def shimSetsockopt (hasCreds : Bool) (s linuxLevel linuxOptname : Word)
    (optval : Option Buf) (optlen : Nat) : SockRoutine (Option Unit) := do
  if linuxLevel = linuxSolSocket then
    let zero ← show Outcome Bool from do
      match optval with
      | some optval =>
          if linuxOptname = linuxSoSndbuf then return (← optval.loadNat 0 4) = 0
          else return false
      | none => return false
    if zero then return some ()
    else if linuxOptname = linuxSoPasscred then
      if hasCreds then
        callNative
          (.setsockopt s solLocal localCredsPersistent optval optlen)
      else return none
    else
      let optname ← linuxToNativeSoOpt linuxOptname
      callNative (.setsockopt s solSocket optname optval optlen)
  else
    let (level, optname) ← linuxToNativeOpt linuxLevel linuxOptname
    callNative (.setsockopt s level optname optval optlen)

/-- `*__errno_location()`. -/
def shimErrnoLocation : SockRoutine Errno := get

end Libc6Shim
