import Libc6Shim.Abi
import Libc6Shim.CSemFlags

/-!
# Socket levels, types and message flags

The renumbering half of `src/libc/sys/socket.c`: each translation is a
`switch` or a table of bits, and each panics on what it does not know.
`linux` names come from `socket.h`, the others are FreeBSD's.
-/

namespace Libc6Shim

open CSem

/-! ## Levels -/

def linuxSolIp : Word := 0
def linuxSolSocket : Word := 1
def linuxSolTcp : Word := 6
def linuxSolUdp : Word := 17
def linuxSolIpv6 : Word := 41

def solSocket : Word := 0xffff
def ipprotoIp : Word := 0
def ipprotoTcp : Word := 6
def ipprotoUdp : Word := 17

def linuxToNativeSockLevel (linuxLevel : Word) : Outcome Word :=
  if linuxLevel = linuxSolSocket then .ok solSocket
  else if linuxLevel = linuxSolIp then .ok ipprotoIp
  else if linuxLevel = linuxSolTcp then .ok ipprotoTcp
  else if linuxLevel = linuxSolUdp then .ok ipprotoUdp
  else .error .abort

def nativeToLinuxSockLevel (level : Word) : Outcome Word :=
  if level = solSocket then .ok linuxSolSocket
  else if level = ipprotoIp then .ok linuxSolIp
  else if level = ipprotoTcp then .ok linuxSolTcp
  else if level = ipprotoUdp then .ok linuxSolUdp
  else .error .abort

theorem linuxToNativeSockLevel_eq_error {l : Word} {e : Stop}
    (h : linuxToNativeSockLevel l = .error e) : e = .abort := by
  unfold linuxToNativeSockLevel at h
  repeat' split at h
  all_goals cases h
  rfl

theorem nativeToLinuxSockLevel_eq_error {l : Word} {e : Stop}
    (h : nativeToLinuxSockLevel l = .error e) : e = .abort := by
  unfold nativeToLinuxSockLevel at h
  repeat' split at h
  all_goals cases h
  rfl

/-! ## Domains -/

def linuxPfUnix : Word := 1
def linuxPfInet : Word := 2
def linuxPfInet6 : Word := 10

def pfUnix : Word := 1
def pfInet : Word := 2
def pfInet6 : Word := 28

def linuxToNativeDomain (linuxDomain : Word) : Outcome Word :=
  if linuxDomain = linuxPfUnix then .ok pfUnix
  else if linuxDomain = linuxPfInet then .ok pfInet
  else if linuxDomain = linuxPfInet6 then .ok pfInet6
  else .error .abort

/-! ## Types -/

def linuxSockStream : Word := 1
def linuxSockDgram : Word := 2
def linuxSockRaw : Word := 3
def linuxSockRdm : Word := 4
def linuxSockSeqpacket : Word := 5
def linuxSockNonblock : Word := 0x00800
def linuxSockCloexec : Word := 0x80000

def knownLinuxSocketTypes : Word :=
  linuxSockStream ||| linuxSockDgram ||| linuxSockRaw ||| linuxSockRdm |||
  linuxSockSeqpacket ||| linuxSockNonblock ||| linuxSockCloexec

def sockStream : Word := 1
def sockDgram : Word := 2
def sockRaw : Word := 3
def sockSeqpacket : Word := 5
def sockNonblock : Word := 0x20000000
def sockCloexec : Word := 0x10000000

def linuxToNativeSockType (linuxType : Word) : Outcome Word := do
  Outcome.require (linuxType &&& knownLinuxSocketTypes = linuxType)
  return setFlags (linuxType &&& 0xff)
    [(linuxSockNonblock, sockNonblock), (linuxSockCloexec, sockCloexec)]
    linuxType

def nativeToLinuxSockType (type : Word) : Outcome Word := do
  Outcome.require (type &&& (sockStream ||| sockDgram ||| sockRaw |||
    sockSeqpacket ||| sockNonblock ||| sockCloexec) = type)
  return setFlags (type &&& 0xff)
    [(sockNonblock, linuxSockNonblock), (sockCloexec, linuxSockCloexec)] type

/-! ## Message flags -/

def linuxMsgOob : Word := 0x00000001
def linuxMsgPeek : Word := 0x00000002
def linuxMsgDontroute : Word := 0x00000004
def linuxMsgCtrunc : Word := 0x00000008
def linuxMsgTrunc : Word := 0x00000020
def linuxMsgDontwait : Word := 0x00000040
def linuxMsgEor : Word := 0x00000080
def linuxMsgWaitall : Word := 0x00000100
def linuxMsgNosignal : Word := 0x00004000
def linuxMsgWaitforone : Word := 0x00010000
def linuxMsgCmsgCloexec : Word := 0x40000000

def msgOob : Word := 0x00000001
def msgPeek : Word := 0x00000002
def msgDontroute : Word := 0x00000004
def msgEor : Word := 0x00000008
def msgTrunc : Word := 0x00000010
def msgCtrunc : Word := 0x00000020
def msgWaitall : Word := 0x00000040
def msgDontwait : Word := 0x00000080
def msgEof : Word := 0x00000100
def msgNosignal : Word := 0x00020000
def msgCmsgCloexec : Word := 0x00040000
def msgWaitforone : Word := 0x00080000

def knownLinuxMsgFlags : Word :=
  linuxMsgOob ||| linuxMsgPeek ||| linuxMsgDontroute ||| linuxMsgCtrunc |||
  linuxMsgTrunc ||| linuxMsgDontwait ||| linuxMsgEor ||| linuxMsgWaitall |||
  linuxMsgNosignal ||| linuxMsgWaitforone ||| linuxMsgCmsgCloexec

def knownNativeMsgFlags : Word :=
  msgOob ||| msgPeek ||| msgDontroute ||| msgCtrunc ||| msgTrunc |||
  msgDontwait ||| msgEor ||| msgEof ||| msgWaitall ||| msgNosignal |||
  msgWaitforone ||| msgCmsgCloexec

/-- The pairs both directions of the message-flag translation go through, in
the source's order: Linux bit, native bit. -/
def msgFlagPairs : List (Word × Word) :=
  [(linuxMsgOob, msgOob), (linuxMsgPeek, msgPeek),
    (linuxMsgDontroute, msgDontroute), (linuxMsgCtrunc, msgCtrunc),
    (linuxMsgTrunc, msgTrunc), (linuxMsgDontwait, msgDontwait),
    (linuxMsgEor, msgEor), (linuxMsgWaitall, msgWaitall),
    (linuxMsgNosignal, msgNosignal), (linuxMsgWaitforone, msgWaitforone),
    (linuxMsgCmsgCloexec, msgCmsgCloexec)]

def linuxToNativeMsgFlags (linuxFlags : Word) : Outcome Word := do
  Outcome.require (linuxFlags &&& ~~~knownLinuxMsgFlags = 0)
  return setFlags 0 msgFlagPairs linuxFlags

def nativeToLinuxMsgFlags (flags : Word) : Outcome Word := do
  Outcome.require (flags &&& ~~~knownNativeMsgFlags = 0)
  Outcome.require (flags &&& msgEof = 0)
  return setFlags 0 (msgFlagPairs.map Prod.swap) flags

end Libc6Shim
