import Libc6Shim.SockNames

/-!
# Control messages

`linux_to_native_msg_control` and `native_to_linux_msg_control` of
`src/libc/sys/socket.c`. Both walk the source buffer with the *native*
macros and rewrite each header in place, at the same offset of the
destination; the payload is copied behind it.

A header is `cmsg_len`, `cmsg_level`, `cmsg_type`; only the first field
differs in width, so a header is described by that width alone. The native
macros read `cmsg_len` as a 32-bit `socklen_t` whichever structure they are
handed. The copy length `cmsg_len - CMSG_LEN(0)` is computed in `size_t`,
and so is huge when `cmsg_len` is smaller than a header.

Pointers into a buffer are offsets from `msg_control`.
-/

namespace Libc6Shim

open CSem Buf

/-- The `msghdr` a Linux caller hands over. -/
structure LinuxMsghdr where
  msgName : Ptr
  msgNamelen : Nat
  msgIov : Ptr
  msgIovlen : Nat
  msgControl : Ptr
  msgControllen : Nat
  msgFlags : Word

/-- The `msghdr` on the shim's stack. Its name and control arrays are the
shim's own, so the pointers to them are the arrays themselves, and
`msg_controllen` is a 32-bit `socklen_t`. -/
structure NativeMsghdr where
  msgName : Option Buf
  msgNamelen : Nat
  msgIov : Ptr
  msgIovlen : Nat
  msgControl : Option Buf
  msgControllen : BitVec 32
  msgFlags : Word

/-- A Linux message of nothing but `n` control bytes at `control`. -/
def LinuxMsghdr.ofControl (control : Ptr) (n : Nat) : LinuxMsghdr :=
  ⟨null, 0, null, 0, control, n, 0⟩

/-- A native message of nothing but the control bytes. -/
def NativeMsghdr.ofControl (control : Buf) : NativeMsghdr :=
  ⟨none, 0, null, 0, some control, BitVec.ofNat 32 control.length, 0⟩

/-! ## Header layout and the native macros -/

/-- `sizeof(((struct cmsghdr*)0)->cmsg_len)`. -/
def cmsgLenWidth : Nat := 4

/-- `sizeof(struct cmsghdr)`. -/
def sizeofCmsghdr : Nat := cmsgLenWidth + 8

/-- `sizeof(((struct linux_cmsghdr*)0)->cmsg_len)`: a `size_t`. -/
def linuxCmsgLenWidth (abi : Abi) : Nat := abi.wordBytes

/-- `sizeof(struct linux_cmsghdr)`. -/
def sizeofLinuxCmsghdr (abi : Abi) : Nat := linuxCmsgLenWidth abi + 8

/-- `CMSG_LEN(n)`, and with `n = 0` the offset of `CMSG_DATA`. -/
def cmsgLen (abi : Abi) (n : Nat) : Nat := abi.align sizeofCmsghdr + n

/-- `CMSG_FIRSTHDR`, for `n` control bytes. -/
def cmsgFirsthdr (n : Nat) : Option Nat :=
  if sizeofCmsghdr ≤ n then some 0 else none

/-- `CMSG_NXTHDR`, for `n` control bytes. -/
def cmsgNxthdr (abi : Abi) (n : Nat) (control : Buf) (cmsg : Nat) :
    Outcome (Option Nat) := do
  let next := cmsg + abi.align (← control.loadNat cmsg cmsgLenWidth)
  return if n < next + abi.align sizeofCmsghdr then none else some next

/-! ## Message kinds -/

def linuxScmRights : Word := 1
def linuxIpTos : Word := 1
def scmRights : Word := 1
def ipRecvtos : Word := 68

/-- The type `native_to_linux_msg_control` gives a native message. -/
def nativeToLinuxCmsgType (level type : Word) : Outcome Word :=
  if type = scmRights then .ok linuxScmRights
  else if level = ipprotoIp ∧ type = ipRecvtos then .ok linuxIpTos
  else .error .abort

theorem nativeToLinuxCmsgType_eq_error {l t : Word} {e : Stop}
    (h : nativeToLinuxCmsgType l t = .error e) : e = .abort := by
  unfold nativeToLinuxCmsgType at h
  repeat' split at h
  all_goals cases h
  rfl

/-- The `memcpy` of the payload behind the header at `cmsg`. -/
def copyCmsgData (abi : Abi) (dst src : Buf) (cmsg len : Nat) :
    Outcome Buf := do
  let data ← src.load (cmsg + cmsgLen abi 0) (abi.sizeSub len (cmsgLen abi 0))
  dst.store (cmsg + cmsgLen abi 0) data

/-! ## Linux to native -/

/-- One round of the loop of `linux_to_native_msg_control`: the header at
`cmsg` of `src` is rewritten into `dst`. -/
def linuxToNativeCmsg (abi : Abi) (src : Buf) (cmsg : Nat) (dst : Buf) :
    Outcome Buf := do
  let lw := linuxCmsgLenWidth abi
  let type ← src.loadNat (cmsg + lw + 4) 4
  Outcome.require (BitVec.ofNat 32 type = linuxScmRights)
  let len ← src.loadNat cmsg lw
  let dst ← dst.store cmsg (leBytes cmsgLenWidth len)
  let linuxLevel ← src.loadNat (cmsg + lw) 4
  let level ← linuxToNativeSockLevel (BitVec.ofNat 32 linuxLevel)
  let dst ← dst.store (cmsg + cmsgLenWidth) (leBytes 4 level.toNat)
  let dst ← dst.store (cmsg + cmsgLenWidth + 4) (leBytes 4 scmRights.toNat)
  copyCmsgData abi dst src cmsg len

/-! ## Native to Linux -/

/-- One round of the loop of `native_to_linux_msg_control`. -/
def nativeToLinuxCmsg (abi : Abi) (src : Buf) (cmsg : Nat) (dst : Buf) :
    Outcome Buf := do
  let lw := linuxCmsgLenWidth abi
  let len ← src.loadNat cmsg cmsgLenWidth
  let dst ← dst.store cmsg (leBytes lw len)
  let nativeLevel ← src.loadNat (cmsg + cmsgLenWidth) 4
  let level ← nativeToLinuxSockLevel (BitVec.ofNat 32 nativeLevel)
  let dst ← dst.store (cmsg + lw) (leBytes 4 level.toNat)
  let nativeType ← src.loadNat (cmsg + cmsgLenWidth + 4) 4
  let type ← nativeToLinuxCmsgType (BitVec.ofNat 32 nativeLevel)
    (BitVec.ofNat 32 nativeType)
  let dst ← dst.store (cmsg + lw + 4) (leBytes 4 type.toNat)
  copyCmsgData abi dst src cmsg len

/-! ## The loops -/

/-- The `for` loop both functions share, over the header rewriting `conv`:
the pointer to the current header, null at the end, and the destination. -/
def cmsgLoop (abi : Abi) (conv : Nat → Buf → Outcome Buf) (n : Nat)
    (src : Buf) : Option Nat × Buf → Outcome ((Option Nat × Buf) ⊕ Buf)
  | (none, dst) => .ok (.inr dst)
  | (some cmsg, dst) => do
      let dst ← conv cmsg dst
      return .inl (← cmsgNxthdr abi n src cmsg, dst)

/-- The loop from `CMSG_FIRSTHDR` on. Headers lie at growing offsets below
`n`, so `n + 2` rounds are more than there can be. -/
def convertCmsgs (abi : Abi) (conv : Nat → Buf → Outcome Buf) (n : Nat)
    (src dst : Buf) : Outcome Buf :=
  Outcome.rounds (cmsgLoop abi conv n src) (n + 2) (cmsgFirsthdr n, dst)

def linuxToNativeMsgControl (abi : Abi) (mem : Mem) (msg : NativeMsghdr)
    (linuxMsg : LinuxMsghdr) : Outcome NativeMsghdr := do
  let n := linuxMsg.msgControllen
  if 0 < n then
    Outcome.require (n ≤ msg.msgControllen.toNat)
    let src := (mem.obj linuxMsg.msgControl).take n
    let dst ← convertCmsgs abi (linuxToNativeCmsg abi src) n src
      (msg.msgControl.getD [])
    return { msg with
      msgControl := some dst, msgControllen := BitVec.ofNat 32 n }
  else
    return { msg with msgControl := none, msgControllen := 0 }

def nativeToLinuxMsgControl (abi : Abi) (mem : Mem) (linuxMsg : LinuxMsghdr)
    (msg : NativeMsghdr) : Outcome (Mem × LinuxMsghdr) := do
  let n := msg.msgControllen.toNat
  if 0 < n then
    Outcome.require (n ≤ linuxMsg.msgControllen)
    let src := (msg.msgControl.getD []).take n
    let dst ← convertCmsgs abi (nativeToLinuxCmsg abi src) n src
      (mem.obj linuxMsg.msgControl)
    return (mem.update linuxMsg.msgControl dst,
      { linuxMsg with msgControllen := n })
  else
    return (mem, { linuxMsg with msgControl := null, msgControllen := 0 })

end Libc6Shim
