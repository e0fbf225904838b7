import Libc6Shim.ControlLayout
import Libc6Shim.SockCalls

/-!
# Passing a received control list on

A program that was sent control messages may send them on as they are. The
decoder gives a message its Linux type by its level and its type together;
the encoder looks at the type alone, and Linux has one number for
`SCM_RIGHTS` and `IP_TOS`. So the trip through both conversions writes every
message in the `returnedDialect`, where a type of service is no longer one
(`controlList_sentOn_iff`).
-/

namespace Libc6Shim

open CSem Buf Outcome

/-- What a control list received into `linuxMsg` comes to when it is sent on
from there: both conversions, the second into an array on the stack. -/
def sendOn (abi : Abi) (mem : Mem) (stack : Stack) (linuxMsg : LinuxMsghdr)
    (msg : NativeMsghdr) : Outcome NativeMsghdr := do
  let (mem, linuxMsg) ← nativeToLinuxMsgControl abi mem linuxMsg msg
  linuxToNativeMsgControl abi mem
    (.ofControl (stack.bytes linuxMsg.msgControllen)) linuxMsg

/-- The messages `ms` are sent on as they were received: levels, types and
payloads. -/
def SentOn (abi : Abi) (mem : Mem) (stack : Stack) (linuxMsg : LinuxMsghdr)
    (msg : NativeMsghdr) (ms : List Cmsg) : Prop :=
  ∃ msg', sendOn abi mem stack linuxMsg msg = .ok msg' ∧
    nativeWalk abi
        ((msg'.msgControl.getD []).take msg'.msgControllen.toNat) =
      .ok (ms.map (nativeDialect abi).seen)

section

variable {abi : Abi} {mem : Mem} {stack : Stack} {linuxMsg : LinuxMsghdr}
  {msg : NativeMsghdr} {ms : List Cmsg}

/-- What is sent on, whatever was received. -/
theorem sendOn_of_laidOut (stack : Stack)
    (hnative : msg.msgControllen.toNat ≤ (msg.msgControl.getD []).length)
    (hlinux : linuxMsg.msgControllen ≤ (mem.obj linuxMsg.msgControl).length)
    (hle : msg.msgControllen.toNat ≤ linuxMsg.msgControllen)
    (h : (nativeDialect abi).LaidOut msg.msgControllen.toNat
      ((msg.msgControl.getD []).take msg.msgControllen.toNat) 0 ms) :
    ∃ msg', sendOn abi mem stack linuxMsg msg = .ok msg' ∧
      nativeWalk abi
          ((msg'.msgControl.getD []).take msg'.msgControllen.toNat) =
        .ok (ms.map (returnedDialect abi).seen) := by
  obtain ⟨mem', linuxMsg', hconv, hlen, hroom, hlaid⟩ :=
    nativeToLinuxMsgControl_of_laidOut hnative hlinux hle h
  have hlt := msg.msgControllen.isLt
  have hstack := stack.length_bytes linuxMsg'.msgControllen
  have hcontrollen : (NativeMsghdr.ofControl
      (stack.bytes linuxMsg'.msgControllen)).msgControllen.toNat =
        linuxMsg'.msgControllen := by
    rw [NativeMsghdr.ofControl, BitVec.toNat_ofNat, hstack,
      Nat.mod_eq_of_lt (by omega)]
  rw [← hlen] at hroom hlaid
  have hbytes : (NativeMsghdr.ofControl
      (stack.bytes linuxMsg'.msgControllen)).msgControllen.toNat ≤
        (stack.bytes linuxMsg'.msgControllen).length := by
    rw [hcontrollen]
    exact hstack.ge
  obtain ⟨msg', hback, hlen', hwalk⟩ :=
    linuxToNativeMsgControl_of_laidOut hbytes hroom hcontrollen.ge hlaid
  refine ⟨msg', ?_, ?_⟩
  · rw [sendOn, hconv]
    exact hback
  · rw [hlen']
    exact hwalk

/-- A message is seen as it was exactly if it carries descriptors. -/
theorem returned_seen_eq_iff {m : Cmsg} :
    (returnedDialect abi).seen m = (nativeDialect abi).seen m ↔
      m.kind = .rights := by
  obtain ⟨kind, data⟩ := m
  cases kind with
  | rights => exact iff_of_true rfl rfl
  | tos =>
      have hne : scmRights ≠ ipRecvtos := by decide
      exact iff_of_false
        (fun hseen => hne (congrArg Dialect.Seen.cmsgType hseen)) nofun

/-- A received control list is sent on as it was exactly if it holds no type
of service. -/
theorem controlList_sentOn_iff
    (hnative : msg.msgControllen.toNat ≤ (msg.msgControl.getD []).length)
    (hlinux : linuxMsg.msgControllen ≤ (mem.obj linuxMsg.msgControl).length)
    (hle : msg.msgControllen.toNat ≤ linuxMsg.msgControllen)
    (h : (nativeDialect abi).LaidOut msg.msgControllen.toNat
      ((msg.msgControl.getD []).take msg.msgControllen.toNat) 0 ms) :
    SentOn abi mem stack linuxMsg msg ms ↔ ∀ m ∈ ms, m.kind ≠ .tos := by
  obtain ⟨msg', hconv, hwalk⟩ := sendOn_of_laidOut stack hnative hlinux hle
    h
  have hkind : (∀ m ∈ ms, m.kind ≠ .tos) ↔
      ms.map (returnedDialect abi).seen = ms.map (nativeDialect abi).seen := by
    rw [List.map_inj_left]
    refine forall₂_congr fun m _ => ?_
    rw [returned_seen_eq_iff]
    cases m.kind <;> decide
  rw [hkind]
  constructor
  · rintro ⟨msg'', hconv', hsame⟩
    rw [hconv] at hconv'
    cases hconv'
    exact Except.ok.inj (hwalk.symm.trans hsame)
  · intro hsame
    exact ⟨msg', hconv, hwalk.trans (congrArg Except.ok hsame)⟩

end

/-- One type of service, as FreeBSD lays it out on amd64. -/
def nativeTos : Buf :=
  leBytes 4 17 ++ leBytes 4 ipprotoIp.toNat ++ leBytes 4 ipRecvtos.toNat ++
    [0, 0, 0, 0] ++ [16]

/-- It is sent on as another message. -/
theorem nativeTos_not_sentOn :
    (nativeDialect .amd64).LaidOut 17 nativeTos 0 [⟨.tos, [16]⟩] ∧
      ¬SentOn .amd64 (.only 1 (.replicate 32 0xff)) (.filled 0)
        (.ofControl 1 32) (.ofControl nativeTos) [⟨.tos, [16]⟩] := by
  have hlaid : (nativeDialect .amd64).LaidOut 17 nativeTos 0 [⟨.tos, [16]⟩] := by
    decide
  refine ⟨hlaid, ?_⟩
  rintro ⟨msg', hconv, hwalk⟩
  have hroom : (LinuxMsghdr.ofControl 1 32).msgControllen ≤
      ((Mem.only 1 (.replicate 32 0xff)).obj 1).length := by decide
  have hnative : (NativeMsghdr.ofControl nativeTos).msgControllen.toNat ≤
      nativeTos.length := by decide
  obtain ⟨msg'', hconv', hwalk'⟩ := sendOn_of_laidOut (.filled 0) hnative hroom
    (by decide) hlaid
  rw [hconv] at hconv'
  cases hconv'
  rw [hwalk] at hwalk'
  exact absurd hwalk' (by decide)

/-- Descriptors are sent on. -/
theorem nativeRights_sentOn :
    SentOn .i386 (.only 1 (.replicate 40 0xff)) (.filled 0) (.ofControl 1 40)
      (.ofControl (leBytes 4 16 ++ leBytes 4 solSocket.toNat ++
        leBytes 4 scmRights.toNat ++ leBytes 4 7))
      [⟨.rights, leBytes 4 7⟩] :=
  (controlList_sentOn_iff (by decide) (by decide) (by decide) (by decide)).mpr
    (by decide)

end Libc6Shim
