import Libc6Shim.SockControl

/-!
# One round of the control-message loops

What rewriting one header does, for each direction. Both rounds are the
same three acts - read the header, translate its level and type, copy
`cmsg_len - CMSG_LEN(0)` payload bytes - so both come to one of four ends:

- the header is cut off by the end of the source (or has no room in the
  destination): the round faults;
- its level or type is one the function does not know: it aborts;
- its `cmsg_len` is below the header size or runs past the source: the
  copy faults;
- otherwise the destination gets the rewritten header (`putHeader`) and
  the payload behind it (`putMessage`).

`linuxToNativeCmsg_of_good`, `nativeToLinuxCmsg_of_good` and the lemmas
around them are those cases; nothing above this file unfolds a round.
-/

namespace Libc6Shim

open CSem Buf Outcome

/-! ## Header fields -/

/-- `cmsg_len` of the header at `off`, `w` bytes wide. -/
def lenAt (w : Nat) (b : Buf) (off : Nat) : Nat := natAt b off w

/-- `cmsg_level` of the header at `off`, behind a `w`-byte length. -/
def levelAt (w : Nat) (b : Buf) (off : Nat) : Word :=
  BitVec.ofNat 32 (natAt b (off + w) 4)

/-- `cmsg_type` of the header at `off`, behind a `w`-byte length. -/
def typeAt (w : Nat) (b : Buf) (off : Nat) : Word :=
  BitVec.ofNat 32 (natAt b (off + w + 4) 4)

/-- `dst` with the length of the header at `off` rewritten. -/
def putLen (w : Nat) (dst : Buf) (off len : Nat) : Buf :=
  patch dst off (leBytes w len)

/-- `dst` with length and level rewritten. -/
def putLevel (w : Nat) (dst : Buf) (off len : Nat) (level : Word) : Buf :=
  patch (putLen w dst off len) (off + w) (leBytes 4 level.toNat)

/-- `dst` with the whole header rewritten. -/
def putHeader (w : Nat) (dst : Buf) (off len : Nat) (level type : Word) : Buf :=
  patch (putLevel w dst off len level) (off + w + 4) (leBytes 4 type.toNat)

/-- The payload of the message at `off` of `src`. -/
def payloadAt (abi : Abi) (src : Buf) (off len : Nat) : Buf :=
  slice src (off + cmsgLen abi 0) (len - cmsgLen abi 0)

/-- `dst` with the message at `off` rewritten: header and payload. -/
def putMessage (abi : Abi) (w : Nat) (dst : Buf) (off len : Nat)
    (level type : Word) (data : Buf) : Buf :=
  patch (putHeader w dst off len level type) (off + cmsgLen abi 0) data

theorem length_putLen {w : Nat} {dst : Buf} {off : Nat}
    (h : off + w ≤ dst.length) (len : Nat) :
    (putLen w dst off len).length = dst.length :=
  length_patch (by rw [length_leBytes]; exact h)

theorem length_putLevel {w : Nat} {dst : Buf} {off : Nat}
    (h : off + w + 4 ≤ dst.length) (len : Nat) (level : Word) :
    (putLevel w dst off len level).length = dst.length := by
  have hlen := length_putLen (show off + w ≤ dst.length by omega) len
  rw [putLevel, length_patch (by rw [length_leBytes, hlen]; exact h), hlen]

theorem length_putHeader {w : Nat} {dst : Buf} {off : Nat}
    (h : off + w + 8 ≤ dst.length) (len : Nat) (level type : Word) :
    (putHeader w dst off len level type).length = dst.length := by
  have hlen := length_putLevel (show off + w + 4 ≤ dst.length by omega) len level
  rw [putHeader, length_patch (by rw [length_leBytes, hlen]; omega), hlen]

/-- The store of the type completes the header. -/
theorem store_putLevel {w : Nat} {dst : Buf} {off : Nat}
    (h : off + w + 8 ≤ dst.length) (len : Nat) (level type : Word) :
    (putLevel w dst off len level).store (off + w + 4) (leBytes 4 type.toNat) =
      .ok (putHeader w dst off len level type) := by
  have hlen := length_putLevel (show off + w + 4 ≤ dst.length by omega) len level
  exact store_of (by rw [hlen, length_leBytes]; omega)

/-- `CMSG_LEN(0)` is the size of the Linux header on both ABIs: the data of
a message start at the same offset in both layouts. -/
theorem cmsgLen_zero (abi : Abi) : cmsgLen abi 0 = sizeofLinuxCmsghdr abi := by
  cases abi <;> rfl

theorem align_sizeofCmsghdr (abi : Abi) :
    abi.align sizeofCmsghdr = sizeofLinuxCmsghdr abi := by
  cases abi <;> rfl

theorem sizeofLinuxCmsghdr_eq (abi : Abi) :
    sizeofLinuxCmsghdr abi = linuxCmsgLenWidth abi + 8 := rfl

theorem linuxCmsgLenWidth_bounds (abi : Abi) :
    cmsgLenWidth ≤ linuxCmsgLenWidth abi ∧ linuxCmsgLenWidth abi ≤ 8 := by
  cases abi <;> decide

/-- A length the native macros read off a wider field is the whole length,
if that is below 4 GiB. -/
theorem lenAt_native_of_lt {w : Nat} {src : Buf} {off : Nat}
    (hw : cmsgLenWidth ≤ w) (h : lenAt w src off < 2 ^ 32) :
    lenAt cmsgLenWidth src off = lenAt w src off := by
  rw [lenAt, natAt_narrow hw]
  exact Nat.mod_eq_of_lt h

/-- The step to the next header. -/
theorem cmsgNxthdr_of_fits {abi : Abi} {n : Nat} {src : Buf} {off : Nat}
    (h : off + sizeofCmsghdr ≤ src.length) :
    cmsgNxthdr abi n src off = .ok
      (if n < off + abi.align (lenAt cmsgLenWidth src off)
          + abi.align sizeofCmsghdr then none
        else some (off + abi.align (lenAt cmsgLenWidth src off))) := by
  have hnative : sizeofCmsghdr = cmsgLenWidth + 8 := rfl
  have hload : src.loadNat off cmsgLenWidth =
      .ok (lenAt cmsgLenWidth src off) := loadNat_of (by omega)
  rw [cmsgNxthdr, hload]
  rfl

/-! ## The copy of the payload -/

/-- A `cmsg_len` of the message at `off` that keeps the copy, and the step
to the next header, inside `n` bytes. A length of exactly a header copies
nothing, wherever it stands. The last bound matters on i386 alone: there
`_ALIGN` of a length within a word of 4 GiB wraps to zero. -/
def LengthOk (abi : Abi) (n off len : Nat) : Prop :=
  cmsgLen abi 0 ≤ len ∧ (len = cmsgLen abi 0 ∨ off + len ≤ n) ∧
    len + abi.wordBytes ≤ abi.sizeMod

section Copy

variable {abi : Abi} {src dst : Buf} {off len : Nat}

theorem copyCmsgData_of_fits (hn : src.length < 2 ^ 32)
    (hroom : src.length ≤ dst.length)
    (hhdr : off + cmsgLen abi 0 ≤ dst.length)
    (hge : cmsgLen abi 0 ≤ len)
    (hle : len = cmsgLen abi 0 ∨ off + len ≤ src.length) :
    copyCmsgData abi dst src off len =
      .ok (patch dst (off + cmsgLen abi 0) (payloadAt abi src off len)) := by
  have hmod := abi.sizeMod_ge
  have hsub : abi.sizeSub len (cmsgLen abi 0) = len - cmsgLen abi 0 := by
    refine abi.sizeSub_of_le hge ?_
    rcases hle with rfl | hle
    · have := (linuxCmsgLenWidth_bounds abi).2
      rw [cmsgLen_zero, sizeofLinuxCmsghdr_eq]
      omega
    · omega
  have hload : src.load (off + cmsgLen abi 0) (len - cmsgLen abi 0) =
      .ok (payloadAt abi src off len) := load_of (by omega)
  have hlength : (payloadAt abi src off len).length ≤ len - cmsgLen abi 0 := by
    rw [payloadAt, slice, List.length_take]
    exact Nat.min_le_left _ _
  rw [copyCmsgData, hsub, hload, ok_bind]
  exact store_of (by omega)

theorem copyCmsgData_of_not_fits (hn : src.length < 2 ^ 32)
    (hlen : len < abi.sizeMod)
    (h : ¬(cmsgLen abi 0 ≤ len ∧
      (len = cmsgLen abi 0 ∨ off + len ≤ src.length))) :
    copyCmsgData abi dst src off len = .error .fault := by
  have hmod := abi.sizeMod_ge
  have hhdr := (linuxCmsgLenWidth_bounds abi).2
  have hzero := cmsgLen_zero abi
  rw [sizeofLinuxCmsghdr_eq] at hzero
  have hload : src.load (off + cmsgLen abi 0)
      (abi.sizeSub len (cmsgLen abi 0)) = .error .fault := by
    refine load_eq_error.mpr ⟨rfl, ?_⟩
    by_cases hge : cmsgLen abi 0 ≤ len
    · rw [abi.sizeSub_of_le hge hlen]
      omega
    · -- the subtraction wraps: the copy is almost a whole address space
      rw [abi.sizeSub_of_lt (by omega) (by omega)]
      omega
  rw [copyCmsgData, hload, error_bind]

end Copy

/-! ## Linux to native -/

/-- The kinds of message `linux_to_native_msg_control` does not abort on. -/
def LinuxAccepted (abi : Abi) (src : Buf) (off : Nat) : Prop :=
  typeAt (linuxCmsgLenWidth abi) src off = linuxScmRights ∧
    ∃ level, linuxToNativeSockLevel (levelAt (linuxCmsgLenWidth abi) src off)
      = .ok level

section LinuxToNative

variable {abi : Abi} {src dst : Buf} {off : Nat}

theorem linuxToNativeCmsg_of_cut
    (h : ¬off + sizeofLinuxCmsghdr abi ≤ src.length) :
    linuxToNativeCmsg abi src off dst = .error .fault := by
  rw [sizeofLinuxCmsghdr_eq] at h
  have htype : src.loadNat (off + linuxCmsgLenWidth abi + 4) 4 = .error .fault :=
    loadNat_of_not (by decide) (by omega)
  rw [linuxToNativeCmsg, htype, error_bind]

/-- The round up to the level translation. -/
theorem linuxToNativeCmsg_header (hroom : src.length ≤ dst.length)
    (hfit : off + sizeofLinuxCmsghdr abi ≤ src.length)
    (htype : typeAt (linuxCmsgLenWidth abi) src off = linuxScmRights) :
    linuxToNativeCmsg abi src off dst = (do
      let level ← linuxToNativeSockLevel (levelAt (linuxCmsgLenWidth abi) src off)
      copyCmsgData abi (putHeader cmsgLenWidth dst off
        (lenAt (linuxCmsgLenWidth abi) src off) level scmRights) src off
        (lenAt (linuxCmsgLenWidth abi) src off)) := by
  have hw := (linuxCmsgLenWidth_bounds abi).1
  have hnative : cmsgLenWidth = 4 := rfl
  rw [sizeofLinuxCmsghdr_eq] at hfit
  have hload0 : src.loadNat off (linuxCmsgLenWidth abi) =
      .ok (lenAt (linuxCmsgLenWidth abi) src off) := loadNat_of (by omega)
  have hload1 : src.loadNat (off + linuxCmsgLenWidth abi) 4 =
      .ok (natAt src (off + linuxCmsgLenWidth abi) 4) := loadNat_of (by omega)
  have hload2 : src.loadNat (off + linuxCmsgLenWidth abi + 4) 4 =
      .ok (natAt src (off + linuxCmsgLenWidth abi + 4) 4) :=
    loadNat_of (by omega)
  have hreq : require (BitVec.ofNat 32
      (natAt src (off + linuxCmsgLenWidth abi + 4) 4) = linuxScmRights)
      = .ok () := require_of htype
  rw [linuxToNativeCmsg, hload2, ok_bind, hreq, ok_bind, hload0, ok_bind]
  generalize lenAt (linuxCmsgLenWidth abi) src off = len
  have hlen0 : (putLen cmsgLenWidth dst off len).length = dst.length :=
    length_putLen (by omega) len
  have hstore0 : dst.store off (leBytes cmsgLenWidth len) =
      .ok (putLen cmsgLenWidth dst off len) :=
    store_of (by rw [length_leBytes]; omega)
  rw [hstore0, ok_bind, hload1, ok_bind]
  refine congrArg _ (funext fun level => ?_)
  have hstore1 : (putLen cmsgLenWidth dst off len).store (off + cmsgLenWidth)
      (leBytes 4 level.toNat) = .ok (putLevel cmsgLenWidth dst off len level) :=
    store_of (by rw [length_leBytes]; omega)
  have hstore2 : (putLevel cmsgLenWidth dst off len level).store
      (off + cmsgLenWidth + 4) (leBytes 4 scmRights.toNat) =
      .ok (putHeader cmsgLenWidth dst off len level scmRights) :=
    store_putLevel (by omega) len level scmRights
  rw [hstore1, ok_bind, hstore2, ok_bind]

theorem linuxToNativeCmsg_of_not_accepted (hroom : src.length ≤ dst.length)
    (hfit : off + sizeofLinuxCmsghdr abi ≤ src.length)
    (h : ¬LinuxAccepted abi src off) :
    linuxToNativeCmsg abi src off dst = .error .abort := by
  by_cases htype : typeAt (linuxCmsgLenWidth abi) src off = linuxScmRights
  · have hlevel : linuxToNativeSockLevel
        (levelAt (linuxCmsgLenWidth abi) src off) = .error .abort := by
      cases hl : linuxToNativeSockLevel
          (levelAt (linuxCmsgLenWidth abi) src off) with
      | ok level => exact absurd ⟨htype, level, hl⟩ h
      | error e => rw [linuxToNativeSockLevel_eq_error hl]
    rw [linuxToNativeCmsg_header hroom hfit htype, hlevel, error_bind]
  · rw [sizeofLinuxCmsghdr_eq] at hfit
    have hload : src.loadNat (off + linuxCmsgLenWidth abi + 4) 4 =
        .ok (natAt src (off + linuxCmsgLenWidth abi + 4) 4) :=
      loadNat_of (by omega)
    have hreq : require (BitVec.ofNat 32
        (natAt src (off + linuxCmsgLenWidth abi + 4) 4) = linuxScmRights)
        = .error .abort := require_of_not htype
    simp only [linuxToNativeCmsg, hload, ok_bind, hreq, error_bind]

/-- An accepted message is rewritten if its length fits. -/
theorem linuxToNativeCmsg_of_fits (hn : src.length < 2 ^ 32)
    (hroom : src.length ≤ dst.length)
    (hfit : off + sizeofLinuxCmsghdr abi ≤ src.length) {level : Word}
    (htype : typeAt (linuxCmsgLenWidth abi) src off = linuxScmRights)
    (hlevel : linuxToNativeSockLevel (levelAt (linuxCmsgLenWidth abi) src off)
      = .ok level)
    (hge : cmsgLen abi 0 ≤ lenAt (linuxCmsgLenWidth abi) src off)
    (hle : lenAt (linuxCmsgLenWidth abi) src off = cmsgLen abi 0 ∨
      off + lenAt (linuxCmsgLenWidth abi) src off ≤ src.length) :
    linuxToNativeCmsg abi src off dst =
      .ok (putMessage abi cmsgLenWidth dst off
        (lenAt (linuxCmsgLenWidth abi) src off) level scmRights
        (payloadAt abi src off (lenAt (linuxCmsgLenWidth abi) src off))) := by
  have hw := (linuxCmsgLenWidth_bounds abi).1
  have hzero := cmsgLen_zero abi
  rw [sizeofLinuxCmsghdr_eq] at hfit hzero
  have hlen := length_putHeader
    (show off + cmsgLenWidth + 8 ≤ dst.length by omega)
    (lenAt (linuxCmsgLenWidth abi) src off) level scmRights
  rw [linuxToNativeCmsg_header hroom hfit htype, hlevel, ok_bind,
    copyCmsgData_of_fits hn (by omega) (by omega) hge hle]
  rfl

/-- An accepted message whose length does not fit faults. -/
theorem linuxToNativeCmsg_of_not_fits (hn : src.length < 2 ^ 32)
    (hroom : src.length ≤ dst.length)
    (hfit : off + sizeofLinuxCmsghdr abi ≤ src.length)
    (hacc : LinuxAccepted abi src off)
    (h : ¬(cmsgLen abi 0 ≤ lenAt (linuxCmsgLenWidth abi) src off ∧
      (lenAt (linuxCmsgLenWidth abi) src off = cmsgLen abi 0 ∨
        off + lenAt (linuxCmsgLenWidth abi) src off ≤ src.length))) :
    linuxToNativeCmsg abi src off dst = .error .fault := by
  obtain ⟨htype, level, hlevel⟩ := hacc
  have hlt : lenAt (linuxCmsgLenWidth abi) src off < abi.sizeMod :=
    natAt_lt src off _
  rw [linuxToNativeCmsg_header hroom hfit htype, hlevel, ok_bind,
    copyCmsgData_of_not_fits hn hlt h]

end LinuxToNative

/-! ## Native to Linux -/

/-- The kinds of message `native_to_linux_msg_control` does not abort on. -/
def NativeAccepted (src : Buf) (off : Nat) : Prop :=
  (∃ level, nativeToLinuxSockLevel (levelAt cmsgLenWidth src off) = .ok level) ∧
    ∃ type, nativeToLinuxCmsgType (levelAt cmsgLenWidth src off)
      (typeAt cmsgLenWidth src off) = .ok type

section NativeToLinux

variable {abi : Abi} {src dst : Buf} {off : Nat}

/-- The round up to the translation of the type. -/
theorem nativeToLinuxCmsg_header (hroom : src.length ≤ dst.length)
    (hfit : off + sizeofCmsghdr ≤ src.length) :
    nativeToLinuxCmsg abi src off dst = (do
      let level ← nativeToLinuxSockLevel (levelAt cmsgLenWidth src off)
      let type ← nativeToLinuxCmsgType (levelAt cmsgLenWidth src off)
        (typeAt cmsgLenWidth src off)
      let dst ← (putLevel (linuxCmsgLenWidth abi) dst off
        (lenAt cmsgLenWidth src off) level).store
          (off + linuxCmsgLenWidth abi + 4) (leBytes 4 type.toNat)
      copyCmsgData abi dst src off (lenAt cmsgLenWidth src off)) := by
  have hw := (linuxCmsgLenWidth_bounds abi).2
  have hnative : sizeofCmsghdr = cmsgLenWidth + 8 := rfl
  have hwidth : cmsgLenWidth = 4 := rfl
  have hload0 : src.loadNat off cmsgLenWidth =
      .ok (lenAt cmsgLenWidth src off) := loadNat_of (by omega)
  have hload1 : src.loadNat (off + cmsgLenWidth) 4 =
      .ok (natAt src (off + cmsgLenWidth) 4) := loadNat_of (by omega)
  have hload2 : src.loadNat (off + cmsgLenWidth + 4) 4 =
      .ok (natAt src (off + cmsgLenWidth + 4) 4) := loadNat_of (by omega)
  rw [nativeToLinuxCmsg, hload0, ok_bind]
  generalize lenAt cmsgLenWidth src off = len
  have hlen0 : (putLen (linuxCmsgLenWidth abi) dst off len).length = dst.length :=
    length_putLen (by omega) len
  have hstore0 : dst.store off (leBytes (linuxCmsgLenWidth abi) len) =
      .ok (putLen (linuxCmsgLenWidth abi) dst off len) :=
    store_of (by rw [length_leBytes]; omega)
  rw [hstore0, ok_bind, hload1, ok_bind]
  refine congrArg _ (funext fun level => ?_)
  have hstore1 : (putLen (linuxCmsgLenWidth abi) dst off len).store
      (off + linuxCmsgLenWidth abi) (leBytes 4 level.toNat) =
      .ok (putLevel (linuxCmsgLenWidth abi) dst off len level) :=
    store_of (by rw [length_leBytes]; omega)
  rw [hstore1, ok_bind, hload2, ok_bind]
  rfl

theorem nativeToLinuxCmsg_of_not_accepted (hroom : src.length ≤ dst.length)
    (hfit : off + sizeofCmsghdr ≤ src.length)
    (h : ¬NativeAccepted src off) :
    nativeToLinuxCmsg abi src off dst = .error .abort := by
  rw [nativeToLinuxCmsg_header hroom hfit]
  cases hl : nativeToLinuxSockLevel (levelAt cmsgLenWidth src off) with
  | error e => rw [error_bind, nativeToLinuxSockLevel_eq_error hl]
  | ok level =>
      cases ht : nativeToLinuxCmsgType (levelAt cmsgLenWidth src off)
          (typeAt cmsgLenWidth src off) with
      | error e => rw [ok_bind, error_bind, nativeToLinuxCmsgType_eq_error ht]
      | ok type => exact absurd ⟨⟨level, hl⟩, type, ht⟩ h

/-- An accepted message whose Linux header has no room in the destination
faults. -/
theorem nativeToLinuxCmsg_of_no_room (hroom : src.length ≤ dst.length)
    (hfit : off + sizeofCmsghdr ≤ src.length) (hacc : NativeAccepted src off)
    (h : ¬off + sizeofLinuxCmsghdr abi ≤ dst.length) :
    nativeToLinuxCmsg abi src off dst = .error .fault := by
  obtain ⟨⟨level, hlevel⟩, type, htype⟩ := hacc
  have hw := (linuxCmsgLenWidth_bounds abi).2
  have hnative : sizeofCmsghdr = cmsgLenWidth + 8 := rfl
  have hwidth : cmsgLenWidth = 4 := rfl
  rw [sizeofLinuxCmsghdr_eq] at h
  have hlen := length_putLevel
    (show off + linuxCmsgLenWidth abi + 4 ≤ dst.length by omega)
    (lenAt cmsgLenWidth src off) level
  have hstore : (putLevel (linuxCmsgLenWidth abi) dst off
      (lenAt cmsgLenWidth src off) level).store
        (off + linuxCmsgLenWidth abi + 4) (leBytes 4 type.toNat)
      = .error .fault :=
    store_eq_error.mpr ⟨rfl, leBytes_ne_nil (by decide) _,
      by rw [hlen, length_leBytes]; omega⟩
  rw [nativeToLinuxCmsg_header hroom hfit, hlevel, ok_bind, htype, ok_bind,
    hstore, error_bind]

/-- The round of an accepted message up to the copy. -/
theorem nativeToLinuxCmsg_of_room (hroom : src.length ≤ dst.length)
    (hfit : off + sizeofCmsghdr ≤ src.length) {level type : Word}
    (hlevel : nativeToLinuxSockLevel (levelAt cmsgLenWidth src off)
      = .ok level)
    (htype : nativeToLinuxCmsgType (levelAt cmsgLenWidth src off)
      (typeAt cmsgLenWidth src off) = .ok type)
    (h : off + sizeofLinuxCmsghdr abi ≤ dst.length) :
    nativeToLinuxCmsg abi src off dst =
      copyCmsgData abi (putHeader (linuxCmsgLenWidth abi) dst off
        (lenAt cmsgLenWidth src off) level type) src off
        (lenAt cmsgLenWidth src off) := by
  rw [sizeofLinuxCmsghdr_eq] at h
  have hstore : (putLevel (linuxCmsgLenWidth abi) dst off
      (lenAt cmsgLenWidth src off) level).store
        (off + linuxCmsgLenWidth abi + 4) (leBytes 4 type.toNat)
      = .ok (putHeader (linuxCmsgLenWidth abi) dst off
        (lenAt cmsgLenWidth src off) level type) :=
    store_putLevel (by omega) _ level type
  rw [nativeToLinuxCmsg_header hroom hfit, hlevel, ok_bind, htype, ok_bind,
    hstore, ok_bind]

/-- An accepted message is rewritten if its length fits. -/
theorem nativeToLinuxCmsg_of_fits (hn : src.length < 2 ^ 32)
    (hroom : src.length ≤ dst.length)
    (hfit : off + sizeofCmsghdr ≤ src.length) {level type : Word}
    (hlevel : nativeToLinuxSockLevel (levelAt cmsgLenWidth src off)
      = .ok level)
    (htype : nativeToLinuxCmsgType (levelAt cmsgLenWidth src off)
      (typeAt cmsgLenWidth src off) = .ok type)
    (h : off + sizeofLinuxCmsghdr abi ≤ dst.length)
    (hge : cmsgLen abi 0 ≤ lenAt cmsgLenWidth src off)
    (hle : lenAt cmsgLenWidth src off = cmsgLen abi 0 ∨
      off + lenAt cmsgLenWidth src off ≤ src.length) :
    nativeToLinuxCmsg abi src off dst =
      .ok (putMessage abi (linuxCmsgLenWidth abi) dst off
        (lenAt cmsgLenWidth src off) level type
        (payloadAt abi src off (lenAt cmsgLenWidth src off))) := by
  have hzero := cmsgLen_zero abi
  have hhdr := h
  rw [sizeofLinuxCmsghdr_eq] at hhdr
  have hlen := length_putHeader
    (show off + linuxCmsgLenWidth abi + 8 ≤ dst.length by omega)
    (lenAt cmsgLenWidth src off) level type
  rw [nativeToLinuxCmsg_of_room hroom hfit hlevel htype h,
    copyCmsgData_of_fits hn (by omega) (by omega) hge hle]
  rfl

/-- An accepted message whose length does not fit faults. -/
theorem nativeToLinuxCmsg_of_not_fits (hn : src.length < 2 ^ 32)
    (hroom : src.length ≤ dst.length)
    (hfit : off + sizeofCmsghdr ≤ src.length) (hacc : NativeAccepted src off)
    (h : ¬(cmsgLen abi 0 ≤ lenAt cmsgLenWidth src off ∧
      (lenAt cmsgLenWidth src off = cmsgLen abi 0 ∨
        off + lenAt cmsgLenWidth src off ≤ src.length))) :
    nativeToLinuxCmsg abi src off dst = .error .fault := by
  by_cases hhdr : off + sizeofLinuxCmsghdr abi ≤ dst.length
  · obtain ⟨⟨level, hlevel⟩, type, htype⟩ := hacc
    have hlt : lenAt cmsgLenWidth src off < abi.sizeMod :=
      Nat.lt_of_lt_of_le (natAt_lt src off _) abi.sizeMod_ge
    rw [nativeToLinuxCmsg_of_room hroom hfit hlevel htype hhdr,
      copyCmsgData_of_not_fits hn hlt h]
  · exact nativeToLinuxCmsg_of_no_room hroom hfit hacc hhdr

end NativeToLinux

/-! ## Lengths -/

theorem length_putMessage {abi : Abi} {w : Nat} {dst : Buf} {off len : Nat}
    (hhdr : off + w + 8 ≤ dst.length) {data : Buf}
    (hdata : off + cmsgLen abi 0 + data.length ≤ dst.length)
    (level type : Word) :
    (putMessage abi w dst off len level type data).length = dst.length := by
  have hlen := length_putHeader hhdr len level type
  rw [putMessage, length_patch (by omega), hlen]

/-! ## Reading a rewritten message back -/

section ReadBack

variable {abi : Abi} {w : Nat} {dst : Buf} {off len : Nat} {level type : Word}
  {data : Buf}

/-- Everything before the payload is read from the rewritten header. -/
theorem slice_putMessage_header (hhdr : w + 8 ≤ cmsgLen abi 0)
    (hdata : off + cmsgLen abi 0 + data.length ≤ dst.length) {o n : Nat}
    (h : o + n ≤ off + cmsgLen abi 0) :
    slice (putMessage abi w dst off len level type data) o n =
      slice (putHeader w dst off len level type) o n := by
  have hlen := length_putHeader (show off + w + 8 ≤ dst.length by omega)
    len level type
  exact slice_patch_before (by omega) h

theorem lenAt_putMessage (hhdr : w + 8 ≤ cmsgLen abi 0)
    (hdata : off + cmsgLen abi 0 + data.length ≤ dst.length) :
    lenAt w (putMessage abi w dst off len level type data) off =
      len % 256 ^ w := by
  have hlen0 := length_putLen (show off + w ≤ dst.length by omega) len
  have hlen1 := length_putLevel (show off + w + 4 ≤ dst.length by omega)
    len level
  rw [lenAt, natAt, slice_putMessage_header hhdr hdata (by omega), putHeader,
    slice_patch_before (by rw [length_leBytes]; omega) (by omega), putLevel,
    slice_patch_before (by rw [length_leBytes]; omega) (by omega), putLen]
  exact natAt_patch_same (by omega)

theorem levelAt_putMessage (hhdr : w + 8 ≤ cmsgLen abi 0)
    (hdata : off + cmsgLen abi 0 + data.length ≤ dst.length) :
    levelAt w (putMessage abi w dst off len level type data) off = level := by
  have hlen0 := length_putLen (show off + w ≤ dst.length by omega) len
  have hlen1 := length_putLevel (show off + w + 4 ≤ dst.length by omega)
    len level
  have hnat : natAt (putMessage abi w dst off len level type data) (off + w) 4
      = level.toNat % 256 ^ 4 := by
    rw [natAt, slice_putMessage_header hhdr hdata (by omega), putHeader,
      slice_patch_before (by rw [length_leBytes]; omega) (by omega), putLevel]
    exact natAt_patch_same (by omega)
  have hlt := level.isLt
  rw [levelAt, hnat, Nat.mod_eq_of_lt (by omega), BitVec.ofNat_toNat,
    BitVec.setWidth_eq]

theorem typeAt_putMessage (hhdr : w + 8 ≤ cmsgLen abi 0)
    (hdata : off + cmsgLen abi 0 + data.length ≤ dst.length) :
    typeAt w (putMessage abi w dst off len level type data) off = type := by
  have hlen := length_putLevel (show off + w + 4 ≤ dst.length by omega)
    len level
  have hnat : natAt (putMessage abi w dst off len level type data)
      (off + w + 4) 4 = type.toNat % 256 ^ 4 := by
    rw [natAt, slice_putMessage_header hhdr hdata (by omega), putHeader]
    exact natAt_patch_same (by omega)
  have hlt := type.isLt
  rw [typeAt, hnat, Nat.mod_eq_of_lt (by omega), BitVec.ofNat_toNat,
    BitVec.setWidth_eq]

theorem payload_putMessage (hhdr : w + 8 ≤ cmsgLen abi 0)
    (hdata : off + cmsgLen abi 0 + data.length ≤ dst.length) :
    slice (putMessage abi w dst off len level type data)
      (off + cmsgLen abi 0) data.length = data := by
  have hlen := length_putHeader (show off + w + 8 ≤ dst.length by omega)
    len level type
  exact slice_patch_same (by omega)

/-- A message leaves what lies before it alone. -/
theorem slice_putMessage_before (hhdr : w + 8 ≤ cmsgLen abi 0)
    (hdata : off + cmsgLen abi 0 + data.length ≤ dst.length) {o n : Nat}
    (h : o + n ≤ off) :
    slice (putMessage abi w dst off len level type data) o n =
      slice dst o n := by
  have hlen0 := length_putLen (show off + w ≤ dst.length by omega) len
  have hlen1 := length_putLevel (show off + w + 4 ≤ dst.length by omega)
    len level
  rw [slice_putMessage_header hhdr hdata (by omega), putHeader,
    slice_patch_before (by rw [length_leBytes]; omega) (by omega), putLevel,
    slice_patch_before (by rw [length_leBytes]; omega) (by omega), putLen,
    slice_patch_before (by rw [length_leBytes]; omega) (by omega)]

end ReadBack

end Libc6Shim
