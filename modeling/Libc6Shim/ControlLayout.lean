import Libc6Shim.ControlRound

/-!
# Control messages survive the change of layout

What the two conversions are for: a list of control messages, written down
by one system's rules, is to be read back by the other's. A system's rules
are a `Dialect` - the width of `cmsg_len`, where the data start, and its
numbers for the kinds of message - and `LaidOut` says that a buffer holds a
list of messages by them: each header in place, each message on the next
aligned offset, the last one padded or not, anything at all in the padding.
`walk` reads a buffer with the dialect's own macros.

`Converts` is what one round does for one message, `Converts.laidOut`
carries it over the list - a round writes only from its message on, so the
messages behind it stay as they are - and `walk_of_laidOut` reads the
result.
-/

namespace Libc6Shim

open CSem Buf Outcome

/-! ## Messages and dialects -/

/-- The kinds of message that are translated. -/
inductive CmsgKind where
  /-- Descriptors, at the socket level. -/
  | rights
  /-- The type of service of a datagram, at the IP level. -/
  | tos
deriving Repr, DecidableEq

structure Cmsg where
  kind : CmsgKind
  data : Buf
deriving Repr, DecidableEq

/-- A system's way of writing control messages down. The two systems must
agree on where the data of a message start. -/
structure Dialect (abi : Abi) where
  lenWidth : Nat
  sizeofHdr : Nat
  dataOff : Nat
  level : CmsgKind → Word
  type : CmsgKind → Word
  narrow : cmsgLenWidth ≤ lenWidth
  fits : lenWidth + 8 ≤ sizeofHdr
  room : sizeofHdr ≤ dataOff
  agrees : dataOff = cmsgLen abi 0

/-- FreeBSD: a 12-byte header, the data on the next aligned offset. -/
def nativeDialect (abi : Abi) : Dialect abi where
  lenWidth := cmsgLenWidth
  sizeofHdr := sizeofCmsghdr
  dataOff := abi.align sizeofCmsghdr
  level
    | .rights => solSocket
    | .tos => ipprotoIp
  type
    | .rights => scmRights
    | .tos => ipRecvtos
  narrow := Nat.le_refl _
  fits := Nat.le_refl _
  room := by cases abi <;> decide
  agrees := rfl

/-- Linux: a header of a `size_t` and two `int`s, the data behind it. -/
def linuxDialect (abi : Abi) : Dialect abi where
  lenWidth := linuxCmsgLenWidth abi
  sizeofHdr := sizeofLinuxCmsghdr abi
  dataOff := sizeofLinuxCmsghdr abi
  level
    | .rights => linuxSolSocket
    | .tos => linuxSolIp
  type
    | .rights => linuxScmRights
    | .tos => linuxIpTos
  narrow := (linuxCmsgLenWidth_bounds abi).1
  fits := Nat.le_refl _
  room := Nat.le_refl _
  agrees := (cmsgLen_zero abi).symm

/-- FreeBSD, as `linux_to_native_msg_control` writes it: the type is set and
not translated. -/
def returnedDialect (abi : Abi) : Dialect abi :=
  { nativeDialect abi with type := fun _ => scmRights }

namespace Dialect

variable {abi : Abi} (D : Dialect abi)

/-- `CMSG_LEN(n)`. -/
def len (n : Nat) : Nat := D.dataOff + n

/-- `CMSG_SPACE(n)`. -/
def space (n : Nat) : Nat := D.dataOff + abi.align n

/-- The message `m` at `off` of the `n` control bytes `b`, by the rules:
its length is `CMSG_LEN` of its payload and lies inside the buffer, and its
`CMSG_SPACE`, a `size_t`, does not overflow. -/
def MessageAt (n : Nat) (b : Buf) (off : Nat) (m : Cmsg) : Prop :=
  lenAt D.lenWidth b off = D.len m.data.length ∧
    levelAt D.lenWidth b off = D.level m.kind ∧
    typeAt D.lenWidth b off = D.type m.kind ∧
    slice b (off + D.dataOff) m.data.length = m.data ∧
    off + D.len m.data.length ≤ n ∧
    D.space m.data.length < abi.sizeMod

/-- The `n` control bytes `b` hold the messages from `off` on, and end with
the last of them or within its padding. -/
def LaidOut (n : Nat) (b : Buf) : Nat → List Cmsg → Prop
  | off, [] => n ≤ off
  | off, m :: ms => D.MessageAt n b off m ∧
      LaidOut n b (off + D.space m.data.length) ms

instance {n : Nat} {b : Buf} {off : Nat} {m : Cmsg} :
    Decidable (D.MessageAt n b off m) := by
  unfold MessageAt
  infer_instance

instance decidableLaidOut {n : Nat} {b : Buf} :
    (off : Nat) → (ms : List Cmsg) → Decidable (D.LaidOut n b off ms)
  | off, [] => inferInstanceAs (Decidable (n ≤ off))
  | off, m :: ms =>
      have := decidableLaidOut (n := n) (b := b)
        (off + D.space m.data.length) ms
      inferInstanceAs (Decidable (D.MessageAt n b off m ∧
        D.LaidOut n b (off + D.space m.data.length) ms))

/-! ## Reading a buffer -/

/-- `CMSG_FIRSTHDR`, for `n` control bytes. -/
def firsthdr (n : Nat) : Option Nat := if D.sizeofHdr ≤ n then some 0 else none

/-- What a reader of a buffer sees of a message. -/
structure Seen where
  cmsgLen : Nat
  cmsgLevel : Word
  cmsgType : Word
  data : Buf
deriving Repr, DecidableEq

/-- The message as a reader of this dialect should see it. -/
def seen (m : Cmsg) : Seen where
  cmsgLen := D.len m.data.length
  cmsgLevel := D.level m.kind
  cmsgType := D.type m.kind
  data := m.data

/-- At most `fuel` messages of the control bytes `b`, from `cmsg` on, read
with the macros: `next` is `CMSG_NXTHDR`. -/
def walkFrom (next : Nat → Outcome (Option Nat)) (b : Buf) :
    Nat → Option Nat → Outcome (List Seen)
  | 0, _ => .error .spin
  | _ + 1, none => .ok []
  | fuel + 1, some cmsg => do
      let len ← b.loadNat cmsg D.lenWidth
      let level ← b.loadNat (cmsg + D.lenWidth) 4
      let type ← b.loadNat (cmsg + D.lenWidth + 4) 4
      let data ← b.load (cmsg + D.dataOff) (abi.sizeSub len (D.len 0))
      let rest ← walkFrom next b fuel (← next cmsg)
      return ⟨len, BitVec.ofNat 32 level, BitVec.ofNat 32 type, data⟩ :: rest

/-- Walk all the control bytes `b`. -/
def walk (next : Nat → Outcome (Option Nat)) (b : Buf) : Outcome (List Seen) :=
  D.walkFrom next b (b.length + 2) (D.firsthdr b.length)

end Dialect

/-- FreeBSD's walk over control bytes: its own macros. -/
def nativeWalk (abi : Abi) (b : Buf) : Outcome (List Dialect.Seen) :=
  (nativeDialect abi).walk (cmsgNxthdr abi b.length b) b

/-- Linux's `CMSG_NXTHDR`, for `n` control bytes: none behind a header that
is malformed or leaves no room for another. -/
def linuxCmsgNxthdr (abi : Abi) (n : Nat) (control : Buf) (cmsg : Nat) :
    Outcome (Option Nat) := do
  let len ← control.loadNat cmsg (linuxCmsgLenWidth abi)
  return if len < sizeofLinuxCmsghdr abi ∨
      n < cmsg + abi.align len + sizeofLinuxCmsghdr abi then none
    else some (cmsg + abi.align len)

/-- Linux's walk over control bytes. -/
def linuxWalk (abi : Abi) (b : Buf) : Outcome (List Dialect.Seen) :=
  (linuxDialect abi).walk (linuxCmsgNxthdr abi b.length b) b

/-- Both of FreeBSD's dialects are read with its macros. -/
theorem walkFrom_returned {abi : Abi} (next : Nat → Outcome (Option Nat))
    (b : Buf) (fuel : Nat) (c : Option Nat) :
    (returnedDialect abi).walkFrom next b fuel c =
      (nativeDialect abi).walkFrom next b fuel c := by
  induction fuel generalizing c with
  | zero => rfl
  | succ fuel ih =>
      cases c with
      | none => rfl
      | some cmsg =>
          rw [Dialect.walkFrom, Dialect.walkFrom]
          simp only [ih]
          rfl

/-! ## Laid-out buffers -/

/-- The header the rest of the messages starts with. -/
def startOf (off : Nat) : List Cmsg → Option Nat
  | [] => none
  | _ :: _ => some off

namespace Dialect

variable {abi : Abi} {D : Dialect abi} {n : Nat} {b b' : Buf} {off : Nat}
  {m : Cmsg} {ms : List Cmsg}

theorem dataOff_bounds (D : Dialect abi) :
    sizeofCmsghdr ≤ D.dataOff ∧ D.dataOff ≤ 16 := by
  have hagrees := D.agrees
  have hw := linuxCmsgLenWidth_bounds abi
  rw [cmsgLen_zero, sizeofLinuxCmsghdr_eq] at hagrees
  have hsize : sizeofCmsghdr = cmsgLenWidth + 8 := rfl
  omega

/-- A message takes as much room as its length, and no less than a
header. -/
theorem len_le_space {k : Nat} (h : k < 2 ^ 32 - 4) :
    D.len k ≤ D.space k := by
  have hmod := abi.sizeMod_ge
  have hround : k ≤ abi.align k := by
    refine (abi.align_spec ?_).1
    rcases abi.wordBytes_cases with ⟨hw, hm⟩ | ⟨hw, hm⟩ <;> omega
  rw [len, space]
  omega

theorem MessageAt.bounds (h : D.MessageAt n b off m) :
    off + D.dataOff + m.data.length ≤ n := by
  obtain ⟨-, -, -, -, hle, -⟩ := h
  rw [len] at hle
  omega

theorem len_eq_cmsgLen (D : Dialect abi) (k : Nat) : D.len k = cmsgLen abi k := by
  rw [len, D.agrees]
  rfl

/-- The payload a round copies is the message's. -/
theorem MessageAt.payloadAt_eq (h : D.MessageAt n b off m) :
    payloadAt abi b off (D.len m.data.length) = m.data := by
  obtain ⟨-, -, -, hdata, -, -⟩ := h
  rw [payloadAt, ← D.agrees, len, Nat.add_sub_cancel_left, hdata]

/-- Stepping by the aligned `cmsg_len` is stepping by `CMSG_SPACE`. -/
theorem MessageAt.align_len (hn : n < 2 ^ 32) (h : D.MessageAt n b off m) :
    abi.align (D.len m.data.length) = D.space m.data.length := by
  have hbounds := Nat.lt_of_le_of_lt h.bounds hn
  obtain ⟨-, -, -, -, -, hspace⟩ := h
  have hagrees := D.agrees
  rw [cmsgLen_zero] at hagrees
  rw [space] at hspace ⊢
  rw [len]
  cases abi with
  | i386 =>
      have hdata : D.dataOff = 12 := hagrees
      simp only [Abi.align, Abi.wordBytes, Abi.sizeMod] at hspace ⊢
      omega
  | amd64 =>
      have hdata : D.dataOff = 16 := hagrees
      simp only [Abi.align, Abi.wordBytes, Abi.sizeMod] at hspace ⊢
      omega

theorem MessageAt.len_le_space (hn : n < 2 ^ 32) (h : D.MessageAt n b off m) :
    D.len m.data.length ≤ D.space m.data.length := by
  have hbounds := h.bounds
  have hdata := D.dataOff_bounds.1
  have hsize : sizeofCmsghdr = 12 := rfl
  exact Dialect.len_le_space (by omega)

/-- A message is a matter of the bytes up to its end. -/
theorem MessageAt.congr {k : Nat} (h : D.MessageAt n b off m)
    (hk : off + D.len m.data.length ≤ k)
    (hslice : ∀ o j, o + j ≤ k → slice b' o j = slice b o j) :
    D.MessageAt n b' off m := by
  obtain ⟨hlen, hlevel, htype, hdata, hle, hspace⟩ := h
  have hfits := D.fits
  have hroom := D.room
  rw [len] at hk
  refine ⟨?_, ?_, ?_, ?_, hle, hspace⟩
  · rw [← hlen, lenAt, natAt, hslice _ _ (by omega)]
    rfl
  · rw [← hlevel, levelAt, natAt, hslice _ _ (by omega)]
    rfl
  · rw [← htype, typeAt, natAt, hslice _ _ (by omega)]
    rfl
  · rw [hslice _ _ (by omega), hdata]

/-- Control bytes are the first `n` of the array they are in. -/
theorem LaidOut.take (h : D.LaidOut n b off ms) :
    D.LaidOut n (b.take n) off ms := by
  induction ms generalizing off with
  | nil => exact h
  | cons m ms ih =>
      obtain ⟨hm, hms⟩ := h
      have hle := hm.2.2.2.2.1
      exact ⟨hm.congr hle fun o j hoj => slice_take hoj, ih hms⟩

/-- There are fewer messages than bytes. -/
theorem LaidOut.length_le (hn : n < 2 ^ 32) (h : D.LaidOut n b off ms) :
    ms.length ≤ n - off := by
  induction ms generalizing off with
  | nil => exact Nat.zero_le _
  | cons m ms ih =>
      obtain ⟨hm, hms⟩ := h
      have hbounds := hm.bounds
      have hspace := hm.len_le_space hn
      have hdata := D.dataOff_bounds.1
      have hsize : sizeofCmsghdr = 12 := rfl
      have hrest := ih hms
      rw [len] at hspace
      rw [List.length_cons]
      omega

/-- Behind a message lies either the next one or the end of the buffer. -/
theorem LaidOut.next_eq (hms : D.LaidOut n b off ms) :
    (if n < off + sizeofLinuxCmsghdr abi then none else some off) =
      startOf off ms := by
  have hpos := sizeofLinuxCmsghdr_eq abi
  cases ms with
  | nil => exact if_pos (Nat.lt_of_le_of_lt hms (by omega))
  | cons m ms =>
      have hbounds := hms.1.bounds
      rw [D.agrees, cmsgLen_zero] at hbounds
      exact if_neg (by omega)

/-- The native step from a message leads to the next one, whatever the
width of the length field. -/
theorem LaidOut.cmsgNxthdr_eq (hn : b.length < 2 ^ 32)
    (h : D.LaidOut b.length b off (m :: ms)) :
    cmsgNxthdr abi b.length b off =
      .ok (startOf (off + D.space m.data.length) ms) := by
  obtain ⟨hm, hms⟩ := h
  have hbounds := hm.bounds
  have hdata := D.dataOff_bounds.1
  have hlen : lenAt cmsgLenWidth b off = D.len m.data.length := by
    rw [lenAt_native_of_lt D.narrow (by rw [hm.1, len]; omega), hm.1]
  rw [cmsgNxthdr_of_fits (by omega), hlen, hm.align_len hn,
    align_sizeofCmsghdr, hms.next_eq]

/-- So does Linux's. -/
theorem LaidOut.linuxCmsgNxthdr_eq (hn : b.length < 2 ^ 32)
    (h : (linuxDialect abi).LaidOut b.length b off (m :: ms)) :
    linuxCmsgNxthdr abi b.length b off =
      .ok (startOf (off + (linuxDialect abi).space m.data.length) ms) := by
  obtain ⟨hm, hms⟩ := h
  have hbounds := hm.bounds
  have hhdr : (linuxDialect abi).dataOff = linuxCmsgLenWidth abi + 8 := rfl
  have hload : b.loadNat off (linuxCmsgLenWidth abi) =
      .ok ((linuxDialect abi).len m.data.length) := by
    rw [← hm.1]
    exact loadNat_of (by omega)
  have hge : ¬(linuxDialect abi).len m.data.length < sizeofLinuxCmsghdr abi := by
    rw [len, hhdr, sizeofLinuxCmsghdr_eq]
    omega
  rw [linuxCmsgNxthdr, hload, ok_bind, hm.align_len hn]
  simp only [hge, false_or]
  rw [hms.next_eq]
  rfl

/-- Where the walk starts. -/
theorem LaidOut.firsthdr_eq (h : D.LaidOut n b 0 ms) :
    D.firsthdr n = startOf 0 ms := by
  have hfits := D.fits
  have hroom := D.room
  cases ms with
  | nil =>
      have hle : n ≤ 0 := h
      exact if_neg (by omega)
  | cons m ms =>
      have hbounds := h.1.bounds
      exact if_pos (by omega)

/-- One message of a walk. -/
theorem walkFrom_message {next : Nat → Outcome (Option Nat)}
    (hn : b.length < 2 ^ 32) (hm : D.MessageAt b.length b off m)
    {c : Option Nat} (hnext : next off = .ok c) (fuel : Nat) :
    D.walkFrom next b (fuel + 1) (some off) =
      D.walkFrom next b fuel c >>= fun rest => .ok (D.seen m :: rest) := by
  have hbounds := hm.bounds
  have hmod := abi.sizeMod_ge
  obtain ⟨hlen, hlevel, htype, hdata, -, -⟩ := hm
  have hfits := D.fits
  have hroom := D.room
  have hload0 : b.loadNat off D.lenWidth =
      .ok (lenAt D.lenWidth b off) := loadNat_of (by omega)
  have hload1 : b.loadNat (off + D.lenWidth) 4 =
      .ok (natAt b (off + D.lenWidth) 4) := loadNat_of (by omega)
  have hload2 : b.loadNat (off + D.lenWidth + 4) 4 =
      .ok (natAt b (off + D.lenWidth + 4) 4) := loadNat_of (by omega)
  have hsub : abi.sizeSub (D.len m.data.length) (D.len 0) = m.data.length := by
    rw [len, len, abi.sizeSub_of_le (by omega) (by omega)]
    omega
  have hload : b.load (off + D.dataOff) m.data.length = .ok m.data := by
    rw [load_of (.inr (by omega)), hdata]
  have hseen : D.seen m = ⟨D.len m.data.length, levelAt D.lenWidth b off,
      typeAt D.lenWidth b off, m.data⟩ := by
    rw [hlevel, htype]
    rfl
  rw [walkFrom, hload0, ok_bind, hload1, ok_bind, hload2, ok_bind, hlen, hsub,
    hload, ok_bind, hnext, ok_bind, hseen]
  rfl

/-- A laid-out buffer is read back message by message. -/
theorem walkFrom_of_laidOut {next : Nat → Outcome (Option Nat)}
    (hn : b.length < 2 ^ 32)
    (hnext : ∀ off m ms, D.LaidOut b.length b off (m :: ms) →
      next off = .ok (startOf (off + D.space m.data.length) ms))
    (h : D.LaidOut b.length b off ms) {fuel : Nat} (hfuel : ms.length < fuel) :
    D.walkFrom next b fuel (startOf off ms) = .ok (ms.map D.seen) := by
  induction ms generalizing off fuel with
  | nil =>
      cases fuel with
      | zero => exact absurd hfuel (Nat.not_lt_zero _)
      | succ fuel => rfl
  | cons m ms ih =>
      cases fuel with
      | zero => exact absurd hfuel (Nat.not_lt_zero _)
      | succ fuel =>
          have hstep := hnext off m ms h
          obtain ⟨hm, hms⟩ := h
          have hrest := ih hms (Nat.lt_of_succ_lt_succ hfuel)
          rw [startOf, walkFrom_message hn hm hstep, hrest, ok_bind,
            List.map_cons]

/-- The first `n` bytes of an array are read back whole by any macros that
step from message to message. -/
theorem walk_of_laidOut (next : Buf → Nat → Outcome (Option Nat))
    (hn : n < 2 ^ 32) (hle : n ≤ b.length)
    (hnext : ∀ {c : Buf}, c.length < 2 ^ 32 → ∀ off m ms,
      D.LaidOut c.length c off (m :: ms) →
      next c off = .ok (startOf (off + D.space m.data.length) ms))
    (h : D.LaidOut n (b.take n) 0 ms) :
    D.walk (next (b.take n)) (b.take n) = .ok (ms.map D.seen) := by
  have hlen : (b.take n).length = n := by
    rw [List.length_take]
    omega
  generalize b.take n = c at h hlen ⊢
  subst hlen
  have hcount := h.length_le hn
  rw [walk, h.firsthdr_eq]
  exact walkFrom_of_laidOut hn (hnext hn) h (by omega)

end Dialect

/-! ## Converting a buffer -/

/-- What converting a message from the dialect `S` to the dialect `T` does,
for a destination of `room` bytes: the message is rewritten in place. -/
structure Converts {abi : Abi} (S T : Dialect abi) (src : Buf) (room : Nat)
    (conv : Nat → Buf → Outcome Buf) : Prop where
  message : ∀ {off m dst}, S.MessageAt src.length src off m →
    dst.length = room →
    conv off dst = .ok (putMessage abi T.lenWidth dst off
      (T.len m.data.length) (T.level m.kind) (T.type m.kind) m.data)

section Converts

variable {abi : Abi} {S T : Dialect abi} {src : Buf} {room : Nat}
  {conv : Nat → Buf → Outcome Buf}

theorem space_eq (S T : Dialect abi) (n : Nat) : S.space n = T.space n := by
  rw [Dialect.space, Dialect.space, S.agrees, T.agrees]

theorem len_eq (S T : Dialect abi) (n : Nat) : S.len n = T.len n := by
  rw [Dialect.len, Dialect.len, S.agrees, T.agrees]

/-- A rewritten message is a message of the target dialect. -/
theorem messageAt_putMessage {n : Nat} {b dst : Buf} {off : Nat} {m : Cmsg}
    (hn : n < 2 ^ 32) (hroom : n ≤ dst.length) (h : S.MessageAt n b off m) :
    T.MessageAt n (putMessage abi T.lenWidth dst off (T.len m.data.length)
      (T.level m.kind) (T.type m.kind) m.data) off m := by
  have hbounds := h.bounds
  obtain ⟨-, -, -, -, hle, hspace⟩ := h
  have hfits := T.fits
  have hcmsg := T.room
  rw [T.agrees] at hcmsg
  rw [S.agrees] at hbounds
  rw [len_eq S T] at hle
  rw [space_eq S T] at hspace
  have hwidth : 256 ^ cmsgLenWidth ≤ 256 ^ T.lenWidth :=
    Nat.pow_le_pow_right (by decide) T.narrow
  have hnative : 256 ^ cmsgLenWidth = 2 ^ 32 := by decide
  refine ⟨?_, levelAt_putMessage (by omega) (by omega),
    typeAt_putMessage (by omega) (by omega), ?_, hle, hspace⟩
  · rw [lenAt_putMessage (by omega) (by omega)]
    exact Nat.mod_eq_of_lt (by omega)
  · rw [T.agrees]
    exact payload_putMessage (by omega) (by omega)

/-- The step lemma: a round of the loop writes its message into the
destination, and leaves what lies before it alone. -/
theorem Converts.message_step (H : Converts S T src room conv)
    (hn : src.length < 2 ^ 32) (hroom : src.length ≤ room) {m : Cmsg}
    {ms : List Cmsg} {off : Nat} {dst : Buf}
    (h : S.LaidOut src.length src off (m :: ms)) (hdst : dst.length = room) :
    ∃ mid, GoesTo (cmsgLoop abi conv src.length src) (some off, dst)
        (startOf (off + S.space m.data.length) ms, mid) ∧
      mid.length = room ∧ T.MessageAt src.length mid off m ∧
      ∀ o j, o + j ≤ off → slice mid o j = slice dst o j := by
  have hnext := h.cmsgNxthdr_eq hn
  obtain ⟨hm, -⟩ := h
  have hbounds := hm.bounds
  have hfits := T.fits
  have hcmsg := T.room
  rw [T.agrees] at hcmsg
  have hsource := S.agrees
  have hconv := H.message hm hdst
  have hwidth : off + T.lenWidth + 8 ≤ dst.length := by omega
  have hdata : off + cmsgLen abi 0 + m.data.length ≤ dst.length := by omega
  refine ⟨_, ?_, (length_putMessage hwidth hdata _ _).trans hdst,
    messageAt_putMessage hn (by omega) hm,
    fun o j hoj => slice_putMessage_before (by omega) hdata hoj⟩
  rw [GoesTo, cmsgLoop, hconv, ok_bind, hnext]
  rfl

/-- The loop over a laid-out source lays the messages out in the
destination, and leaves what lies before them alone. -/
theorem Converts.laidOut (H : Converts S T src room conv)
    (hn : src.length < 2 ^ 32) (hroom : src.length ≤ room) {ms : List Cmsg}
    {off : Nat} {dst : Buf} (h : S.LaidOut src.length src off ms)
    (hdst : dst.length = room) {k : Nat} (hk : ms.length < k) :
    ∃ dst', rounds (cmsgLoop abi conv src.length src) k (startOf off ms, dst)
        = .ok dst' ∧
      dst'.length = room ∧
      T.LaidOut src.length dst' off ms ∧
      ∀ o j, o + j ≤ off → slice dst' o j = slice dst o j := by
  induction ms generalizing off dst k with
  | nil =>
      cases k with
      | zero => exact absurd hk (Nat.not_lt_zero _)
      | succ k => exact ⟨dst, rounds_of_leaves rfl, hdst, h, fun _ _ _ => rfl⟩
  | cons m ms ih =>
      cases k with
      | zero => exact absurd hk (Nat.not_lt_zero _)
      | succ k =>
          obtain ⟨mid, hgo, hlen, hmT, hbefore⟩ := H.message_step hn hroom h hdst
          obtain ⟨hm, hms⟩ := h
          have hspace := hm.len_le_space hn
          rw [Dialect.len] at hspace
          obtain ⟨dst', hrun, hlen', hlaid, hframe⟩ :=
            ih hms hlen (Nat.lt_of_succ_lt_succ hk)
          refine ⟨dst', ?_, hlen', ⟨?_, ?_⟩, ?_⟩
          · rw [startOf, rounds_of_goesTo hgo]
            exact hrun
          · refine hmT.congr ?_ hframe
            rw [len_eq T S, Dialect.len]
            omega
          · rw [space_eq T S]
            exact hlaid
          · intro o j hoj
            rw [hframe o j (by omega), hbefore o j hoj]

/-- So does the conversion from `CMSG_FIRSTHDR` on. -/
theorem Converts.convertCmsgs (H : Converts S T src room conv)
    (hn : src.length < 2 ^ 32) (hroom : src.length ≤ room) {ms : List Cmsg}
    {dst : Buf} (h : S.LaidOut src.length src 0 ms) (hdst : dst.length = room) :
    ∃ dst', convertCmsgs abi conv src.length src dst = .ok dst' ∧
      dst'.length = room ∧ T.LaidOut src.length (dst'.take src.length) 0 ms := by
  have hcount := h.length_le hn
  have hfirst : cmsgFirsthdr src.length = startOf 0 ms := by
    cases ms with
    | nil =>
        have hle : src.length ≤ 0 := h
        exact if_neg (by rw [sizeofCmsghdr]; omega)
    | cons m ms =>
        have hbounds := h.1.bounds
        have hdata := S.dataOff_bounds.1
        exact if_pos (by omega)
  obtain ⟨dst', hrun, hlen, hlaid, -⟩ := H.laidOut hn hroom h hdst
    (show ms.length < src.length + 2 by omega)
  refine ⟨dst', ?_, hlen, hlaid.take⟩
  rw [Libc6Shim.convertCmsgs, hfirst, hrun]

end Converts

/-! ## The two conversions -/

theorem linuxToNativeCmsg_converts {abi : Abi} {src : Buf} {room : Nat}
    (hn : src.length < 2 ^ 32) (hroom : src.length ≤ room) :
    Converts (linuxDialect abi) (returnedDialect abi) src room
      (linuxToNativeCmsg abi src) := by
  refine ⟨fun {off m dst} hm hdst => ?_⟩
  have hpayload := hm.payloadAt_eq
  obtain ⟨hlen, hlevel, htype, -, hle, -⟩ := hm
  rw [Dialect.len_eq_cmsgLen] at hlen hle hpayload
  have hge : cmsgLen abi m.data.length = cmsgLen abi 0 + m.data.length := rfl
  have hzero := cmsgLen_zero abi
  have hlen' : lenAt (linuxCmsgLenWidth abi) src off =
      cmsgLen abi m.data.length := hlen
  have hlevel' : linuxToNativeSockLevel
      (levelAt (linuxCmsgLenWidth abi) src off) =
      .ok ((returnedDialect abi).level m.kind) := by
    rw [show levelAt (linuxCmsgLenWidth abi) src off = _ from hlevel]
    cases m.kind <;> rfl
  -- both kinds have one number under Linux
  have htype' : typeAt (linuxCmsgLenWidth abi) src off = linuxScmRights := by
    rw [show typeAt (linuxCmsgLenWidth abi) src off = _ from htype]
    cases m.kind <;> rfl
  rw [linuxToNativeCmsg_of_fits hn (by omega) (by omega) htype' hlevel'
    (by omega) (by omega), hlen', hpayload, Dialect.len_eq_cmsgLen]
  rfl

theorem nativeToLinuxCmsg_converts {abi : Abi} {src : Buf} {room : Nat}
    (hn : src.length < 2 ^ 32) (hroom : src.length ≤ room) :
    Converts (nativeDialect abi) (linuxDialect abi) src room
      (nativeToLinuxCmsg abi src) := by
  refine ⟨fun {off m dst} hm hdst => ?_⟩
  have hpayload := hm.payloadAt_eq
  obtain ⟨hlen, hlevel, htype, -, hle, -⟩ := hm
  rw [Dialect.len_eq_cmsgLen] at hlen hle hpayload
  have hge : cmsgLen abi m.data.length = cmsgLen abi 0 + m.data.length := rfl
  have hzero := cmsgLen_zero abi
  have hsize := sizeofLinuxCmsghdr_eq abi
  have hw := (linuxCmsgLenWidth_bounds abi).1
  have hnative : sizeofCmsghdr = cmsgLenWidth + 8 := rfl
  have hlen' : lenAt cmsgLenWidth src off = cmsgLen abi m.data.length := hlen
  have hlevel' : nativeToLinuxSockLevel (levelAt cmsgLenWidth src off) =
      .ok ((linuxDialect abi).level m.kind) := by
    rw [show levelAt cmsgLenWidth src off = _ from hlevel]
    cases m.kind <;> rfl
  have htype' : nativeToLinuxCmsgType (levelAt cmsgLenWidth src off)
      (typeAt cmsgLenWidth src off) = .ok ((linuxDialect abi).type m.kind) := by
    rw [show levelAt cmsgLenWidth src off = _ from hlevel,
      show typeAt cmsgLenWidth src off = _ from htype]
    cases m.kind <;> rfl
  rw [nativeToLinuxCmsg_of_fits hn (by omega) (by omega) hlevel' htype'
    (by omega) (by omega) (by omega), hlen', hpayload, Dialect.len_eq_cmsgLen]
  rfl

/-- No control bytes hold no messages. -/
theorem Dialect.LaidOut.eq_nil {abi : Abi} {D : Dialect abi} {b : Buf}
    {ms : List Cmsg} (h : D.LaidOut 0 b 0 ms) : ms = [] := by
  have hcount := h.length_le (by decide)
  exact List.length_eq_zero_iff.mp (by omega)

section MsgControl

variable {abi : Abi} {mem : Mem} {msg : NativeMsghdr} {linuxMsg : LinuxMsghdr}
  {ms : List Cmsg}

theorem linuxToNativeMsgControl_of_laidOut
    (hnative : msg.msgControllen.toNat ≤ (msg.msgControl.getD []).length)
    (hlinux : linuxMsg.msgControllen ≤ (mem.obj linuxMsg.msgControl).length)
    (hle : linuxMsg.msgControllen ≤ msg.msgControllen.toNat)
    (h : (linuxDialect abi).LaidOut linuxMsg.msgControllen
      ((mem.obj linuxMsg.msgControl).take linuxMsg.msgControllen) 0 ms) :
    ∃ msg', linuxToNativeMsgControl abi mem msg linuxMsg = .ok msg' ∧
      msg'.msgControllen.toNat = linuxMsg.msgControllen ∧
      nativeWalk abi ((msg'.msgControl.getD []).take linuxMsg.msgControllen) =
        .ok (ms.map (returnedDialect abi).seen) := by
  have hlt := msg.msgControllen.isLt
  rw [linuxToNativeMsgControl]
  by_cases hpos : 0 < linuxMsg.msgControllen
  · have hlen : ((mem.obj linuxMsg.msgControl).take
        linuxMsg.msgControllen).length = linuxMsg.msgControllen := by
      rw [List.length_take]; omega
    generalize (mem.obj linuxMsg.msgControl).take linuxMsg.msgControllen = src
      at hlen h ⊢
    rw [if_pos hpos, require_of hle, ok_bind, ← hlen]
    rw [← hlen] at h
    have H : Converts (linuxDialect abi) (returnedDialect abi) src
        (msg.msgControl.getD []).length (linuxToNativeCmsg abi src) :=
      linuxToNativeCmsg_converts (by omega) (by omega)
    obtain ⟨dst', hconv, hdst', h'⟩ := H.convertCmsgs (by omega) (by omega) h rfl
    simp only [hconv, ok_bind]
    refine ⟨_, rfl, Nat.mod_eq_of_lt (by omega), ?_⟩
    rw [Option.getD_some, nativeWalk, Dialect.walk, ← walkFrom_returned]
    exact Dialect.walk_of_laidOut (fun c => cmsgNxthdr abi c.length c)
      (by omega) (by omega) (fun hn _ _ _ hlaid => hlaid.cmsgNxthdr_eq hn) h'
  · have hzero : linuxMsg.msgControllen = 0 := by omega
    rw [hzero] at h ⊢
    rw [h.eq_nil]
    exact ⟨_, rfl, rfl, rfl⟩

/-- Messages that are all descriptors are written as FreeBSD has them. -/
theorem map_returned_seen (hkind : ∀ m ∈ ms, m.kind = .rights) :
    ms.map (returnedDialect abi).seen = ms.map (nativeDialect abi).seen := by
  refine List.map_congr_left fun m hm => ?_
  rw [Dialect.seen, Dialect.seen, hkind m hm]
  rfl

theorem nativeToLinuxMsgControl_of_laidOut
    (hnative : msg.msgControllen.toNat ≤ (msg.msgControl.getD []).length)
    (hlinux : linuxMsg.msgControllen ≤ (mem.obj linuxMsg.msgControl).length)
    (hle : msg.msgControllen.toNat ≤ linuxMsg.msgControllen)
    (h : (nativeDialect abi).LaidOut msg.msgControllen.toNat
      ((msg.msgControl.getD []).take msg.msgControllen.toNat) 0 ms) :
    ∃ mem' linuxMsg',
      nativeToLinuxMsgControl abi mem linuxMsg msg = .ok (mem', linuxMsg') ∧
      linuxMsg'.msgControllen = msg.msgControllen.toNat ∧
      msg.msgControllen.toNat ≤ (mem'.obj linuxMsg'.msgControl).length ∧
      (linuxDialect abi).LaidOut msg.msgControllen.toNat
        ((mem'.obj linuxMsg'.msgControl).take msg.msgControllen.toNat) 0 ms := by
  have hlt := msg.msgControllen.isLt
  rw [nativeToLinuxMsgControl]
  by_cases hpos : 0 < msg.msgControllen.toNat
  · have hlen : ((msg.msgControl.getD []).take
        msg.msgControllen.toNat).length = msg.msgControllen.toNat := by
      rw [List.length_take]; omega
    generalize (msg.msgControl.getD []).take msg.msgControllen.toNat = src
      at hlen h ⊢
    rw [if_pos hpos, require_of hle, ok_bind, ← hlen]
    rw [← hlen] at h
    have H : Converts (nativeDialect abi) (linuxDialect abi) src
        (mem.obj linuxMsg.msgControl).length (nativeToLinuxCmsg abi src) :=
      nativeToLinuxCmsg_converts (by omega) (by omega)
    obtain ⟨dst', hconv, hdst', h'⟩ := H.convertCmsgs (by omega) (by omega) h rfl
    simp only [hconv, ok_bind]
    -- control bytes there are, so the caller's array is an object
    have hne : linuxMsg.msgControl ≠ null := by
      intro hnull
      rw [hnull, mem.obj_null] at hlinux
      exact absurd hlinux (by simp only [List.length_nil]; omega)
    refine ⟨_, _, rfl, rfl, ?_⟩
    rw [Mem.obj_update_self hne]
    exact ⟨by omega, h'⟩
  · have hzero : msg.msgControllen.toNat = 0 := by omega
    rw [hzero] at h ⊢
    rw [h.eq_nil]
    exact ⟨_, _, rfl, rfl, Nat.zero_le _, Nat.le_refl 0⟩

/-- Linux reads a laid-out array back. -/
theorem linuxWalk_of_laidOut {n : Nat} {b : Buf} (hn : n < 2 ^ 32)
    (hle : n ≤ b.length) (h : (linuxDialect abi).LaidOut n (b.take n) 0 ms) :
    linuxWalk abi (b.take n) = .ok (ms.map (linuxDialect abi).seen) :=
  Dialect.walk_of_laidOut (fun c => linuxCmsgNxthdr abi c.length c) hn hle
    (fun hn _ _ _ hlaid => hlaid.linuxCmsgNxthdr_eq hn) h

end MsgControl

/-- Control messages survive both conversions: a buffer laid out by one
system's rules is read back by the other's macros as the same messages.
The hypotheses are the asserted capacity, and that each array is as long as
the length that comes with it. -/
theorem controlMessages_survive (abi : Abi) (mem : Mem) (msg : NativeMsghdr)
    (linuxMsg : LinuxMsghdr) (ms : List Cmsg)
    (hnative : msg.msgControllen.toNat ≤ (msg.msgControl.getD []).length)
    (hlinux : linuxMsg.msgControllen ≤ (mem.obj linuxMsg.msgControl).length) :
    (linuxMsg.msgControllen ≤ msg.msgControllen.toNat →
      (∀ m ∈ ms, m.kind = .rights) →
      (linuxDialect abi).LaidOut linuxMsg.msgControllen
        ((mem.obj linuxMsg.msgControl).take linuxMsg.msgControllen) 0 ms →
      ∃ msg', linuxToNativeMsgControl abi mem msg linuxMsg = .ok msg' ∧
        msg'.msgControllen.toNat = linuxMsg.msgControllen ∧
        nativeWalk abi
            ((msg'.msgControl.getD []).take linuxMsg.msgControllen) =
          .ok (ms.map (nativeDialect abi).seen)) ∧
    (msg.msgControllen.toNat ≤ linuxMsg.msgControllen →
      (nativeDialect abi).LaidOut msg.msgControllen.toNat
        ((msg.msgControl.getD []).take msg.msgControllen.toNat) 0 ms →
      ∃ mem' linuxMsg',
        nativeToLinuxMsgControl abi mem linuxMsg msg = .ok (mem', linuxMsg') ∧
        linuxMsg'.msgControllen = msg.msgControllen.toNat ∧
        linuxWalk abi
            ((mem'.obj linuxMsg'.msgControl).take msg.msgControllen.toNat) =
          .ok (ms.map (linuxDialect abi).seen)) := by
  refine ⟨fun hle hkind h => ?_, fun hle h => ?_⟩
  · rw [← map_returned_seen hkind]
    exact linuxToNativeMsgControl_of_laidOut hnative hlinux hle h
  · obtain ⟨mem', linuxMsg', hconv, hlen, hroom, hlaid⟩ :=
      nativeToLinuxMsgControl_of_laidOut hnative hlinux hle h
    exact ⟨mem', linuxMsg', hconv, hlen,
      linuxWalk_of_laidOut msg.msgControllen.isLt hroom hlaid⟩

/-- Two messages with payloads of four and one bytes, as Linux lays them out
on amd64: `pad` behind the first, nothing behind the second. -/
def linuxPair (pad : Buf) : Buf :=
  leBytes 8 20 ++ leBytes 4 linuxSolSocket.toNat ++
    leBytes 4 linuxScmRights.toNat ++ leBytes 4 7 ++ pad ++
  leBytes 8 17 ++ leBytes 4 linuxSolSocket.toNat ++
    leBytes 4 linuxScmRights.toNat ++ [9]

/-- A message of each kind, as FreeBSD lays them out on i386. -/
def nativePair : Buf :=
  leBytes 4 13 ++ leBytes 4 ipprotoIp.toNat ++ leBytes 4 ipRecvtos.toNat ++
    [16, 0xaa, 0xbb, 0xcc] ++
  leBytes 4 16 ++ leBytes 4 solSocket.toNat ++ leBytes 4 scmRights.toNat ++
    leBytes 4 7

theorem pairs_survive :
    (∃ msg', linuxToNativeMsgControl .amd64
          (.only 1 (linuxPair [1, 2, 3, 4])) (.ofControl (.replicate 41 0))
          (.ofControl 1 41) = .ok msg' ∧
        msg'.msgControllen.toNat = 41 ∧
        nativeWalk .amd64 ((msg'.msgControl.getD []).take 41) =
          .ok [⟨20, solSocket, scmRights, leBytes 4 7⟩,
            ⟨17, solSocket, scmRights, [9]⟩]) ∧
    (∃ mem' linuxMsg',
        nativeToLinuxMsgControl .i386 (.only 1 (.replicate 40 0xff))
          (.ofControl 1 40) (.ofControl nativePair) = .ok (mem', linuxMsg') ∧
        linuxMsg'.msgControllen = 32 ∧
        linuxWalk .i386 ((mem'.obj linuxMsg'.msgControl).take 32) =
          .ok [⟨13, linuxSolIp, linuxIpTos, [16]⟩,
            ⟨16, linuxSolSocket, linuxScmRights, leBytes 4 7⟩]) := by
  have hout := controlMessages_survive .amd64 (.only 1 (linuxPair [1, 2, 3, 4]))
    (.ofControl (.replicate 41 0)) (.ofControl 1 41)
    [⟨.rights, leBytes 4 7⟩, ⟨.rights, [9]⟩] (by decide) (by decide)
  have hin := controlMessages_survive .i386 (.only 1 (.replicate 40 0xff))
    (.ofControl nativePair) (.ofControl 1 40)
    [⟨.tos, [16]⟩, ⟨.rights, leBytes 4 7⟩] (by decide) (by decide)
  exact ⟨hout.1 (by decide) (by decide) (by decide),
    hin.2 (by decide) (by decide)⟩

end Libc6Shim
