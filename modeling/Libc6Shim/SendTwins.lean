import Libc6Shim.RecvTwins
import Libc6Shim.UnixAddr

/-!
# Sending with a destination, or without

Linux code may send through `sendto` or through `sendmsg`, and the shim
converts the destination in each on its own. Where there is one, both paths
store the same bytes (`IsDestination.converts`): all of an AF_INET or AF_INET6
address, and of an AF_UNIX address all up to the NUL of its path, behind which
lies whatever the two stacks hold. Where there is none, `sendmsg` is `send`
and `sendto` reads through a null pointer (`sendto_sendmsg_iff`).
-/

namespace Libc6Shim

open CSem Buf Outcome Routine

/-! ## What a destination is stored as -/

/-- The path a Linux AF_UNIX address is given on the native side. -/
def sunPathOf (buf : Buf) : Buf :=
  if slice buf 2 1 = [0] then
    lit "/var/run/" ++
      ((buf.drop 3).takeWhile (· ≠ 0)).take UnixAddr.abstractRoom
  else (buf.drop 2).takeWhile (· ≠ 0)

theorem UnixAddr.nativePath_eq (a : UnixAddr) (tail : Buf) :
    a.nativePath tail = sunPathOf (a.bytes ++ tail) := by
  have hthree := a.three_le
  have hfirst : slice (a.bytes ++ tail) 2 1 = slice a.bytes 2 1 := by
    rw [← slice_take (show 2 + 1 ≤ a.bytes.length by omega), List.take_left]
  rw [nativePath, sunPathOf, hfirst, scanned, nameOff]
  by_cases habs : slice a.bytes 2 1 = [0]
  · have habs' : a.Abstract := habs
    rw [if_pos habs', if_pos habs', if_pos habs]
  · have habs' : ¬a.Abstract := habs
    rw [if_neg habs', if_neg habs', if_neg habs]

section Stored

variable {dest src : Buf}

/-- The length byte and the family. -/
theorem store_header (hd : 2 ≤ dest.length) (family : UInt8)
    (k : Buf → Outcome Buf) :
    (dest.store 0 [0] >>= fun d => d.store 1 [family] >>= k) =
      k (patch dest 0 [0, family]) := by
  have hlen := length_patch (show 0 + [(0 : UInt8)].length ≤ dest.length by
    rw [List.length_singleton]; omega)
  have happ : patch (patch dest 0 [0]) 1 [family] = patch dest 0 [0, family] :=
    patch_patch_append (show 0 + 1 + 1 ≤ dest.length by omega)
  have hone : (patch dest 0 [0]).store 1 [family] =
      .ok (patch dest 0 [0, family]) :=
    (store_of (by rw [hlen, List.length_singleton]; omega)).trans
      (congrArg Except.ok happ)
  rw [store_of (by rw [List.length_singleton]; omega), ok_bind, hone, ok_bind]

/-- A field copied behind what was stored from the start. -/
theorem copy_behind {xs : Buf} {off n : Nat} (hoff : xs.length = off)
    (hs : off + n ≤ src.length) (hd : off + n ≤ dest.length)
    (k : Buf → Outcome Buf) :
    (src.load off n >>= fun x => (patch dest 0 xs).store off x >>= k) =
      k (patch dest 0 (xs ++ slice src off n)) := by
  have hfield : (slice src off n).length = n := length_slice hs
  have hlen := length_patch (b := dest) (show 0 + xs.length ≤ dest.length by omega)
  have happ := patch_patch_append (show 0 + xs.length +
    (slice src off n).length ≤ dest.length by omega)
  rw [Nat.zero_add, hoff] at happ
  rw [load_of (.inr hs), ok_bind, store_of (by omega), happ, ok_bind]

/-- The native form of an AF_INET address: all of its bytes are stored. -/
def sockaddrIn (src : Buf) : Buf :=
  [0, 2] ++ slice src 2 2 ++ slice src 4 4 ++ slice src 8 8

/-- The native form of an AF_INET6 address. -/
def sockaddrIn6 (src : Buf) : Buf :=
  [0, 28] ++ slice src 2 2 ++ slice src 4 4 ++ slice src 8 16 ++ slice src 24 4

theorem linuxToNativeSockaddrIn_eq (hd : sizeofSockaddrIn ≤ dest.length)
    (hs : sizeofSockaddrIn ≤ src.length) :
    (sockaddrIn src).length = sizeofSockaddrIn ∧
      linuxToNativeSockaddrIn dest src = .ok (patch dest 0 (sockaddrIn src)) := by
  have hsize : sizeofSockaddrIn = 16 := rfl
  have hfam : leBytes 1 pfInet.toNat = [2] := by decide
  have h0 : ([0, 2] : Buf).length = 2 := rfl
  have h2 : ([0, 2] ++ slice src 2 2).length = 4 := by
    rw [List.length_append, length_slice (by omega)]
    rfl
  have h4 : ([0, 2] ++ slice src 2 2 ++ slice src 4 4).length = 8 := by
    rw [List.length_append, h2, length_slice (by omega)]
  have h8 : (sockaddrIn src).length = sizeofSockaddrIn := by
    rw [sockaddrIn, List.length_append, h4, length_slice (by omega), hsize]
  refine ⟨h8, ?_⟩
  have hlast := copy_behind h4 (show 8 + 8 ≤ src.length by omega)
    (show 8 + 8 ≤ dest.length by omega) .ok
  rw [linuxToNativeSockaddrIn, hfam, store_header (by omega),
    copy_behind h0 (by omega) (by omega),
    copy_behind h2 (by omega) (by omega)]
  exact (congrArg (Bind.bind _) (funext fun x => (bind_pure _).symm)).trans hlast

theorem linuxToNativeSockaddrIn6_eq (hd : sizeofSockaddrIn6 ≤ dest.length)
    (hs : sizeofSockaddrIn6 ≤ src.length) :
    (sockaddrIn6 src).length = sizeofSockaddrIn6 ∧
      linuxToNativeSockaddrIn6 dest src =
        .ok (patch dest 0 (sockaddrIn6 src)) := by
  have hsize : sizeofSockaddrIn6 = 28 := rfl
  have hfam : leBytes 1 pfInet6.toNat = [28] := by decide
  have h0 : ([0, 28] : Buf).length = 2 := rfl
  have h2 : ([0, 28] ++ slice src 2 2).length = 4 := by
    rw [List.length_append, length_slice (by omega)]
    rfl
  have h4 : ([0, 28] ++ slice src 2 2 ++ slice src 4 4).length = 8 := by
    rw [List.length_append, h2, length_slice (by omega)]
  have h8 : ([0, 28] ++ slice src 2 2 ++ slice src 4 4 ++
      slice src 8 16).length = 24 := by
    rw [List.length_append, h4, length_slice (by omega)]
  have h24 : (sockaddrIn6 src).length = sizeofSockaddrIn6 := by
    rw [sockaddrIn6, List.length_append, h8, length_slice (by omega), hsize]
  refine ⟨h24, ?_⟩
  have hlast := copy_behind h8 (show 24 + 4 ≤ src.length by omega)
    (show 24 + 4 ≤ dest.length by omega) .ok
  rw [linuxToNativeSockaddrIn6, hfam, store_header (by omega),
    copy_behind h0 (by omega) (by omega),
    copy_behind h2 (by omega) (by omega), copy_behind h4 (by omega) (by omega)]
  exact (congrArg (Bind.bind _) (funext fun x => (bind_pure _).symm)).trans hlast

/-- The native form of an AF_UNIX address, as far as it is stored. -/
def sockaddrUnHead (path : Buf) : Buf := [0, 1] ++ (path ++ [0])

theorem length_sockaddrUnHead (path : Buf) :
    (sockaddrUnHead path).length = 3 + path.length := by
  rw [sockaddrUnHead, List.length_append, List.length_append,
    List.length_singleton, List.length_cons, List.length_singleton]
  omega

theorem sockaddrUn_eq (hd : sizeofSockaddrUn ≤ dest.length) {path : Buf}
    (hfits : path.length < sunPathSize) :
    sockaddrUn dest path = patch dest 0 (sockaddrUnHead path) := by
  have hsize : sizeofSockaddrUn = 2 + sunPathSize := rfl
  have hhead : patch (patch dest 0 [0]) 1 [1] = patch dest 0 ([0] ++ [1]) :=
    patch_patch_append (show 0 + 1 + 1 ≤ dest.length by omega)
  have hpath : patch (patch dest 0 ([0] ++ [1])) 2 (path ++ [0]) =
      patch dest 0 ([0] ++ [1] ++ (path ++ [0])) :=
    patch_patch_append (show 0 + 2 + (path ++ [0]).length ≤ dest.length by
      rw [List.length_append, List.length_singleton]; omega)
  rw [sockaddrUn]
  exact (congrArg (patch · 2 (path ++ [0])) hhead).trans hpath

/-- An AF_UNIX address whose name holds a NUL is stored whole, unless it is a
pathname too long for the native structure. -/
theorem UnixAddr.linuxToNativeSockaddrUn_eq
    (hd : sizeofSockaddrUn ≤ dest.length) (a : UnixAddr) (tail : Buf)
    (hnul : 0 ∈ a.bytes.drop a.nameOff) :
    linuxToNativeSockaddrUn dest (a.bytes ++ tail) = (do
      require ((sunPathOf (a.bytes ++ tail)).length < sunPathSize)
      return patch dest 0 (sockaddrUnHead (sunPathOf (a.bytes ++ tail)))) := by
  have hthree := a.three_le
  have hfirst : (a.bytes ++ tail).load 2 1 = .ok (slice a.bytes 2 1) := by
    rw [load_of (.inr (by rw [List.length_append]; omega)),
      ← slice_take (show 2 + 1 ≤ a.bytes.length by omega), List.take_left]
  have hmem : 0 ∈ (a.bytes ++ tail).drop a.nameOff := by
    rw [List.drop_append_of_le_length a.nameOff_le]
    exact List.mem_append_left _ hnul
  have hpath := a.nativePath_eq tail
  rw [nativePath, scanned] at hpath
  by_cases habs : a.Abstract
  · rw [nameOff, if_pos habs] at hmem
    rw [if_pos habs, nameOff, if_pos habs] at hpath
    have hfits : (sunPathOf (a.bytes ++ tail)).length < sunPathSize := by
      have hprefix : (lit "/var/run/").length = 9 := by decide
      have hroom : abstractRoom = 94 := by decide
      have hsize : sunPathSize = 104 := rfl
      rw [← hpath, List.length_append, List.length_take]
      omega
    have htake : (lit "/var/run/" ++
        ((a.bytes ++ tail).drop 3).takeWhile (· ≠ 0)).take (sunPathSize - 1) =
          sunPathOf (a.bytes ++ tail) := by
      rw [← hpath, List.take_append]
      rfl
    rw [linuxToNativeSockaddrUn_abstract hd (habs ▸ hfirst), cstrAt_of_mem hmem,
      ok_bind, htake, sockaddrUn_eq hd hfits, require_of hfits]
    rfl
  · rw [nameOff, if_neg habs] at hmem
    rw [if_neg habs, nameOff, if_neg habs] at hpath
    rw [linuxToNativeSockaddrUn_pathname hd hfirst habs, cstrAt_of_mem hmem,
      ok_bind, hpath]
    by_cases hfits : (sunPathOf (a.bytes ++ tail)).length < sunPathSize
    · rw [require_of hfits, ok_bind, ok_bind, sockaddrUn_eq hd hfits]
    · rw [require_of_not hfits]
      rfl

/-- Two objects patched alike are the same as far as they were the same
behind the patch. -/
theorem patch_eq_take_patch_iff {d d' xs : Buf} {n : Nat} (hxs : xs.length ≤ n) :
    patch d 0 xs = (patch d' 0 xs).take n ↔
      d.drop xs.length = (d'.take n).drop xs.length := by
  have hself : patch d 0 xs = xs ++ d.drop xs.length := by
    rw [patch, List.take_zero, List.nil_append, Nat.zero_add]
  rw [hself, take_patch_start hxs, List.append_cancel_left_eq]

end Stored

/-! ## Destinations -/

/-- An address that Linux takes, with its length: the fixed one of its
family, or - for AF_UNIX - one within which the name ends with a NUL. -/
inductive IsDestination (buf : Buf) (tolen : Nat) : Prop where
  | inet (family : linuxSaFamily buf = .ok linuxPfInet)
      (len : tolen = sizeofSockaddrIn) (room : tolen ≤ buf.length)
  | inet6 (family : linuxSaFamily buf = .ok linuxPfInet6)
      (len : tolen = sizeofSockaddrIn6) (room : tolen ≤ buf.length)
  | unix (a : UnixAddr) (tail : Buf) (bytes : buf = a.bytes ++ tail)
      (len : tolen = a.bytes.length) (nul : 0 ∈ a.bytes.drop a.nameOff)

/-- Both paths store the same bytes `stored` of a destination over what is
in their own memory, if they store any, and hand down the same length. -/
structure StoredAs (stack stack' : Stack) (buf : Buf) (tolen size : Nat)
    (stored : Outcome Buf) : Prop where
  le : size ≤ sizeofSockaddrStorage
  sendto : nativeAddrOf stack buf tolen =
    stored >>= fun xs => .ok (patch (stack.bytes size) 0 xs)
  sendmsg : linuxToNativeSockaddr (stack'.bytes sizeofSockaddrStorage)
      sizeofSockaddrStorage buf =
    stored >>= fun xs =>
      .ok (patch (stack'.bytes sizeofSockaddrStorage) 0 xs, size)

/-- What two paths leave in memory behind the path of an AF_UNIX address is
the same. -/
def TailsAgree (stack stack' : Stack) (buf : Buf) : Prop :=
  linuxSaFamily buf = .ok linuxPfUnix →
    (stack.bytes sizeofSockaddrUn).drop (3 + (sunPathOf buf).length) =
      ((stack'.bytes sizeofSockaddrStorage).take sizeofSockaddrUn).drop
        (3 + (sunPathOf buf).length)

/-- Where all of an address is stored, nothing is left behind it, and only an
AF_UNIX address has a tail. -/
theorem storedWhole (stack stack' : Stack) {buf xs : Buf} {family : Word}
    {size : Nat} (hfamily : linuxSaFamily buf = .ok family)
    (hunix : family ≠ linuxPfUnix) (hxs : xs.length = size)
    (hsize : size ≤ sizeofSockaddrStorage) :
    (∀ x, Except.ok xs = (.error x : Outcome Buf) →
        TailsAgree stack stack' buf) ∧
      ∀ ys, Except.ok xs = (.ok ys : Outcome Buf) → ys.length ≤ size ∧
        ((stack.bytes size).drop ys.length =
            ((stack'.bytes sizeofSockaddrStorage).take size).drop ys.length ↔
          TailsAgree stack stack' buf) := by
  have hlen := stack.length_bytes size
  have hlen' := stack'.length_bytes sizeofSockaddrStorage
  refine ⟨nofun, fun ys hys => ?_⟩
  cases hys
  refine ⟨hxs.le, iff_of_true ?_ fun h => ?_⟩
  · rw [List.drop_eq_nil_of_le (by omega), List.drop_eq_nil_of_le (by
      rw [List.length_take]; omega)]
  · rw [hfamily] at h
    exact absurd (Except.ok.inj h) hunix

/-- Destinations are converted alike: all of an AF_INET or AF_INET6 address is
stored, of an AF_UNIX address all up to the NUL of its path. -/
theorem IsDestination.converts {buf : Buf} {tolen : Nat}
    (hto : IsDestination buf tolen) (stack stack' : Stack) :
    ∃ size stored, StoredAs stack stack' buf tolen size stored ∧
      (∀ x, stored = .error x → TailsAgree stack stack' buf) ∧
      ∀ xs, stored = .ok xs → xs.length ≤ size ∧
        ((stack.bytes size).drop xs.length =
            ((stack'.bytes sizeofSockaddrStorage).take size).drop xs.length ↔
          TailsAgree stack stack' buf) := by
  have hstorage := stack'.length_bytes sizeofSockaddrStorage
  have hsize : sizeofSockaddrStorage = 128 := rfl
  cases hto with
  | inet family len room =>
      subst len
      have hin : sizeofSockaddrIn = 16 := rfl
      have hlen := stack.length_bytes sizeofSockaddrIn
      have hto := linuxToNativeSockaddrIn_eq hlen.ge room
      have hmsg := linuxToNativeSockaddrIn_eq
        (show sizeofSockaddrIn ≤ (stack'.bytes sizeofSockaddrStorage).length by
          omega) room
      refine ⟨sizeofSockaddrIn, .ok (sockaddrIn buf), ⟨by omega, ?_, ?_⟩,
        storedWhole stack stack' family (by decide) hto.1 (by omega)⟩
      · rw [nativeAddrOf, family, ok_bind, if_neg (by decide), if_pos rfl,
          require_of rfl, ok_bind, hto.2]
        rfl
      · rw [linuxToNativeSockaddr, family, ok_bind, if_neg (by decide),
          if_pos rfl, require_of (by omega), ok_bind, hmsg.2]
        rfl
  | inet6 family len room =>
      subst len
      have hin : sizeofSockaddrIn6 = 28 := rfl
      have hlen := stack.length_bytes sizeofSockaddrIn6
      have hto := linuxToNativeSockaddrIn6_eq hlen.ge room
      have hmsg := linuxToNativeSockaddrIn6_eq
        (show sizeofSockaddrIn6 ≤ (stack'.bytes sizeofSockaddrStorage).length by
          omega) room
      refine ⟨sizeofSockaddrIn6, .ok (sockaddrIn6 buf), ⟨by omega, ?_, ?_⟩,
        storedWhole stack stack' family (by decide) hto.1 (by omega)⟩
      · rw [nativeAddrOf, family, ok_bind, if_neg (by decide),
          if_neg (by decide), if_pos rfl, require_of rfl, ok_bind, hto.2]
        rfl
      · rw [linuxToNativeSockaddr, family, ok_bind, if_neg (by decide),
          if_neg (by decide), if_pos rfl, require_of (by omega), ok_bind,
          hmsg.2]
        rfl
  | unix a tail bytes len nul =>
      subst bytes len
      have hun : sizeofSockaddrUn = 2 + sunPathSize := rfl
      have hpath : sunPathSize = 104 := rfl
      have hlen := stack.length_bytes sizeofSockaddrUn
      have family := a.family_append tail
      have hto := a.linuxToNativeSockaddrUn_eq hlen.ge tail nul
      have hmsg := a.linuxToNativeSockaddrUn_eq
        (show sizeofSockaddrUn ≤ (stack'.bytes sizeofSockaddrStorage).length by
          omega) tail nul
      refine ⟨sizeofSockaddrUn, do
        require ((sunPathOf (a.bytes ++ tail)).length < sunPathSize)
        return sockaddrUnHead (sunPathOf (a.bytes ++ tail)), ⟨by omega, ?_, ?_⟩,
        ?_, ?_⟩
      · rw [nativeAddrOf, family, ok_bind, if_pos rfl, require_of a.le_size,
          ok_bind, hto, bind_assoc]
        rfl
      · rw [linuxToNativeSockaddr, family, ok_bind, if_pos rfl,
          require_of (by omega), ok_bind, hmsg, bind_assoc, bind_assoc]
        rfl
      · intro x hx _
        have hlong : ¬(sunPathOf (a.bytes ++ tail)).length < sunPathSize := by
          intro hfits
          rw [require_of hfits] at hx
          cases hx
        rw [List.drop_eq_nil_of_le (by omega), List.drop_eq_nil_of_le (by
          rw [List.length_take]; omega)]
      · intro xs hxs
        obtain ⟨_, hfits, hxs⟩ := bind_eq_ok.mp hxs
        cases hxs
        have hfits := require_eq_ok.mp hfits
        rw [length_sockaddrUnHead]
        exact ⟨by omega, fun h _ => h, fun h => h family⟩

/-! ## `send`, `sendto` and `sendmsg` -/

/-- What a send hands to the native layer. -/
structure Sent where
  s : Word
  /-- The pieces of the data, by address and length. -/
  data : List (Ptr × Nat)
  flags : Word
  dest : Option Buf
  control : Option Buf

/-- The three calls as the one operation they are, where `iov` says what is
in an array of iovecs. -/
def SockCall.sent? (iov : Ptr → Nat → List (Ptr × Nat)) :
    SockCall → Option Sent
  | .send s msg len flags => some ⟨s, [(msg, len)], flags, none, none⟩
  | .sendto s msg len flags addr => some ⟨s, [(msg, len)], flags, some addr, none⟩
  | .sendmsg s msg flags =>
      some ⟨s, iov msg.msgIov msg.msgIovlen, flags,
        msg.msgName.map (·.take msg.msgNamelen), msg.msgControl⟩
  | _ => none

/-- The native layer answers the three calls by what they send. -/
structure SendLibrary (iov : Ptr → Nat → List (Ptr × Nat))
    (h : (c : SockCall) → Except Errno (SockAnswer c))
    (answer : Sent → Except Errno Nat) : Prop where
  send : ∀ s msg len flags,
    h (.send s msg len flags) = answer ⟨s, [(msg, len)], flags, none, none⟩
  sendto : ∀ s msg len flags addr, h (.sendto s msg len flags addr) =
    answer ⟨s, [(msg, len)], flags, some addr, none⟩
  sendmsg : ∀ s (msg : NativeMsghdr) flags, h (.sendmsg s msg flags) =
    answer ⟨s, iov msg.msgIov msg.msgIovlen, flags,
      msg.msgName.map (·.take msg.msgNamelen), msg.msgControl⟩

/-- A message of one iovec and no control data. -/
def oneIovec (linuxTo : Ptr) (tolen : Nat) (iov control : Ptr) (msgFlags : Word) :
    LinuxMsghdr :=
  ⟨linuxTo, tolen, iov, 1, control, 0, msgFlags⟩

/-- `sendto` and `sendmsg` are one operation, and without a destination both
are `send`. -/
def OneOperation (iov : Ptr → Nat → List (Ptr × Nat))
    (h : (c : SockCall) → Except Errno (SockAnswer c)) (e : Errno) (linuxTo : Ptr)
    (sendto sendmsg send : SockRoutine (Option Nat)) : Prop :=
  Alike (SockCall.sent? iov) h e sendto sendmsg ∧
    (linuxTo = null → Alike (SockCall.sent? iov) h e sendto send ∧
      Alike (SockCall.sent? iov) h e sendmsg send)

section Send

variable {iov : Ptr → Nat → List (Ptr × Nat)}
  {h : (c : SockCall) → Except Errno (SockAnswer c)}
  {answer : Sent → Except Errno Nat} {abi : Abi} {mem : Mem}
  {stack stack' : Stack} {s linuxFlags msgFlags : Word}
  {msg linuxTo iovec control : Ptr} {len tolen : Nat} {e : Errno}

/-- The message `sendmsg` hands down: one iovec, no control data. -/
def nativeOneIovec (name : Option Buf) (namelen : Nat) (iovec : Ptr) :
    NativeMsghdr :=
  ⟨name, namelen, iovec, 1, none, 0, 0⟩

theorem shimSendmsg_unnamed (hknown : linuxFlags &&& ~~~knownLinuxMsgFlags = 0) :
    shimSendmsg abi stack mem s (oneIovec null tolen iovec control msgFlags)
        linuxFlags =
      callNative (.sendmsg s (nativeOneIovec none 0 iovec)
        (setFlags 0 msgFlagPairs linuxFlags)) >>= translateErrno := by
  simp only [shimSendmsg, oneIovec, linuxToNativeMsgFlags, require_of hknown]
  rfl

theorem shimSendmsg_named (hto : linuxTo ≠ null)
    (hknown : linuxFlags &&& ~~~knownLinuxMsgFlags = 0) :
    shimSendmsg abi stack mem s (oneIovec linuxTo tolen iovec control msgFlags)
        linuxFlags = (do
      let (name, namelen) ← linuxToNativeSockaddr
        (stack.bytes sizeofSockaddrStorage) sizeofSockaddrStorage (mem.obj linuxTo)
      callNative (.sendmsg s (nativeOneIovec (some name) namelen iovec)
        (setFlags 0 msgFlagPairs linuxFlags)) >>= translateErrno) := by
  simp only [shimSendmsg, oneIovec, linuxToNativeMsgFlags, require_of hknown,
    ne_eq, hto, not_false_eq_true, if_true]
  generalize linuxToNativeSockaddr (stack.bytes sizeofSockaddrStorage)
    sizeofSockaddrStorage (mem.obj linuxTo) = converted
  cases converted <;> rfl

theorem shimSend_eq (hknown : linuxFlags &&& ~~~knownLinuxMsgFlags = 0) :
    shimSend s msg len linuxFlags =
      callNative (.send s msg len (setFlags 0 msgFlagPairs linuxFlags)) >>=
        translateErrno := by
  rw [shimSend, linuxToNativeMsgFlags, require_of hknown]
  rfl

theorem shimSendto_eq (hknown : linuxFlags &&& ~~~knownLinuxMsgFlags = 0)
    (buf : Buf) :
    shimSendto stack s msg len linuxFlags buf tolen = (do
      let addr ← nativeAddrOf stack buf tolen
      callNative (.sendto s msg len (setFlags 0 msgFlagPairs linuxFlags) addr) >>=
        translateErrno) := by
  rw [shimSendto, linuxToNativeMsgFlags, require_of hknown]
  rfl

/-- Without a destination `sendmsg` is `send`. -/
theorem sendmsg_unnamed_alike (H : SendLibrary iov h answer)
    (hiov : iov iovec 1 = [(msg, len)])
    (hknown : linuxFlags &&& ~~~knownLinuxMsgFlags = 0) :
    Alike (SockCall.sent? iov) h e
      (shimSendmsg abi stack mem s (oneIovec null tolen iovec control msgFlags)
        linuxFlags)
      (shimSend s msg len linuxFlags) := by
  rw [shimSendmsg_unnamed hknown, shimSend_eq hknown, Alike,
    calls_call_translate, calls_call_translate, run_call_translate,
    run_call_translate, H.sendmsg, H.send]
  simp only [List.map_cons, SockCall.sent?, nativeOneIovec, hiov]
  exact ⟨rfl, rfl⟩

/-- Without one, `sendto` reads an address through the null pointer. -/
theorem sendto_null (hknown : linuxFlags &&& ~~~knownLinuxMsgFlags = 0) :
    calls h (shimSendto stack s msg len linuxFlags (mem.obj null) tolen) e = [] := by
  rw [shimSendto_eq hknown, mem.obj_null, calls_bind]
  rfl

/-- With one, the two calls are alike as far as what they do not store. -/
theorem sendto_alike_sendmsg_iff (H : SendLibrary iov h answer)
    (hiov : iov iovec 1 = [(msg, len)])
    (hknown : linuxFlags &&& ~~~knownLinuxMsgFlags = 0) (hto : linuxTo ≠ null)
    (hdest : IsDestination (mem.obj linuxTo) tolen) :
    Alike (SockCall.sent? iov) h e
        (shimSendto stack s msg len linuxFlags (mem.obj linuxTo) tolen)
        (shimSendmsg abi stack' mem s
          (oneIovec linuxTo tolen iovec control msgFlags) linuxFlags) ↔
      TailsAgree stack stack' (mem.obj linuxTo) := by
  obtain ⟨size, stored, hstored, herr, hok⟩ := hdest.converts stack stack'
  rw [shimSendto_eq hknown, shimSendmsg_named hto hknown, hstored.sendto,
    hstored.sendmsg]
  cases hx : stored with
  | error x => exact iff_of_true ⟨rfl, rfl⟩ (herr x hx)
  | ok xs =>
      obtain ⟨hle, htails⟩ := hok xs hx
      have hsame : patch (stack.bytes size) 0 xs =
          (patch (stack'.bytes sizeofSockaddrStorage) 0 xs).take size ↔ _ :=
        patch_eq_take_patch_iff hle
      rw [← htails, ← hsame]
      change Alike (SockCall.sent? iov) h e
          (callNative (.sendto s msg len (setFlags 0 msgFlagPairs linuxFlags)
            (patch (stack.bytes size) 0 xs)) >>= translateErrno)
          (callNative (.sendmsg s (nativeOneIovec
            (some (patch (stack'.bytes sizeofSockaddrStorage) 0 xs)) size iovec)
            (setFlags 0 msgFlagPairs linuxFlags)) >>= translateErrno) ↔ _
      rw [Alike, calls_call_translate, calls_call_translate, run_call_translate,
        run_call_translate, H.sendto, H.sendmsg]
      simp only [List.map_cons, List.map_nil, SockCall.sent?, nativeOneIovec,
        hiov, Option.map_some]
      constructor
      · rintro ⟨hcalls, -⟩
        simpa using hcalls
      · intro hbytes
        rw [hbytes]
        exact ⟨rfl, rfl⟩

/-- The two spellings of a send are one operation exactly when there is a
destination, and what lies behind its path, if it has one, is the same. -/
theorem sendto_sendmsg_iff (H : SendLibrary iov h answer)
    (hiov : iov iovec 1 = [(msg, len)])
    (hknown : linuxFlags &&& ~~~knownLinuxMsgFlags = 0)
    (hdest : linuxTo = null ∧ tolen = 0 ∨
      linuxTo ≠ null ∧ IsDestination (mem.obj linuxTo) tolen) (e : Errno) :
    OneOperation iov h e linuxTo
        (shimSendto stack s msg len linuxFlags (mem.obj linuxTo) tolen)
        (shimSendmsg abi stack' mem s
          (oneIovec linuxTo tolen iovec control msgFlags) linuxFlags)
        (shimSend s msg len linuxFlags) ↔
      linuxTo ≠ null ∧ TailsAgree stack stack' (mem.obj linuxTo) := by
  rcases hdest with ⟨rfl, -⟩ | ⟨hto, hdest⟩
  · refine iff_of_false (fun hone => ?_) fun h => h.1 rfl
    have hcalls := hone.1.1
    rw [sendto_null hknown, shimSendmsg_unnamed hknown,
      calls_call_translate] at hcalls
    cases hcalls
  · rw [OneOperation, sendto_alike_sendmsg_iff H hiov hknown hto hdest]
    exact ⟨fun h => ⟨hto, h.1⟩, fun h => ⟨h.2, fun hnull => absurd hnull hto⟩⟩

end Send

/-- Nothing is lost on the way but the bytes behind the path: both native
addresses name what is asked for. -/
theorem UnixAddr.same_path (a : UnixAddr) (tail : Buf)
    (hnul : 0 ∈ a.bytes.drop a.nameOff) {stack stack' : Stack} {n m : Buf}
    {size : Nat}
    (hn : nativeAddrOf stack (a.bytes ++ tail) a.bytes.length = .ok n)
    (hm : linuxToNativeSockaddr (stack'.bytes sizeofSockaddrStorage)
      sizeofSockaddrStorage (a.bytes ++ tail) = .ok (m, size)) :
    n.cstrAt 2 = .ok (sunPathOf (a.bytes ++ tail)) ∧
      cstrAt (m.take size) 2 = .ok (sunPathOf (a.bytes ++ tail)) := by
  have hstorage := stack'.length_bytes sizeofSockaddrStorage
  have hsize : sizeofSockaddrStorage = 128 := rfl
  have hun : sizeofSockaddrUn = 2 + sunPathSize := rfl
  have hpathsize : sunPathSize = 104 := rfl
  have hpath := a.cstrAt_native stack tail hn
  rw [a.nativePath_eq] at hpath
  rw [linuxToNativeSockaddr, a.family_append, ok_bind, if_pos rfl,
    require_of (by omega), ok_bind,
    a.linuxToNativeSockaddrUn_eq (by omega) tail hnul] at hm
  obtain ⟨m', hm', hpair⟩ := bind_eq_ok.mp hm
  obtain ⟨_, hfits, hstored⟩ := bind_eq_ok.mp hm'
  cases hstored
  cases hpair
  have hfits := require_eq_ok.mp hfits
  have hhead := length_sockaddrUnHead (sunPathOf (a.bytes ++ tail))
  have hcut : ((stack'.bytes sizeofSockaddrStorage).take
      sizeofSockaddrUn).length = sizeofSockaddrUn := by
    rw [List.length_take]
    omega
  have hnot : 0 ∉ sunPathOf (a.bytes ++ tail) := by
    rw [← a.nativePath_eq, nativePath]
    split
    · refine fun hmem => (List.mem_append.mp hmem).elim (by decide) fun hname => ?_
      exact notMem_takeWhile (List.mem_of_mem_take hname)
    · exact notMem_takeWhile
  refine ⟨hpath, ?_⟩
  rw [take_patch_start (by omega), ← cstrAt_sockaddrUn hcut hnot,
    sockaddrUn_eq hcut.ge hfits, patch, List.take_zero, List.nil_append,
    Nat.zero_add]

/-- A caller's iovecs: each holds the five bytes at 7. -/
def fiveAt7 (_ : Ptr) (n : Nat) : List (Ptr × Nat) := .replicate n (7, 5)

/-- A native layer that sends everything. -/
def sendsAll : (c : SockCall) → Except Errno (SockAnswer c)
  | .send _ _ len _ | .sendto _ _ len _ _ => .ok len
  | .sendmsg _ msg _ =>
      .ok ((fiveAt7 msg.msgIov msg.msgIovlen).map Prod.snd).sum
  | _ => .error enosys

theorem sendsAll_sendLibrary :
    SendLibrary fiveAt7 sendsAll fun x => .ok (x.data.map Prod.snd).sum :=
  ⟨fun _ _ _ _ => rfl, fun _ _ _ _ _ => rfl, fun _ _ _ => rfl⟩

/-- A connected socket cannot be sent on through `sendto`. -/
theorem sendto_unnamed_faults :
    ¬OneOperation fiveAt7 sendsAll 0 null
      (shimSendto (.filled 0) 3 7 5 0 ((Mem.only 2 []).obj null) 0)
      (shimSendmsg .amd64 (.filled 0) (.only 2 []) 3 (oneIovec null 0 9 null 0) 0)
      (shimSend 3 7 5 0) := by
  rintro ⟨⟨hcalls, -⟩, -⟩
  rw [sendto_null (by decide), shimSendmsg_unnamed (by decide),
    calls_call_translate] at hcalls
  cases hcalls

/-- A Linux AF_INET address. -/
def loopback : Buf := [2, 0, 0, 53, 127, 0, 0, 1, 0, 0, 0, 0, 0, 0, 0, 0]

theorem sendto_loopback_sendmsg :
    OneOperation fiveAt7 sendsAll 0 2
      (shimSendto (.filled 1) 3 7 5 linuxMsgDontwait
        ((Mem.only 2 loopback).obj 2) 16)
      (shimSendmsg .amd64 (.filled 2) (.only 2 loopback) 3
        (oneIovec 2 16 9 null 0) linuxMsgDontwait)
      (shimSend 3 7 5 linuxMsgDontwait) := by
  have hinet : linuxSaFamily ((Mem.only 2 loopback).obj 2) = .ok linuxPfInet := by
    decide
  refine (sendto_sendmsg_iff sendsAll_sendLibrary rfl (by decide)
    (.inr ⟨by decide, .inet hinet rfl (by decide)⟩) 0).mpr
    ⟨by decide, fun hunix => ?_⟩
  rw [hinet] at hunix
  exact absurd hunix (by decide)

end Libc6Shim
