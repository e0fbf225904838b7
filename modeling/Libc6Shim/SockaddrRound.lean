import Libc6Shim.NetRecords
import Libc6Shim.SendTwins

/-!
# Socket addresses, there and back

What `linux_to_native_sockaddr` stores, `native_to_linux_sockaddr` takes back
(`src/libc/sys/socket.c`). The two are written apart, over structures whose
family differs in width, place and number; but both put the family, in
whichever form, into the first two bytes, and copy what is behind them. So
each converted address is a header with what was behind the other
(`linuxToNativeSockaddr_eq`, `nativeToLinuxSockaddr_eq`).

A pathname is copied up to its NUL. It has to fit the native structure, which
is shorter than the Linux one.
-/

namespace Libc6Shim

open CSem Buf Outcome

/-! ## Addresses -/

/-- A socket address that both sides have: one of the two internet families,
or a path. -/
inductive SocketAddr where
  | inet (x : InetAddr)
  | pathname (path : Buf) (ne_nil : path ≠ [])
      (fits : path.length < sunPathSize)

namespace SocketAddr

def family : SocketAddr → Word
  | .inet x => x.family
  | .pathname .. => pfUnix

def linuxFamily : SocketAddr → Word
  | .inet x => x.linuxFamily
  | .pathname .. => linuxPfUnix

/-- The size of the native structure. -/
def size : SocketAddr → Nat
  | .inet x => x.size
  | .pathname .. => sizeofSockaddrUn

/-- The size of the Linux structure. -/
def linuxSize : SocketAddr → Nat
  | .inet x => x.size
  | .pathname .. => sizeofLinuxSockaddrUn

/-- What is behind the family, which is the same on both sides. -/
def Body (b : Buf) : SocketAddr → Prop
  | .inet x => x.size ≤ b.length ∧ x.Fields b
  | .pathname path _ _ => b.cstrAt 2 = .ok path

/-- What a converter copies of it. -/
def payload (src : Buf) : SocketAddr → Buf
  | .inet x => slice src 2 (x.size - 2)
  | .pathname path _ _ => path ++ [0]

/-- A buffer has the address the way Linux lays it out: a family of two
bytes. -/
def LinuxImage (b : Buf) (a : SocketAddr) : Prop :=
  natAt b 0 2 = a.linuxFamily.toNat ∧ a.Body b

/-- And the native way: a length of one byte, which is left zero, and a family
of one byte. -/
def NativeImage (b : Buf) (a : SocketAddr) : Prop :=
  natAt b 0 1 = 0 ∧ natAt b 1 1 = a.family.toNat ∧ a.Body b

end SocketAddr

/-! ## Behind a header -/

section Header

variable {dest src header xs : Buf}

theorem slice_header {o m : Nat} (hheader : header.length = 2) (hm : o + m ≤ 2) :
    slice (patch dest 0 (header ++ xs)) o m = slice header o m := by
  rw [slice_patch_start (by rw [List.length_append]; omega), slice, slice,
    List.drop_append_of_le_length (by omega),
    List.take_append_of_le_length (by rw [List.length_drop]; omega)]

theorem cstrAt_behind_header {path : Buf} (hheader : header.length = 2)
    (hnul : 0 ∉ path) :
    (patch dest 0 (header ++ (path ++ [0]))).cstrAt 2 = .ok path := by
  have hdrop : (patch dest 0 (header ++ (path ++ [0]))).drop 2 =
      path ++ 0 :: dest.drop (header ++ (path ++ [0])).length := by
    rw [patch, List.take_zero, List.nil_append, Nat.zero_add, List.append_assoc,
      List.drop_left' hheader, List.append_assoc]
    rfl
  exact cstrAt_of_drop hdrop hnul

/-- The fields of an internet address. -/
theorem InetAddr.fields_behind_header {x : InetAddr} (hheader : header.length = 2)
    (hs : x.size ≤ src.length) (hx : x.Fields src) :
    x.Fields (patch dest 0 (header ++ slice src 2 (x.size - 2))) := by
  cases x with
  | inet port addr =>
      obtain ⟨hport, haddr⟩ := hx
      have hbehind := fun o m => @slice_behind_header src dest header o 14 m
        hheader hs
      refine ⟨?_, ?_⟩
      · exact (hbehind 2 2 (by omega) (by omega)).trans hport
      · exact (hbehind 4 4 (by omega) (by omega)).trans haddr
  | inet6 port flowinfo addr scopeId =>
      obtain ⟨hport, hflowinfo, haddr, hscope⟩ := hx
      have hbehind := fun o m => @slice_behind_header src dest header o 26 m
        hheader hs
      refine ⟨?_, ?_, ?_, ?_⟩
      · exact (hbehind 2 2 (by omega) (by omega)).trans hport
      · exact (hbehind 4 4 (by omega) (by omega)).trans hflowinfo
      · exact (hbehind 8 16 (by omega) (by omega)).trans haddr
      · exact (hbehind 24 4 (by omega) (by omega)).trans hscope

namespace SocketAddr

variable {a : SocketAddr}

theorem size_bounds (a : SocketAddr) :
    2 ≤ a.size ∧ a.size ≤ a.linuxSize ∧ a.size ≤ sizeofSockaddrStorage := by
  cases a with
  | inet x =>
      cases x with
      | inet => exact (by decide : 2 ≤ 16 ∧ 16 ≤ 16 ∧ 16 ≤ 128)
      | inet6 => exact (by decide : 2 ≤ 28 ∧ 28 ≤ 28 ∧ 28 ≤ 128)
  | pathname => exact (by decide : 2 ≤ 106 ∧ 106 ≤ 110 ∧ 106 ≤ 128)

theorem linuxFamily_lt (a : SocketAddr) : a.linuxFamily.toNat < 256 ^ 2 := by
  cases a with
  | inet x =>
      cases x with
      | inet => exact (by decide : 2 < 256 ^ 2)
      | inet6 => exact (by decide : 10 < 256 ^ 2)
  | pathname => exact (by decide : 1 < 256 ^ 2)

/-- The native structure is no smaller than what is copied. -/
theorem length_payload (hbody : a.Body src) :
    2 + (a.payload src).length ≤ a.size := by
  have htwo := a.size_bounds.1
  cases a with
  | inet x =>
      have hs : x.size ≤ src.length := hbody.1
      have hpos : 2 ≤ x.size := htwo
      show 2 + (slice src 2 (x.size - 2)).length ≤ x.size
      rw [length_slice (by omega)]
      omega
  | pathname path hne hfits =>
      have hsize : sizeofSockaddrUn = 2 + sunPathSize := rfl
      show 2 + (path ++ [0]).length ≤ sizeofSockaddrUn
      rw [List.length_append, List.length_singleton]
      omega

/-- What was copied is the address again. -/
theorem body_behind_header (hheader : header.length = 2) (hbody : a.Body src)
    (hd : a.size ≤ dest.length) :
    (patch dest 0 (header ++ a.payload src)).length = dest.length ∧
      a.Body (patch dest 0 (header ++ a.payload src)) := by
  have hpayload := length_payload hbody
  have hlen : (patch dest 0 (header ++ a.payload src)).length = dest.length :=
    length_patch (by rw [List.length_append]; omega)
  refine ⟨hlen, ?_⟩
  cases a with
  | inet x =>
      obtain ⟨hs, hfields⟩ := hbody
      exact ⟨hlen ▸ hd, InetAddr.fields_behind_header hheader hs hfields⟩
  | pathname path hne hfits =>
      exact cstrAt_behind_header hheader (cstrAt_inv hbody).1

end SocketAddr

end Header

/-! ## The converters -/

section Converters

variable {dest src : Buf} {len : Nat} {a : SocketAddr}

theorem linuxSaFamily_of {family : Word} (hlen : 2 ≤ src.length)
    (h : natAt src 0 2 = family.toNat) : linuxSaFamily src = .ok family := by
  rw [linuxSaFamily, loadNat_of (by omega), ok_bind, h, BitVec.ofNat_toNat,
    BitVec.setWidth_eq]
  rfl

theorem saFamily_of {family : Word} (hlen : 2 ≤ src.length)
    (h : natAt src 1 1 = family.toNat) : saFamily src = .ok family := by
  rw [saFamily, loadNat_of (by omega), ok_bind, h, BitVec.ofNat_toNat,
    BitVec.setWidth_eq]
  rfl

theorem linuxToNativeSockaddr_inet (h : linuxSaFamily src = .ok linuxPfInet)
    (hl : sizeofSockaddrIn ≤ len) :
    linuxToNativeSockaddr dest len src =
      linuxToNativeSockaddrIn dest src >>= fun d =>
        .ok (d, sizeofSockaddrIn) := by
  rw [linuxToNativeSockaddr, h, ok_bind, if_neg (by decide), if_pos rfl,
    require_of hl]
  rfl

theorem linuxToNativeSockaddr_inet6 (h : linuxSaFamily src = .ok linuxPfInet6)
    (hl : sizeofSockaddrIn6 ≤ len) :
    linuxToNativeSockaddr dest len src =
      linuxToNativeSockaddrIn6 dest src >>= fun d =>
        .ok (d, sizeofSockaddrIn6) := by
  rw [linuxToNativeSockaddr, h, ok_bind, if_neg (by decide),
    if_neg (by decide), if_pos rfl, require_of hl]
  rfl

theorem linuxToNativeSockaddr_unix (h : linuxSaFamily src = .ok linuxPfUnix)
    (hl : sizeofSockaddrUn ≤ len) :
    linuxToNativeSockaddr dest len src =
      linuxToNativeSockaddrUn dest src >>= fun d =>
        .ok (d, sizeofSockaddrUn) := by
  rw [linuxToNativeSockaddr, h, ok_bind, if_pos rfl, require_of hl]
  rfl

/-- All of an internet address is behind its family. -/
theorem sockaddrIn_eq (src : Buf) : sockaddrIn src = [0, 2] ++ slice src 2 14 := by
  rw [sockaddrIn, List.append_assoc, List.append_assoc,
    show (14 : Nat) = 2 + (4 + 8) from rfl, slice_add, slice_add]

theorem sockaddrIn6_eq (src : Buf) :
    sockaddrIn6 src = [0, 28] ++ slice src 2 26 := by
  rw [sockaddrIn6, List.append_assoc, List.append_assoc, List.append_assoc,
    show (26 : Nat) = 2 + (4 + (16 + 4)) from rfl, slice_add, slice_add, slice_add]

/-- A path that is not empty does not begin with a NUL. -/
theorem first_ne_nul {path : Buf} (hpath : src.cstrAt 2 = .ok path)
    (hne : path ≠ []) : ∃ x, src.load 2 1 = .ok x ∧ x ≠ [0] := by
  obtain ⟨hnul, hslice, hlt⟩ := cstrAt_inv hpath
  obtain ⟨c, cs, rfl⟩ := List.exists_cons_of_ne_nil hne
  have hfirst : slice src 2 1 = [c] := by
    rw [← Nat.add_zero 2, ← slice_slice (show 0 + 1 ≤ (c :: cs).length by simp),
      hslice]
    rfl
  refine ⟨[c], ?_, fun hc => ?_⟩
  · rw [load_of (.inr (by omega)), hfirst]
  · obtain rfl : c = 0 := by simpa using hc
    exact hnul (List.mem_cons_self ..)

/-- The native image: the length and the family, and what is copied. -/
theorem linuxToNativeSockaddr_eq (hsrc : a.LinuxImage src) (hlen : a.size ≤ len)
    (hd : a.size ≤ dest.length) :
    linuxToNativeSockaddr dest len src =
      .ok (patch dest 0 ([0, UInt8.ofNat a.family.toNat] ++ a.payload src),
        a.size) := by
  obtain ⟨hfamily, hbody⟩ := hsrc
  cases a with
  | inet x =>
      cases x with
      | inet port addr =>
          have hs : sizeofSockaddrIn ≤ src.length := hbody.1
          have hfam : linuxSaFamily src = .ok linuxPfInet :=
            linuxSaFamily_of ((by decide : 2 ≤ sizeofSockaddrIn).trans hs) hfamily
          rw [linuxToNativeSockaddr_inet hfam hlen,
            (linuxToNativeSockaddrIn_eq hd hs).2, sockaddrIn_eq]
          rfl
      | inet6 port flowinfo addr scopeId =>
          have hs : sizeofSockaddrIn6 ≤ src.length := hbody.1
          have hfam : linuxSaFamily src = .ok linuxPfInet6 :=
            linuxSaFamily_of ((by decide : 2 ≤ sizeofSockaddrIn6).trans hs) hfamily
          rw [linuxToNativeSockaddr_inet6 hfam hlen,
            (linuxToNativeSockaddrIn6_eq hd hs).2, sockaddrIn6_eq]
          rfl
  | pathname path hne hfits =>
      have hlt := (cstrAt_inv hbody).2.2
      have hfam : linuxSaFamily src = .ok linuxPfUnix :=
        linuxSaFamily_of (by omega) hfamily
      obtain ⟨x, hfirst, hx⟩ := first_ne_nul hbody hne
      have hpath : src.cstrAt 2 = .ok path := hbody
      rw [linuxToNativeSockaddr_unix hfam hlen,
        linuxToNativeSockaddrUn_pathname hd hfirst hx, hpath, ok_bind,
        require_of hfits, sockaddrUn_eq hd hfits]
      rfl

/-- And the Linux image. -/
theorem nativeToLinuxSockaddr_eq (hsrc : a.NativeImage src)
    (hlen : a.linuxSize ≤ len) (hd : a.linuxSize ≤ dest.length) :
    nativeToLinuxSockaddr dest len src =
      .ok (patch dest 0 (leBytes 2 a.linuxFamily.toNat ++ a.payload src),
        a.linuxSize) := by
  obtain ⟨-, hfamily, hbody⟩ := hsrc
  cases a with
  | inet x =>
      cases x with
      | inet port addr =>
          have hs : sizeofSockaddrIn ≤ src.length := hbody.1
          have hfam : saFamily src = .ok pfInet :=
            saFamily_of ((by decide : 2 ≤ sizeofSockaddrIn).trans hs) hfamily
          rw [nativeToLinuxSockaddr_inet hfam hlen,
            nativeToLinuxSockaddrIn_patch hd hs]
          rfl
      | inet6 port flowinfo addr scopeId =>
          have hs : sizeofSockaddrIn6 ≤ src.length := hbody.1
          have hfam : saFamily src = .ok pfInet6 :=
            saFamily_of ((by decide : 2 ≤ sizeofSockaddrIn6).trans hs) hfamily
          rw [nativeToLinuxSockaddr_inet6 hfam hlen,
            nativeToLinuxSockaddrIn6_patch hd hs]
          rfl
  | pathname path hne hfits =>
      have hlt := (cstrAt_inv hbody).2.2
      have hfam : saFamily src = .ok pfUnix := saFamily_of (by omega) hfamily
      rw [nativeToLinuxSockaddr_unix hfam hlen,
        nativeToLinuxSockaddrUn_patch hd hbody
          (hfits.trans (by decide : sunPathSize < linuxSunPathSize))]
      rfl

end Converters

/-! ## There and back -/

theorem linuxImage_of_inet {src : Buf} (hs : sizeofSockaddrIn ≤ src.length)
    (hfamily : natAt src 0 2 = linuxPfInet.toNat) :
    (SocketAddr.inet (.inet (slice src 2 2) (slice src 4 4))).LinuxImage src :=
  ⟨hfamily, hs, rfl, rfl⟩

/-- An address goes to the native side and comes back the same. -/
theorem sockaddr_roundTrip {a : SocketAddr} {src storage dest : Buf}
    {linuxLen : Nat} (hsrc : a.LinuxImage src)
    (hstorage : storage.length = sizeofSockaddrStorage)
    (hlen : a.linuxSize ≤ linuxLen) (hdest : linuxLen ≤ dest.length) :
    ∃ native linuxAddr,
      linuxToNativeSockaddr storage sizeofSockaddrStorage src =
        .ok (native, a.size) ∧ a.NativeImage native ∧
      nativeToLinuxSockaddr dest linuxLen native =
        .ok (linuxAddr, a.linuxSize) ∧ a.LinuxImage linuxAddr := by
  obtain ⟨-, hsizes, hroom⟩ := a.size_bounds
  have hthere := @SocketAddr.body_behind_header storage src
    [0, UInt8.ofNat a.family.toNat] a rfl hsrc.2 (by omega)
  -- the family's number fits one byte
  have hnative : a.NativeImage (patch storage 0
      ([0, UInt8.ofNat a.family.toNat] ++ a.payload src)) := by
    refine ⟨?_, ?_, hthere.2⟩
    · rw [natAt, slice_header rfl (by omega)]
      rfl
    · rw [natAt, slice_header rfl (by omega)]
      cases a with
      | inet x => cases x <;> rfl
      | pathname => rfl
  have hfam := length_leBytes 2 a.linuxFamily.toNat
  refine ⟨_, _, linuxToNativeSockaddr_eq hsrc hroom (by omega), hnative,
    nativeToLinuxSockaddr_eq hnative hlen (by omega), ?_, ?_⟩
  · rw [natAt, slice_header hfam (by omega), slice, List.drop_zero,
      List.take_of_length_le hfam.le, leNat_leBytes,
      Nat.mod_eq_of_lt a.linuxFamily_lt]
  · exact (SocketAddr.body_behind_header hfam hthere.2 (by omega)).2

/-- The address of a name server, over memory that is not blank. -/
theorem loopback_roundTrip :
    let a := SocketAddr.inet (.inet [0, 53] [127, 0, 0, 1])
    ∃ native linuxAddr,
      linuxToNativeSockaddr (.replicate 128 0xff) sizeofSockaddrStorage loopback =
        .ok (native, 16) ∧ a.NativeImage native ∧
      nativeToLinuxSockaddr (.replicate 20 0xee) 20 native =
        .ok (linuxAddr, 16) ∧ a.LinuxImage linuxAddr :=
  sockaddr_roundTrip (linuxImage_of_inet (by decide) (by decide))
    List.length_replicate (by decide) (by decide)

end Libc6Shim
