import Libc6Shim.Netdb

/-!
# Unix-domain addresses, handed down

Linux takes an AF_UNIX address for the bytes inside its length: a pathname
up to its NUL, if there is one, or - behind a leading NUL - an abstract name
of just as many bytes as are left. The converter knows nothing of the
length. It scans the caller's buffer for a NUL, wherever that is
(`UnixAddr.scanned`), and `nativeAddrOf_ok_iff` is what comes out.

Two things follow from the scan. What lies behind an address decides its
native path unless the name holds a NUL of its own (`withinLength_iff`); and
distinct names are told apart by what is scanned of them, cut to the room
behind `/var/run/` where they are abstract (`staysDifferent_iff`).
-/

namespace Libc6Shim

open CSem Buf Outcome

/-! ## Addresses -/

/-- An AF_UNIX address: the bytes within its length. A caller's buffer holds
them, and a tail behind them. -/
structure UnixAddr where
  bytes : Buf
  three_le : 3 ≤ bytes.length
  le_size : bytes.length ≤ sizeofLinuxSockaddrUn
  family : linuxSaFamily bytes = .ok linuxPfUnix

/-- What Linux takes an address for. -/
inductive LinuxUnName where
  | pathname (path : Buf)
  | abstract (name : Buf)
deriving DecidableEq

namespace UnixAddr

variable (a : UnixAddr) (tail : Buf)

/-- The first byte of `sun_path` is NUL. -/
def Abstract : Prop := slice a.bytes 2 1 = [0]

instance : Decidable a.Abstract := inferInstanceAs (Decidable (_ = _))

def linuxName : LinuxUnName :=
  if a.Abstract then .abstract (a.bytes.drop 3)
  else .pathname ((a.bytes.drop 2).takeWhile (· ≠ 0))

/-- Where the name starts. -/
def nameOff : Nat := if a.Abstract then 3 else 2

/-- The name as the shim reads it: up to the first NUL of the caller's
buffer. -/
def scanned : Buf := ((a.bytes ++ tail).drop a.nameOff).takeWhile (· ≠ 0)

/-- How many bytes of an abstract name there is room for. -/
def abstractRoom : Nat := sunPathSize - 1 - (lit "/var/run/").length

/-- The native path. -/
def nativePath : Buf :=
  if a.Abstract then lit "/var/run/" ++ (a.scanned tail).take abstractRoom
  else a.scanned tail

end UnixAddr

/-! ## The conversion -/

/-- The native address with `path` in it, over what the memory held. -/
def sockaddrUn (dest path : Buf) : Buf :=
  patch (patch (patch dest 0 [0]) 1 [1]) 2 (path ++ [0])

section Conversion

variable {dest src path : Buf}

theorem linuxToNativeSockaddrUn_header (src : Buf)
    (hd : sizeofSockaddrUn ≤ dest.length) :
    ∃ d, d.length = dest.length ∧
      (∀ p, patch d 2 (p ++ [0]) = sockaddrUn dest p) ∧
      linuxToNativeSockaddrUn dest src = (do
        if (← src.load 2 1) = [0] then
          d.storeStr 2 sunPathSize (lit "/var/run/" ++ (← src.cstrAt 3))
        else
          let path ← src.cstrAt 2
          let dest ← d.storeStr 2 sunPathSize path
          require (path.length < sunPathSize)
          return dest) := by
  have hsize : sizeofSockaddrUn = 106 := rfl
  have hfam : leBytes 1 pfUnix.toNat = [1] := by decide
  have hlen₀ : (patch dest 0 [0]).length = dest.length :=
    length_patch (by rw [List.length_singleton]; omega)
  have hlen₁ : (patch (patch dest 0 [0]) 1 [1]).length = dest.length := by
    rw [← hlen₀]
    exact length_patch (by rw [List.length_singleton]; omega)
  refine ⟨patch (patch dest 0 [0]) 1 [1], hlen₁, fun p => rfl, ?_⟩
  rw [linuxToNativeSockaddrUn, hfam,
    store_of (by rw [List.length_singleton]; omega), ok_bind,
    store_of (by rw [List.length_singleton]; omega), ok_bind]

/-- A string stored in `sun_path`, cut to fit. -/
theorem storeStr_sunPath {d : Buf} (hd : sizeofSockaddrUn ≤ d.length) (s : Buf) :
    d.storeStr 2 sunPathSize s =
      .ok (patch d 2 (s.take (sunPathSize - 1) ++ [0])) := by
  have hsize : sizeofSockaddrUn = 2 + sunPathSize := rfl
  have hpos : 0 < sunPathSize := by decide
  rw [storeStr, if_neg (by decide)]
  refine store_of ?_
  rw [List.length_append, List.length_take, List.length_singleton]
  omega

theorem linuxToNativeSockaddrUn_abstract (hd : sizeofSockaddrUn ≤ dest.length)
    (hfirst : src.load 2 1 = .ok [0]) :
    linuxToNativeSockaddrUn dest src = (do
      return sockaddrUn dest
        ((lit "/var/run/" ++ (← src.cstrAt 3)).take (sunPathSize - 1))) := by
  obtain ⟨d, hlen, hpatch, hconv⟩ := linuxToNativeSockaddrUn_header src hd
  rw [hconv, hfirst, ok_bind, if_pos rfl]
  congr 1
  funext name
  rw [storeStr_sunPath (hlen ▸ hd), hpatch]
  rfl

theorem linuxToNativeSockaddrUn_pathname (hd : sizeofSockaddrUn ≤ dest.length)
    {x : Buf} (hfirst : src.load 2 1 = .ok x) (hx : x ≠ [0]) :
    linuxToNativeSockaddrUn dest src = (do
      let path ← src.cstrAt 2
      require (path.length < sunPathSize)
      return sockaddrUn dest path) := by
  obtain ⟨d, hlen, hpatch, hconv⟩ := linuxToNativeSockaddrUn_header src hd
  rw [hconv, hfirst, ok_bind, if_neg hx]
  congr 1
  funext path
  rw [storeStr_sunPath (hlen ▸ hd), hpatch, ok_bind]
  by_cases hfits : path.length < sunPathSize
  · rw [List.take_of_length_le (by omega)]
  · rw [require_of_not hfits]
    rfl

/-- The path of a native address. -/
theorem cstrAt_sockaddrUn (hd : dest.length = sizeofSockaddrUn)
    (hnul : 0 ∉ path) :
    (sockaddrUn dest path).cstrAt 2 = .ok path := by
  have hsize : sizeofSockaddrUn = 2 + sunPathSize := rfl
  obtain ⟨d, hlen, hpatch, -⟩ := linuxToNativeSockaddrUn_header [] hd.ge
  have hdrop : (sockaddrUn dest path).drop 2 =
      path ++ 0 :: d.drop (2 + (path ++ [0]).length) := by
    rw [← hpatch, patch, List.append_assoc, List.drop_left' (by
      rw [List.length_take]; omega), List.append_assoc]
    rfl
  exact cstrAt_of_drop hdrop hnul

end Conversion

/-! ## The address in a caller's buffer -/

namespace UnixAddr

variable (a : UnixAddr) (stack : Stack) (tail : Buf)

/-- The conversion of `bind` and its siblings, reduced to the scan. -/
def convert (name : Buf) : Outcome Buf :=
  if a.Abstract then
    .ok (sockaddrUn (stack.bytes sizeofSockaddrUn)
      (lit "/var/run/" ++ name.take abstractRoom))
  else do
    require (name.length < sunPathSize)
    return sockaddrUn (stack.bytes sizeofSockaddrUn) name

theorem family_append : linuxSaFamily (a.bytes ++ tail) = .ok linuxPfUnix := by
  have hthree := a.three_le
  have hfam := a.family
  have hslice : natAt (a.bytes ++ tail) 0 2 = natAt a.bytes 0 2 := by
    rw [natAt, natAt, ← slice_take (b := a.bytes ++ tail)
      (show 0 + 2 ≤ a.bytes.length by omega), List.take_left]
  rw [linuxSaFamily, loadNat_of (by omega)] at hfam
  rw [linuxSaFamily, loadNat_of (by rw [List.length_append]; omega), hslice]
  exact hfam

theorem nativeAddrOf_eq :
    nativeAddrOf stack (a.bytes ++ tail) a.bytes.length =
      (a.bytes ++ tail).cstrAt a.nameOff >>= a.convert stack := by
  have hthree := a.three_le
  have hfirst : (a.bytes ++ tail).load 2 1 = .ok (slice a.bytes 2 1) := by
    rw [load_of (.inr (by rw [List.length_append]; omega)),
      ← slice_take (show 2 + 1 ≤ a.bytes.length by omega), List.take_left]
  rw [nativeAddrOf, a.family_append, ok_bind, if_pos rfl, require_of a.le_size,
    ok_bind]
  have hd := stack.length_bytes sizeofSockaddrUn
  by_cases habs : a.Abstract
  · rw [linuxToNativeSockaddrUn_abstract hd.ge (habs ▸ hfirst), nameOff, if_pos habs]
    congr 1
    funext name
    rw [convert, if_pos habs, List.take_append]
    rfl
  · rw [linuxToNativeSockaddrUn_pathname hd.ge hfirst habs, nameOff, if_neg habs]
    congr 1
    funext name
    rw [convert, if_neg habs]

/-- Which buffers convert, and to what. -/
theorem nativeAddrOf_ok_iff {native : Buf} :
    nativeAddrOf stack (a.bytes ++ tail) a.bytes.length = .ok native ↔
      0 ∈ (a.bytes ++ tail).drop a.nameOff ∧
        (¬a.Abstract → (a.scanned tail).length < sunPathSize) ∧
        native = sockaddrUn (stack.bytes sizeofSockaddrUn) (a.nativePath tail) := by
  rw [nativeAddrOf_eq]
  by_cases hnul : 0 ∈ (a.bytes ++ tail).drop a.nameOff
  · rw [cstrAt_of_mem hnul, ok_bind, ← scanned, convert, nativePath]
    by_cases habs : a.Abstract
    · simp only [habs, hnul, if_true, Except.ok.injEq, not_true, false_imp_iff,
        true_and, eq_comm]
    · rw [if_neg habs, if_neg habs]
      constructor
      · intro h
        obtain ⟨u, hfits, hsock⟩ := bind_eq_ok.mp h
        exact ⟨hnul, fun _ => require_eq_ok.mp hfits, (Except.ok.inj hsock).symm⟩
      · rintro ⟨-, hfits, rfl⟩
        rw [require_of (hfits habs)]
        rfl
  · rw [cstrAt_of_notMem hnul]
    exact ⟨nofun, fun h => absurd h.1 hnul⟩

/-- The path a native address carries. -/
theorem cstrAt_native {native : Buf}
    (h : nativeAddrOf stack (a.bytes ++ tail) a.bytes.length = .ok native) :
    native.cstrAt 2 = .ok (a.nativePath tail) := by
  obtain ⟨-, -, rfl⟩ := (a.nativeAddrOf_ok_iff stack tail).mp h
  refine cstrAt_sockaddrUn (stack.length_bytes _) ?_
  rw [nativePath]
  split
  · refine fun hmem => (List.mem_append.mp hmem).elim (by decide) fun hname => ?_
    exact notMem_takeWhile (List.mem_of_mem_take hname)
  · exact notMem_takeWhile

end UnixAddr

/-! ## The calls that hand an address down -/

inductive AddrCall where
  | bind (s : Word)
  | connect (s : Word)
  | sendto (s : Word) (msg : Ptr) (len : Nat) (linuxFlags : Word)
  | getnameinfo (hostlen servlen : Nat) (linuxFlags : Word)

/-- The libraries below, and `errno` before the call. -/
structure Natives where
  sock : (c : SockCall) → Except Errno (SockAnswer c)
  netdb : (c : NetdbCall) → NetdbAnswer c
  errno : Errno

/-- The address in a native call. -/
def SockCall.addr? : SockCall → Option Buf
  | .bind _ addr | .connect _ addr | .sendto _ _ _ _ addr => some addr
  | _ => none

def NetdbCall.addr : NetdbCall → Buf
  | .getnameinfo sa .. => sa

namespace AddrCall

variable (w : Natives) (stack : Stack) (addr : Buf) (addrlen : Nat)

/-- The native addresses handed down. -/
def handed : AddrCall → List Buf
  | .bind s =>
      ((shimBind stack s addr addrlen).calls w.sock w.errno).filterMap
        SockCall.addr?
  | .connect s =>
      ((shimConnect stack s addr addrlen).calls w.sock w.errno).filterMap
        SockCall.addr?
  | .sendto s msg len linuxFlags =>
      ((shimSendto stack s msg len linuxFlags addr addrlen).calls w.sock
        w.errno).filterMap SockCall.addr?
  | .getnameinfo hostlen servlen linuxFlags =>
      ((shimGetnameinfo stack addr addrlen hostlen servlen linuxFlags).calls
        w.netdb).map NetdbCall.addr

/-- Why the call does not return, if it does not. -/
def stopped : AddrCall → Option Stop
  | .bind s => ((shimBind stack s addr addrlen).run w.sock w.errno).stopped
  | .connect s => ((shimConnect stack s addr addrlen).run w.sock w.errno).stopped
  | .sendto s msg len linuxFlags =>
      ((shimSendto stack s msg len linuxFlags addr addrlen).run w.sock
        w.errno).stopped
  | .getnameinfo hostlen servlen linuxFlags =>
      ((shimGetnameinfo stack addr addrlen hostlen servlen linuxFlags).run
        w.netdb).stopped

/-- The flags the call asks for are ones the shim knows. -/
def FlagsKnown : AddrCall → Prop
  | .bind _ | .connect _ => True
  | .sendto _ _ _ linuxFlags => linuxFlags &&& ~~~knownLinuxMsgFlags = 0
  | .getnameinfo _ _ linuxFlags => linuxFlags &&& ~~~knownLinuxNiFlags = 0

instance : DecidablePred FlagsKnown
  | .bind _ | .connect _ => .isTrue trivial
  | .sendto .. | .getnameinfo .. => inferInstanceAs (Decidable (_ = _))

/-- What the four have in common: the address is converted, then the
flags. -/
def passes (c : AddrCall) : Outcome Buf := do
  let native ← nativeAddrOf stack addr addrlen
  require c.FlagsKnown
  return native

variable {w stack addr addrlen}

/-- A native call, and the translation of its error number, return. -/
theorem callNative_returns (c : SockCall)
    (h : (c : SockCall) → Except Errno (SockAnswer c)) (e : Errno) :
    ((callNative c).calls h e = [c] ∧ ((callNative c).run h e).stopped = none) ∧
      (callNative c >>= translateErrno).calls h e = [c] ∧
      ((callNative c >>= translateErrno).run h e).stopped = none := by
  rw [Routine.calls_bind, Routine.run_bind, callNative, Routine.calls_native,
    Routine.run_native]
  cases h c with
  | ok a => exact ⟨⟨rfl, rfl⟩, rfl, rfl⟩
  | error e' => exact ⟨⟨rfl, rfl⟩, rfl, rfl⟩

/-- What is handed down is what is passed, and the call stops where passing
does. -/
theorem spec (c : AddrCall) :
    c.handed w stack addr addrlen =
        (c.passes stack addr addrlen).toOption.toList ∧
      c.stopped w stack addr addrlen =
        (c.passes stack addr addrlen).stopped := by
  rw [passes]
  cases hconv : nativeAddrOf stack addr addrlen with
  | error e =>
      cases c <;>
        simp only [handed, stopped, shimBind, shimConnect, shimSendto,
          shimGetnameinfo, hconv] <;>
        exact ⟨rfl, rfl⟩
  | ok native =>
      cases c with
      | bind s =>
          have hcall := (callNative_returns (.bind s native) w.sock w.errno).1
          simp only [handed, stopped, shimBind, hconv]
          exact ⟨congrArg (List.filterMap SockCall.addr?) hcall.1, hcall.2⟩
      | connect s =>
          have hcall := (callNative_returns (.connect s native) w.sock w.errno).2
          simp only [handed, stopped, shimConnect, hconv]
          exact ⟨congrArg (List.filterMap SockCall.addr?) hcall.1, hcall.2⟩
      | sendto s msg len linuxFlags =>
          simp only [handed, stopped, shimSendto, hconv, linuxToNativeMsgFlags]
          by_cases hflags : linuxFlags &&& ~~~knownLinuxMsgFlags = 0
          · have hknown : (sendto s msg len linuxFlags).FlagsKnown := hflags
            have hcall := (callNative_returns (.sendto s msg len
              (setFlags 0 msgFlagPairs linuxFlags) native) w.sock w.errno).2
            rw [require_of hflags, require_of hknown]
            exact ⟨congrArg (List.filterMap SockCall.addr?) hcall.1, hcall.2⟩
          · have hknown : ¬(sendto s msg len linuxFlags).FlagsKnown := hflags
            rw [require_of_not hflags, require_of_not hknown]
            exact ⟨rfl, rfl⟩
      | getnameinfo hostlen servlen linuxFlags =>
          simp only [handed, stopped, shimGetnameinfo, hconv,
            linuxToNativeNiFlags]
          by_cases hflags : linuxFlags &&& ~~~knownLinuxNiFlags = 0
          · have hknown : (getnameinfo hostlen servlen linuxFlags).FlagsKnown :=
              hflags
            rw [require_of hflags, require_of hknown]
            exact ⟨rfl, rfl⟩
          · have hknown : ¬(getnameinfo hostlen servlen linuxFlags).FlagsKnown :=
              hflags
            rw [require_of_not hflags, require_of_not hknown]
            exact ⟨rfl, rfl⟩

/-- An address that converts is handed down, unless the flags are refused. -/
theorem handed_eq_singleton {c : AddrCall} {native : Buf} :
    c.handed w stack addr addrlen = [native] ↔
      nativeAddrOf stack addr addrlen = .ok native ∧ c.FlagsKnown := by
  rw [c.spec.1, passes]
  cases nativeAddrOf stack addr addrlen with
  | error e => exact ⟨nofun, nofun⟩
  | ok addr =>
      rw [ok_bind]
      by_cases hknown : c.FlagsKnown
      · rw [require_of hknown]
        exact ⟨fun h => ⟨congrArg _ (List.cons.inj h).1, hknown⟩,
          fun h => congrArg ([·]) (Except.ok.inj h.1)⟩
      · rw [require_of_not hknown]
        exact ⟨nofun, fun h => absurd h.2 hknown⟩

theorem mem_handed {c : AddrCall} {native : Buf} :
    native ∈ c.handed w stack addr addrlen ↔
      c.handed w stack addr addrlen = [native] := by
  rw [c.spec.1]
  cases (c.passes stack addr addrlen).toOption with
  | none => exact ⟨nofun, nofun⟩
  | some native' =>
      simp only [Option.toList_some, List.mem_singleton, List.cons.injEq,
        and_true, eq_comm]

end AddrCall

/-! ## Distinct names -/

namespace UnixAddr

/-- `bind` or `connect` takes the address `a`, in front of `tail`, for
`native`. -/
def Accepted (w : Natives) (stack : Stack) (a : UnixAddr) (tail native : Buf) :
    Prop :=
  ∃ s, native ∈ (AddrCall.bind s).handed w stack (a.bytes ++ tail)
      a.bytes.length ∨
    native ∈ (AddrCall.connect s).handed w stack (a.bytes ++ tail)
      a.bytes.length

theorem Accepted.converts {w : Natives} {stack : Stack} {a : UnixAddr}
    {tail native : Buf} (h : Accepted w stack a tail native) :
    nativeAddrOf stack (a.bytes ++ tail) a.bytes.length = .ok native := by
  obtain ⟨s, h | h⟩ := h
  · exact (AddrCall.handed_eq_singleton.mp (AddrCall.mem_handed.mp h)).1
  · exact (AddrCall.handed_eq_singleton.mp (AddrCall.mem_handed.mp h)).1

/-- What keeps the native paths of two addresses apart: the pathnames
differ before their NULs; the abstract names do, in the bytes there is room
for; or the pathname is not the one the abstract name is turned into. -/
def KeptApart (a : UnixAddr) (ta : Buf) (b : UnixAddr) (tb : Buf) : Prop :=
  if a.Abstract then
    if b.Abstract then
      (a.scanned ta).take abstractRoom ≠ (b.scanned tb).take abstractRoom
    else b.scanned tb ≠ lit "/var/run/" ++ (a.scanned ta).take abstractRoom
  else
    if b.Abstract then
      a.scanned ta ≠ lit "/var/run/" ++ (b.scanned tb).take abstractRoom
    else a.scanned ta ≠ b.scanned tb

theorem handed_of {w : Natives} {stack : Stack} {a : UnixAddr} {tail : Buf}
    (c : AddrCall) (hnul : 0 ∈ (a.bytes ++ tail).drop a.nameOff)
    (hfits : ¬a.Abstract → (a.scanned tail).length < sunPathSize)
    (hknown : c.FlagsKnown) :
    c.handed w stack (a.bytes ++ tail) a.bytes.length =
      [sockaddrUn (stack.bytes sizeofSockaddrUn) (a.nativePath tail)] :=
  AddrCall.handed_eq_singleton.mpr
    ⟨(a.nativeAddrOf_ok_iff stack tail).mpr ⟨hnul, hfits, rfl⟩, hknown⟩

theorem accepted_of {w : Natives} {stack : Stack} {a : UnixAddr} {tail : Buf}
    (hnul : 0 ∈ (a.bytes ++ tail).drop a.nameOff)
    (hfits : ¬a.Abstract → (a.scanned tail).length < sunPathSize) :
    Accepted w stack a tail
      (sockaddrUn (stack.bytes sizeofSockaddrUn) (a.nativePath tail)) :=
  ⟨3, .inl (AddrCall.mem_handed.mpr (handed_of (.bind 3) hnul hfits trivial))⟩

theorem nativePath_ne_iff (a : UnixAddr) (ta : Buf) (b : UnixAddr) (tb : Buf) :
    a.nativePath ta ≠ b.nativePath tb ↔ KeptApart a ta b tb := by
  rw [KeptApart, nativePath, nativePath]
  by_cases ha : a.Abstract <;> by_cases hb : b.Abstract
  · rw [if_pos ha, if_pos ha, if_pos hb, if_pos hb, ne_eq,
      List.append_cancel_left_eq]
  · rw [if_pos ha, if_pos ha, if_neg hb, if_neg hb, ne_comm]
  · rw [if_neg ha, if_neg ha, if_pos hb, if_pos hb]
  · rw [if_neg ha, if_neg ha, if_neg hb, if_neg hb]

/-- Two pathnames with NULs of their own are always kept apart. -/
theorem keptApart_of_pathnames {a b : UnixAddr} (ta tb : Buf)
    (ha : ¬a.Abstract) (hb : ¬b.Abstract) (hna : 0 ∈ a.bytes.drop 2)
    (hnb : 0 ∈ b.bytes.drop 2) (hne : a.linuxName ≠ b.linuxName) :
    KeptApart a ta b tb := by
  have hscan : ∀ {c : UnixAddr} (t : Buf), ¬c.Abstract → 0 ∈ c.bytes.drop 2 →
      c.linuxName = .pathname (c.scanned t) := by
    intro c t hc hnul
    have hthree := c.three_le
    rw [linuxName, if_neg hc, scanned, nameOff, if_neg hc,
      List.drop_append_of_le_length (by omega), takeWhile_append_of_mem hnul]
  rw [KeptApart, if_neg ha, if_neg hb]
  intro heq
  exact hne (by rw [hscan ta ha hna, hscan tb hb hnb, heq])

end UnixAddr

open UnixAddr

/-- Two accepted addresses that Linux takes for different ones get different
native paths exactly if they are kept apart. -/
theorem staysDifferent_iff {w w' : Natives} {stack stack' : Stack}
    {a b : UnixAddr} {ta tb na nb : Buf} (ha : Accepted w stack a ta na)
    (hb : Accepted w' stack' b tb nb) :
    (a.linuxName ≠ b.linuxName → na.cstrAt 2 ≠ nb.cstrAt 2) ↔
      (a.linuxName ≠ b.linuxName → KeptApart a ta b tb) := by
  have hpaths : na.cstrAt 2 ≠ nb.cstrAt 2 ↔ KeptApart a ta b tb := by
    rw [a.cstrAt_native stack ta ha.converts,
      b.cstrAt_native stack' tb hb.converts, ne_eq, Except.ok.injEq]
    exact nativePath_ne_iff a ta b tb
  exact imp_congr_right fun _ => hpaths

instance (a : UnixAddr) (ta : Buf) (b : UnixAddr) (tb : Buf) :
    Decidable (KeptApart a ta b tb) :=
  inferInstanceAs (Decidable (ite _ (ite _ _ _) (ite _ _ _)))

/-- The address of an abstract name. -/
def abstractAddr (name : Buf) (h : name.length ≤ 107) : UnixAddr where
  bytes := [1, 0, 0] ++ name
  three_le := by simp
  le_size := by
    have hsize : sizeofLinuxSockaddrUn = 110 := rfl
    rw [List.length_append, hsize]
    exact Nat.add_le_add_left h 3
  family := rfl

/-- An abstract name of 95 bytes. -/
def longName (last : UInt8) : UnixAddr :=
  abstractAddr (.replicate 94 120 ++ [last]) (by simp)

/-- A system on which addresses can be bound and connected to. -/
def obligingNatives : Natives where
  sock := fun
    | .bind .. | .connect .. => .ok ()
    | _ => .error 78
  netdb := fun
    | .getnameinfo .. => ⟨0, lit "host", lit "0"⟩
  errno := 0

/-- Abstract names are cut where pathnames are refused. -/
theorem longNames_collide :
    ∃ na nb, Accepted obligingNatives (Stack.filled 7) (longName 97) [0] na ∧
      Accepted obligingNatives (Stack.filled 7) (longName 98) [0] nb ∧
      (longName 97).linuxName ≠ (longName 98).linuxName ∧
      na.cstrAt 2 = nb.cstrAt 2 := by
  have ha : Accepted obligingNatives (.filled 7) (longName 97) [0] _ :=
    accepted_of (by decide) (by decide)
  have hb : Accepted obligingNatives (.filled 7) (longName 98) [0] _ :=
    accepted_of (by decide) (by decide)
  refine ⟨_, _, ha, hb, by decide, ?_⟩
  rw [cstrAt_native _ _ _ ha.converts, cstrAt_native _ _ _ hb.converts]
  decide

/-- Short names without a NUL are kept apart. -/
theorem staysDifferent_logSocket :
    (abstractAddr (lit "log") (by decide)).linuxName ≠
        (abstractAddr (lit "bus") (by decide)).linuxName ∧
      ∃ na nb,
        Accepted obligingNatives (Stack.filled 7)
          (abstractAddr (lit "log") (by decide)) [0] na ∧
        Accepted obligingNatives (Stack.filled 7)
          (abstractAddr (lit "bus") (by decide)) [0] nb ∧
        na.cstrAt 2 ≠ nb.cstrAt 2 := by
  have ha : Accepted obligingNatives (Stack.filled 7)
      (abstractAddr (lit "log") (by decide)) [0] _ :=
    accepted_of (by decide) (by decide)
  have hb : Accepted obligingNatives (Stack.filled 7)
      (abstractAddr (lit "bus") (by decide)) [0] _ :=
    accepted_of (by decide) (by decide)
  have hne : (abstractAddr (lit "log") (by decide)).linuxName ≠
      (abstractAddr (lit "bus") (by decide)).linuxName := by decide
  exact ⟨hne, _, _, ha, hb,
    (staysDifferent_iff ha hb).mpr (fun _ => by decide) hne⟩

/-! ## What lies behind the address -/

/-- What a call makes of the address is decided by the bytes within its
length: no tail changes what is handed down, or whether the call returns;
and a pathname that fills the length is handed down whole. -/
def WithinLength (w : Natives) (stack : Stack) (c : AddrCall) (a : UnixAddr) :
    Prop :=
  (∀ tail tail',
    c.handed w stack (a.bytes ++ tail) a.bytes.length =
        c.handed w stack (a.bytes ++ tail') a.bytes.length ∧
      c.stopped w stack (a.bytes ++ tail) a.bytes.length =
        c.stopped w stack (a.bytes ++ tail') a.bytes.length) ∧
  (c.FlagsKnown → ¬a.Abstract → 0 ∉ a.bytes.drop 2 → ∀ tail, ∃ native,
    c.handed w stack (a.bytes ++ tail) a.bytes.length = [native] ∧
      native.cstrAt 2 = .ok (a.bytes.drop 2))

section Within

variable {stack : Stack} {c : AddrCall} {a : UnixAddr}

theorem UnixAddr.nameOff_le (a : UnixAddr) : a.nameOff ≤ a.bytes.length := by
  have hthree := a.three_le
  rw [nameOff]
  split <;> omega

/-- The scan stops within the length. -/
theorem passes_of_nul (h : 0 ∈ a.bytes.drop a.nameOff) (tail : Buf) :
    c.passes stack (a.bytes ++ tail) a.bytes.length =
      c.passes stack a.bytes a.bytes.length := by
  have hconv : ∀ t, nativeAddrOf stack (a.bytes ++ t) a.bytes.length =
      a.convert stack ((a.bytes.drop a.nameOff).takeWhile (· ≠ 0)) := by
    intro t
    rw [nativeAddrOf_eq, cstrAt_of_mem (by
      rw [List.drop_append_of_le_length a.nameOff_le]
      exact List.mem_append_left _ h), ok_bind,
      List.drop_append_of_le_length a.nameOff_le, takeWhile_append_of_mem h]
  have hself := hconv []
  rw [List.append_nil] at hself
  rw [AddrCall.passes, AddrCall.passes, hconv tail, hself]

/-- The scan leaves the length: it runs out of a buffer that ends there, and
is stopped by a NUL that follows. -/
theorem stopped_of_no_nul (stack : Stack) (c : AddrCall)
    (h : 0 ∉ a.bytes.drop a.nameOff) :
    (c.passes stack (a.bytes ++ []) a.bytes.length).stopped = some .fault ∧
      (c.passes stack (a.bytes ++ [0]) a.bytes.length).stopped ≠ some .fault := by
  constructor
  · rw [AddrCall.passes, nativeAddrOf_eq, List.append_nil, cstrAt_of_notMem h]
    rfl
  · have hmem : 0 ∈ (a.bytes ++ [0]).drop a.nameOff := by
      rw [List.drop_append_of_le_length a.nameOff_le]
      exact List.mem_append_right _ (List.mem_singleton_self 0)
    rw [AddrCall.passes, nativeAddrOf_eq, cstrAt_of_mem hmem, ok_bind]
    have hflags : ∀ native : Buf,
        (do require c.FlagsKnown; return native : Outcome Buf).stopped ≠
          some .fault := fun native =>
      stopped_bind_ne (stopped_require_ne nofun) fun _ => nofun
    refine stopped_bind_ne ?_ hflags
    rw [convert]
    split
    · exact nofun
    · exact stopped_bind_ne (stopped_require_ne nofun) fun _ => nofun

end Within

theorem withinLength_iff (w : Natives) (stack : Stack) (c : AddrCall)
    (a : UnixAddr) :
    WithinLength w stack c a ↔ 0 ∈ a.bytes.drop a.nameOff := by
  constructor
  · rintro ⟨hsame, -⟩
    by_contra hnul
    obtain ⟨hfault, hnot⟩ := stopped_of_no_nul stack c hnul
    have hstop := (hsame [] [0]).2
    rw [c.spec.2, c.spec.2] at hstop
    exact hnot (hstop ▸ hfault)
  · intro hnul
    refine ⟨fun tail tail' => ?_, fun _ habs hno => ?_⟩
    · rw [c.spec.1, c.spec.1, c.spec.2, c.spec.2, passes_of_nul hnul,
        passes_of_nul hnul]
      exact ⟨rfl, rfl⟩
    · rw [nameOff, if_neg habs] at hnul
      exact absurd hnul hno

/-- The address of a pathname without its NUL. -/
def shortPath : UnixAddr where
  bytes := [1, 0] ++ lit "ab"
  three_le := by decide
  le_size := by decide
  family := by decide

/-- What lies behind it gets into the path. -/
theorem shortPath_runs_on :
    ∃ n n',
      (AddrCall.bind 3).handed obligingNatives (Stack.filled 7)
          (shortPath.bytes ++ [0]) shortPath.bytes.length = [n] ∧
      (AddrCall.bind 3).handed obligingNatives (Stack.filled 7)
          (shortPath.bytes ++ (lit "c" ++ [0])) shortPath.bytes.length = [n'] ∧
      n.cstrAt 2 = .ok (lit "ab") ∧ n'.cstrAt 2 = .ok (lit "abc") := by
  have hdest := (Stack.filled 7).length_bytes sizeofSockaddrUn
  refine ⟨_, _, handed_of _ (by decide) (by decide) trivial,
    handed_of _ (by decide) (by decide) trivial, ?_, ?_⟩
  · exact cstrAt_sockaddrUn hdest (by decide)
  · exact cstrAt_sockaddrUn hdest (by decide)

end Libc6Shim
