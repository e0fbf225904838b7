import Libc6Shim.NetRecords

/-!
# What a name resolves to

`getaddrinfo` and `freeaddrinfo` of `src/libc/netdb.c`. The native resolver
answers with a list of records, which the shim copies into one of its own and
gives back.

The resolver is a parameter (`Resolver`), of which `Resolver.Documented` says
what its `freeaddrinfo` does. What a record says (`AddrRecord`) is the
same on both sides; `addrinfoEntry` and `linuxAddrinfoEntry` say how either side
writes it down.
-/

namespace Libc6Shim

open CSem Buf Outcome

/-! ## Records -/

/-- FreeBSD's `struct addrinfo`. -/
structure NativeAddrinfo where
  aiFlags : Word
  aiFamily : Word
  aiSocktype : Word
  aiProtocol : Word
  aiAddrlen : Nat
  aiCanonname : Ptr
  aiAddr : Ptr
  aiNext : Ptr

structure LinuxAddrinfo where
  aiFlags : Word
  aiFamily : Word
  aiSocktype : Word
  aiProtocol : Word
  aiAddrlen : Nat
  aiAddr : Ptr
  aiCanonname : Ptr
  aiNext : Ptr

abbrev AddrinfoObj := NetObj NativeAddrinfo LinuxAddrinfo

abbrev AddrinfoHeap := Heap AddrinfoObj

inductive SockKind where
  | unspec | stream | dgram | raw

def SockKind.native : SockKind → Word
  | .unspec => 0
  | .stream => sockStream
  | .dgram => sockDgram
  | .raw => sockRaw

def SockKind.linux : SockKind → Word
  | .unspec => 0
  | .stream => linuxSockStream
  | .dgram => linuxSockDgram
  | .raw => linuxSockRaw

/-- What a record says. -/
structure AddrRecord where
  addr : InetAddr
  socktype : SockKind
  protocol : Word
  canonname : Option Buf

structure AddrRecord.IsNative (h : AddrinfoHeap) (info : NativeAddrinfo)
    (x : AddrRecord) : Prop where
  family : info.aiFamily = x.addr.family
  socktype : info.aiSocktype = x.socktype.native
  protocol : info.aiProtocol = x.protocol
  canonname : OrNull (BytesAt h IsString) info.aiCanonname x.canonname
  addr : BytesAt h InetAddr.IsNative info.aiAddr x.addr

structure AddrRecord.IsLinux (h : AddrinfoHeap) (info : LinuxAddrinfo)
    (x : AddrRecord) : Prop where
  family : info.aiFamily = x.addr.linuxFamily
  socktype : info.aiSocktype = x.socktype.linux
  protocol : info.aiProtocol = x.protocol
  canonname : OrNull (BytesAt h IsString) info.aiCanonname x.canonname
  addr : BytesAt h InetAddr.IsLinux info.aiAddr x.addr
  addrlen : info.aiAddrlen = x.addr.size

section

variable {h h' : AddrinfoHeap} {x : AddrRecord}

theorem AddrRecord.IsNative.congr {info : NativeAddrinfo}
    (hi : AddrRecord.IsNative h info x)
    (hsame : ∀ q ∈ [info.aiCanonname, info.aiAddr].filter (· ≠ null),
      h'.obj q = h.obj q) : AddrRecord.IsNative h' info x where
  family := hi.family
  socktype := hi.socktype
  protocol := hi.protocol
  canonname := orNull_congr hi.canonname fun hne => hsame _ (by simp [hne])
  addr := hi.addr.congr (hsame _ (by simp [hi.addr.ne_null]))

theorem AddrRecord.IsLinux.congr {info : LinuxAddrinfo}
    (hi : AddrRecord.IsLinux h info x)
    (hsame : ∀ q ∈ [info.aiCanonname, info.aiAddr].filter (· ≠ null),
      h'.obj q = h.obj q) : AddrRecord.IsLinux h' info x where
  family := hi.family
  socktype := hi.socktype
  protocol := hi.protocol
  canonname := orNull_congr hi.canonname fun hne => hsame _ (by simp [hne])
  addr := hi.addr.congr (hsame _ (by simp [hi.addr.ne_null]))
  addrlen := hi.addrlen

end

/-- `ai_next` of a native record. -/
def addrinfoEntry : OwnerEntry AddrinfoObj AddrRecord where
  next a := match a with
    | .native info => some info.aiNext
    | _ => none
  link q a := match a with
    | .native info => .native { info with aiNext := q }
    | a => a
  next_link q a p hp := by
    cases a <;> first | rfl | cases hp
  parts a := match a with
    | .native info => [info.aiCanonname, info.aiAddr].filter (· ≠ null)
    | _ => []
  Tells h a x := match a with
    | .native info => AddrRecord.IsNative h info x
    | _ => False
  parts_link q a := by cases a <;> rfl
  tells_link {h a x} q ht := by
    cases a with
    | native info => exact { ht with }
    | linux info => exact ht
    | bytes b => exact ht
  tells_congr {h h' a x} ht hsame := by
    cases a with
    | native info => exact AddrRecord.IsNative.congr ht hsame
    | linux info => exact ht
    | bytes b => exact ht

/-- `ai_next` of one of the shim's. -/
def linuxAddrinfoEntry : OwnerEntry AddrinfoObj AddrRecord where
  next a := match a with
    | .linux info => some info.aiNext
    | _ => none
  link q a := match a with
    | .linux info => .linux { info with aiNext := q }
    | a => a
  next_link q a p hp := by
    cases a <;> first | rfl | cases hp
  parts a := match a with
    | .linux info => [info.aiCanonname, info.aiAddr].filter (· ≠ null)
    | _ => []
  Tells h a x := match a with
    | .linux info => AddrRecord.IsLinux h info x
    | _ => False
  parts_link q a := by cases a <;> rfl
  tells_link {h a x} q ht := by
    cases a with
    | native info => exact ht
    | linux info => exact { ht with }
    | bytes b => exact ht
  tells_congr {h h' a x} ht hsame := by
    cases a with
    | native info => exact ht
    | linux info => exact AddrRecord.IsLinux.congr ht hsame
    | bytes b => exact ht

/-! ## Hints -/

def linuxAiPassive : Word := 0x01
def linuxAiCanonname : Word := 0x02
def linuxAiNumerichost : Word := 0x04
def linuxAiV4mapped : Word := 0x08
def linuxAiAll : Word := 0x10
def linuxAiAddrconfig : Word := 0x20

def knownLinuxAiFlags : Word :=
  linuxAiPassive ||| linuxAiCanonname ||| linuxAiNumerichost |||
  linuxAiV4mapped ||| linuxAiAll ||| linuxAiAddrconfig

def aiPassive : Word := 0x001
def aiCanonname : Word := 0x002
def aiNumerichost : Word := 0x004
def aiAll : Word := 0x100
def aiAddrconfig : Word := 0x400
def aiV4mapped : Word := 0x800

/-- In the source's order: Linux bit, native bit. -/
def aiFlagPairs : List (Word × Word) :=
  [(linuxAiPassive, aiPassive), (linuxAiCanonname, aiCanonname),
    (linuxAiNumerichost, aiNumerichost), (linuxAiV4mapped, aiV4mapped),
    (linuxAiAll, aiAll), (linuxAiAddrconfig, aiAddrconfig)]

def linuxToNativeAiFlags (linuxFlags : Word) : Outcome Word := do
  require (linuxFlags &&& ~~~knownLinuxAiFlags = 0)
  return setFlags 0 aiFlagPairs linuxFlags

def linuxAfUnspec : Word := 0
def afUnspec : Word := 0

/-- The `hints` that `shim_getaddrinfo_impl` passes down. -/
def nativeHints : Option LinuxAddrinfo → Outcome NativeAddrinfo
  | some linuxHints => do
      let family ←
        if linuxHints.aiFamily = linuxAfUnspec then .ok afUnspec
        else if linuxHints.aiFamily = linuxPfInet then .ok pfInet
        else if linuxHints.aiFamily = linuxPfInet6 then .ok pfInet6
        else .error .abort
      let socktype ← linuxToNativeSockType linuxHints.aiSocktype
      let flags ← linuxToNativeAiFlags linuxHints.aiFlags
      return ⟨flags, family, socktype, linuxHints.aiProtocol, 0, null, null, null⟩
  | none => .ok ⟨0, afUnspec, 0, 0, 0, null, null, null⟩

/-! ## The calls -/

/-- The `switch` of `copy_addrinfo`: the family, the length, and the address in
memory of its own. -/
def copyAiAddr (junk : Malloced LinuxAddrinfo) (info : NativeAddrinfo)
    (h : AddrinfoHeap) : Outcome (Word × Nat × Ptr × AddrinfoHeap) := do
  if info.aiFamily = pfInet then
    let (linuxAddr, h) ←
      mallocAddr junk sizeofSockaddrIn nativeToLinuxSockaddrIn info.aiAddr h
    return (linuxPfInet, sizeofSockaddrIn, linuxAddr, h)
  else if info.aiFamily = pfInet6 then
    let (linuxAddr, h) ←
      mallocAddr junk sizeofSockaddrIn6 nativeToLinuxSockaddrIn6 info.aiAddr h
    return (linuxPfInet6, sizeofSockaddrIn6, linuxAddr, h)
  else .error .abort

/-- All fields but `ai_next` are set. -/
def copyAddrinfo (junk : Malloced LinuxAddrinfo) (info : Ptr) (h : AddrinfoHeap) :
    Outcome (Ptr × AddrinfoHeap) := do
  let (linuxInfo, h) := h.malloc (.linux (junk.info h.next))
  let i ← loadNative h info
  let socktype ← nativeToLinuxSockType i.aiSocktype
  let (canonname, h) ← orNull strdup i.aiCanonname h
  let (family, addrlen, linuxAddr, h) ← copyAiAddr junk i h
  let l ← loadLinux h linuxInfo
  let h ← h.store linuxInfo (.linux { l with
    aiFlags := 0
    aiFamily := family
    aiSocktype := socktype
    aiProtocol := i.aiProtocol
    aiAddrlen := addrlen
    aiAddr := linuxAddr
    aiCanonname := canonname })
  return (linuxInfo, h)

structure Resolver where
  getaddrinfo : Option Buf → Option Buf → NativeAddrinfo → AddrinfoHeap →
    Int × Ptr × AddrinfoHeap
  freeaddrinfo : Ptr → AddrinfoHeap → Outcome AddrinfoHeap

/-- The list that the native `getaddrinfo` returns can be given back to
`freeaddrinfo`. -/
def Resolver.Documented (lib : Resolver) : Prop :=
  ∀ hostname servname hints h head h₁ xs own,
    lib.getaddrinfo hostname servname hints h = (0, head, h₁) →
    HasList addrinfoEntry h₁ head xs own → TakesBack lib.freeaddrinfo h₁ head own

/-- What it returns, and what it stores in `*res`, if anything. -/
def shimGetaddrinfo (lib : Resolver) (junk : Malloced LinuxAddrinfo) (budget : Nat)
    (hostname servname : Option Buf) (linuxHints : Option LinuxAddrinfo)
    (h : AddrinfoHeap) : Outcome (Int × Option Ptr × AddrinfoHeap) := do
  let hints ← nativeHints linuxHints
  let (err, listHead, h) := lib.getaddrinfo hostname servname hints h
  if err = 0 then
    let (res, h) ← copyList linuxAddrinfoEntry.toSlistEntry
      addrinfoEntry.toSlistEntry (copyAddrinfo junk) budget listHead h
    let h ← lib.freeaddrinfo listHead h
    return (err, some res, h)
  else return (err, none, h)

/-- The body of the loop of `shim_freeaddrinfo_impl`. -/
def releaseAddrinfo (ai : Ptr) (h : AddrinfoHeap) : Outcome AddrinfoHeap := do
  let info ← loadLinux h ai
  let h ← h.freeIf info.aiCanonname
  let info ← loadLinux h ai
  let h ← h.free info.aiAddr
  h.free ai

def shimFreeaddrinfo (budget : Nat) (ai : Ptr) (h : AddrinfoHeap) :
    Outcome AddrinfoHeap :=
  Slist.foreachSafe linuxAddrinfoEntry.toSlistEntry releaseAddrinfo budget ai h

end Libc6Shim
