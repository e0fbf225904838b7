import Libc6Shim.NetRecords

/-!
# Interfaces and their addresses

`getifaddrs` and `freeifaddrs` (`src/libc/ifaddrs.c`). As with `getaddrinfo`, a
native list is copied into one of the shim's; the native side is a parameter
(`IfaddrsLib`), and `IfRecord` is what a record says on either side.

An interface may have an address of the link layer, of which the shim keeps the
index of the interface only.
-/

namespace Libc6Shim

open CSem Buf Outcome

/-! ## Flags -/

inductive IfFlag where
  | up | broadcast | debug | loopback | pointopoint | running | noarp | promisc
  | allmulti | multicast

def iffUp : Word := 0x0001
def iffBroadcast : Word := 0x0002
def iffDebug : Word := 0x0004
def iffLoopback : Word := 0x0008
def iffPointopoint : Word := 0x0010
def iffRunning : Word := 0x0040
def iffNoarp : Word := 0x0080
def iffPromisc : Word := 0x0100
def iffAllmulti : Word := 0x0200
def iffMulticast : Word := 0x8000

def linuxIffUp : Word := 0x0001
def linuxIffBroadcast : Word := 0x0002
def linuxIffDebug : Word := 0x0004
def linuxIffLoopback : Word := 0x0008
def linuxIffPointopoint : Word := 0x0010
def linuxIffRunning : Word := 0x0040
def linuxIffNoarp : Word := 0x0080
def linuxIffPromisc : Word := 0x0100
def linuxIffAllmulti : Word := 0x0200
def linuxIffMulticast : Word := 0x1000

/-- In the source's order: native bit, Linux bit. -/
def ifFlagPairs : List (Word × Word) :=
  [(iffUp, linuxIffUp), (iffBroadcast, linuxIffBroadcast),
    (iffDebug, linuxIffDebug), (iffLoopback, linuxIffLoopback),
    (iffPointopoint, linuxIffPointopoint), (iffRunning, linuxIffRunning),
    (iffNoarp, linuxIffNoarp), (iffPromisc, linuxIffPromisc),
    (iffAllmulti, linuxIffAllmulti), (iffMulticast, linuxIffMulticast)]

def nativeToLinuxIfFlags (flags : Word) : Word := setFlags 0 ifFlagPairs flags

namespace IfFlag

def native : IfFlag → Word
  | up => iffUp
  | broadcast => iffBroadcast
  | debug => iffDebug
  | loopback => iffLoopback
  | pointopoint => iffPointopoint
  | running => iffRunning
  | noarp => iffNoarp
  | promisc => iffPromisc
  | allmulti => iffAllmulti
  | multicast => iffMulticast

def linux : IfFlag → Word
  | up => linuxIffUp
  | broadcast => linuxIffBroadcast
  | debug => linuxIffDebug
  | loopback => linuxIffLoopback
  | pointopoint => linuxIffPointopoint
  | running => linuxIffRunning
  | noarp => linuxIffNoarp
  | promisc => linuxIffPromisc
  | allmulti => linuxIffAllmulti
  | multicast => linuxIffMulticast

end IfFlag

/-- All that a Linux program knows. -/
def knownLinuxIfFlags : Word :=
  linuxIffUp ||| linuxIffBroadcast ||| linuxIffDebug ||| linuxIffLoopback |||
  linuxIffPointopoint ||| linuxIffRunning ||| linuxIffNoarp |||
  linuxIffPromisc ||| linuxIffAllmulti ||| linuxIffMulticast

/-! ## Addresses -/

def afLink : Word := 18
def linuxAfPacket : Word := 17

/-- `sizeof(struct linux_sockaddr_ll)`. -/
def sizeofLinuxSockaddrLl : Nat := 20

def nativeToLinuxSockaddrDl (dest src : Buf) : Outcome Buf := do
  let dest ← dest.store 0 (leBytes 2 linuxAfPacket.toNat)
  let dest ← dest.store 2 (leBytes 2 0)
  let dest ← dest.store 4 (leBytes 4 (← src.loadNat 2 2))
  let dest ← dest.store 8 (leBytes 2 0)
  let dest ← dest.store 10 [0]
  let dest ← dest.store 11 [0]
  dest.store 12 (.replicate 8 0)

/-- The address of an interface: the index of the interface at the link layer,
or an address of one of the internet families. -/
inductive IfAddr where
  | link (index : Nat)
  | inet (addr : InetAddr)

def IfAddr.IsNative (b : Buf) : IfAddr → Prop
  | .link index => saFamily b = .ok afLink ∧ 4 ≤ b.length ∧ natAt b 2 2 = index
  | .inet addr => saFamily b = .ok addr.family ∧ addr.IsNative b

def IfAddr.IsLinux (b : Buf) : IfAddr → Prop
  | .link index => b = leBytes 2 linuxAfPacket.toNat ++ leBytes 2 0 ++
      leBytes 4 index ++ .replicate 12 0
  | .inet addr => addr.IsLinux b

/-- A netmask of a native interface. -/
def IsNativeNetmask (b : Buf) (x : InetAddr) : Prop :=
  saFamily b = .ok x.family ∧ x.IsNative b

/-! ## Records -/

/-- FreeBSD's `struct ifaddrs`. -/
structure NativeIfaddrs where
  ifaNext : Ptr
  ifaName : Ptr
  ifaFlags : Word
  ifaAddr : Ptr
  ifaNetmask : Ptr
  ifaDstaddr : Ptr
  ifaData : Ptr

structure LinuxIfaddrs where
  ifaNext : Ptr
  ifaName : Ptr
  ifaFlags : Word
  ifaAddr : Ptr
  ifaNetmask : Ptr
  ifaDstaddr : Ptr
  ifaData : Ptr

abbrev IfaddrsObj := NetObj NativeIfaddrs LinuxIfaddrs

abbrev IfaddrsHeap := Heap IfaddrsObj

/-- What a record says. -/
structure IfRecord where
  name : Buf
  flags : IfFlag → Bool
  addr : Option IfAddr
  netmask : Option InetAddr

structure IfRecord.IsNative (h : IfaddrsHeap) (ifa : NativeIfaddrs) (x : IfRecord) :
    Prop where
  name : BytesAt h IsString ifa.ifaName x.name
  flags : ∀ f : IfFlag, ifa.ifaFlags &&& f.native ≠ 0 ↔ x.flags f = true
  addr : OrNull (BytesAt h IfAddr.IsNative) ifa.ifaAddr x.addr
  netmask : OrNull (BytesAt h IsNativeNetmask) ifa.ifaNetmask x.netmask

structure IfRecord.IsLinux (h : IfaddrsHeap) (ifa : LinuxIfaddrs) (x : IfRecord) :
    Prop where
  name : BytesAt h IsString ifa.ifaName x.name
  flags : ∀ f : IfFlag, ifa.ifaFlags &&& f.linux ≠ 0 ↔ x.flags f = true
  known : ifa.ifaFlags &&& ~~~knownLinuxIfFlags = 0
  addr : OrNull (BytesAt h IfAddr.IsLinux) ifa.ifaAddr x.addr
  netmask : OrNull (BytesAt h InetAddr.IsLinux) ifa.ifaNetmask x.netmask

section

variable {h h' : IfaddrsHeap} {x : IfRecord}

theorem IfRecord.IsNative.congr {ifa : NativeIfaddrs}
    (hi : IfRecord.IsNative h ifa x)
    (hsame : ∀ q ∈ [ifa.ifaName, ifa.ifaAddr, ifa.ifaNetmask].filter (· ≠ null),
      h'.obj q = h.obj q) : IfRecord.IsNative h' ifa x where
  name := hi.name.congr (hsame _ (by simp [hi.name.ne_null]))
  flags := hi.flags
  addr := orNull_congr hi.addr fun hne => hsame _ (by simp [hne])
  netmask := orNull_congr hi.netmask fun hne => hsame _ (by simp [hne])

theorem IfRecord.IsLinux.congr {ifa : LinuxIfaddrs}
    (hi : IfRecord.IsLinux h ifa x)
    (hsame : ∀ q ∈ [ifa.ifaName, ifa.ifaAddr, ifa.ifaNetmask,
      ifa.ifaDstaddr].filter (· ≠ null), h'.obj q = h.obj q) :
    IfRecord.IsLinux h' ifa x where
  name := hi.name.congr (hsame _ (by simp [hi.name.ne_null]))
  flags := hi.flags
  known := hi.known
  addr := orNull_congr hi.addr fun hne => hsame _ (by simp [hne])
  netmask := orNull_congr hi.netmask fun hne => hsame _ (by simp [hne])

end

/-- `ifa_next` of a native record. -/
def ifaddrsEntry : OwnerEntry IfaddrsObj IfRecord where
  next a := match a with
    | .native ifa => some ifa.ifaNext
    | _ => none
  link q a := match a with
    | .native ifa => .native { ifa with ifaNext := q }
    | a => a
  next_link q a p hp := by
    cases a <;> first | rfl | cases hp
  parts a := match a with
    | .native ifa => [ifa.ifaName, ifa.ifaAddr, ifa.ifaNetmask].filter (· ≠ null)
    | _ => []
  Tells h a x := match a with
    | .native ifa => IfRecord.IsNative h ifa x
    | _ => False
  parts_link q a := by cases a <;> rfl
  tells_link {h a x} q ht := by
    cases a with
    | native ifa => exact { ht with }
    | linux ifa => exact ht
    | bytes b => exact ht
  tells_congr {h h' a x} ht hsame := by
    cases a with
    | native ifa => exact IfRecord.IsNative.congr ht hsame
    | linux ifa => exact ht
    | bytes b => exact ht

/-- `ifa_next` of one of the shim's. -/
def linuxIfaddrsEntry : OwnerEntry IfaddrsObj IfRecord where
  next a := match a with
    | .linux ifa => some ifa.ifaNext
    | _ => none
  link q a := match a with
    | .linux ifa => .linux { ifa with ifaNext := q }
    | a => a
  next_link q a p hp := by
    cases a <;> first | rfl | cases hp
  parts a := match a with
    | .linux ifa => [ifa.ifaName, ifa.ifaAddr, ifa.ifaNetmask,
        ifa.ifaDstaddr].filter (· ≠ null)
    | _ => []
  Tells h a x := match a with
    | .linux ifa => IfRecord.IsLinux h ifa x
    | _ => False
  parts_link q a := by cases a <;> rfl
  tells_link {h a x} q ht := by
    cases a with
    | native ifa => exact ht
    | linux ifa => exact { ht with }
    | bytes b => exact ht
  tells_congr {h h' a x} ht hsame := by
    cases a with
    | native ifa => exact ht
    | linux ifa => exact IfRecord.IsLinux.congr ht hsame
    | bytes b => exact ht

/-! ## The calls -/

/-- The `switch` over the family of `ifa_addr`. -/
def copyIfaAddr (junk : Malloced LinuxIfaddrs) (addr : Ptr) (h : IfaddrsHeap) :
    Outcome (Ptr × IfaddrsHeap) := do
  let family ← saFamily (← loadBytes h addr)
  if family = afLink then
    mallocAddr junk sizeofLinuxSockaddrLl nativeToLinuxSockaddrDl addr h
  else if family = pfInet then
    mallocAddr junk sizeofSockaddrIn nativeToLinuxSockaddrIn addr h
  else if family = pfInet6 then
    mallocAddr junk sizeofSockaddrIn6 nativeToLinuxSockaddrIn6 addr h
  else .error .abort

/-- And over that of `ifa_netmask`. -/
def copyIfaNetmask (junk : Malloced LinuxIfaddrs) (netmask : Ptr)
    (h : IfaddrsHeap) : Outcome (Ptr × IfaddrsHeap) := do
  let family ← saFamily (← loadBytes h netmask)
  if family = pfInet then
    mallocAddr junk sizeofSockaddrIn nativeToLinuxSockaddrIn netmask h
  else if family = pfInet6 then
    mallocAddr junk sizeofSockaddrIn6 nativeToLinuxSockaddrIn6 netmask h
  else .error .abort

/-- All fields but `ifa_next` are set. -/
def copyIfaddrs (junk : Malloced LinuxIfaddrs) (ifa : Ptr) (h : IfaddrsHeap) :
    Outcome (Ptr × IfaddrsHeap) := do
  let (linuxIfa, h) := h.malloc (.linux (junk.info h.next))
  let i ← loadNative h ifa
  let (name, h) ← strdup i.ifaName h
  let (addr, h) ← orNull (copyIfaAddr junk) i.ifaAddr h
  let (netmask, h) ← orNull (copyIfaNetmask junk) i.ifaNetmask h
  let l ← loadLinux h linuxIfa
  let h ← h.store linuxIfa (.linux { l with
    ifaName := name
    ifaFlags := nativeToLinuxIfFlags i.ifaFlags
    ifaAddr := addr
    ifaNetmask := netmask
    ifaDstaddr := null
    ifaData := null })
  return (linuxIfa, h)

structure IfaddrsLib where
  getifaddrs : IfaddrsHeap → Int × Ptr × IfaddrsHeap
  freeifaddrs : Ptr → IfaddrsHeap → Outcome IfaddrsHeap

/-- The list that the native `getifaddrs` returns can be given back to
`freeifaddrs`. -/
def IfaddrsLib.Documented (lib : IfaddrsLib) : Prop :=
  ∀ h head h₁ xs own, lib.getifaddrs h = (0, head, h₁) →
    HasList ifaddrsEntry h₁ head xs own → TakesBack lib.freeifaddrs h₁ head own

/-- What it returns, and what it stores in `*res`, if anything. -/
def shimGetifaddrs (lib : IfaddrsLib) (junk : Malloced LinuxIfaddrs) (budget : Nat)
    (h : IfaddrsHeap) : Outcome (Int × Option Ptr × IfaddrsHeap) := do
  let (err, listHead, h) := lib.getifaddrs h
  if err = 0 then
    let (res, h) ← copyList linuxIfaddrsEntry.toSlistEntry
      ifaddrsEntry.toSlistEntry (copyIfaddrs junk) budget listHead h
    let h ← lib.freeifaddrs listHead h
    return (err, some res, h)
  else return (err, none, h)

/-- The body of the loop of `shim_freeifaddrs_impl`. -/
def releaseIfaddrs (ifa : Ptr) (h : IfaddrsHeap) : Outcome IfaddrsHeap := do
  let i ← loadLinux h ifa
  let h ← h.free i.ifaName
  let i ← loadLinux h ifa
  let h ← h.freeIf i.ifaAddr
  let i ← loadLinux h ifa
  let h ← h.freeIf i.ifaNetmask
  let i ← loadLinux h ifa
  let h ← h.freeIf i.ifaDstaddr
  h.free ifa

def shimFreeifaddrs (budget : Nat) (ifa : Ptr) (h : IfaddrsHeap) :
    Outcome IfaddrsHeap :=
  Slist.foreachSafe linuxIfaddrsEntry.toSlistEntry releaseIfaddrs budget ifa h

end Libc6Shim
