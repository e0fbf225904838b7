import Libc6Shim.CSemString
import Libc6Shim.SockNames

/-!
# Socket addresses

The address converters of `src/libc/sys/socket.c`, byte by byte. A Linux
address starts with a two-byte family; a native one with a one-byte length,
which the shim leaves zero, and a one-byte family. Fields a converter does
not store keep what the destination held before - which for a destination
on the shim's stack is whatever was there.

The converters write through pointers to the family's structure, so a
destination shorter than the structure faults; the callers' length checks
are `require`s, in the source's order.
-/

namespace Libc6Shim

open CSem Buf

/-! ## Sizes -/

/-- `sizeof(struct sockaddr_in)`, the same on both sides. -/
def sizeofSockaddrIn : Nat := 16

/-- `sizeof(struct sockaddr_in6)`, the same on both sides. -/
def sizeofSockaddrIn6 : Nat := 28

/-- `sizeof(struct linux_sockaddr_un)`. -/
def sizeofLinuxSockaddrUn : Nat := 110

/-- `sizeof(struct sockaddr_un)`. -/
def sizeofSockaddrUn : Nat := 106

/-- `sizeof(linux_sockaddr_un.sun_path)`. -/
def linuxSunPathSize : Nat := 108

/-- `sizeof(sockaddr_un.sun_path)`. -/
def sunPathSize : Nat := 104

/-- `sizeof(struct sockaddr_storage)`. -/
def sizeofSockaddrStorage : Nat := 128

/-! ## Linux to native -/

def linuxToNativeSockaddrIn (dest src : Buf) : Outcome Buf := do
  let dest ← dest.store 0 [0]
  let dest ← dest.store 1 (leBytes 1 pfInet.toNat)
  let dest ← dest.store 2 (← src.load 2 2)
  let dest ← dest.store 4 (← src.load 4 4)
  dest.store 8 (← src.load 8 8)

def linuxToNativeSockaddrIn6 (dest src : Buf) : Outcome Buf := do
  let dest ← dest.store 0 [0]
  let dest ← dest.store 1 (leBytes 1 pfInet6.toNat)
  let dest ← dest.store 2 (← src.load 2 2)
  let dest ← dest.store 4 (← src.load 4 4)
  let dest ← dest.store 8 (← src.load 8 16)
  dest.store 24 (← src.load 24 4)

def linuxToNativeSockaddrUn (dest src : Buf) : Outcome Buf := do
  let dest ← dest.store 0 [0]
  let dest ← dest.store 1 (leBytes 1 pfUnix.toNat)
  if (← src.load 2 1) = [0] then
    -- abstract: snprintf cuts "/var/run/%s" to the array
    dest.storeStr 2 sunPathSize (lit "/var/run/" ++ (← src.cstrAt 3))
  else
    let path ← src.cstrAt 2
    let dest ← dest.storeStr 2 sunPathSize path
    Outcome.require (path.length < sunPathSize)
    return dest

/-- The family of a Linux address. -/
def linuxSaFamily (linuxAddr : Buf) : Outcome Word := do
  return BitVec.ofNat 32 (← linuxAddr.loadNat 0 2)

def linuxToNativeSockaddr (addr : Buf) (len : Nat) (linuxAddr : Buf) :
    Outcome (Buf × Nat) := do
  let family ← linuxSaFamily linuxAddr
  if family = linuxPfUnix then
    Outcome.require (sizeofSockaddrUn ≤ len)
    return (← linuxToNativeSockaddrUn addr linuxAddr, sizeofSockaddrUn)
  else if family = linuxPfInet then
    Outcome.require (sizeofSockaddrIn ≤ len)
    return (← linuxToNativeSockaddrIn addr linuxAddr, sizeofSockaddrIn)
  else if family = linuxPfInet6 then
    Outcome.require (sizeofSockaddrIn6 ≤ len)
    return (← linuxToNativeSockaddrIn6 addr linuxAddr, sizeofSockaddrIn6)
  else .error .abort

/-! ## Native to Linux -/

def nativeToLinuxSockaddrIn (dest src : Buf) : Outcome Buf := do
  let dest ← dest.store 0 (leBytes 2 linuxPfInet.toNat)
  let dest ← dest.store 2 (← src.load 2 2)
  let dest ← dest.store 4 (← src.load 4 4)
  dest.store 8 (← src.load 8 8)

def nativeToLinuxSockaddrIn6 (dest src : Buf) : Outcome Buf := do
  let dest ← dest.store 0 (leBytes 2 linuxPfInet6.toNat)
  let dest ← dest.store 2 (← src.load 2 2)
  let dest ← dest.store 4 (← src.load 4 4)
  let dest ← dest.store 8 (← src.load 8 16)
  dest.store 24 (← src.load 24 4)

def nativeToLinuxSockaddrUn (dest src : Buf) : Outcome Buf := do
  let dest ← dest.store 0 (leBytes 2 linuxPfUnix.toNat)
  -- strlcpy measures the whole source string before it cuts the copy
  let path ← src.cstrAt 2
  let dest ← dest.storeStr 2 linuxSunPathSize path
  Outcome.require (path.length < linuxSunPathSize)
  return dest

/-- The family of a native address. -/
def saFamily (addr : Buf) : Outcome Word := do
  return BitVec.ofNat 32 (← addr.loadNat 1 1)

def nativeToLinuxSockaddr (linuxAddr : Buf) (linuxLen : Nat) (addr : Buf) :
    Outcome (Buf × Nat) := do
  let family ← saFamily addr
  if family = pfUnix then
    Outcome.require (sizeofLinuxSockaddrUn ≤ linuxLen)
    return (← nativeToLinuxSockaddrUn linuxAddr addr, sizeofLinuxSockaddrUn)
  else if family = pfInet then
    Outcome.require (sizeofSockaddrIn ≤ linuxLen)
    return (← nativeToLinuxSockaddrIn linuxAddr addr, sizeofSockaddrIn)
  else if family = pfInet6 then
    Outcome.require (sizeofSockaddrIn6 ≤ linuxLen)
    return (← nativeToLinuxSockaddrIn6 linuxAddr addr, sizeofSockaddrIn6)
  else .error .abort

end Libc6Shim
