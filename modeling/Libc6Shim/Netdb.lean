import Libc6Shim.SockCalls

/-!
# Names for addresses

`getnameinfo` of `src/libc/netdb.c`. The family of the address is switched
over as `bind`, `connect` and `sendto` do it, and what the native call
reports - an `EAI_` code or zero - is handed back as it is.
-/

namespace Libc6Shim

open CSem Buf

/-! ## Flags -/

def linuxNiNumerichost : Word := 1
def linuxNiNumericserv : Word := 2
def linuxNiNofqdn : Word := 4
def linuxNiNamereqd : Word := 8
def linuxNiDgram : Word := 16

def niNofqdn : Word := 0x01
def niNumerichost : Word := 0x02
def niNamereqd : Word := 0x04
def niNumericserv : Word := 0x08
def niDgram : Word := 0x10

def knownLinuxNiFlags : Word :=
  linuxNiNumerichost ||| linuxNiNumericserv ||| linuxNiNofqdn |||
  linuxNiNamereqd ||| linuxNiDgram

/-- In the source's order: Linux bit, native bit. -/
def niFlagPairs : List (Word × Word) :=
  [(linuxNiNumerichost, niNumerichost), (linuxNiNumericserv, niNumericserv),
    (linuxNiNofqdn, niNofqdn), (linuxNiNamereqd, niNamereqd),
    (linuxNiDgram, niDgram)]

def linuxToNativeNiFlags (linuxFlags : Word) : Outcome Word := do
  Outcome.require (linuxFlags &&& ~~~knownLinuxNiFlags = 0)
  return setFlags 0 niFlagPairs linuxFlags

/-! ## The call -/

inductive NetdbCall where
  | getnameinfo (sa : Buf) (hostlen servlen : Nat) (flags : Word)

/-- What `getnameinfo` returns, and what it stores. -/
structure NameinfoAnswer where
  err : Int
  host : Buf
  serv : Buf

@[reducible] def NetdbAnswer : NetdbCall → Type
  | .getnameinfo .. => NameinfoAnswer

abbrev NetdbProg := Prog NetdbCall NetdbAnswer

def shimGetnameinfo (stack : Stack) (linuxAddr : Buf) (linuxAddrlen : Nat)
    (hostlen servlen : Nat) (linuxFlags : Word) : NetdbProg NameinfoAnswer := do
  let addr ← Prog.ofOutcome (nativeAddrOf stack linuxAddr linuxAddrlen)
  let flags ← Prog.ofOutcome (linuxToNativeNiFlags linuxFlags)
  .call (.getnameinfo addr hostlen servlen flags) .ret

end Libc6Shim
