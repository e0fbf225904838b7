import Libc6Shim.Abi

/-!
# Requests to drivers

`ioctl` (`src/libc/sys/ioctl.c`). The number of a request says which way its
argument goes and how long it is, and the two systems lay this out
differently: Linux has two bits for the direction and fourteen for the length,
FreeBSD three and thirteen. The requests of some drivers are re-encoded and
handed down; a handful of others are known by number.

Only the debug build looks at whether a length fits. In the release build its
top bit, bit 29 of the request, is dropped without a word, so a request is
re-encoded without loss exactly if that bit is clear
(`driverRequests_reencoded_iff`).
-/

namespace Libc6Shim

open CSem Buf Outcome Routine

/-! ## The native call -/

/-- `ioctl`, with what its argument points to. -/
inductive IoctlCall where
  | ioctl (fd : Word) (request : Nat) (arg : Buf)
deriving DecidableEq

/-- A call that succeeds answers with its result and what the argument points
to then. -/
@[reducible] def IoctlAnswer : IoctlCall → Type
  | .ioctl .. => Word × Buf

abbrev IoctlRoutine := Routine IoctlCall IoctlAnswer

def iocVoid : Nat := 0x20000000
def iocOut : Nat := 0x40000000
def iocIn : Nat := 0x80000000

def iocparmMask : Nat := (1 <<< 13) - 1

/-- `_IOC`. -/
def ioc (inout group num len : Nat) : Nat :=
  inout ||| (len &&& iocparmMask) <<< 16 ||| group <<< 8 ||| num

def tiocgwinsz : Nat := 0x40087468
def fionread : Nat := 0x4004667f
def fionbio : Nat := 0x8004667e

/-! ## The shim -/

def linuxIocDir (x : Nat) : Nat := x >>> 30 &&& 0x0003
def linuxIocLen (x : Nat) : Nat := x >>> 16 &&& 0x3fff
def linuxIocGrp (x : Nat) : Nat := x >>> 8 &&& 0x00ff
def linuxIocCmd (x : Nat) : Nat := x &&& 0x00ff

def linuxToNativeDir : Nat → Outcome Nat
  | 0 => .ok iocVoid
  | 1 => .ok iocIn
  | 2 => .ok iocOut
  | 3 => .ok (iocIn ||| iocOut)
  | _ => .error .abort

/-- The two builds. -/
inductive Build where
  | debug
  | release
deriving Repr, DecidableEq

def checkLen (build : Build) (len : Nat) : Outcome Nat := do
  match build with
  | .debug => Outcome.require (len < 1 <<< 13)
  | .release => .ok ()
  return len

def linuxToNativeReq (build : Build) (x : Nat) : Outcome Nat := do
  let dir ← linuxToNativeDir (linuxIocDir x)
  let len ← checkLen build (linuxIocLen x)
  return ioc dir (linuxIocGrp x) (linuxIocCmd x) len

/-- The low half of a request to one of the drivers: nvidia, nvidia-modeset,
SOUND_MIXER_WRITE_VOLUME to SNDCTL_SYNTH_MEMAVL, DRM. -/
def IsDriverCommand (command : Nat) : Prop :=
  0x4600 ≤ command ∧ command ≤ 0x46ff ∨ command = 0x6d00 ∨
    0x4d00 ≤ command ∧ command ≤ 0x510e ∨ 0x6400 ≤ command ∧ command ≤ 0x64ff

instance : DecidablePred IsDriverCommand := fun _ =>
  inferInstanceAs (Decidable (_ ∨ _))

def nvUvmInitialize : Nat := 0x30000001
def nvUvmDeinitialize : Nat := 0x30000002

def nvErrNotSupported : Nat := 0x56

def linuxTiocgwinsz : Nat := 0x5413
def linuxFionread : Nat := 0x541b
def linuxFionbio : Nat := 0x5421
def linuxSiocgifconf : Nat := 0x8912
def linuxSndctlSysinfo : Nat := 0x84f85801

/-- `ioctl`, with `arg` in place after a failure. -/
def callIoctl (fd : Word) (request : Nat) (arg : Buf) :
    IoctlRoutine (Option Word × Buf) := do
  match ← Routine.native (.ioctl fd request arg) with
  | some (result, arg) => return (some result, arg)
  | none => return (none, arg)

/-- `arg` is what the third argument points to. -/
def shimIoctl (build : Build) (fd : Word) (request : Nat) (arg : Buf) :
    IoctlRoutine (Option Word × Buf) := do
  let command := request &&& 0xffff
  if IsDriverCommand command then
    let req ← linuxToNativeReq build request
    callIoctl fd req arg
  else if request = linuxTiocgwinsz then callIoctl fd tiocgwinsz arg
  else if request = linuxFionread then callIoctl fd fionread arg
  else if request = linuxFionbio then callIoctl fd fionbio arg
  else if request = linuxSiocgifconf then
    set einval
    return (none, arg)
  else if request = linuxSndctlSysinfo then
    set einval
    return (none, arg)
  else if request = nvUvmInitialize then
    -- `status` is the second field of the parameters
    let params ← arg.store 8 (leBytes 4 nvErrNotSupported)
    return (some 0, params)
  else if request = nvUvmDeinitialize then return (some 0, arg)
  else (.error .abort : Outcome (Option Word × Buf))

/-! ## What a request says -/

/-- Which way the argument goes, seen from the program. -/
inductive IoctlDir where
  | void
  | write
  | read
  | both
deriving Repr, DecidableEq

structure IoctlRequest where
  dir : IoctlDir
  len : Nat
  grp : Nat
  cmd : Nat
deriving Repr, DecidableEq

/-- The direction in Linux's two bits. -/
def linuxIocBitsDir (bits : Nat) : IoctlDir :=
  if bits = 0 then .void
  else if bits = 1 then .write
  else if bits = 2 then .read
  else .both

/-- A direction in FreeBSD's three bits. -/
def nativeIocBits : IoctlDir → Nat
  | .void => 1
  | .write => 4
  | .read => 2
  | .both => 6

/-- The direction in FreeBSD's three bits. -/
def nativeIocBitsDir (bits : Nat) : Option IoctlDir :=
  [.void, .write, .read, .both].find? fun dir => nativeIocBits dir = bits

/-- What a request of Linux says. -/
def linuxRequest (x : Nat) : IoctlRequest :=
  ⟨linuxIocBitsDir (x / 2 ^ 30 % 2 ^ 2), x / 2 ^ 16 % 2 ^ 14, x / 2 ^ 8 % 2 ^ 8,
    x % 2 ^ 8⟩

/-- What a native request says. -/
def nativeRequest (x : Nat) : Option IoctlRequest :=
  (nativeIocBitsDir (x / 2 ^ 29)).map fun dir =>
    ⟨dir, x / 2 ^ 16 % 2 ^ 13, x / 2 ^ 8 % 2 ^ 8, x % 2 ^ 8⟩

/-- A 32-bit request to one of the drivers. -/
structure DriverRequest where
  request : Nat
  lt : request < 2 ^ 32
  driver : IsDriverCommand (request % 2 ^ 16)

/-- The request `native` is what `x` is handed down as, whatever comes of
it. -/
def HandedDown (build : Build) (x : DriverRequest) (native : Nat) : Prop :=
  ∀ h e fd arg,
    calls h (shimIoctl build fd x.request arg) e = [.ioctl fd native arg]

/-- The request is not handed down at all. -/
def Rejected (build : Build) (x : DriverRequest) : Prop :=
  ∀ h e fd arg, calls h (shimIoctl build fd x.request arg) e = []

/-- The request is handed down as one that says the same, or rejected. -/
def Reencoded (build : Build) (x : DriverRequest) : Prop :=
  (∃ native, HandedDown build x native ∧
    nativeRequest native = some (linuxRequest x.request)) ∨ Rejected build x

/-- Two requests are handed down as one. -/
def SameNative (build : Build) (x y : DriverRequest) : Prop :=
  ∃ native, HandedDown build x native ∧ HandedDown build y native

/-! ## Fields -/

theorem linuxIocDir_eq (x : Nat) : linuxIocDir x = x / 2 ^ 30 % 2 ^ 2 := by
  rw [linuxIocDir, Nat.shiftRight_eq_div_pow]
  exact Nat.and_two_pow_sub_one_eq_mod _ 2

theorem linuxIocLen_eq (x : Nat) : linuxIocLen x = x / 2 ^ 16 % 2 ^ 14 := by
  rw [linuxIocLen, Nat.shiftRight_eq_div_pow]
  exact Nat.and_two_pow_sub_one_eq_mod _ 14

theorem linuxIocGrp_eq (x : Nat) : linuxIocGrp x = x / 2 ^ 8 % 2 ^ 8 := by
  rw [linuxIocGrp, Nat.shiftRight_eq_div_pow]
  exact Nat.and_two_pow_sub_one_eq_mod _ 8

theorem linuxIocCmd_eq (x : Nat) : linuxIocCmd x = x % 2 ^ 8 :=
  Nat.and_two_pow_sub_one_eq_mod _ 8

/-- A request with its fields in FreeBSD's places. -/
def packRequest (dir len grp cmd : Nat) : Nat :=
  2 ^ 29 * dir + (2 ^ 16 * len + (2 ^ 8 * grp + cmd))

/-- Fields that do not overlap are added. -/
theorem ioc_eq {dir grp cmd : Nat} (len : Nat) (hgrp : grp < 2 ^ 8)
    (hcmd : cmd < 2 ^ 8) :
    ioc (2 ^ 29 * dir) grp cmd len = packRequest dir (len % 2 ^ 13) grp cmd := by
  have hmask : len &&& iocparmMask = len % 2 ^ 13 :=
    Nat.and_two_pow_sub_one_eq_mod _ 13
  have hlow : 2 ^ 8 * grp + cmd < 2 ^ 16 := by omega
  have hmid : 2 ^ 16 * (len % 2 ^ 13) + (2 ^ 8 * grp + cmd) < 2 ^ 29 := by omega
  rw [ioc, hmask, Nat.shiftLeft_eq, Nat.shiftLeft_eq, Nat.mul_comm _ (2 ^ 16),
    Nat.mul_comm _ (2 ^ 8), Nat.or_assoc, Nat.or_assoc,
    ← Nat.two_pow_add_eq_or_of_lt hcmd, ← Nat.two_pow_add_eq_or_of_lt hlow,
    ← Nat.two_pow_add_eq_or_of_lt hmid, packRequest]

theorem nativeIocBitsDir_bits (dir : IoctlDir) :
    nativeIocBitsDir (nativeIocBits dir) = some dir := by
  cases dir <;> rfl

/-- The fields are read where they were put. -/
theorem nativeRequest_pack (dir : IoctlDir) {len grp cmd : Nat}
    (hlen : len < 2 ^ 13) (hgrp : grp < 2 ^ 8) (hcmd : cmd < 2 ^ 8) :
    nativeRequest (packRequest (nativeIocBits dir) len grp cmd) =
      some ⟨dir, len, grp, cmd⟩ := by
  have hpack : packRequest (nativeIocBits dir) len grp cmd =
      2 ^ 29 * nativeIocBits dir + (2 ^ 16 * len + (2 ^ 8 * grp + cmd)) := rfl
  have hdir : packRequest (nativeIocBits dir) len grp cmd / 2 ^ 29 =
      nativeIocBits dir := by omega
  have hlow : packRequest (nativeIocBits dir) len grp cmd / 2 ^ 16 % 2 ^ 13 =
      len := by omega
  have hmid : packRequest (nativeIocBits dir) len grp cmd / 2 ^ 8 % 2 ^ 8 =
      grp := by omega
  have hlast : packRequest (nativeIocBits dir) len grp cmd % 2 ^ 8 = cmd := by
    omega
  rw [nativeRequest, hdir, hlow, hmid, hlast, nativeIocBitsDir_bits]
  rfl

theorem linuxToNativeDir_eq {bits : Nat} (h : bits < 2 ^ 2) :
    linuxToNativeDir bits = .ok (2 ^ 29 * nativeIocBits (linuxIocBitsDir bits)) := by
  interval_cases bits <;> rfl

theorem linuxIocBitsDir_inj {a b : Nat} (ha : a < 2 ^ 2) (hb : b < 2 ^ 2)
    (h : linuxIocBitsDir a = linuxIocBitsDir b) : a = b := by
  interval_cases a <;> interval_cases b <;> first | rfl | cases h

/-! ## The request handed down -/

/-- The number a request is re-encoded as: of its length, thirteen bits. -/
def reencode (x : Nat) : Nat :=
  packRequest (nativeIocBits (linuxIocBitsDir (x / 2 ^ 30 % 2 ^ 2)))
    (x / 2 ^ 16 % 2 ^ 13) (x / 2 ^ 8 % 2 ^ 8) (x % 2 ^ 8)

section

variable {build : Build} {x y : DriverRequest}

theorem checkLen_eq (len : Nat) :
    checkLen build len =
      if build = .debug ∧ 2 ^ 13 ≤ len then .error .abort else .ok len := by
  cases build with
  | release => rfl
  | debug =>
      by_cases hlen : len < 2 ^ 13
      · rw [if_neg fun h => absurd h.2 (Nat.not_le.mpr hlen), checkLen]
        show (require (len < 2 ^ 13) >>= fun _ => .ok len) = _
        rw [require_of hlen]
        rfl
      · rw [if_pos ⟨rfl, Nat.not_lt.mp hlen⟩, checkLen]
        show (require (len < 2 ^ 13) >>= fun _ => .ok len) = _
        rw [require_of_not hlen]
        rfl

theorem linuxToNativeReq_eq (n : Nat) :
    linuxToNativeReq build n =
      if build = .debug ∧ 2 ^ 13 ≤ n / 2 ^ 16 % 2 ^ 14 then .error .abort
      else .ok (reencode n) := by
  have hgrp : n / 2 ^ 8 % 2 ^ 8 < 2 ^ 8 := Nat.mod_lt _ (by decide)
  have hcmd : n % 2 ^ 8 < 2 ^ 8 := Nat.mod_lt _ (by decide)
  have hlen : n / 2 ^ 16 % 2 ^ 14 % 2 ^ 13 = n / 2 ^ 16 % 2 ^ 13 := by omega
  rw [linuxToNativeReq, linuxIocDir_eq, linuxIocLen_eq, linuxIocGrp_eq,
    linuxIocCmd_eq, linuxToNativeDir_eq (Nat.mod_lt _ (by decide)), ok_bind,
    checkLen_eq]
  split
  · rfl
  · rw [ok_bind, ioc_eq _ hgrp hcmd, hlen, reencode]
    rfl

theorem shimIoctl_eq (fd : Word) (arg : Buf) :
    shimIoctl build fd x.request arg = (do
      let req ← linuxToNativeReq build x.request
      callIoctl fd req arg) := by
  have hcommand : x.request &&& 0xffff = x.request % 2 ^ 16 :=
    Nat.and_two_pow_sub_one_eq_mod _ 16
  rw [shimIoctl, hcommand, if_pos x.driver]

theorem calls_callIoctl (h : (c : IoctlCall) → Except Errno (IoctlAnswer c))
    (e : Errno) (fd : Word) (request : Nat) (arg : Buf) :
    calls h (callIoctl fd request arg) e = [.ioctl fd request arg] := by
  rw [callIoctl, calls_bind, calls_native, run_native]
  cases h (.ioctl fd request arg) <;> rfl

/-- The release build hands every request down. -/
theorem handedDown_release (x : DriverRequest) :
    HandedDown .release x (reencode x.request) := by
  intro h e fd arg
  rw [shimIoctl_eq, linuxToNativeReq_eq, if_neg fun h => nomatch h.1]
  exact calls_callIoctl h e fd _ arg

/-- The debug build rejects what is too long. -/
theorem handedDown_debug (x : DriverRequest) :
    x.request / 2 ^ 16 % 2 ^ 14 < 2 ^ 13 ∧
        HandedDown .debug x (reencode x.request) ∨
      2 ^ 13 ≤ x.request / 2 ^ 16 % 2 ^ 14 ∧ Rejected .debug x := by
  by_cases hlen : 2 ^ 13 ≤ x.request / 2 ^ 16 % 2 ^ 14
  · refine .inr ⟨hlen, fun h e fd arg => ?_⟩
    rw [shimIoctl_eq, linuxToNativeReq_eq, if_pos ⟨rfl, hlen⟩]
    rfl
  · refine .inl ⟨Nat.not_le.mp hlen, fun h e fd arg => ?_⟩
    rw [shimIoctl_eq, linuxToNativeReq_eq, if_neg fun h => hlen h.2]
    exact calls_callIoctl h e fd _ arg

/-- A request is handed down as one thing. -/
theorem HandedDown.unique {m n : Nat} (hm : HandedDown build x m)
    (hn : HandedDown build x n) : m = n := by
  have h := (hm (fun _ => .error enosys) 0 0 []).symm.trans
    (hn (fun _ => .error enosys) 0 0 [])
  cases h
  rfl

theorem HandedDown.not_rejected {n : Nat} (hn : HandedDown build x n) :
    ¬Rejected build x := by
  intro hrej
  have h := (hn (fun _ => .error enosys) 0 0 []).symm.trans
    (hrej (fun _ => .error enosys) 0 0 [])
  cases h

theorem nativeRequest_reencode (n : Nat) :
    nativeRequest (reencode n) =
      some { linuxRequest n with len := n / 2 ^ 16 % 2 ^ 13 } :=
  nativeRequest_pack _ (Nat.mod_lt _ (by decide)) (Nat.mod_lt _ (by decide))
    (Nat.mod_lt _ (by decide))

theorem len_eq_iff (n : Nat) :
    n / 2 ^ 16 % 2 ^ 13 = n / 2 ^ 16 % 2 ^ 14 ↔ n.testBit 29 = false := by
  rw [Nat.testBit_eq_decide_div_mod_eq, decide_eq_false_iff_not]
  omega

theorem nativeRequest_reencode_eq_iff (n : Nat) :
    nativeRequest (reencode n) = some (linuxRequest n) ↔ n.testBit 29 = false := by
  rw [nativeRequest_reencode, ← len_eq_iff]
  constructor
  · exact fun h => congrArg IoctlRequest.len (Option.some.inj h)
  · intro h
    rw [h]
    rfl

/-- What is re-encoded as one number differs in the dropped bit at most. -/
theorem reencode_eq_iff (m n : Nat) (hm : m < 2 ^ 32) (hn : n < 2 ^ 32) :
    reencode m = reencode n ↔
      m % 2 ^ 29 = n % 2 ^ 29 ∧ m / 2 ^ 30 = n / 2 ^ 30 := by
  constructor
  · intro h
    have hsame := congrArg nativeRequest h
    rw [nativeRequest_reencode, nativeRequest_reencode, Option.some.injEq,
      IoctlRequest.mk.injEq] at hsame
    obtain ⟨hdir, hlen, hgrp, hcmd⟩ := hsame
    have hbits := linuxIocBitsDir_inj (Nat.mod_lt _ (by decide))
      (Nat.mod_lt _ (by decide)) hdir
    have hgrp : m / 2 ^ 8 % 2 ^ 8 = n / 2 ^ 8 % 2 ^ 8 := hgrp
    have hcmd : m % 2 ^ 8 = n % 2 ^ 8 := hcmd
    omega
  · rintro ⟨hlow, hhigh⟩
    have hlen : m / 2 ^ 16 % 2 ^ 13 = n / 2 ^ 16 % 2 ^ 13 := by omega
    have hgrp : m / 2 ^ 8 % 2 ^ 8 = n / 2 ^ 8 % 2 ^ 8 := by omega
    have hcmd : m % 2 ^ 8 = n % 2 ^ 8 := by omega
    rw [reencode, reencode, hhigh, hlen, hgrp, hcmd]

theorem reencoded_release_iff :
    Reencoded .release x ↔ x.request.testBit 29 = false := by
  rw [← nativeRequest_reencode_eq_iff]
  constructor
  · rintro (⟨native, hdown, hsays⟩ | hrej)
    · rwa [hdown.unique (handedDown_release x)] at hsays
    · exact absurd hrej (handedDown_release x).not_rejected
  · exact fun h => .inl ⟨_, handedDown_release x, h⟩

theorem sameNative_release_iff :
    SameNative .release x y ↔ x.request % 2 ^ 29 = y.request % 2 ^ 29 ∧
      x.request / 2 ^ 30 = y.request / 2 ^ 30 := by
  rw [← reencode_eq_iff _ _ x.lt y.lt]
  constructor
  · rintro ⟨native, hx, hy⟩
    rw [← hx.unique (handedDown_release x), hy.unique (handedDown_release y)]
  · intro h
    exact ⟨_, handedDown_release x, h ▸ handedDown_release y⟩

/-- With the check of the debug build nothing is lost. -/
theorem reencoded_debug (x : DriverRequest) : Reencoded .debug x := by
  obtain ⟨hlen, hdown⟩ | ⟨-, hrej⟩ := handedDown_debug x
  · refine .inl ⟨_, hdown, ?_⟩
    rw [nativeRequest_reencode_eq_iff, ← len_eq_iff]
    omega
  · exact .inr hrej

end

/-- In the release build a request says the same afterwards exactly if bit 29
is clear, and becomes one with another exactly if they differ in that bit at
most. -/
theorem driverRequests_reencoded_iff (x : DriverRequest) :
    (Reencoded .release x ↔ x.request.testBit 29 = false) ∧
      ∀ y, SameNative .release x y ↔
        x.request % 2 ^ 29 = y.request % 2 ^ 29 ∧
          x.request / 2 ^ 30 = y.request / 2 ^ 30 :=
  ⟨reencoded_release_iff, fun _ => sameNative_release_iff⟩

/-- A request of DRM with sixteen bytes, and one with 8208. -/
def shortDrm : DriverRequest := ⟨0xc0106401, by decide, by decide⟩
def longDrm : DriverRequest := ⟨0xe0106401, by decide, by decide⟩

theorem longDrm_becomes_short :
    ¬Reencoded .release longDrm ∧ SameNative .release shortDrm longDrm :=
  ⟨fun h => absurd (reencoded_release_iff.mp h) (by decide),
    sameNative_release_iff.mpr (by decide)⟩

end Libc6Shim
