import Libc6Shim.CSemSystem
import Libc6Shim.Fcntl
import Libc6Shim.SockCalls

/-!
# The status flags of a descriptor

The usual way to make a descriptor non-blocking is to read its status flags
with `F_GETFL`, set or clear `O_NONBLOCK` in them, and write them back with
`F_SETFL`. What has to hold for that is a law over runs: the flags of the
open file description - its access mode, `O_APPEND` and `O_NONBLOCK` - stay
those the descriptor was obtained with, but for `O_NONBLOCK` as last set
(`StatusInv`).

The law holds of the flags. But `F_GETFL` is not prepared for `O_APPEND` and
`F_SETFL` not for `O_WRONLY`, so the calls that read the one and write the
other back abort, and these are the only ones (`statusFlags_iff`).
-/

namespace Libc6Shim

open CSem Buf Outcome Routine

/-! ## Status flags on both sides -/

inductive Accmode where
  | rdonly
  | wronly
  | rdwr
deriving Repr, DecidableEq

/-- `O_RDONLY`, `O_WRONLY` and `O_RDWR`, the same on both sides. -/
def Accmode.bits : Accmode → Word
  | .rdonly => 0
  | .wronly => 1
  | .rdwr => 2

/-- The status of an open file description. -/
structure Status where
  accmode : Accmode
  append : Bool
  nonblock : Bool
deriving Repr, DecidableEq

namespace Status

/-- As Linux has it in a word. -/
def linux (st : Status) : Word :=
  st.accmode.bits ||| (if st.append then linuxOAppend else 0) |||
    (if st.nonblock then linuxONonblock else 0)

/-- As FreeBSD has it in a word. -/
def native (st : Status) : Word :=
  st.accmode.bits ||| (if st.append then oAppend else 0) |||
    (if st.nonblock then oNonblock else 0)

/-- What `F_GETFL` makes of a status. -/
theorem nativeToLinuxStatus_native (st : Status) :
    nativeToLinuxStatus st.native =
      if st.append then .error .abort else .ok st.linux := by
  obtain ⟨accmode, append, nonblock⟩ := st
  cases accmode <;> cases append <;> cases nonblock <;> rfl

/-- What `F_SETFL` makes of one without `O_APPEND`. -/
theorem linuxToNativeStatus_linux {st : Status} (happend : st.append = false) :
    linuxToNativeStatus st.linux =
      if st.accmode = .wronly then .error .abort else .ok st.native := by
  obtain ⟨accmode, append, nonblock⟩ := st
  cases happend
  cases accmode <;> cases nonblock <;> rfl

/-- The idiom, on a word `F_GETFL` has returned. -/
theorem linux_or_nonblock (st : Status) :
    st.linux ||| linuxONonblock = linux { st with nonblock := true } := by
  obtain ⟨accmode, append, nonblock⟩ := st
  cases accmode <;> cases append <;> cases nonblock <;> rfl

theorem linux_and_not_nonblock (st : Status) :
    st.linux &&& ~~~linuxONonblock = linux { st with nonblock := false } := by
  obtain ⟨accmode, append, nonblock⟩ := st
  cases accmode <;> cases append <;> cases nonblock <;> rfl

theorem linux_nonblock (st : Status) :
    (decide (st.linux &&& linuxONonblock ≠ 0)) = st.nonblock := by
  obtain ⟨accmode, append, nonblock⟩ := st
  cases accmode <;> cases append <;> cases nonblock <;> rfl

theorem native_nonblock (st : Status) :
    (decide (st.native &&& oNonblock ≠ 0)) = st.nonblock := by
  obtain ⟨accmode, append, nonblock⟩ := st
  cases accmode <;> cases append <;> cases nonblock <;> rfl

/-- The rest of the flags. -/
theorem native_and_not_nonblock (st : Status) :
    st.native &&& ~~~oNonblock = native { st with nonblock := false } := by
  obtain ⟨accmode, append, nonblock⟩ := st
  cases accmode <;> cases append <;> cases nonblock <;> rfl

end Status

/-! ## The kernel -/

/-- The flags native `F_SETFL` changes, of those the status has. -/
def setflMask : Word := oAppend ||| oNonblock

/-- The native calls, as they act on the flags of one open file
description. -/
abbrev Kernel := (c : FcntlCall) → Word → Except Errno (FcntlAnswer c) × Word

/-- What is relied on: `F_GETFL` returns the flags of the description,
`F_SETFL` sets those it may change or fails and changes none, and nothing
else changes them. -/
structure Kernel.Ok (fd : Word) (k : Kernel) : Prop where
  getfl : ∀ flags, k (.getfl fd) flags = (.ok flags, flags)
  setfl : ∀ flags new,
    (∃ r, k (.setfl fd new) flags =
      (.ok r, flags &&& ~~~setflMask ||| new &&& setflMask)) ∨
    ∃ e, k (.setfl fd new) flags = (.error e, flags)
  others : ∀ c flags, (∀ new, c ≠ .setfl fd new) → (k c flags).2 = flags

/-- Writing a status over one that differs in `O_NONBLOCK` at most. -/
theorem Status.setfl_native (st : Status) (nonblock : Bool) :
    st.native &&& ~~~setflMask |||
        native { st with nonblock := nonblock } &&& setflMask =
      native { st with nonblock := nonblock } := by
  obtain ⟨accmode, append, nonblock'⟩ := st
  cases accmode <;> cases append <;> cases nonblock <;> cases nonblock' <;> rfl

/-! ## Where descriptors come from -/

def oAccmode : Word := 3

/-- The flags of a description native `open` has made. -/
def openedFlags (flags : Word) : Word :=
  flags &&& (oAccmode ||| oAppend ||| oNonblock)

/-- The shim has returned a descriptor: the status that was asked for, and
the flags the kernel gives the description for the native call that was
made. `open` of a file for both `O_WRONLY` and `O_RDWR` does not succeed,
and the ends of a pipe have an access mode of the kernel's choice. -/
inductive Obtained : Status → Word → Prop where
  | open {linuxEmulPath path p : Buf} {linuxFlags mode flags : Word}
      {m : BitVec 16} {h : (c : FileCall) → Except Errno (FileAnswer c)}
      {errno errno' : Errno} {fd : Word} {accmode : Accmode} :
      (shimOpen linuxEmulPath path linuxFlags mode).run h errno =
        .ok (some fd, errno') →
      .open p flags m ∈
        (shimOpen linuxEmulPath path linuxFlags mode).calls h errno →
      linuxFlags &&& oAccmode = accmode.bits →
      Obtained ⟨accmode, linuxFlags &&& linuxOAppend ≠ 0,
        linuxFlags &&& linuxONonblock ≠ 0⟩ (openedFlags flags)
  | pipe2 {linuxFlags flags : Word}
      {h : (c : FcntlCall) → Except Errno (FcntlAnswer c)}
      {errno errno' : Errno} {fds : Word × Word} {accmode : Accmode} :
      (shimPipe2 linuxFlags).run h errno = .ok (some fds, errno') →
      .pipe2 flags ∈ (shimPipe2 linuxFlags).calls h errno →
      Obtained ⟨accmode, false, linuxFlags &&& linuxONonblock ≠ 0⟩
        (accmode.bits ||| flags &&& oNonblock)
  | socket {linuxDomain linuxType linuxProtocol domain type protocol : Word}
      {h : (c : SockCall) → Except Errno (SockAnswer c)}
      {errno errno' : Errno} {fd : Word} :
      (shimSocket linuxDomain linuxType linuxProtocol).run h errno =
        .ok (some fd, errno') →
      .socket domain type protocol ∈
        (shimSocket linuxDomain linuxType linuxProtocol).calls h errno →
      Obtained ⟨.rdwr, false, linuxType &&& linuxSockNonblock ≠ 0⟩
        (oRdwr ||| if type &&& sockNonblock ≠ 0 then oNonblock else 0)

/-- The flags the native `open` is given. -/
theorem open_mem_calls {linuxEmulPath path p : Buf}
    {linuxFlags mode flags : Word} {m : BitVec 16}
    {h : (c : FileCall) → Except Errno (FileAnswer c)} {errno : Errno}
    (hmem : .open p flags m ∈
      (shimOpen linuxEmulPath path linuxFlags mode).calls h errno) :
    flags = setFlags 0 openFlagPairs linuxFlags := by
  unfold shimOpen at hmem
  cases hredirect : redirect linuxEmulPath path with
  | none =>
      rw [hredirect] at hmem
      cases hmem
  | some p' =>
      rw [hredirect] at hmem
      obtain ⟨-, -, hmem⟩ := mem_calls_lift_bind hmem
      dsimp only at hmem
      by_cases htmpfile : linuxFlags &&& linuxOTmpfile ≠ 0
      · rw [if_pos htmpfile] at hmem
        cases hmem
      · rw [if_neg htmpfile, callFile, calls_native] at hmem
        cases List.mem_singleton.mp hmem
        rfl

/-- The flags the native `pipe2` is given. -/
theorem pipe2_mem_calls {linuxFlags flags : Word}
    {h : (c : FcntlCall) → Except Errno (FcntlAnswer c)} {errno : Errno}
    (hmem : .pipe2 flags ∈ (shimPipe2 linuxFlags).calls h errno) :
    flags = setFlags 0
      [(linuxONonblock, oNonblock), (linuxOCloexec, oCloexec)] linuxFlags := by
  obtain ⟨-, -, hmem⟩ := mem_calls_lift_bind hmem
  rw [callFcntl, calls_native] at hmem
  cases List.mem_singleton.mp hmem
  rfl

/-- The type the native `socket` is given. -/
theorem socket_mem_calls
    {linuxDomain linuxType linuxProtocol domain type protocol : Word}
    {h : (c : SockCall) → Except Errno (SockAnswer c)} {errno : Errno}
    (hmem : .socket domain type protocol ∈
      (shimSocket linuxDomain linuxType linuxProtocol).calls h errno) :
    linuxToNativeSockType linuxType = .ok type := by
  obtain ⟨domain', -, hmem⟩ := mem_calls_lift_bind hmem
  obtain ⟨type', htype, hmem⟩ := mem_calls_lift_bind hmem
  rw [callNative, calls_native] at hmem
  cases List.mem_singleton.mp hmem
  exact htype

/-- The four bits of the status among the flags `open` hands down. -/
theorem getLsbD_openFlags (w : Word) :
    let flags := setFlags 0 openFlagPairs w
    flags.getLsbD 0 = w.getLsbD 0 ∧ flags.getLsbD 1 = w.getLsbD 1 ∧
      flags.getLsbD 2 = decide (w &&& linuxONonblock ≠ 0) ∧
      flags.getLsbD 3 = decide (w &&& linuxOAppend ≠ 0) := by
  have hwronly : decide (w &&& linuxOWronly ≠ 0) = w.getLsbD 0 :=
    and_bit_ne_zero rfl (by omega)
  have hrdwr : decide (w &&& linuxORdwr ≠ 0) = w.getLsbD 1 :=
    and_bit_ne_zero rfl (by omega)
  dsimp only
  rw [← hwronly, ← hrdwr]
  refine ⟨?_, ?_, ?_, ?_⟩
  all_goals
    rw [getLsbD_setFlags]
    simp [openFlagPairs, oWronly, oRdwr, oCreat, oExcl, oNoctty, oTrunc,
      oAppend, oNonblock, oDirectory, oCloexec]

theorem Status.native_and_low (st : Status) :
    st.native &&& BitVec.ofNat 32 (2 ^ 4 - 1) = st.native := by
  obtain ⟨accmode, append, nonblock⟩ := st
  cases accmode <;> cases append <;> cases nonblock <;> rfl

theorem Status.getLsbD_native (st : Status) :
    st.native.getLsbD 0 = st.accmode.bits.getLsbD 0 ∧
      st.native.getLsbD 1 = st.accmode.bits.getLsbD 1 ∧
      st.native.getLsbD 2 = st.nonblock ∧ st.native.getLsbD 3 = st.append := by
  obtain ⟨accmode, append, nonblock⟩ := st
  cases accmode <;> cases append <;> cases nonblock <;>
    exact ⟨rfl, rfl, rfl, rfl⟩

theorem Status.native_of_not_append (accmode : Accmode) (nonblock : Bool) :
    Status.native ⟨accmode, false, nonblock⟩ =
      accmode.bits ||| if nonblock then oNonblock else 0 := by
  cases accmode <;> cases nonblock <;> rfl

/-- The access mode is the two lowest bits. -/
theorem getLsbD_accmode {w : Word} {accmode : Accmode}
    (h : w &&& oAccmode = accmode.bits) {i : Nat} (hi : i < 2) :
    w.getLsbD i = accmode.bits.getLsbD i := by
  have hbit := congrArg (fun w => w.getLsbD i) h
  have hmask : oAccmode.getLsbD i = true := by
    rcases (by omega : i = 0 ∨ i = 1) with rfl | rfl <;> rfl
  simpa only [BitVec.getLsbD_and, hmask, Bool.and_true] using hbit

/-- `open` hands the status down. -/
theorem openedFlags_openFlags {linuxFlags : Word} {accmode : Accmode}
    (haccmode : linuxFlags &&& oAccmode = accmode.bits) :
    openedFlags (setFlags 0 openFlagPairs linuxFlags) =
      Status.native ⟨accmode, linuxFlags &&& linuxOAppend ≠ 0,
        linuxFlags &&& linuxONonblock ≠ 0⟩ := by
  obtain ⟨h0, h1, h2, h3⟩ := getLsbD_openFlags linuxFlags
  obtain ⟨n0, n1, n2, n3⟩ := Status.getLsbD_native
    ⟨accmode, linuxFlags &&& linuxOAppend ≠ 0,
      linuxFlags &&& linuxONonblock ≠ 0⟩
  refine (and_low_ext (k := 4) fun i hi => ?_).trans (Status.native_and_low _)
  rcases (by omega : i = 0 ∨ i = 1 ∨ i = 2 ∨ i = 3) with rfl | rfl | rfl | rfl
  · exact (h0.trans (getLsbD_accmode haccmode (by omega))).trans n0.symm
  · exact (h1.trans (getLsbD_accmode haccmode (by omega))).trans n1.symm
  · exact h2.trans n2.symm
  · exact h3.trans n3.symm

/-- `pipe2` hands `O_NONBLOCK` down. -/
theorem pipe2Flags_and_nonblock (linuxFlags : Word) :
    setFlags 0 [(linuxONonblock, oNonblock), (linuxOCloexec, oCloexec)]
        linuxFlags &&& oNonblock =
      if decide (linuxFlags &&& linuxONonblock ≠ 0) then oNonblock else 0 := by
  have hbit : (setFlags 0 [(linuxONonblock, oNonblock),
      (linuxOCloexec, oCloexec)] linuxFlags).getLsbD 2 =
      decide (linuxFlags &&& linuxONonblock ≠ 0) := by
    rw [getLsbD_setFlags]
    simp [oNonblock, oCloexec]
  rw [← hbit]
  exact BitVec.and_twoPow _ 2

/-- `socket` hands `SOCK_NONBLOCK` down. -/
theorem sockType_nonblock {linuxType type : Word}
    (htype : linuxToNativeSockType linuxType = .ok type) :
    decide (type &&& sockNonblock ≠ 0) =
      decide (linuxType &&& linuxSockNonblock ≠ 0) := by
  have hnonblock : decide (type &&& sockNonblock ≠ 0) = type.getLsbD 29 :=
    and_bit_ne_zero rfl (by omega)
  obtain ⟨u, -, hset⟩ := bind_eq_ok.mp htype
  cases hset
  rw [hnonblock, getLsbD_setFlags]
  simp [sockNonblock, sockCloexec]

/-- A description has the status that was asked for. -/
theorem Obtained.flags_eq {st : Status} {flags : Word}
    (hobtained : Obtained st flags) : flags = st.native := by
  cases hobtained with
  | «open» hrun hmem haccmode =>
      rw [open_mem_calls hmem]
      exact openedFlags_openFlags haccmode
  | pipe2 hrun hmem =>
      rw [pipe2_mem_calls hmem, pipe2Flags_and_nonblock,
        Status.native_of_not_append]
  | @socket linuxDomain linuxType linuxProtocol domain type protocol h errno
      errno' fd hrun hmem =>
      rw [Status.native_of_not_append,
        ← sockType_nonblock (socket_mem_calls hmem)]
      by_cases h : type &&& sockNonblock ≠ 0
      · rw [if_pos h, if_pos (decide_eq_true h)]
        rfl
      · rw [if_neg h, if_neg (by simpa using h)]
        rfl

/-! ## Calls and runs -/

section Runs

variable {abi : Abi} {fd : Word}

/-- A call of `fcntl`: its arguments, and the kernel it finds. -/
structure FcntlEvent (abi : Abi) where
  cmd : Word
  arg : Word
  lock : LinuxFlock abi
  kernel : Kernel
  errno : Errno

/-- The call on a description with the flags `flags`. -/
def FcntlEvent.exec (fd : Word) (e : FcntlEvent abi) (flags : Word) :
    Outcome (Option Word × Errno) × Word :=
  (shimFcntl fd e.cmd e.arg e.lock).exec e.kernel e.errno flags

/-- The flags of the description, `O_NONBLOCK` as last set, and what
`F_GETFL` last returned. -/
structure FdState where
  flags : Word
  nonblock : Bool
  lastGetfl : Option Word

/-- `F_SETFL` is handed what `F_GETFL` last returned, with `O_NONBLOCK` set
or cleared. -/
def FcntlEvent.Legal (s : FdState) (e : FcntlEvent abi) : Prop :=
  e.cmd = linuxFSetfl → ∃ w, s.lastGetfl = some w ∧
    (e.arg = w ||| linuxONonblock ∨ e.arg = w &&& ~~~linuxONonblock)

/-- The state after a call that returned `r` and left `flags`. -/
def FcntlEvent.after (s : FdState) (e : FcntlEvent abi) (r : Option Word)
    (flags : Word) : FdState where
  flags := flags
  nonblock :=
    if e.cmd = linuxFSetfl ∧ r.isSome = true then
      decide (e.arg &&& linuxONonblock ≠ 0)
    else s.nonblock
  lastGetfl := if e.cmd = linuxFGetfl then r else s.lastGetfl

/-- One call that returns. -/
def FcntlStep (fd : Word) (s : FdState) (e : FcntlEvent abi) (s' : FdState) :
    Prop :=
  e.kernel.Ok fd ∧ e.Legal s ∧ ∃ r errno flags,
    e.exec fd s.flags = (.ok (r, errno), flags) ∧ s' = e.after s r flags

/-- A descriptor that was just obtained, of the status `st`. -/
structure FdState.Start (st : Status) (s : FdState) : Prop where
  flags : Obtained st s.flags
  nonblock : s.nonblock = st.nonblock
  lastGetfl : s.lastGetfl = none

/-- The runs of calls on a descriptor obtained with the status `st`. -/
abbrev FcntlRuns (fd : Word) (st : Status) :
    List (FcntlEvent abi) → FdState → Prop :=
  Runs (FdState.Start st) (FcntlStep fd)

/-- What is owed to the caller: the call returns; `F_GETFL` gives the status
the descriptor was obtained with, with `O_NONBLOCK` as last set; `F_SETFL`
changes nothing but `O_NONBLOCK`, to what was asked for if it succeeds; and
the other commands change nothing. -/
def FcntlEvent.Meets (fd : Word) (st : Status) (s : FdState)
    (e : FcntlEvent abi) : Prop :=
  ∃ r errno flags, e.exec fd s.flags = (.ok (r, errno), flags) ∧
    (e.cmd = linuxFGetfl →
      r = some (Status.linux { st with nonblock := s.nonblock })) ∧
    (e.cmd = linuxFSetfl →
      flags &&& ~~~oNonblock = s.flags &&& ~~~oNonblock ∧
      (r.isSome = true → decide (flags &&& oNonblock ≠ 0) =
        decide (e.arg &&& linuxONonblock ≠ 0))) ∧
    (e.cmd ≠ linuxFSetfl → flags = s.flags)

/-- A command the shim implements, and for a lock one of the three types. -/
def FcntlEvent.Supported (e : FcntlEvent abi) : Prop :=
  e.cmd = linuxFGetfd ∨ e.cmd = linuxFSetfd ∨ e.cmd = linuxFGetfl ∨
    e.cmd = linuxFSetfl ∨ e.cmd = linuxFDupfdCloexec ∨
    e.cmd = linuxFAddSeals ∨
    ((e.cmd = linuxFSetlk ∨ e.cmd = linuxFSetlkw) ∧
      (e.lock.lType = linuxFRdlck ∨ e.lock.lType = linuxFWrlck ∨
        e.lock.lType = linuxFUnlck))

/-! ## What a call does -/

section Calls

variable {e : FcntlEvent abi} {flags : Word}

/-- A native call other than `F_SETFL`. -/
theorem exec_callFcntl {k : Kernel} (hk : k.Ok fd) {c : FcntlCall}
    (hc : ∀ new, c ≠ .setfl fd new) (errno : Errno) :
    ∃ r errno', (callFcntl c).exec k errno flags = (.ok (r, errno'), flags) := by
  have hflags := hk.others c flags hc
  rw [callFcntl, exec_native]
  rcases hr : k c flags with ⟨r, flags'⟩
  rw [hr] at hflags
  cases hflags
  cases r with
  | error e => exact ⟨none, e, rfl⟩
  | ok a => exact ⟨some a, errno, rfl⟩

theorem exec_getfl (hk : e.kernel.Ok fd) (hcmd : e.cmd = linuxFGetfl) :
    e.exec fd flags = match nativeToLinuxStatus flags with
      | .ok w => (.ok (some w, e.errno), flags)
      | .error x => (.error x, flags) := by
  have hroutine : shimFcntl fd e.cmd e.arg e.lock = (do
      let flags ← callFcntl (.getfl fd)
      let linuxFlags ← nativeToLinuxStatus (flags.getD (-1))
      return some linuxFlags) := by
    rw [shimFcntl, hcmd]
    rfl
  rw [FcntlEvent.exec, hroutine]
  simp only [exec_bind, callFcntl, exec_native, hk.getfl, Option.getD_some,
    exec_lift]
  cases nativeToLinuxStatus flags <;> rfl

theorem exec_setfl (hcmd : e.cmd = linuxFSetfl) :
    e.exec fd flags = match linuxToNativeStatus e.arg with
      | .ok new => (callFcntl (.setfl fd new)).exec e.kernel e.errno flags
      | .error x => (.error x, flags) := by
  have hroutine : shimFcntl fd e.cmd e.arg e.lock = (do
      let flags ← linuxToNativeStatus e.arg
      callFcntl (.setfl fd flags)) := by
    rw [shimFcntl, hcmd]
    rfl
  rw [FcntlEvent.exec, hroutine]
  simp only [exec_bind, exec_lift]
  cases linuxToNativeStatus e.arg <;> rfl

/-- A lock of one of the three types is handed down. -/
theorem copyLinuxFlock_of_type {lock : LinuxFlock abi}
    (htype : lock.lType = linuxFRdlck ∨ lock.lType = linuxFWrlck ∨
      lock.lType = linuxFUnlck) : ∃ l, copyLinuxFlock lock = .ok l := by
  rcases htype with h | h | h
  all_goals
    rw [copyLinuxFlock, h]
    exact ⟨_, rfl⟩

theorem copyLinuxFlock_of_not_type {lock : LinuxFlock abi}
    (htype : ¬(lock.lType = linuxFRdlck ∨ lock.lType = linuxFWrlck ∨
      lock.lType = linuxFUnlck)) : copyLinuxFlock lock = .error .abort := by
  obtain ⟨hrdlck, hrest⟩ := not_or.mp htype
  obtain ⟨hwrlck, hunlck⟩ := not_or.mp hrest
  rw [copyLinuxFlock, if_neg hrdlck, if_neg hwrlck, if_neg hunlck]
  rfl

/-- The other commands leave the flags alone and return, if they are
supported. -/
theorem exec_other (hk : e.kernel.Ok fd) (hsupported : e.Supported)
    (hgetfl : e.cmd ≠ linuxFGetfl) (hsetfl : e.cmd ≠ linuxFSetfl) :
    ∃ r errno, e.exec fd flags = (.ok (r, errno), flags) := by
  unfold FcntlEvent.exec
  rcases hsupported with h | h | h | h | h | h | ⟨h, htype⟩
  · have hroutine : shimFcntl fd e.cmd e.arg e.lock =
        callFcntl (.getfd fd) := by
      rw [shimFcntl, h]
      rfl
    rw [hroutine]
    exact exec_callFcntl (c := .getfd fd) hk nofun e.errno
  · have hroutine : shimFcntl fd e.cmd e.arg e.lock =
        callFcntl (.setfd fd
          (if e.arg &&& linuxFdCloexec ≠ 0 then fdCloexec else 0)) := by
      rw [shimFcntl, h]
      rfl
    rw [hroutine]
    exact exec_callFcntl (c := .setfd fd _) hk nofun e.errno
  · exact absurd h hgetfl
  · exact absurd h hsetfl
  · have hroutine : shimFcntl fd e.cmd e.arg e.lock =
        callFcntl (.dupfdCloexec fd e.arg) := by
      rw [shimFcntl, h]
      rfl
    rw [hroutine]
    exact exec_callFcntl (c := .dupfdCloexec fd e.arg) hk nofun e.errno
  · have hroutine : shimFcntl fd e.cmd e.arg e.lock =
        callFcntl (.addSeals fd e.arg) := by
      rw [shimFcntl, h]
      rfl
    rw [hroutine]
    exact exec_callFcntl (c := .addSeals fd e.arg) hk nofun e.errno
  · obtain ⟨lock, hlock⟩ := copyLinuxFlock_of_type htype
    rcases h with h | h
    · have hroutine : shimFcntl fd e.cmd e.arg e.lock =
          callFcntl (.setlk fd lock) := by
        rw [shimFcntl, h, hlock]
        rfl
      rw [hroutine]
      exact exec_callFcntl (c := .setlk fd lock) hk nofun e.errno
    · have hroutine : shimFcntl fd e.cmd e.arg e.lock =
          callFcntl (.setlkw fd lock) := by
        rw [shimFcntl, h, hlock]
        rfl
      rw [hroutine]
      exact exec_callFcntl (c := .setlkw fd lock) hk nofun e.errno

theorem exec_unsupported (hunsupported : ¬e.Supported) :
    e.exec fd flags = (.error .abort, flags) := by
  obtain ⟨hgetfd, hrest⟩ := not_or.mp hunsupported
  obtain ⟨hsetfd, hrest⟩ := not_or.mp hrest
  obtain ⟨hgetfl, hrest⟩ := not_or.mp hrest
  obtain ⟨hsetfl, hrest⟩ := not_or.mp hrest
  obtain ⟨hdupfd, hrest⟩ := not_or.mp hrest
  obtain ⟨hseals, hlock⟩ := not_or.mp hrest
  have hroutine : shimFcntl fd e.cmd e.arg e.lock =
      (liftM (.error .abort : Outcome (Option Word)) :
        FcntlRoutine (Option Word)) := by
    have htype : e.cmd = linuxFSetlk ∨ e.cmd = linuxFSetlkw →
        copyLinuxFlock e.lock = .error .abort := fun hcmd =>
      copyLinuxFlock_of_not_type fun htype => hlock ⟨hcmd, htype⟩
    rw [shimFcntl, if_neg hgetfd, if_neg hsetfd, if_neg hgetfl, if_neg hsetfl]
    by_cases hgetlk : e.cmd = linuxFGetlk
    · rw [if_pos hgetlk]
    · rw [if_neg hgetlk]
      by_cases hsetlk : e.cmd = linuxFSetlk
      · rw [if_pos hsetlk, htype (.inl hsetlk)]
        rfl
      · rw [if_neg hsetlk]
        by_cases hsetlkw : e.cmd = linuxFSetlkw
        · rw [if_pos hsetlkw, htype (.inr hsetlkw)]
          rfl
        · rw [if_neg hsetlkw, if_neg hdupfd, if_neg hseals]
          simp only [ite_self]
  rw [FcntlEvent.exec, hroutine, exec_lift]
  rfl

end Calls

/-! ## What every run keeps -/

/-- What holds in every state of a run. -/
structure StatusInv (st : Status) (s : FdState) : Prop where
  /-- The description has the status it was obtained with, but for
  `O_NONBLOCK`. -/
  flags : s.flags = Status.native { st with nonblock := s.nonblock }
  /-- What `F_GETFL` has returned is a status without `O_APPEND`. -/
  getfl : ∀ w, s.lastGetfl = some w → st.append = false ∧
    ∃ nonblock, w = Status.linux { st with nonblock := nonblock }

/-- The calls that go well: the command is one the shim implements, the
descriptor whose flags are read does not append, and the one whose flags are
written is not write-only. -/
structure FcntlEvent.Allowed (st : Status) (e : FcntlEvent abi) : Prop where
  supported : e.Supported
  getfl : e.cmd = linuxFGetfl → st.append = false
  setfl : e.cmd = linuxFSetfl → st.accmode ≠ .wronly

section Steps

variable {st : Status} {s s' : FdState} {e : FcntlEvent abi}

/-- What `F_SETFL` is handed. -/
theorem StatusInv.arg (hinv : StatusInv st s) (hlegal : e.Legal s)
    (hcmd : e.cmd = linuxFSetfl) :
    st.append = false ∧
      ∃ nonblock, e.arg = Status.linux { st with nonblock := nonblock } := by
  obtain ⟨w, hw, harg⟩ := hlegal hcmd
  obtain ⟨happend, nonblock, rfl⟩ := hinv.getfl w hw
  refine ⟨happend, ?_⟩
  rcases harg with harg | harg
  · exact ⟨true, harg.trans (Status.linux_or_nonblock _)⟩
  · exact ⟨false, harg.trans (Status.linux_and_not_nonblock _)⟩

/-- A call that is not allowed aborts. -/
theorem StatusInv.not_allowed (hinv : StatusInv st s) (hk : e.kernel.Ok fd)
    (hlegal : e.Legal s) (hnot : ¬e.Allowed st) :
    (e.exec fd s.flags).1 = .error .abort := by
  by_cases hsupported : e.Supported
  · by_cases hgetfl : e.cmd = linuxFGetfl
    · have happend : st.append = true := by
        by_contra h
        refine hnot ⟨hsupported, fun _ => Bool.eq_false_iff.mpr h, fun hcmd => ?_⟩
        rw [hgetfl] at hcmd
        exact absurd hcmd (by decide)
      rw [exec_getfl hk hgetfl, hinv.flags, Status.nativeToLinuxStatus_native,
        if_pos happend]
    · by_cases hsetfl : e.cmd = linuxFSetfl
      · have hwronly : st.accmode = .wronly := by
          by_contra h
          exact hnot ⟨hsupported, fun hcmd => absurd hcmd hgetfl, fun _ => h⟩
        obtain ⟨happend, nonblock, harg⟩ := hinv.arg hlegal hsetfl
        have hst : ({ st with nonblock := nonblock } : Status).append = false :=
          happend
        rw [exec_setfl hsetfl, harg, Status.linuxToNativeStatus_linux hst,
          if_pos hwronly]
      · exact absurd ⟨hsupported, fun hcmd => absurd hcmd hgetfl,
          fun hcmd => absurd hcmd hsetfl⟩ hnot
  · rw [exec_unsupported hsupported]

/-- `F_GETFL` on a descriptor that does not append. -/
theorem StatusInv.exec_of_getfl (hinv : StatusInv st s) (hk : e.kernel.Ok fd)
    (hcmd : e.cmd = linuxFGetfl) (happend : st.append = false) :
    e.exec fd s.flags =
      (.ok (some (Status.linux { st with nonblock := s.nonblock }), e.errno),
        s.flags) := by
  rw [exec_getfl hk hcmd, hinv.flags, Status.nativeToLinuxStatus_native,
    happend]
  rfl

/-- `F_SETFL` of what was read, on a descriptor that is not write-only: the
status asked for is written, or nothing is. -/
theorem StatusInv.exec_of_setfl (hinv : StatusInv st s) (hk : e.kernel.Ok fd)
    (hlegal : e.Legal s) (hcmd : e.cmd = linuxFSetfl)
    (haccmode : st.accmode ≠ .wronly) :
    (∃ r, e.exec fd s.flags = (.ok (some r, e.errno), Status.native
        { st with nonblock := decide (e.arg &&& linuxONonblock ≠ 0) })) ∨
      ∃ x, e.exec fd s.flags = (.ok (none, x), s.flags) := by
  obtain ⟨happend, nonblock, harg⟩ := hinv.arg hlegal hcmd
  have hst : ({ st with nonblock := nonblock } : Status).append = false :=
    happend
  have hnonblock : decide (e.arg &&& linuxONonblock ≠ 0) = nonblock := by
    rw [harg]
    exact Status.linux_nonblock _
  have hexec : e.exec fd s.flags =
      (callFcntl (.setfl fd (Status.native { st with nonblock := nonblock }))
        ).exec e.kernel e.errno s.flags := by
    rw [exec_setfl hcmd, harg, Status.linuxToNativeStatus_linux hst,
      if_neg haccmode]
  rw [hexec, hnonblock, callFcntl, exec_native]
  rcases hk.setfl s.flags (Status.native { st with nonblock := nonblock })
    with ⟨r, hr⟩ | ⟨x, hx⟩
  · have hset := Status.setfl_native { st with nonblock := s.nonblock } nonblock
    rw [hr, hinv.flags, hset]
    exact .inl ⟨r, rfl⟩
  · rw [hx]
    exact .inr ⟨x, rfl⟩

/-- A call that is allowed returns. It leaves the status as it was, but for
`O_NONBLOCK`, and what `F_GETFL` returns is that status. -/
theorem StatusInv.allowed (hinv : StatusInv st s) (hk : e.kernel.Ok fd)
    (hlegal : e.Legal s) (hallowed : e.Allowed st) :
    ∃ r errno flags, e.exec fd s.flags = (.ok (r, errno), flags) ∧
      flags = Status.native
        { st with nonblock := (e.after s r flags).nonblock } ∧
      (e.cmd = linuxFGetfl →
        r = some (Status.linux { st with nonblock := s.nonblock })) := by
  by_cases hsetfl : e.cmd = linuxFSetfl
  · have hgetfl : e.cmd ≠ linuxFGetfl := by
      rw [hsetfl]
      decide
    rcases hinv.exec_of_setfl hk hlegal hsetfl (hallowed.setfl hsetfl) with
      ⟨r, hexec⟩ | ⟨x, hexec⟩
    · refine ⟨some r, e.errno, _, hexec, ?_, fun h => absurd h hgetfl⟩
      rw [FcntlEvent.after, if_pos ⟨hsetfl, rfl⟩]
    · refine ⟨none, x, s.flags, hexec, ?_, fun h => absurd h hgetfl⟩
      rw [FcntlEvent.after, if_neg (fun h => nomatch h.2)]
      exact hinv.flags
  · have hkept : ∀ r, s.flags = Status.native
        { st with nonblock := (e.after s r s.flags).nonblock } := by
      intro r
      rw [FcntlEvent.after, if_neg fun h => hsetfl h.1]
      exact hinv.flags
    by_cases hgetfl : e.cmd = linuxFGetfl
    · exact ⟨_, e.errno, s.flags,
        hinv.exec_of_getfl hk hgetfl (hallowed.getfl hgetfl), hkept _,
        fun _ => rfl⟩
    · obtain ⟨r, errno, hexec⟩ :=
        exec_other hk hallowed.supported hgetfl hsetfl
      exact ⟨r, errno, s.flags, hexec, hkept r, fun h => absurd h hgetfl⟩

/-- The step lemma. -/
theorem StatusInv.step (hinv : StatusInv st s) (hstep : FcntlStep fd s e s') :
    StatusInv st s' := by
  obtain ⟨hk, hlegal, r, errno, flags, hexec, rfl⟩ := hstep
  have hallowed : e.Allowed st := by
    by_contra hnot
    have habort := hinv.not_allowed hk hlegal hnot
    rw [hexec] at habort
    cases habort
  obtain ⟨r', errno', flags', hexec', hflags, hgetfl⟩ :=
    hinv.allowed hk hlegal hallowed
  rw [hexec] at hexec'
  cases hexec'
  refine ⟨hflags, fun w hw => ?_⟩
  by_cases hcmd : e.cmd = linuxFGetfl
  · have hr : r = some w := by rwa [FcntlEvent.after, if_pos hcmd] at hw
    rw [hgetfl hcmd] at hr
    cases hr
    exact ⟨hallowed.getfl hcmd, s.nonblock, rfl⟩
  · rw [FcntlEvent.after, if_neg hcmd] at hw
    exact hinv.getfl w hw

/-- The run lemma. -/
theorem statusInv_of_runs {es : List (FcntlEvent abi)}
    (hrun : FcntlRuns fd st es s) : StatusInv st s := by
  refine Runs.invariant (I := fun _ s => StatusInv st s) ?_ ?_ hrun
  · intro s hstart
    refine ⟨?_, fun w hw => ?_⟩
    · rw [hstart.nonblock]
      exact hstart.flags.flags_eq
    · rw [hstart.lastGetfl] at hw
      cases hw
  · intro es s e s' _ hinv hstep
    exact hinv.step hstep

/-- What an allowed call owes the caller, it does. -/
theorem StatusInv.meets (hinv : StatusInv st s) (hk : e.kernel.Ok fd)
    (hlegal : e.Legal s) (hallowed : e.Allowed st) : e.Meets fd st s := by
  obtain ⟨r, errno, flags, hexec, hflags, hgetfl⟩ :=
    hinv.allowed hk hlegal hallowed
  refine ⟨r, errno, flags, hexec, hgetfl, fun hcmd => ⟨?_, fun hr => ?_⟩,
    fun hcmd => ?_⟩
  · rw [hflags, hinv.flags, Status.native_and_not_nonblock,
      Status.native_and_not_nonblock]
  · rw [hflags, Status.native_nonblock]
    dsimp only
    rw [FcntlEvent.after, if_pos ⟨hcmd, hr⟩]
  · rw [hflags, hinv.flags, FcntlEvent.after, if_neg fun h => hcmd h.1]

end Steps

/-- In every run of `fcntl` calls on a descriptor, the next call does what
it owes the caller exactly if it is allowed. -/
theorem meets_iff_allowed {st : Status} {es : List (FcntlEvent abi)}
    {s : FdState} (hrun : FcntlRuns fd st es s) {e : FcntlEvent abi}
    (hk : e.kernel.Ok fd) (hlegal : e.Legal s) :
    e.Meets fd st s ↔ e.Allowed st := by
  have hinv := statusInv_of_runs hrun
  constructor
  · rintro ⟨r, errno, flags, hexec, -⟩
    by_contra hnot
    have habort := hinv.not_allowed hk hlegal hnot
    rw [hexec] at habort
    cases habort
  · exact hinv.meets hk hlegal

/-- In a whole run of `fcntl` calls on a descriptor, every call does what it
owes the caller exactly if every call is allowed. -/
theorem statusFlags_iff {st : Status} {s : FdState}
    (hstart : FdState.Start st s) {es : List (FcntlEvent abi)}
    (hlegal : Throughout (FcntlStep fd)
      (fun _ s e => e.kernel.Ok fd ∧ e.Legal s) [] s es) :
    Throughout (FcntlStep fd) (fun _ s e => e.Meets fd st s) [] s es ↔
      ∀ e ∈ es, e.Allowed st := by
  have hrun : FcntlRuns fd st ([] : List (FcntlEvent abi)) s := .nil hstart
  refine (Runs.throughout_iff (fun _ e => e.Allowed st) ?_ ?_ hrun
    hlegal).trans ?_
  · intro past s e hrun hlegal
    exact meets_iff_allowed hrun hlegal.1 hlegal.2
  · intro past s e hrun hlegal hmeets
    obtain ⟨r, errno, flags, hexec, -⟩ := hmeets
    exact ⟨_, hlegal.1, hlegal.2, r, errno, flags, hexec, rfl⟩
  · constructor
    · intro hallowed e he
      obtain ⟨es₁, es₂, heq⟩ := List.mem_iff_append.mp he
      exact hallowed es₁ e es₂ heq
    · intro hallowed es₁ e es₂ heq
      exact hallowed e (List.mem_iff_append.mpr ⟨es₁, es₂, heq⟩)

end Runs

/-- A kernel in which every call succeeds, as it acts on the description of
`fd`. -/
def obligingKernel (fd : Word) : Kernel
  | .getfl _, flags => (.ok flags, flags)
  | .setfl fd' new, flags =>
      (.ok 0, if fd' = fd then flags &&& ~~~setflMask ||| new &&& setflMask
        else flags)
  | .pipe2 _, flags => (.ok (3, 4), flags)
  | .getfd _, flags | .setfd _ _, flags | .setlk _ _, flags
  | .setlkw _ _, flags | .dupfdCloexec _ _, flags | .addSeals _ _, flags =>
      (.ok (0 : Word), flags)

theorem obligingKernel_ok (fd : Word) : (obligingKernel fd).Ok fd where
  getfl _ := rfl
  setfl flags new := .inl ⟨0, by rw [obligingKernel, if_pos rfl]⟩
  others c flags hc := by
    cases c with
    | setfl fd' new =>
        have hne : fd' ≠ fd := fun h => hc new (h ▸ rfl)
        exact if_neg hne
    | getfd fd => rfl
    | setfd fd arg => rfl
    | getfl fd => rfl
    | setlk fd lock => rfl
    | setlkw fd lock => rfl
    | dupfdCloexec fd arg => rfl
    | addSeals fd flags => rfl
    | pipe2 flags => rfl

/-- A call of `fcntl` on descriptor 5 under that kernel. -/
def statusCall (cmd arg : Word) : FcntlEvent .amd64 :=
  ⟨cmd, arg, ⟨0, 0, 0, 0, 0⟩, obligingKernel 5, 0⟩

/-- A kernel that opens every file as descriptor 5. -/
def openingKernel : (c : FileCall) → Except Errno (FileAnswer c)
  | .open .. => .ok (5 : Word)
  | _ => .error eacces

/-- A log file, opened to append to it. -/
theorem obtained_log : Obtained ⟨.wronly, true, false⟩ (oWronly ||| oAppend) := by
  have hrun : (shimOpen (lit "/compat/linux") (lit "/tmp/log") 0x401 0).run
      openingKernel 0 = .ok (some 5, 0) := rfl
  have hcalls : .open (lit "/tmp/log") 9 0 ∈
      (shimOpen (lit "/compat/linux") (lit "/tmp/log") 0x401 0).calls
        openingKernel 0 := List.mem_singleton.mpr rfl
  have haccmode : (0x401 : Word) &&& oAccmode = Accmode.wronly.bits := rfl
  exact .open hrun hcalls haccmode

/-- A kernel that gives every socket descriptor 5. -/
def socketKernel : (c : SockCall) → Except Errno (SockAnswer c)
  | .socket .. => .ok (5 : Word)
  | _ => .error eacces

theorem obtained_socket : Obtained ⟨.rdwr, false, false⟩ oRdwr := by
  have hrun : (shimSocket 2 1 0).run socketKernel 0 = .ok (some 5, 0) := rfl
  have hcalls : .socket 2 1 0 ∈ (shimSocket 2 1 0).calls socketKernel 0 :=
    List.mem_singleton.mpr rfl
  exact .socket hrun hcalls

theorem getfl_append_aborts :
    FdState.Start ⟨.wronly, true, false⟩ ⟨oWronly ||| oAppend, false, none⟩ ∧
      Throughout (FcntlStep 5) (fun _ s e => e.kernel.Ok 5 ∧ e.Legal s) []
        ⟨oWronly ||| oAppend, false, none⟩ [statusCall linuxFGetfl 0] ∧
      ¬Throughout (FcntlStep 5)
        (fun _ s e => e.Meets 5 ⟨.wronly, true, false⟩ s) []
        ⟨oWronly ||| oAppend, false, none⟩ [statusCall linuxFGetfl 0] ∧
      ((statusCall linuxFGetfl 0).exec 5 (oWronly ||| oAppend)).1 =
        .error .abort := by
  refine ⟨⟨obtained_log, rfl, rfl⟩, ⟨⟨obligingKernel_ok 5, nofun⟩, ?_⟩, ?_, rfl⟩
  · exact fun _ _ => trivial
  · rintro ⟨⟨r, errno, flags, hexec, -⟩, -⟩
    exact absurd hexec nofun

/-- The calls that make a socket non-blocking. -/
def setNonblock : List (FcntlEvent .amd64) :=
  [statusCall linuxFGetfl 0,
    statusCall linuxFSetfl (linuxORdwr ||| linuxONonblock),
    statusCall linuxFGetfl 0]

theorem socket_nonblock_meets :
    Throughout (FcntlStep 5) (fun _ s e => e.Meets 5 ⟨.rdwr, false, false⟩ s) []
      ⟨oRdwr, false, none⟩ setNonblock := by
  have hok := obligingKernel_ok 5
  refine (statusFlags_iff ⟨obtained_socket, rfl, rfl⟩ ?_).mpr ?_
  · refine ⟨⟨hok, nofun⟩, ?_⟩
    rintro s ⟨-, -, r, errno, flags, hexec, rfl⟩
    cases hexec
    refine ⟨⟨hok, fun _ => ⟨linuxORdwr, rfl, .inl rfl⟩⟩, ?_⟩
    rintro s ⟨-, -, r, errno, flags, hexec, rfl⟩
    cases hexec
    exact ⟨⟨hok, nofun⟩, fun _ _ => trivial⟩
  · intro e he
    simp only [setNonblock, List.mem_cons, List.not_mem_nil, or_false] at he
    rcases he with rfl | rfl | rfl
    · exact ⟨.inr (.inr (.inl rfl)), fun _ => rfl, nofun⟩
    · exact ⟨.inr (.inr (.inr (.inl rfl))), nofun, nofun⟩
    · exact ⟨.inr (.inr (.inl rfl)), fun _ => rfl, nofun⟩

end Libc6Shim
