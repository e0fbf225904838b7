import Libc6Shim.CSemSystem
import Libc6Shim.ControlLayout
import Libc6Shim.ReceivedAddr

/-!
# Calling recvmsg again on one message

A caller that reads a socket in a loop keeps one `msghdr` and re-arms only
its value-result fields between calls. For that to work the shim must leave
the three pointers of the message alone.

It does, save in one place: when a successful call brings no control data,
`native_to_linux_msg_control` stores NULL in the caller's `msg_control`
(`nativeToLinuxMsgControl_pointers`), and the next message that does bring
some is converted through it. So a run keeps its pointers exactly as long
as every successful call in it brings control data, or the caller had no
control buffer to begin with.

As long as it does, a call's control data arrive in the caller's buffer:
`DeliversControl` says so of the messages FreeBSD laid out, which the buffer
then holds by Linux's rules. That a call gets as far as that is a matter of
what it brings (`Conveys`): the shim aborts on flags, addresses and kinds of
message it does not know.
-/

namespace Libc6Shim

open CSem Buf Outcome

/-! ## Runs -/

/-- One call in a run: what the caller re-arms, the memory the call finds,
and what the native call answers. -/
structure RecvCall where
  msgNamelen : Nat
  msgControllen : Nat
  msgFlags : Word
  mem : Mem
  stack : Stack
  s : Word
  linuxFlags : Word
  answer : Except Errno RecvAnswer

namespace RecvCall

/-- The message with its value-result fields set again. -/
def rearm (c : RecvCall) (linuxMsg : LinuxMsghdr) : LinuxMsghdr :=
  { linuxMsg with
    msgNamelen := c.msgNamelen, msgControllen := c.msgControllen,
    msgFlags := c.msgFlags }

/-- The native library during the call. -/
def native (c : RecvCall) : (call : SockCall) → Except Errno (SockAnswer call)
  | .recvmsg .. => c.answer
  | _ => .error enosys

/-- The call on the re-armed message: what it returns, the memory and the
message it leaves, and `errno`. -/
def step (abi : Abi) (c : RecvCall) (linuxMsg : LinuxMsghdr) :
    Outcome ((Option Nat × Mem × LinuxMsghdr) × Errno) :=
  (shimRecvmsg abi c.stack c.mem c.s (c.rearm linuxMsg) c.linuxFlags).run
    c.native 0

end RecvCall

/-- One call that returns. -/
def RecvStep (abi : Abi) (linuxMsg : LinuxMsghdr) (c : RecvCall)
    (linuxMsg' : LinuxMsghdr) : Prop :=
  ∃ nbytes mem errno, c.step abi linuxMsg = .ok ((nbytes, mem, linuxMsg'), errno)

/-- The messages a caller that starts with `first` has after a sequence of
calls that return. -/
abbrev RecvRuns (abi : Abi) (first : LinuxMsghdr) :
    List RecvCall → LinuxMsghdr → Prop :=
  Runs (· = first) (RecvStep abi)

theorem RecvRuns.call {abi : Abi} {first linuxMsg linuxMsg' : LinuxMsghdr}
    {cs : List RecvCall} {c : RecvCall} {nbytes : Option Nat} {mem : Mem}
    {errno : Errno} (hrun : RecvRuns abi first cs linuxMsg)
    (hstep : c.step abi linuxMsg = .ok ((nbytes, mem, linuxMsg'), errno)) :
    RecvRuns abi first (cs ++ [c]) linuxMsg' :=
  .snoc hrun ⟨nbytes, mem, errno, hstep⟩

/-- The pointers of a message are the ones first stored. -/
def SamePointers (first linuxMsg : LinuxMsghdr) : Prop :=
  linuxMsg.msgName = first.msgName ∧ linuxMsg.msgIov = first.msgIov ∧
    linuxMsg.msgControl = first.msgControl

/-- The call fails, or brings control data, or there is no control buffer to
lose. -/
def KeepsControl (first : LinuxMsghdr) (c : RecvCall) : Prop :=
  first.msgControl = null ∨ ∀ answer, c.answer = .ok answer →
    answer.msgControl ≠ []

/-! ## One call -/

theorem receiveHead_pointers {stack : Stack} {mem mem' : Mem}
    {linuxMsg linuxMsg' : LinuxMsghdr} {answer : RecvAnswer}
    (h : receiveHead stack mem linuxMsg answer = .ok (mem', linuxMsg')) :
    SamePointers linuxMsg linuxMsg' ∧
      linuxMsg'.msgControllen = linuxMsg.msgControllen := by
  rw [receiveHead] at h
  obtain ⟨flags, -, h⟩ := bind_eq_ok.mp h
  dsimp only at h
  split at h
  · obtain ⟨⟨linuxAddr, linuxLen⟩, -, h⟩ := bind_eq_ok.mp h
    cases h
    exact ⟨⟨rfl, rfl, rfl⟩, rfl⟩
  · cases h
    exact ⟨⟨rfl, rfl, rfl⟩, rfl⟩

/-- What the conversion of the control data does to the caller's message and
to its control buffer. -/
theorem nativeToLinuxMsgControl_pointers {abi : Abi} {mem mem' : Mem}
    {linuxMsg linuxMsg' : LinuxMsghdr} {answer : RecvAnswer}
    (h : nativeToLinuxMsgControl abi mem linuxMsg answer.msg =
      .ok (mem', linuxMsg')) :
    linuxMsg'.msgName = linuxMsg.msgName ∧
      linuxMsg'.msgIov = linuxMsg.msgIov ∧
      linuxMsg'.msgControl =
        if answer.msgControl = [] then null else linuxMsg.msgControl := by
  have hlen : answer.msg.msgControllen.toNat = answer.msgControl.length :=
    Nat.mod_eq_of_lt answer.length_msgControl
  rw [nativeToLinuxMsgControl, hlen] at h
  by_cases hnil : answer.msgControl = []
  · rw [if_neg (by rw [hnil]; exact Nat.lt_irrefl 0)] at h
    cases h
    exact ⟨rfl, rfl, (if_pos hnil).symm⟩
  · rw [if_pos (List.length_pos_iff.mpr hnil)] at h
    obtain ⟨_, -, h⟩ := bind_eq_ok.mp h
    obtain ⟨dst, -, h⟩ := bind_eq_ok.mp h
    cases h
    exact ⟨rfl, rfl, (if_neg hnil).symm⟩

/-- A call by its native answer: flags that are not known abort it, a
failure leaves the re-armed message, a success is written back. -/
theorem RecvCall.step_eq (abi : Abi) (c : RecvCall) (linuxMsg : LinuxMsghdr) :
    c.step abi linuxMsg = (do
      let _ ← linuxToNativeMsgFlags c.linuxFlags
      match c.answer with
      | .ok answer =>
          let out ← receiveMsg abi c.stack c.mem (c.rearm linuxMsg) answer
          return ((some answer.nbytes, out), 0)
      | .error e =>
          return ((none, c.mem, c.rearm linuxMsg), nativeToLinuxErrno e)) := by
  rw [step, shimRecvmsg, Routine.run_bind, Routine.run_lift]
  cases linuxToNativeMsgFlags c.linuxFlags with
  | error e => rfl
  | ok flags =>
      simp only [ok_bind, callNative, Routine.run_bind, Routine.run_native,
        native]
      cases c.answer with
      | error e => rfl
      | ok answer =>
          simp only [ok_bind, Routine.run_bind, Routine.run_lift]
          cases receiveMsg abi c.stack c.mem (c.rearm linuxMsg) answer <;> rfl

/-- The step lemma: a call that returns keeps the name and iovec pointers,
and keeps the control pointer unless it succeeds without control data. -/
theorem RecvCall.step_pointers {abi : Abi} {c : RecvCall}
    {linuxMsg linuxMsg' : LinuxMsghdr} (h : RecvStep abi linuxMsg c linuxMsg') :
    linuxMsg'.msgName = linuxMsg.msgName ∧
      linuxMsg'.msgIov = linuxMsg.msgIov ∧
      (linuxMsg'.msgControl = linuxMsg.msgControl ∨
        linuxMsg'.msgControl = null) ∧
      ((∀ answer, c.answer = .ok answer → answer.msgControl ≠ []) →
        linuxMsg'.msgControl = linuxMsg.msgControl) ∧
      (∀ answer, c.answer = .ok answer → answer.msgControl = [] →
        linuxMsg'.msgControl = null) := by
  obtain ⟨nbytes, mem, errno, h⟩ := h
  rw [step_eq] at h
  obtain ⟨_, -, h⟩ := bind_eq_ok.mp h
  cases hanswer : c.answer with
  | error e =>
      rw [hanswer] at h
      cases h
      exact ⟨rfl, rfl, .inl rfl, fun _ => rfl, nofun⟩
  | ok answer =>
      rw [hanswer] at h
      obtain ⟨⟨mem', out⟩, hreceive, h⟩ := bind_eq_ok.mp h
      cases h
      obtain ⟨⟨mem₁, linuxMsg₁⟩, hhead, hcontrol⟩ := bind_eq_ok.mp hreceive
      obtain ⟨⟨hname, hiov, hctl⟩, -⟩ := receiveHead_pointers hhead
      obtain ⟨hname', hiov', hctl'⟩ := nativeToLinuxMsgControl_pointers hcontrol
      have hkeep : answer.msgControl ≠ [] →
          linuxMsg'.msgControl = linuxMsg.msgControl := by
        intro hne
        rw [hctl', if_neg hne, hctl]
        rfl
      have hlose : answer.msgControl = [] → linuxMsg'.msgControl = null := by
        intro hnil
        rw [hctl', if_pos hnil]
      refine ⟨by rw [hname', hname]; rfl, by rw [hiov', hiov]; rfl, ?_, ?_, ?_⟩
      · by_cases hnil : answer.msgControl = []
        · exact .inr (hlose hnil)
        · exact .inl (hkeep hnil)
      · intro hall
        exact hkeep (hall answer rfl)
      · intro answer' hanswer' hnil
        cases hanswer'
        exact hlose hnil

/-! ## Whole runs -/

/-- The run lemma: calls that keep the control pointer keep all three. -/
theorem RecvRuns.samePointers {abi : Abi} {first linuxMsg : LinuxMsghdr}
    {cs : List RecvCall} (hrun : RecvRuns abi first cs linuxMsg)
    (hkeeps : ∀ c ∈ cs, KeepsControl first c) : SamePointers first linuxMsg := by
  induction hrun with
  | nil hstart =>
      obtain rfl := hstart
      exact ⟨rfl, rfl, rfl⟩
  | @snoc cs linuxMsg linuxMsg' c hrun hstep ih =>
      obtain ⟨hname, hiov, hctl⟩ := ih fun c' hc' =>
        hkeeps c' (List.mem_append_left _ hc')
      obtain ⟨hname', hiov', hor, hkeep, -⟩ := RecvCall.step_pointers hstep
      refine ⟨hname'.trans hname, hiov'.trans hiov, ?_⟩
      rcases hkeeps c (List.mem_append_right _ (List.mem_singleton_self c)) with
        hnull | hall
      · rcases hor with h | h
        · exact h.trans hctl
        · exact h.trans hnull.symm
      · exact (hkeep hall).trans hctl

/-- A run that has kept its pointers throughout is made of calls that
do. -/
theorem RecvRuns.keepsControl {abi : Abi} {first linuxMsg : LinuxMsghdr}
    {cs : List RecvCall} (hrun : RecvRuns abi first cs linuxMsg)
    (hsame : ∀ cs' linuxMsg', cs' <+: cs → RecvRuns abi first cs' linuxMsg' →
      SamePointers first linuxMsg') :
    ∀ c ∈ cs, KeepsControl first c := by
  induction hrun with
  | nil hstart => exact nofun
  | @snoc cs linuxMsg linuxMsg' c hrun hstep ih =>
      intro c' hc'
      rcases List.mem_append.mp hc' with hc' | hc'
      · exact ih (fun cs' m hpre hrun' =>
          hsame cs' m (hpre.trans (List.prefix_append _ _)) hrun') c' hc'
      · obtain rfl := List.mem_singleton.mp hc'
        by_contra hbad
        obtain ⟨hne, hanswer⟩ := not_or.mp hbad
        push Not at hanswer
        obtain ⟨answer, hanswer, hnil⟩ := hanswer
        obtain ⟨-, -, hctl⟩ := hsame _ linuxMsg' (List.prefix_refl _)
          (.snoc hrun hstep)
        obtain ⟨-, -, -, -, hlose⟩ := RecvCall.step_pointers hstep
        exact hne (hctl.symm.trans (hlose answer hanswer hnil))

/-! ## What a call brings -/

/-- A call brings control data that the caller has room for: its buffers are
as long as it says, and the kernel stored no more of an address than there
is room for on the shim's stack. -/
structure Brings (first : LinuxMsghdr) (c : RecvCall) (answer : RecvAnswer) :
    Prop where
  answered : c.answer = .ok answer
  control : answer.msgControl ≠ []
  fits : answer.msgControl.length ≤ c.msgControllen
  room : c.msgControllen ≤ (c.mem.obj first.msgControl).length
  nameRoom : first.msgName ≠ null →
    c.msgNamelen ≤ (c.mem.obj first.msgName).length
  stored : answer.msgName.length ≤ sizeofSockaddrStorage

/-- The address in `addr` is of a known family, the caller has room for it,
and a name is not too long for Linux. -/
def AddrTaken (linuxLen : Nat) (addr : Buf) : Prop :=
  ∃ family size, saFamily addr = .ok family ∧ familyRoom family = some size ∧
    size ≤ linuxLen ∧
    (family = pfUnix →
      ∃ path, addr.cstrAt 2 = .ok path ∧ path.length < linuxSunPathSize)

/-- What a call must bring for its control data to arrive: flags the shim
knows in both directions, an address it can convert if the caller asked for
one, and whole messages of the two kinds it translates. -/
def Conveys (abi : Abi) (first : LinuxMsghdr) (c : RecvCall)
    (answer : RecvAnswer) : Prop :=
  c.linuxFlags &&& ~~~knownLinuxMsgFlags = 0 ∧
    answer.msgFlags &&& ~~~knownNativeMsgFlags = 0 ∧
    answer.msgFlags &&& msgEof = 0 ∧
    (first.msgName ≠ null →
      AddrTaken c.msgNamelen (c.stack.storage answer.msgName)) ∧
    ∃ ms, (nativeDialect abi).LaidOut answer.msgControl.length answer.msgControl
      0 ms

/-- The call on `linuxMsg` returns, and the messages the kernel laid out are
in the buffer the caller first stored, laid out as Linux has them. -/
def DeliversControl (abi : Abi) (first linuxMsg : LinuxMsghdr) (c : RecvCall)
    (answer : RecvAnswer) : Prop :=
  ∃ ms nbytes mem' linuxMsg' errno,
    (nativeDialect abi).LaidOut answer.msgControl.length answer.msgControl 0
        ms ∧
      c.step abi linuxMsg = .ok ((nbytes, mem', linuxMsg'), errno) ∧
      linuxMsg'.msgControllen = answer.msgControl.length ∧
      (linuxDialect abi).LaidOut answer.msgControl.length
        ((mem'.obj first.msgControl).take answer.msgControl.length) 0 ms

section Address

variable {linuxAddr addr : Buf} {linuxLen : Nat}

/-- An address that is taken is converted inside the caller's buffer. -/
theorem AddrTaken.returns (h : AddrTaken linuxLen addr)
    (hroom : linuxLen ≤ linuxAddr.length)
    (haddr : addr.length = sizeofSockaddrStorage) :
    ∃ out, nativeToLinuxSockaddr linuxAddr linuxLen addr = .ok out ∧
      out.1.length = linuxAddr.length := by
  have hstorage : sizeofSockaddrStorage = 128 := rfl
  have hin : sizeofSockaddrIn = 16 := rfl
  have hin6 : sizeofSockaddrIn6 = 28 := rfl
  have hun : sizeofLinuxSockaddrUn = 2 + linuxSunPathSize := rfl
  obtain ⟨family, size, hfamily, hsize, hle, hunix⟩ := h
  rcases family_cases family linuxLen with
    hno | ⟨rfl, hl⟩ | ⟨rfl, hl⟩ | ⟨rfl, hl⟩
  · exact absurd (hno size hsize) (Nat.not_lt.mpr hle)
  · obtain ⟨path, hpath, hlt⟩ := hunix rfl
    refine ⟨_, by rw [nativeToLinuxSockaddr_unix hfamily hl,
      nativeToLinuxSockaddrUn_patch (by omega) hpath hlt, ok_bind],
      length_patch ?_⟩
    simp only [List.length_append, length_leBytes, List.length_singleton]
    omega
  · refine ⟨_, by rw [nativeToLinuxSockaddr_inet hfamily hl,
      nativeToLinuxSockaddrIn_patch (by omega) (by omega), ok_bind],
      length_patch ?_⟩
    rw [List.length_append, length_leBytes, length_slice (by omega)]
    omega
  · refine ⟨_, by rw [nativeToLinuxSockaddr_inet6 hfamily hl,
      nativeToLinuxSockaddrIn6_patch (by omega) (by omega), ok_bind],
      length_patch ?_⟩
    rw [List.length_append, length_leBytes, length_slice (by omega)]
    omega

/-- No other is. -/
theorem AddrTaken.of_returns {out : Buf × Nat}
    (h : nativeToLinuxSockaddr linuxAddr linuxLen addr = .ok out) :
    AddrTaken linuxLen addr := by
  obtain ⟨family, hfamily, -⟩ := bind_eq_ok.mp h
  rcases family_cases family linuxLen with
    hno | ⟨rfl, hl⟩ | ⟨rfl, hl⟩ | ⟨rfl, hl⟩
  · rw [nativeToLinuxSockaddr_of_no_room hfamily hno] at h
    cases h
  · refine ⟨pfUnix, _, hfamily, rfl, hl, fun _ => ?_⟩
    rw [nativeToLinuxSockaddr_unix hfamily hl] at h
    obtain ⟨d, hd, -⟩ := bind_eq_ok.mp h
    rw [nativeToLinuxSockaddrUn] at hd
    obtain ⟨_, -, hd⟩ := bind_eq_ok.mp hd
    obtain ⟨path, hpath, hd⟩ := bind_eq_ok.mp hd
    obtain ⟨_, -, hd⟩ := bind_eq_ok.mp hd
    obtain ⟨_, hlt, -⟩ := bind_eq_ok.mp hd
    exact ⟨path, hpath, require_eq_ok.mp hlt⟩
  · exact ⟨pfInet, _, hfamily, rfl, hl, fun h => absurd h (by decide)⟩
  · exact ⟨pfInet6, _, hfamily, rfl, hl, fun h => absurd h (by decide)⟩

end Address

theorem linuxToNativeMsgFlags_returns_iff {linuxFlags : Word} :
    (∃ flags, linuxToNativeMsgFlags linuxFlags = .ok flags) ↔
      linuxFlags &&& ~~~knownLinuxMsgFlags = 0 := by
  constructor
  · rintro ⟨flags, hflags⟩
    obtain ⟨_, hknown, -⟩ := bind_eq_ok.mp hflags
    exact require_eq_ok.mp hknown
  · intro hknown
    exact ⟨_, by rw [linuxToNativeMsgFlags, require_of hknown, ok_bind]; rfl⟩

theorem nativeToLinuxMsgFlags_returns_iff {flags : Word} :
    (∃ linuxFlags, nativeToLinuxMsgFlags flags = .ok linuxFlags) ↔
      flags &&& ~~~knownNativeMsgFlags = 0 ∧ flags &&& msgEof = 0 := by
  constructor
  · rintro ⟨linuxFlags, hflags⟩
    obtain ⟨_, hknown, hflags⟩ := bind_eq_ok.mp hflags
    obtain ⟨_, heof, -⟩ := bind_eq_ok.mp hflags
    exact ⟨require_eq_ok.mp hknown, require_eq_ok.mp heof⟩
  · rintro ⟨hknown, heof⟩
    exact ⟨_, by rw [nativeToLinuxMsgFlags, require_of hknown, ok_bind,
      require_of heof, ok_bind]; rfl⟩

/-- Only the pointers of the message matter to what is written back. -/
theorem receiveHead_congr {stack : Stack} {mem : Mem}
    {first linuxMsg : LinuxMsghdr} (hsame : SamePointers first linuxMsg)
    (c : RecvCall) (answer : RecvAnswer) :
    receiveHead stack mem (c.rearm linuxMsg) answer =
      receiveHead stack mem (c.rearm first) answer := by
  obtain ⟨hname, hiov, hctl⟩ := hsame
  cases first
  cases linuxMsg
  cases hname
  cases hiov
  cases hctl
  rfl

section Delivery

variable {abi : Abi} {first linuxMsg : LinuxMsghdr} {c : RecvCall}
  {answer : RecvAnswer}

/-- With known flags and an address that is taken, the call gets as far as
the control data, and the control buffer is as long as it was. -/
theorem Conveys.head_returns (h : Conveys abi first c answer)
    (hbrings : Brings first c answer) :
    ∃ mem head, receiveHead c.stack c.mem (c.rearm first) answer =
        .ok (mem, head) ∧
      (mem.obj first.msgControl).length =
        (c.mem.obj first.msgControl).length := by
  obtain ⟨-, hknown, heof, haddr, -⟩ := h
  obtain ⟨f, hf⟩ := nativeToLinuxMsgFlags_returns_iff.mpr ⟨hknown, heof⟩
  by_cases hname : first.msgName = null
  · refine ⟨c.mem, { c.rearm first with
      msgIovlen := answer.msgIovlen, msgFlags := f }, ?_, rfl⟩
    rw [receiveHead, hf, ok_bind]
    exact if_neg (not_not.mpr hname)
  · obtain ⟨out, hout, hlen⟩ := (haddr hname).returns (hbrings.nameRoom hname)
      (length_storage hbrings.stored)
    have hreceive : receiveHead c.stack c.mem (c.rearm first) answer =
        .ok (c.mem.update first.msgName out.1,
          { c.rearm first with msgIovlen := answer.msgIovlen, msgFlags := f,
                               msgNamelen := out.2 }) := by
      rw [receiveHead, hf, ok_bind]
      dsimp only
      rw [if_pos (show (c.rearm first).msgName ≠ null from hname)]
      exact bind_eq_ok.mpr ⟨out, hout, rfl⟩
    refine ⟨_, _, hreceive, ?_⟩
    by_cases halias : first.msgControl = first.msgName
    · rw [halias, Mem.obj_update_self hname, hlen]
    · rw [Mem.obj_update_of_ne halias]

/-- The messages of a call that brings whole ones arrive: the pointers of
the message are in place. -/
theorem Conveys.delivers (h : Conveys abi first c answer)
    (hbrings : Brings first c answer) (hsame : SamePointers first linuxMsg) :
    DeliversControl abi first linuxMsg c answer := by
  obtain ⟨mem, head, hhead, hlength⟩ := h.head_returns hbrings
  obtain ⟨hflags, -, -, -, ms, hms⟩ := h
  obtain ⟨flags, hflags⟩ := linuxToNativeMsgFlags_returns_iff.mpr hflags
  have hlen : answer.msg.msgControllen.toNat = answer.msgControl.length :=
    Nat.mod_eq_of_lt answer.length_msgControl
  have hmsg : answer.msg.msgControl.getD [] = answer.msgControl := rfl
  obtain ⟨⟨-, -, hctl⟩, hcap⟩ := receiveHead_pointers hhead
  have hctl' : head.msgControl = first.msgControl := hctl
  have hcap' : head.msgControllen = c.msgControllen := hcap
  have hfits := hbrings.fits
  have hroom := hbrings.room
  obtain ⟨mem', linuxMsg', hconv, hlen', -, hms'⟩ :=
    @nativeToLinuxMsgControl_of_laidOut abi mem answer.msg head ms
      (by rw [hlen, hmsg]) (by rw [hctl', hlength]; omega) (by omega)
      (by rw [hlen, hmsg, List.take_length]; exact hms)
  rw [hlen] at hlen' hms'
  obtain ⟨-, -, hkeep⟩ := nativeToLinuxMsgControl_pointers hconv
  rw [if_neg hbrings.control, hctl'] at hkeep
  rw [hkeep] at hms'
  refine ⟨ms, some answer.nbytes, mem', linuxMsg', 0, hms, ?_, hlen', hms'⟩
  rw [RecvCall.step_eq, hflags, hbrings.answered]
  simp only [ok_bind, receiveMsg, receiveHead_congr hsame, hhead, hconv]
  rfl

/-- And only those do. -/
theorem DeliversControl.conveys
    (h : DeliversControl abi first linuxMsg c answer)
    (hbrings : Brings first c answer) (hsame : SamePointers first linuxMsg) :
    Conveys abi first c answer := by
  obtain ⟨ms, nbytes, mem', linuxMsg', errno, hms, hstep, -, -⟩ := h
  rw [RecvCall.step_eq, hbrings.answered] at hstep
  obtain ⟨flags, hflags, hstep⟩ := bind_eq_ok.mp hstep
  obtain ⟨out, hreceive, -⟩ := bind_eq_ok.mp hstep
  obtain ⟨⟨mem, head⟩, hhead, -⟩ := bind_eq_ok.mp hreceive
  rw [receiveHead_congr hsame, receiveHead] at hhead
  obtain ⟨f, hf, hhead⟩ := bind_eq_ok.mp hhead
  obtain ⟨hknown, heof⟩ := nativeToLinuxMsgFlags_returns_iff.mp ⟨f, hf⟩
  refine ⟨linuxToNativeMsgFlags_returns_iff.mp ⟨flags, hflags⟩, hknown, heof,
    fun hname => ?_, ms, hms⟩
  dsimp only at hhead
  rw [if_pos (show (c.rearm first).msgName ≠ null from hname)] at hhead
  obtain ⟨out, hout, -⟩ := bind_eq_ok.mp hhead
  exact .of_returns hout

end Delivery

/-- `recvmsg` can be called again on one message: a run keeps the message's
pointers in every state it reaches exactly if each of its successful calls
brings control data (or there was no control buffer), and after a run that
does, the control data a call brings arrive in the caller's buffer exactly
if the call conveys them. -/
theorem recvmsg_runs_keep_pointers (abi : Abi) (first linuxMsg : LinuxMsghdr)
    (cs : List RecvCall) (hrun : RecvRuns abi first cs linuxMsg) :
    ((∀ cs' linuxMsg', cs' <+: cs → RecvRuns abi first cs' linuxMsg' →
        SamePointers first linuxMsg') ↔ ∀ c ∈ cs, KeepsControl first c) ∧
      ((∀ c ∈ cs, KeepsControl first c) →
        ∀ c answer, Brings first c answer →
          (DeliversControl abi first linuxMsg c answer ↔
            Conveys abi first c answer)) := by
  refine ⟨⟨hrun.keepsControl, ?_⟩, ?_⟩
  · intro hkeeps cs' linuxMsg' hpre hrun'
    exact hrun'.samePointers fun c hc => hkeeps c (hpre.subset hc)
  · intro hkeeps c answer hbrings
    have hsame := hrun.samePointers hkeeps
    exact ⟨fun h => h.conveys hbrings hsame, fun h => h.delivers hbrings hsame⟩

/-- A caller's message with an iovec at 1 and 24 control bytes at 2. -/
def loopMsg : LinuxMsghdr := ⟨null, 0, 1, 1, 2, 24, 0⟩

/-- A call on it that brings `control`. -/
def loopCall (control : Buf) (hlen : control.length < 2 ^ 32) : RecvCall where
  msgNamelen := 0
  msgControllen := 24
  msgFlags := 0
  mem := .only 2 (.replicate 24 0)
  stack := .filled 0
  s := 3
  linuxFlags := 0
  answer := .ok ⟨1, [], 1, control, 0, hlen⟩

/-- One descriptor, as FreeBSD sends it on amd64. -/
def oneRight : Buf :=
  leBytes 4 20 ++ leBytes 4 solSocket.toNat ++ leBytes 4 scmRights.toNat ++
    leBytes 4 0 ++ leBytes 4 7

/-- What the call with the descriptor answers. -/
def rightAnswer : RecvAnswer := ⟨1, [], 1, oneRight, 0, by decide⟩

theorem recvmsg_loses_control :
    ∃ linuxMsg, RecvRuns .amd64 loopMsg [loopCall [] (by decide)] linuxMsg ∧
      ¬SamePointers loopMsg linuxMsg ∧
      (loopCall oneRight (by decide)).step .amd64 linuxMsg = .error .fault ∧
      Brings loopMsg (loopCall oneRight (by decide)) rightAnswer ∧
      ¬DeliversControl .amd64 loopMsg linuxMsg
        (loopCall oneRight (by decide)) rightAnswer := by
  refine ⟨{ loopMsg with msgControl := null, msgControllen := 0 },
    RecvRuns.call (.nil rfl) rfl, fun h => absurd h.2.2 (by decide), rfl,
    ⟨rfl, List.cons_ne_nil _ _, by decide, by decide, by decide, by decide⟩, ?_⟩
  rintro ⟨ms, nbytes, mem, linuxMsg, errno, -, hstep, -⟩
  exact absurd hstep nofun

theorem recvmsg_keeps_control :
    ∃ linuxMsg, RecvRuns .amd64 loopMsg [loopCall oneRight (by decide)] linuxMsg ∧
      SamePointers loopMsg linuxMsg ∧
      DeliversControl .amd64 loopMsg linuxMsg
        (loopCall oneRight (by decide)) rightAnswer := by
  have hrun : RecvRuns .amd64 loopMsg [loopCall oneRight (by decide)]
      { loopMsg with msgControllen := 20 } :=
    RecvRuns.call (.nil rfl) rfl
  have hkeeps : ∀ c ∈ [loopCall oneRight (by decide)],
      KeepsControl loopMsg c := by
    intro c hc
    obtain rfl := List.mem_singleton.mp hc
    refine .inr fun answer hanswer => ?_
    cases hanswer
    exact List.cons_ne_nil _ _
  obtain ⟨hiff, hdelivers⟩ := recvmsg_runs_keep_pointers .amd64 loopMsg _ _ hrun
  refine ⟨_, hrun, hiff.mpr hkeeps _ _ (List.prefix_refl _) hrun,
    (hdelivers hkeeps _ _ ⟨rfl, List.cons_ne_nil _ _, by decide, by decide,
      by decide, by decide⟩).mpr ⟨rfl, rfl, rfl, fun h => absurd rfl h,
        [⟨.rights, leBytes 4 7⟩], by decide⟩⟩

end Libc6Shim
