import Libc6Shim.SockCalls

/-!
# Which error number the caller reads

Every entry point makes at most one native call, and when that call fails
it returns `-1`. What differs is the number it leaves in `errno`: seven of
the sixteen translate it on the way out, the other nine leave the native
one. `SockEntry.delivers` is that fact for all of them, by the rules of
`Routine.Delivers`: computations before the call change nothing, and
nothing is called after it.

The native number and the Linux one differ for four errors (`Renumbered`),
so the caller is told the truth by a translating entry point always, and by
the others exactly for the errors that are not renumbered
(`errno_delivered_iff`).
-/

namespace Libc6Shim

open CSem Buf Routine

/-! ## The entry points -/

/-- A call of one of the entry points, with its arguments. -/
inductive SockEntry where
  | read (fd : Word) (buf : Ptr) (nbytes : Nat)
  | write (fd : Word) (buf : Ptr) (nbytes : Nat)
  | recv (s : Word) (buf : Ptr) (len : Nat) (linuxFlags : Word)
  | send (s : Word) (msg : Ptr) (len : Nat) (linuxFlags : Word)
  | recvfrom (s : Word) (buf : Ptr) (len : Nat) (linuxFlags : Word)
      (linuxFrom : Option (Buf × Nat))
  | recvmsg (s : Word) (linuxMsg : LinuxMsghdr) (linuxFlags : Word)
  | sendto (s : Word) (msg : Ptr) (len : Nat) (linuxFlags : Word)
      (linuxTo : Buf) (tolen : Nat)
  | sendmsg (s : Word) (linuxMsg : LinuxMsghdr) (linuxFlags : Word)
  | recvChk (fd : Word) (buf : Ptr) (len buflen : Nat) (flags : Word)
  | connect (s : Word) (linuxName : Buf) (namelen : Nat)
  | bind (s : Word) (linuxAddr : Buf) (addrlen : Nat)
  | socket (domain type protocol : Word)
  | socketpair (domain type protocol : Word)
  | getsockname (s : Word) (linuxName : Buf) (linuxNamelen : Nat)
  | getsockopt (s linuxLevel linuxOptname : Word) (optlen : Nat)
  | setsockopt (s linuxLevel linuxOptname : Word) (optval : Option Buf)
      (optlen : Nat)

/-- What the entry points are called in: the build, and the memory. -/
structure Setting where
  abi : Abi
  hasCreds : Bool
  stack : Stack
  mem : Mem

namespace SockEntry

/-- The call, answering whether it returned `-1`. -/
def routine (G : Setting) : SockEntry → SockRoutine Bool
  | read fd buf n => Option.isNone <$> shimRead fd buf n
  | write fd buf n => Option.isNone <$> shimWrite fd buf n
  | recv s buf len flags => Option.isNone <$> shimRecv s buf len flags
  | send s msg len flags => Option.isNone <$> shimSend s msg len flags
  | recvfrom s buf len flags linuxFrom =>
      (fun r => r.1.isNone) <$> shimRecvfrom G.stack s buf len flags linuxFrom
  | recvmsg s linuxMsg flags =>
      (fun r => r.1.isNone) <$>
        shimRecvmsg G.abi G.stack G.mem s linuxMsg flags
  | sendto s msg len flags linuxTo tolen =>
      Option.isNone <$> shimSendto G.stack s msg len flags linuxTo tolen
  | sendmsg s linuxMsg flags =>
      Option.isNone <$> shimSendmsg G.abi G.stack G.mem s linuxMsg flags
  | recvChk fd buf len buflen flags =>
      Option.isNone <$> shimRecvChk fd buf len buflen flags
  | connect s linuxName namelen =>
      Option.isNone <$> shimConnect G.stack s linuxName namelen
  | bind s linuxAddr addrlen =>
      Option.isNone <$> shimBind G.stack s linuxAddr addrlen
  | socket domain type protocol =>
      Option.isNone <$> shimSocket domain type protocol
  | socketpair domain type protocol =>
      Option.isNone <$> shimSocketpair domain type protocol
  | getsockname s linuxName linuxNamelen =>
      (fun r => r.1.isNone) <$>
        shimGetsockname G.stack s linuxName linuxNamelen
  | getsockopt s level optname optlen =>
      Option.isNone <$> shimGetsockopt G.hasCreds s level optname optlen
  | setsockopt s level optname optval optlen =>
      Option.isNone <$> shimSetsockopt G.hasCreds s level optname optval optlen

/-- The call, and the error number read after it. -/
def thenErrno (G : Setting) (x : SockEntry) : SockRoutine (Bool × Errno) := do
  let failed ← x.routine G
  return (failed, ← shimErrnoLocation)

/-- The entry points that translate the error number. -/
def Translates : SockEntry → Prop
  | recv .. | send .. | recvfrom .. | recvmsg .. | sendto .. | sendmsg ..
  | connect .. => True
  | _ => False

instance : DecidablePred Translates := fun x => by
  cases x <;> unfold Translates <;> infer_instance

/-- What the entry point does to the error number of its native call. -/
def deliver (x : SockEntry) : Errno → Errno :=
  if x.Translates then nativeToLinuxErrno else id

end SockEntry

/-! ## Delivery -/

section

variable {α β : Type} {Failed : α → Prop}

/-- A call whose failure is translated at once. -/
theorem delivers_translate (c : SockCall)
    {k : Option (SockAnswer c) → SockRoutine α} (hk : ∀ r, Silent (k r))
    (hfail : ∀ h e, ∃ a, (k none).run h e = .ok (a, nativeToLinuxErrno e) ∧
      Failed a) :
    Delivers nativeToLinuxErrno Failed (callNative c >>= k) :=
  Delivers.native_bind c hk hfail

theorem silent_translateErrno (r : Option α) : Silent (translateErrno r) := by
  cases r <;> exact fun _ _ => rfl

/-- The common shape: call, translate, return. -/
theorem delivers_call_translate {c : SockCall} {α : Type}
    {f : Option (SockAnswer c) → Option α} (hf : f none = none) :
    Delivers nativeToLinuxErrno (· = none)
      (callNative c >>= fun r => translateErrno (f r)) := by
  refine delivers_translate c (fun r => silent_translateErrno _) fun h e => ?_
  rw [hf]
  exact ⟨none, rfl, rfl⟩

theorem delivers_isNone {T : Errno → Errno} {p : SockRoutine (Option α)}
    (hp : Delivers T (· = none) p) :
    Delivers T (· = true) (Option.isNone <$> p) :=
  hp.map fun r hr => by rw [hr]; rfl

theorem delivers_fst_isNone {T : Errno → Errno}
    {p : SockRoutine (Option α × β)} (hp : Delivers T (fun r => r.1 = none) p) :
    Delivers T (· = true) ((fun r => r.1.isNone) <$> p) :=
  hp.map fun r hr => by rw [hr]; rfl

end

namespace SockEntry

theorem delivers_recvfrom (stack : Stack) (s : Word) (buf : Ptr) (len : Nat)
    (flags : Word) (linuxFrom : Option (Buf × Nat)) :
    Delivers nativeToLinuxErrno (fun r => r.1 = none)
      (shimRecvfrom stack s buf len flags linuxFrom) := by
  refine Delivers.lift_bind _ fun nativeFlags => ?_
  cases linuxFrom with
  | none =>
      refine delivers_translate _ (fun r => ?_) fun h e => ⟨(none, none), rfl, rfl⟩
      exact silent_bind (silent_translateErrno _) fun _ => silent_pure _
  | some linuxFrom =>
      obtain ⟨linuxAddr, linuxLen⟩ := linuxFrom
      refine delivers_translate _ (fun r => ?_)
        fun h e => ⟨(none, some (linuxAddr, linuxLen)), rfl, rfl⟩
      cases r with
      | none =>
          exact silent_bind (silent_translateErrno _) fun _ => silent_pure _
      | some answer => exact silent_bind (silent_lift _) fun _ => silent_pure _

theorem delivers_recvmsg (abi : Abi) (stack : Stack) (mem : Mem) (s : Word)
    (linuxMsg : LinuxMsghdr) (flags : Word) :
    Delivers nativeToLinuxErrno (fun r => r.1 = none)
      (shimRecvmsg abi stack mem s linuxMsg flags) := by
  refine Delivers.lift_bind _ fun nativeFlags => ?_
  refine delivers_translate _ (fun r => ?_)
    fun h e => ⟨(none, mem, linuxMsg), rfl, rfl⟩
  cases r with
  | none => exact silent_bind (silent_translateErrno _) fun _ => silent_pure _
  | some answer => exact silent_bind (silent_lift _) fun _ => silent_pure _

theorem delivers_getsockname (stack : Stack) (s : Word) (linuxName : Buf)
    (linuxNamelen : Nat) :
    Delivers id (fun r => r.1 = none)
      (shimGetsockname stack s linuxName linuxNamelen) := by
  refine Delivers.native_bind _ (fun r => ?_)
    fun h e => ⟨(none, linuxName, linuxNamelen), rfl, rfl⟩
  cases r with
  | none => exact silent_pure _
  | some stored => exact silent_bind (silent_lift _) fun _ => silent_pure _

theorem delivers_getsockopt (hasCreds : Bool) (s level optname : Word)
    (optlen : Nat) :
    Delivers id (· = none) (shimGetsockopt hasCreds s level optname optlen) := by
  unfold shimGetsockopt
  split
  · split
    · split
      · exact Delivers.native _
      · exact Delivers.of_silent (silent_pure _)
    · exact Delivers.lift_bind _ fun _ => Delivers.native _
  · exact Delivers.lift_bind _ fun _ => Delivers.native _

theorem delivers_setsockopt (hasCreds : Bool) (s level optname : Word)
    (optval : Option Buf) (optlen : Nat) :
    Delivers id (· = none)
      (shimSetsockopt hasCreds s level optname optval optlen) := by
  unfold shimSetsockopt
  split
  · refine Delivers.lift_bind _ fun zero => ?_
    split
    · exact Delivers.of_silent (silent_pure _)
    · split
      · split
        · exact Delivers.native _
        · exact Delivers.of_silent (silent_pure _)
      · exact Delivers.lift_bind _ fun _ => Delivers.native _
  · exact Delivers.lift_bind _ fun _ => Delivers.native _

/-- Every entry point: when its native call fails with `e` it returns `-1`,
with `deliver e` in `errno`. -/
theorem delivers (G : Setting) (x : SockEntry) :
    Delivers x.deliver (· = true) (x.routine G) := by
  cases x with
  | read fd buf n => exact delivers_isNone (Delivers.native _)
  | write fd buf n => exact delivers_isNone (Delivers.native _)
  | recv s buf len flags =>
      exact delivers_isNone (Delivers.lift_bind _ fun _ =>
        delivers_call_translate rfl)
  | send s msg len flags =>
      exact delivers_isNone (Delivers.lift_bind _ fun _ =>
        delivers_call_translate rfl)
  | recvfrom s buf len flags linuxFrom =>
      exact delivers_fst_isNone (delivers_recvfrom _ _ _ _ _ _)
  | recvmsg s linuxMsg flags => exact delivers_fst_isNone (delivers_recvmsg _ _ _ _ _ _)
  | sendto s msg len flags linuxTo tolen =>
      exact delivers_isNone (Delivers.lift_bind _ fun _ =>
        Delivers.lift_bind _ fun _ => delivers_call_translate rfl)
  | sendmsg s linuxMsg flags =>
      exact delivers_isNone (Delivers.lift_bind _ fun _ =>
        Delivers.lift_bind _ fun _ => delivers_call_translate rfl)
  | recvChk fd buf len buflen flags =>
      exact delivers_isNone (Delivers.lift_bind _ fun _ => Delivers.native _)
  | connect s linuxName namelen =>
      exact delivers_isNone (Delivers.lift_bind _ fun _ =>
        delivers_call_translate rfl)
  | bind s linuxAddr addrlen =>
      exact delivers_isNone (Delivers.lift_bind _ fun _ => Delivers.native _)
  | socket domain type protocol =>
      exact delivers_isNone (Delivers.lift_bind _ fun _ =>
        Delivers.lift_bind _ fun _ => Delivers.native _)
  | socketpair domain type protocol =>
      exact delivers_isNone (Delivers.lift_bind _ fun _ =>
        Delivers.lift_bind _ fun _ => Delivers.native _)
  | getsockname s linuxName linuxNamelen =>
      exact delivers_fst_isNone (delivers_getsockname _ _ _ _)
  | getsockopt s level optname optlen =>
      exact delivers_isNone (delivers_getsockopt _ _ _ _ _)
  | setsockopt s level optname optval optlen =>
      exact delivers_isNone (delivers_setsockopt _ _ _ _ _ _)

/-- What the caller reads in `errno` after a failed call. -/
theorem thenErrno_of_fails (G : Setting) {x : SockEntry}
    {h : (c : SockCall) → Except Errno (SockAnswer c)} {e₀ e : Errno}
    {c : SockCall} (hc : c ∈ (x.routine G).calls h e₀) (he : h c = .error e) :
    (x.thenErrno G).run h e₀ = .ok ((true, x.deliver e), x.deliver e) := by
  obtain ⟨failed, hrun, rfl⟩ := x.delivers G h e₀ c e hc he
  rw [thenErrno, run_bind, hrun]
  rfl

theorem deliver_eq_iff (x : SockEntry) (e : Errno) :
    x.deliver e = nativeToLinuxErrno e ↔ x.Translates ∨ ¬Renumbered e := by
  rw [deliver]
  split
  · rename_i h
    exact iff_of_true rfl (.inl h)
  · rename_i h
    rw [id_eq, eq_comm, nativeToLinuxErrno_eq_self_iff, or_iff_right h]

theorem deliver_eq_deliver_iff (x y : SockEntry) (e : Errno) :
    x.deliver e = y.deliver e ↔
      (x.Translates ↔ y.Translates) ∨ ¬Renumbered e := by
  rw [deliver, deliver]
  by_cases hx : x.Translates <;> by_cases hy : y.Translates
  · simp [hx, hy]
  · rw [if_pos hx, if_neg hy, id_eq, nativeToLinuxErrno_eq_self_iff]
    simp [hx, hy]
  · rw [if_neg hx, if_pos hy, id_eq, eq_comm, nativeToLinuxErrno_eq_self_iff]
    simp [hx, hy]
  · simp [hx, hy]

end SockEntry

/-- An error number as the `int` that `SO_ERROR` stores. -/
def intBytes (e : Errno) : Buf := leBytes 4 (BitVec.ofInt 32 e).toNat

theorem intBytes_eq_iff (e : Errno) :
    intBytes e = intBytes (nativeToLinuxErrno e) ↔ ¬Renumbered e := by
  constructor
  · rintro h (rfl | rfl | rfl | rfl) <;> revert h <;> decide
  · intro h
    rw [nativeToLinuxErrno_eq_self_iff.mpr h]

theorem shimGetsockopt_soError {hasCreds : Bool} {s : Word} {optlen : Nat}
    {h : (c : SockCall) → Except Errno (SockAnswer c)} {e₀ : Errno} {b : Buf}
    (hb : h (.getsockopt s solSocket soError optlen) = .ok b) :
    (shimGetsockopt hasCreds s linuxSolSocket linuxSoError optlen).run h e₀ =
      .ok (some b, e₀) := by
  have hcall : shimGetsockopt hasCreds s linuxSolSocket linuxSoError optlen =
      callNative (.getsockopt s solSocket soError optlen) := rfl
  rw [hcall, callNative, run_native, hb]

/-- When the caller is told the truth. A failing native call shows up in
`errno` under its Linux number exactly if the entry point translates or the
error is not renumbered; a pending error is stored under its Linux number
exactly if it is not renumbered; and two entry points agree on an error
exactly if both translate, or neither does, or it is not renumbered. -/
theorem errno_delivered_iff (G : Setting) :
    (∀ (x : SockEntry) h (e₀ : Errno) c e, c ∈ (x.routine G).calls h e₀ →
      h c = .error e →
      ∃ linuxErrno, (x.thenErrno G).run h e₀ =
          .ok ((true, linuxErrno), linuxErrno) ∧
        (linuxErrno = nativeToLinuxErrno e ↔ x.Translates ∨ ¬Renumbered e)) ∧
    (∀ s optlen h (e₀ pending : Errno),
      h (.getsockopt s solSocket soError optlen) = .ok (intBytes pending) →
      ∃ stored, (shimGetsockopt G.hasCreds s linuxSolSocket linuxSoError
          optlen).run h e₀ = .ok (some stored, e₀) ∧
        (stored = intBytes (nativeToLinuxErrno pending) ↔
          ¬Renumbered pending)) ∧
    (∀ (x y : SockEntry) h h' (e₀ e₀' : Errno) c c' e,
      c ∈ (x.routine G).calls h e₀ → h c = .error e →
      c' ∈ (y.routine G).calls h' e₀' → h' c' = .error e →
      ∃ xErrno yErrno, (x.thenErrno G).run h e₀ = .ok ((true, xErrno), xErrno) ∧
        (y.thenErrno G).run h' e₀' = .ok ((true, yErrno), yErrno) ∧
        (xErrno = yErrno ↔
          (x.Translates ↔ y.Translates) ∨ ¬Renumbered e)) := by
  refine ⟨?_, ?_, ?_⟩
  · intro x h e₀ c e hc he
    exact ⟨x.deliver e, SockEntry.thenErrno_of_fails G hc he,
      x.deliver_eq_iff e⟩
  · intro s optlen h e₀ pending hpending
    exact ⟨intBytes pending, shimGetsockopt_soError hpending,
      intBytes_eq_iff pending⟩
  · intro x y h h' e₀ e₀' c c' e hc he hc' he'
    exact ⟨x.deliver e, y.deliver e, SockEntry.thenErrno_of_fails G hc he,
      SockEntry.thenErrno_of_fails G hc' he', x.deliver_eq_deliver_iff y e⟩

/-- A plain setting, with zeros on the stack. -/
def Setting.plain : Setting where
  abi := .amd64
  hasCreds := true
  stack := .filled 0
  mem := .only null []

/-- Nothing to read on a non-blocking socket: `recv` reports the Linux
`EAGAIN`, `read` the native one. -/
theorem read_eagain_not_delivered :
    ((SockEntry.read 3 1 16).thenErrno .plain).run (fun _ => .error eagain) 0 =
        .ok ((true, 35), 35) ∧
      ((SockEntry.recv 3 1 16 0).thenErrno .plain).run
        (fun _ => .error eagain) 0 = .ok ((true, 11), 11) ∧
      nativeToLinuxErrno eagain = 11 := ⟨rfl, rfl, rfl⟩

theorem recv_eagain_delivered :
    (∃ linuxErrno, ((SockEntry.recv 3 1 16 0).thenErrno .plain).run
        (fun _ => .error eagain) 0 = .ok ((true, linuxErrno), linuxErrno) ∧
      (linuxErrno = nativeToLinuxErrno eagain ↔
        (SockEntry.recv 3 1 16 0).Translates ∨ ¬Renumbered eagain)) ∧
    (∃ stored, (shimGetsockopt true 3 linuxSolSocket linuxSoError 4).run
        (fun
          | .getsockopt .. => .ok (intBytes einprogress)
          | _ => .error einval) 0 = .ok (some stored, 0) ∧
      (stored = intBytes (nativeToLinuxErrno einprogress) ↔
        ¬Renumbered einprogress)) ∧
    ∃ xErrno yErrno,
      ((SockEntry.recv 3 1 16 0).thenErrno .plain).run
        (fun _ => .error eagain) 0 = .ok ((true, xErrno), xErrno) ∧
      ((SockEntry.read 3 1 16).thenErrno .plain).run
        (fun _ => .error eagain) 0 = .ok ((true, yErrno), yErrno) ∧
      (xErrno = yErrno ↔ ((SockEntry.recv 3 1 16 0).Translates ↔
        (SockEntry.read 3 1 16).Translates) ∨ ¬Renumbered eagain) := by
  obtain ⟨hfails, hpending, hagree⟩ := errno_delivered_iff .plain
  exact ⟨hfails (.recv 3 1 16 0) (fun _ => .error eagain) 0 (.recv 3 1 16 0)
      eagain (List.mem_singleton_self _) rfl,
    hpending 3 4 _ 0 einprogress rfl,
    hagree (.recv 3 1 16 0) (.read 3 1 16) (fun _ => .error eagain)
      (fun _ => .error eagain) 0 0 (.recv 3 1 16 0) (.read 3 1 16) eagain
      (List.mem_singleton_self _) rfl (List.mem_singleton_self _) rfl⟩

end Libc6Shim
