import Libc6Shim.CSemSystem
import Libc6Shim.SockCalls

/-!
# Socket options as a store

A socket is a store of option values to a Linux program, and it is one to
the native side, which has other names for the same options and refuses those
it does not know at the level they are asked for at. Between the two stand
the tables of `getsockopt` and `setsockopt`. `counterparts` is what they are
to say, and `routed` is what they do say: no two pairs collide
(`routed_inj`), but `IPV6_V6ONLY` goes to the wrong level, and a send buffer
of no bytes is reported as set without a call. `sockOptions_store_iff` says
that a run of calls goes as on a store exactly if it keeps away from these
two.
-/

namespace Libc6Shim

open CSem Buf Outcome Routine

/-! ## Options -/

/-- An option as Linux names it. -/
structure LinuxOpt where
  level : Word
  optname : Word
deriving DecidableEq

def ipprotoIpv6 : Word := 41

/-- The options that both systems have: the Linux pair, and the native level
and option. -/
def commonCounterparts : List (LinuxOpt × (Word × Word)) :=
  [(⟨linuxSolSocket, linuxSoReuseaddr⟩, (solSocket, soReuseaddr)),
    (⟨linuxSolSocket, linuxSoError⟩, (solSocket, soError)),
    (⟨linuxSolSocket, linuxSoBroadcast⟩, (solSocket, soBroadcast)),
    (⟨linuxSolSocket, linuxSoSndbuf⟩, (solSocket, soSndbuf)),
    (⟨linuxSolSocket, linuxSoRcvbuf⟩, (solSocket, soRcvbuf)),
    (⟨linuxSolSocket, linuxSoKeepalive⟩, (solSocket, soKeepalive)),
    (⟨linuxSolIp, linuxIpRecvtos⟩, (ipprotoIp, ipRecvtos)),
    (⟨linuxSolIp, linuxIpMtuDiscover⟩, (ipprotoIp, ipDontfrag)),
    (⟨linuxSolIpv6, linuxIpv6V6only⟩, (ipprotoIpv6, ipv6V6only)),
    (⟨linuxSolTcp, linuxTcpNodelay⟩, (ipprotoTcp, tcpNodelay)),
    (⟨linuxSolTcp, linuxTcpKeepidle⟩, (ipprotoTcp, tcpKeepidle)),
    (⟨linuxSolTcp, linuxTcpKeepintvl⟩, (ipprotoTcp, tcpKeepintvl))]

/-- The same with `SO_PASSCRED`, which depends on the build. -/
def counterparts (hasCreds : Bool) : List (LinuxOpt × (Word × Word)) :=
  commonCounterparts ++
    if hasCreds then
      [(⟨linuxSolSocket, linuxSoPasscred⟩, (solLocal, localCredsPersistent))]
    else []

def sndbufOpt : LinuxOpt := ⟨linuxSolSocket, linuxSoSndbuf⟩
def v6onlyOpt : LinuxOpt := ⟨linuxSolIpv6, linuxIpv6V6only⟩

/-- Where the shim goes for a native option. -/
def routed (native : Word × Word) : Word × Word :=
  if native = (ipprotoIpv6, ipv6V6only) then (ipprotoIp, ipv6V6only) else native

theorem counterparts_true (hasCreds : Bool) :
    ∀ x ∈ counterparts hasCreds, x ∈ counterparts true := by
  cases hasCreds with
  | false =>
      exact fun x hx => List.mem_append_left _ (by simpa [counterparts] using hx)
  | true => exact fun x hx => hx

/-- Distinct options go to distinct places. -/
theorem routed_inj {hasCreds : Bool} {p q : LinuxOpt} {m n : Word × Word}
    (hp : (p, m) ∈ counterparts hasCreds) (hq : (q, n) ∈ counterparts hasCreds)
    (hne : q ≠ p) : routed n ≠ routed m := by
  have hall : ∀ x ∈ counterparts true, ∀ y ∈ counterparts true, y.1 ≠ x.1 →
      routed y.2 ≠ routed x.2 := by decide
  exact hall _ (counterparts_true _ _ hp) _ (counterparts_true _ _ hq) hne

/-- An option has one counterpart. -/
theorem counterpart_unique {hasCreds : Bool} {p : LinuxOpt} {m n : Word × Word}
    (hm : (p, m) ∈ counterparts hasCreds) (hn : (p, n) ∈ counterparts hasCreds) :
    m = n := by
  have hall : ∀ x ∈ counterparts true, ∀ y ∈ counterparts true, x.1 = y.1 →
      x.2 = y.2 := by decide
  exact hall _ (counterparts_true _ _ hm) _ (counterparts_true _ _ hn) rfl

theorem routed_eq_self {hasCreds : Bool} {p : LinuxOpt} {m : Word × Word}
    (hp : (p, m) ∈ counterparts hasCreds) : p ≠ v6onlyOpt → routed m = m := by
  have hall : ∀ x ∈ counterparts true, x.1 ≠ v6onlyOpt → routed x.2 = x.2 := by
    decide
  exact hall _ (counterparts_true _ _ hp)

theorem routed_v6only {hasCreds : Bool} {m : Word × Word}
    (hp : (v6onlyOpt, m) ∈ counterparts hasCreds) :
    m = (ipprotoIpv6, ipv6V6only) ∧ routed m = (ipprotoIp, ipv6V6only) := by
  have hall : ∀ x ∈ counterparts true, x.1 = v6onlyOpt →
      x.2 = (ipprotoIpv6, ipv6V6only) ∧
        routed x.2 = (ipprotoIp, ipv6V6only) := by decide
  exact hall _ (counterparts_true _ _ hp) rfl

theorem counterpart_sndbuf {hasCreds : Bool} {m : Word × Word}
    (hp : (sndbufOpt, m) ∈ counterparts hasCreds) :
    m = (solSocket, soSndbuf) ∧ routed m = (solSocket, soSndbuf) := by
  have hall : ∀ x ∈ counterparts true, x.1 = sndbufOpt →
      x.2 = (solSocket, soSndbuf) ∧ routed x.2 = (solSocket, soSndbuf) := by
    decide
  exact hall _ (counterparts_true _ _ hp) rfl

/-! ## The native side -/

/-- What the native side knows: the options at each level, and the values
they take. -/
structure NativeOptions where
  defined : Word × Word → Bool
  valid : Word × Word → Buf → Bool
  v6only_level : ∀ level, defined (level, ipv6V6only) = true →
    level = ipprotoIpv6

/-- The values of a socket's options. -/
abbrev SockoptStore := Word × Word → Buf

def enoprotoopt : Errno := 42

namespace NativeOptions

variable (N : NativeOptions)

/-- A native option is set to a value. -/
def Takes (native : Word × Word) (v : Buf) : Prop :=
  N.defined native = true ∧ N.valid native v = true

instance {native : Word × Word} {v : Buf} : Decidable (N.Takes native v) :=
  inferInstanceAs (Decidable (_ ∧ _))

/-- The value of a native option, as many bytes as are asked for. -/
def read (st : SockoptStore) (native : Word × Word) (optlen : Nat) : Option Buf :=
  if N.defined native then some ((st native).take optlen) else none

/-- The store, after an option is to be set. -/
def write (st : SockoptStore) (native : Word × Word) (v : Option Buf) :
    Option Unit × SockoptStore :=
  match v with
  | some v =>
      if N.Takes native v then (some (), Function.update st native v)
      else (none, st)
  | none => (none, st)

def answer : (c : SockCall) → SockoptStore → Except Errno (SockAnswer c) × SockoptStore
  | .getsockopt _ level optname optlen, st =>
      match N.read st (level, optname) optlen with
      | some v => (.ok v, st)
      | none => (.error enoprotoopt, st)
  | .setsockopt _ level optname optval optlen, st =>
      match N.write st (level, optname) (optval.map (·.take optlen)) with
      | (some (), st) => (.ok (), st)
      | (none, st) => (.error enoprotoopt, st)
  | _, st => (.error enosys, st)

variable (hasCreds : Bool) (s : Word)

/-- What the shim's `getsockopt` answers, and the store it leaves. -/
def getsockopt (st : SockoptStore) (p : LinuxOpt) (optlen : Nat) :
    Outcome (Option Buf) × SockoptStore :=
  let r := exec N.answer
    (shimGetsockopt hasCreds s p.level p.optname optlen) 0 st
  (r.1.map Prod.fst, r.2)

/-- What the shim's `setsockopt` answers, and the store it leaves. -/
def setsockopt (st : SockoptStore) (p : LinuxOpt) (optval : Option Buf)
    (optlen : Nat) : Outcome (Option Unit) × SockoptStore :=
  let r := exec N.answer
    (shimSetsockopt hasCreds s p.level p.optname optval optlen) 0 st
  (r.1.map Prod.fst, r.2)

/-- What is said of every option may be said of each. -/
theorem forall_counterparts {P : LinuxOpt × (Word × Word) → Prop}
    (hcommon : ∀ x ∈ commonCounterparts, P x)
    (hcreds : hasCreds = true →
      P (⟨linuxSolSocket, linuxSoPasscred⟩, (solLocal, localCredsPersistent))) :
    ∀ x ∈ counterparts hasCreds, P x := by
  intro x hx
  rcases List.mem_append.mp hx with hx | hx
  · exact hcommon x hx
  · cases hasCreds with
    | false => cases hx
    | true =>
        obtain rfl := List.mem_singleton.mp hx
        exact hcreds rfl

theorem shimGetsockopt_eq (optlen : Nat) :
    ∀ x ∈ counterparts hasCreds,
      shimGetsockopt hasCreds s x.1.level x.1.optname optlen =
        callNative (.getsockopt s (routed x.2).1 (routed x.2).2 optlen) := by
  refine forall_counterparts hasCreds ?_ ?_
  · simp only [commonCounterparts, List.forall_mem_cons]
    exact ⟨rfl, rfl, rfl, rfl, rfl, rfl, rfl, rfl, rfl, rfl, rfl, rfl,
      List.forall_mem_nil _⟩
  · rintro rfl
    rfl

/-- The test in front of every option of the socket level. -/
def zeroSndbuf (p : LinuxOpt) (optval : Option Buf) : Outcome Bool := do
  match optval with
  | some optval =>
      if p = sndbufOpt then return (← optval.loadNat 0 4) = 0 else return false
  | none => return false

theorem shimSetsockopt_eq (optval : Option Buf) (optlen : Nat) :
    ∀ x ∈ counterparts hasCreds,
      shimSetsockopt hasCreds s x.1.level x.1.optname optval optlen = (do
        if ← zeroSndbuf x.1 optval then return some ()
        else
          callNative
            (.setsockopt s (routed x.2).1 (routed x.2).2 optval optlen)) := by
  refine forall_counterparts hasCreds ?_ ?_
  · simp only [commonCounterparts, List.forall_mem_cons]
    cases optval <;>
      exact ⟨rfl, rfl, rfl, rfl, rfl, rfl, rfl, rfl, rfl, rfl, rfl, rfl,
        List.forall_mem_nil _⟩
  · rintro rfl
    cases optval <;> rfl

variable {N hasCreds s}

/-- `getsockopt` reads where the option is routed. -/
theorem getsockopt_eq {p : LinuxOpt} {native : Word × Word}
    (hp : (p, native) ∈ counterparts hasCreds) (st : SockoptStore) (optlen : Nat) :
    N.getsockopt hasCreds s st p optlen =
      (.ok (N.read st (routed native) optlen), st) := by
  have hcall : shimGetsockopt hasCreds s p.level p.optname optlen =
      callNative (.getsockopt s (routed native).1 (routed native).2 optlen) :=
    shimGetsockopt_eq hasCreds s optlen _ hp
  rw [getsockopt, hcall]
  rcases routed native with ⟨level, optname⟩
  rw [callNative, exec_native, answer]
  cases N.read st (level, optname) optlen <;> rfl

/-- `setsockopt` writes there, unless the test in front ends it. -/
theorem setsockopt_eq {p : LinuxOpt} {native : Word × Word}
    (hp : (p, native) ∈ counterparts hasCreds) (st : SockoptStore)
    (optval : Option Buf) (optlen : Nat) :
    N.setsockopt hasCreds s st p optval optlen =
      match zeroSndbuf p optval with
      | .error x => (.error x, st)
      | .ok true => (.ok (some ()), st)
      | .ok false =>
          (.ok (N.write st (routed native) (optval.map (·.take optlen))).1,
            (N.write st (routed native) (optval.map (·.take optlen))).2) := by
  have hcall := shimSetsockopt_eq hasCreds s optval optlen _ hp
  dsimp only at hcall
  rw [setsockopt, hcall]
  rcases zeroSndbuf p optval with x | zero
  · rfl
  · cases zero with
    | true => rfl
    | false =>
        rcases routed native with ⟨level, optname⟩
        change (let r := exec N.answer (callNative
            (.setsockopt s level optname optval optlen)) 0 st
          (r.1.map Prod.fst, r.2)) = _
        rw [callNative, exec_native, answer]
        generalize N.write st (level, optname) _ = written
        rcases written with ⟨_ | _, st'⟩ <;> rfl

theorem zeroSndbuf_of_not {p : LinuxOpt} (hp : p ≠ sndbufOpt)
    (optval : Option Buf) : zeroSndbuf p optval = .ok false := by
  cases optval with
  | none => rfl
  | some v => exact if_neg hp

theorem zeroSndbuf_short {v : Buf} (h : v.length < 4) :
    zeroSndbuf sndbufOpt (some v) = .error .fault := by
  rw [zeroSndbuf, if_pos rfl, loadNat_of_not (by decide) (by omega)]
  rfl

theorem zeroSndbuf_long {v : Buf} (h : 4 ≤ v.length) :
    zeroSndbuf sndbufOpt (some v) = .ok (decide (natAt v 0 4 = 0)) := by
  rw [zeroSndbuf, if_pos rfl, loadNat_of (by omega)]
  rfl

end NativeOptions

/-! ## Runs -/

inductive SockoptCall where
  | set (p : LinuxOpt) (optval : Option Buf) (optlen : Nat)
  | get (p : LinuxOpt) (optlen : Nat)

/-- The pair a call is about. -/
def SockoptCall.opt : SockoptCall → LinuxOpt
  | .set p .. | .get p _ => p

/-- A call about an option that both systems have. -/
def SockoptCall.Legal (hasCreds : Bool) (c : SockoptCall) : Prop :=
  ∃ native, (c.opt, native) ∈ counterparts hasCreds

/-- A socket, and the values its program has set, each the last for which
`setsockopt` returned 0. -/
structure SockoptState where
  store : SockoptStore
  ledger : LinuxOpt → Option Buf

namespace NativeOptions

variable (N : NativeOptions) (hasCreds : Bool) (s : Word)

/-- A call that returns. -/
def Step (st : SockoptState) (c : SockoptCall) (st' : SockoptState) : Prop :=
  match c with
  | .set p optval optlen => ∃ r,
      N.setsockopt hasCreds s st.store p optval optlen = (.ok r, st'.store) ∧
        st'.ledger =
          if r = some () then
            Function.update st.ledger p (optval.map (·.take optlen))
          else st.ledger
  | .get p optlen => ∃ r,
      N.getsockopt hasCreds s st.store p optlen = (.ok r, st'.store) ∧
        st'.ledger = st.ledger

/-- The call goes as on a store. A valid value can be set; an option that was
set is read back, at once and whatever was set since; and the other options
are as they were. -/
def StoreLike (st : SockoptState) : SockoptCall → Prop
  | .get p optlen => ∀ v, st.ledger p = some v →
      (N.getsockopt hasCreds s st.store p optlen).1 =
        .ok (some (v.take optlen))
  | .set p optval optlen =>
      let r := N.setsockopt hasCreds s st.store p optval optlen
      (∀ v native, optval = some v → (p, native) ∈ counterparts hasCreds →
        N.Takes native (v.take optlen) → r.1 = .ok (some ())) ∧
      (r.1 = .ok (some ()) →
        (∃ v, optval = some v ∧ ∀ m, (N.getsockopt hasCreds s r.2 p m).1 =
          .ok (some ((v.take optlen).take m))) ∧
        ∀ q native, (q, native) ∈ counterparts hasCreds → q ≠ p → ∀ m,
          (N.getsockopt hasCreds s r.2 q m).1 =
            (N.getsockopt hasCreds s st.store q m).1)

/-- What a call has to keep away from: setting `IPV6_V6ONLY` to a value it
takes, and a send buffer of no bytes - unless it is that already. (A send
buffer whose size is not a whole `int` is read past its end; no system takes
such a value.) -/
def KeepsAway (st : SockoptState) : SockoptCall → Prop
  | .get _ _ => True
  | .set p optval optlen => ∀ v, optval = some v →
      (p = v6onlyOpt → ¬N.Takes (ipprotoIpv6, ipv6V6only) (v.take optlen)) ∧
      (p = sndbufOpt → v.length < 4 →
        ¬N.Takes (solSocket, soSndbuf) (v.take optlen)) ∧
      (p = sndbufOpt → 4 ≤ v.length → natAt v 0 4 = 0 →
        N.defined (solSocket, soSndbuf) = true ∧
          st.store (solSocket, soSndbuf) = v.take optlen)

/-- What is in the ledger is in the store. -/
def LedgerKept (st : SockoptState) : Prop :=
  ∀ p native v, (p, native) ∈ counterparts hasCreds → st.ledger p = some v →
    N.defined (routed native) = true ∧ st.store (routed native) = v

variable {N hasCreds s} {st : SockoptState} {p : LinuxOpt} {native : Word × Word}
  {optval : Option Buf} {optlen : Nat}

theorem read_of_defined {store : SockoptStore} (h : N.defined native = true) (m : Nat) :
    N.read store native m = some ((store native).take m) := if_pos h

/-- Reading is whole reading. -/
theorem eq_of_read {store : SockoptStore} {v : Buf}
    (h : ∀ m, N.read store native m = some (v.take m)) :
    N.defined native = true ∧ store native = v := by
  have hdef : N.defined native = true := by
    by_contra hnot
    have hzero := h 0
    rw [read, if_neg hnot] at hzero
    cases hzero
  refine ⟨hdef, ?_⟩
  have hall := h (max (store native).length v.length)
  rw [read_of_defined hdef, List.take_of_length_le (Nat.le_max_left ..),
    List.take_of_length_le (Nat.le_max_right ..)] at hall
  exact Option.some.inj hall

theorem write_failed {store : SockoptStore} {v : Option Buf}
    (h : (N.write store native v).1 ≠ some ()) :
    (N.write store native v).2 = store := by
  cases v with
  | none => rfl
  | some v =>
      by_cases htakes : N.Takes native v
      · have hwrite : N.write store native (some v) =
            (some (), Function.update store native v) := if_pos htakes
        rw [hwrite] at h
        exact absurd rfl h
      · have hwrite : N.write store native (some v) = (none, store) :=
          if_neg htakes
        rw [hwrite]

/-- A call that returns something else than 0 leaves the store as it is. -/
theorem setsockopt_failed {store store' : SockoptStore} {r : Option Unit}
    (hp : (p, native) ∈ counterparts hasCreds)
    (h : N.setsockopt hasCreds s store p optval optlen = (.ok r, store'))
    (hr : r ≠ some ()) : store' = store := by
  rw [setsockopt_eq hp] at h
  cases hz : zeroSndbuf p optval with
  | error x =>
      rw [hz] at h
      cases h
  | ok zero =>
    rw [hz] at h
    cases zero with
    | true =>
        cases h
        exact absurd rfl hr
    | false =>
        cases h
        exact write_failed hr

/-- A call of `setsockopt` that goes on to the native side goes as on a
store exactly if the place it goes to takes what the option takes. -/
theorem storeLike_forwarded_iff (hp : (p, native) ∈ counterparts hasCreds)
    (hzero : zeroSndbuf p optval = .ok false) :
    N.StoreLike hasCreds s st (.set p optval optlen) ↔
      ∀ v, optval = some v → N.Takes native (v.take optlen) →
        N.Takes (routed native) (v.take optlen) := by
  have hset := setsockopt_eq (N := N) (s := s) hp st.store optval optlen
  rw [hzero] at hset
  dsimp only at hset
  rw [StoreLike]
  cases optval with
  | none =>
      have hnone : N.write st.store (routed native)
          ((none : Option Buf).map (·.take optlen)) = (none, st.store) := rfl
      rw [hset, hnone]
      exact iff_of_true ⟨nofun, nofun⟩ nofun
  | some v =>
      by_cases htakes : N.Takes (routed native) (v.take optlen)
      · have hwrite : N.write st.store (routed native)
            ((some v).map (·.take optlen)) = (some (),
              Function.update st.store (routed native) (v.take optlen)) :=
          if_pos htakes
        rw [hset, hwrite]
        dsimp only
        refine iff_of_true ⟨fun _ _ _ _ _ => rfl, fun _ =>
          ⟨⟨v, rfl, fun m => ?_⟩, fun q other hq hne m => ?_⟩⟩ ?_
        · rw [getsockopt_eq hp, read_of_defined htakes.1, Function.update_self]
        · rw [getsockopt_eq hq, getsockopt_eq hq, read, read,
            Function.update_of_ne (routed_inj hp hq hne)]
        · rintro w ⟨⟩ -
          exact htakes
      · have hwrite : N.write st.store (routed native)
            ((some v).map (·.take optlen)) = (none, st.store) := if_neg htakes
        rw [hset, hwrite]
        dsimp only
        constructor
        · rintro ⟨hvalid, -⟩ w ⟨⟩ htake
          cases hvalid v native rfl hp htake
        · intro hall
          refine ⟨fun w other hw hother htake => ?_, nofun⟩
          cases hw
          rw [counterpart_unique hother hp] at htake
          exact absurd (hall v rfl htake) htakes

/-- The send buffer's size is short of an `int`: the call does not return. -/
theorem storeLike_short_iff {v : Buf}
    (hp : (sndbufOpt, native) ∈ counterparts hasCreds) (hv : v.length < 4) :
    N.StoreLike hasCreds s st (.set sndbufOpt (some v) optlen) ↔
      ¬N.Takes native (v.take optlen) := by
  have hset := setsockopt_eq (N := N) (s := s) hp st.store (some v) optlen
  rw [zeroSndbuf_short hv] at hset
  dsimp only at hset
  rw [StoreLike, hset]
  dsimp only
  constructor
  · intro h htake
    cases h.1 v native rfl hp htake
  · intro hnot
    refine ⟨fun w other hw hother htake => ?_, nofun⟩
    cases hw
    rw [counterpart_unique hother hp] at htake
    exact absurd htake hnot

/-- A send buffer of no bytes is reported as set: that goes as on a store if
it is what was there. -/
theorem storeLike_zero_iff {v : Buf}
    (hp : (sndbufOpt, native) ∈ counterparts hasCreds) (hv : 4 ≤ v.length)
    (hzero : natAt v 0 4 = 0) :
    N.StoreLike hasCreds s st (.set sndbufOpt (some v) optlen) ↔
      N.defined (routed native) = true ∧
        st.store (routed native) = v.take optlen := by
  have hset := setsockopt_eq (N := N) (s := s) hp st.store (some v) optlen
  rw [zeroSndbuf_long hv, decide_eq_true hzero] at hset
  dsimp only at hset
  rw [StoreLike, hset]
  dsimp only
  constructor
  · rintro ⟨-, hreads⟩
    obtain ⟨⟨w, ⟨⟩, hread⟩, -⟩ := hreads rfl
    refine eq_of_read fun m => ?_
    have hm := hread m
    rw [getsockopt_eq hp] at hm
    exact Except.ok.inj hm
  · rintro ⟨hdef, hstore⟩
    refine ⟨fun _ _ _ _ _ => rfl, fun _ =>
      ⟨⟨v, rfl, fun m => ?_⟩, fun _ _ _ _ _ => rfl⟩⟩
    rw [getsockopt_eq hp, read_of_defined hdef, hstore]

/-- One call goes as on a store exactly if it keeps away from the two. -/
theorem storeLike_iff {c : SockoptCall} (hlegal : c.Legal hasCreds)
    (hst : N.LedgerKept hasCreds st) :
    N.StoreLike hasCreds s st c ↔ N.KeepsAway st c := by
  obtain ⟨native, hp⟩ := hlegal
  cases c with
  | get p optlen =>
      change (p, native) ∈ counterparts hasCreds at hp
      refine iff_of_true (fun v hv => ?_) trivial
      obtain ⟨hdef, hstore⟩ := hst p native v hp hv
      rw [getsockopt_eq hp, read_of_defined hdef, hstore]
  | set p optval optlen =>
      change (p, native) ∈ counterparts hasCreds at hp
      by_cases hsnd : p = sndbufOpt
      · subst hsnd
        have hne : sndbufOpt ≠ v6onlyOpt := by decide
        obtain ⟨hnative, hrouted⟩ := counterpart_sndbuf hp
        cases optval with
        | none =>
            rw [storeLike_forwarded_iff hp rfl]
            exact iff_of_true nofun nofun
        | some v =>
            by_cases hv : v.length < 4
            · rw [storeLike_short_iff hp hv, hnative]
              constructor
              · rintro hnot w ⟨⟩
                exact ⟨fun h => absurd h hne, fun _ _ => hnot, fun _ h => by omega⟩
              · exact fun h => (h v rfl).2.1 rfl hv
            · have hv : 4 ≤ v.length := by omega
              by_cases hzero : natAt v 0 4 = 0
              · rw [storeLike_zero_iff hp hv hzero, hrouted]
                constructor
                · rintro hsame w ⟨⟩
                  exact ⟨fun h => absurd h hne, fun _ h => by omega,
                    fun _ _ _ => hsame⟩
                · exact fun h => (h v rfl).2.2 rfl hv hzero
              · rw [storeLike_forwarded_iff hp (by
                  rw [zeroSndbuf_long hv, decide_eq_false hzero])]
                refine iff_of_true ?_ ?_
                · intro w _ htake
                  rw [routed_eq_self hp hne]
                  exact htake
                · rintro w ⟨⟩
                  exact ⟨fun h => absurd h hne, fun _ h => by omega,
                    fun _ _ h => absurd h hzero⟩
      · rw [storeLike_forwarded_iff hp (zeroSndbuf_of_not hsnd optval)]
        by_cases hv6 : p = v6onlyOpt
        · subst hv6
          obtain ⟨hnative, hrouted⟩ := routed_v6only hp
          have hrefused : ∀ w, ¬N.Takes (ipprotoIp, ipv6V6only) w := fun w h =>
            absurd (N.v6only_level _ h.1) (by decide)
          rw [hnative] at hrouted ⊢
          rw [hrouted]
          constructor
          · intro hall v hv
            exact ⟨fun _ htake => hrefused _ (hall v hv htake),
              fun h => absurd h hsnd, fun h => absurd h hsnd⟩
          · intro hall v hv htake
            exact absurd htake ((hall v hv).1 rfl)
        · refine iff_of_true ?_ fun v _ => ⟨fun h => absurd h hv6,
            fun h => absurd h hsnd, fun h => absurd h hsnd⟩
          intro v _ htake
          rw [routed_eq_self hp hv6]
          exact htake

/-- A call that goes as on a store keeps the ledger true. -/
theorem LedgerKept.step {c : SockoptCall} {st' : SockoptState}
    (hlegal : c.Legal hasCreds) (hst : N.LedgerKept hasCreds st)
    (hlike : N.StoreLike hasCreds s st c) (hstep : N.Step hasCreds s st c st') :
    N.LedgerKept hasCreds st' := by
  obtain ⟨native, hp⟩ := hlegal
  cases c with
  | get p optlen =>
      change (p, native) ∈ counterparts hasCreds at hp
      obtain ⟨r, hget, hledger⟩ := hstep
      rw [getsockopt_eq hp] at hget
      have hstore : st.store = st'.store := congrArg Prod.snd hget
      intro q other v hq hv
      rw [← hstore]
      exact hst q other v hq (hledger ▸ hv)
  | set p optval optlen =>
      change (p, native) ∈ counterparts hasCreds at hp
      obtain ⟨r, hset, hledger⟩ := hstep
      obtain ⟨-, hreads⟩ := hlike
      rw [hset] at hreads
      dsimp only at hreads
      intro q other v hq hv
      by_cases hr : r = some ()
      · obtain ⟨⟨w, hw, hread⟩, hothers⟩ := hreads (congrArg Except.ok hr)
        rw [if_pos hr] at hledger
        rw [hledger] at hv
        by_cases hqp : q = p
        · subst hqp
          rw [Function.update_self, hw, Option.map_some] at hv
          cases hv
          refine eq_of_read fun m => ?_
          have hm := hread m
          rw [getsockopt_eq hq] at hm
          exact Except.ok.inj hm
        · rw [Function.update_of_ne hqp] at hv
          obtain ⟨hdef, hstore⟩ := hst q other v hq hv
          refine eq_of_read fun m => ?_
          have hm := hothers q other hq hqp m
          rw [getsockopt_eq hq, getsockopt_eq hq] at hm
          rw [Except.ok.inj hm, read_of_defined hdef, hstore]
      · rw [if_neg hr] at hledger
        rw [hledger] at hv
        rw [setsockopt_failed hp hset hr]
        exact hst q other v hq hv

end NativeOptions

/-- A run of calls on a socket goes as on a store exactly if every call in it
keeps away from the two. -/
theorem sockOptions_store_iff (N : NativeOptions) (hasCreds : Bool) (s : Word)
    (store : SockoptStore) {calls : List SockoptCall}
    (hlegal : ∀ c ∈ calls, c.Legal hasCreds) :
    Throughout (N.Step hasCreds s) (fun _ => N.StoreLike hasCreds s) []
        ⟨store, fun _ => none⟩ calls ↔
      Throughout (N.Step hasCreds s) (fun _ => N.KeepsAway) []
        ⟨store, fun _ => none⟩ calls := by
  have hstart : N.LedgerKept hasCreds ⟨store, fun _ => none⟩ :=
    fun p native v _ hv => by cases hv
  have hallLegal : Throughout (N.Step hasCreds s)
      (fun _ _ c => c.Legal hasCreds) [] ⟨store, fun _ => none⟩ calls :=
    throughout_of_mem [] _ hlegal
  refine throughout_congr (I := fun _ => N.LedgerKept hasCreds) ?_ ?_ hstart
    hallLegal
  · exact fun _ st c hst hc => NativeOptions.storeLike_iff hc hst
  · exact fun _ st c st' hst hc hlike hstep => hst.step hc hlike hstep

/-! ## A native side -/

/-- FreeBSD's options, each of which takes one `int`. -/
def freebsdOptions : NativeOptions where
  defined native := (counterparts true).any (·.2 = native)
  valid _ v := v.length = 4
  v6only_level := by
    intro level h
    obtain ⟨x, hx, heq⟩ := List.any_eq_true.mp h
    have hall : ∀ x ∈ counterparts true, x.2.2 = ipv6V6only →
        x.2.1 = ipprotoIpv6 := by decide
    have hnative : x.2 = (level, ipv6V6only) := by simpa using heq
    have hlevel := hall x hx (by rw [hnative])
    rw [hnative] at hlevel
    exact hlevel

/-- A new socket. -/
def newSocket : SockoptState where
  store _ := leBytes 4 1
  ledger _ := none

/-- `IPV6_V6ONLY` cannot be set. -/
theorem v6only_not_set :
    freebsdOptions.Takes (ipprotoIpv6, ipv6V6only) (leBytes 4 0) ∧
      ¬Throughout (freebsdOptions.Step true 3)
        (fun _ => freebsdOptions.StoreLike true 3) [] newSocket
        [.set v6onlyOpt (some (leBytes 4 0)) 4] := by
  have htakes : freebsdOptions.Takes (ipprotoIpv6, ipv6V6only) (leBytes 4 0) := by
    decide
  refine ⟨htakes, ?_⟩
  rintro ⟨⟨hvalid, -⟩, -⟩
  have hret := hvalid (leBytes 4 0) (ipprotoIpv6, ipv6V6only) rfl (by decide)
    htakes
  exact absurd hret (by decide)

/-- Two options, one set between the other's setting and its reading. -/
theorem keepalive_store :
    Throughout (freebsdOptions.Step true 3)
      (fun _ => freebsdOptions.StoreLike true 3) [] newSocket
      [.set ⟨linuxSolSocket, linuxSoKeepalive⟩ (some (leBytes 4 0)) 4,
        .set sndbufOpt (some (leBytes 4 65536)) 4,
        .get ⟨linuxSolSocket, linuxSoKeepalive⟩ 4] := by
  refine (sockOptions_store_iff freebsdOptions true 3 newSocket.store ?_).mpr ?_
  · rintro c hc
    simp only [List.mem_cons, List.not_mem_nil, or_false] at hc
    rcases hc with rfl | rfl | rfl
    · exact ⟨(solSocket, soKeepalive), by decide⟩
    · exact ⟨(solSocket, soSndbuf), by decide⟩
    · exact ⟨(solSocket, soKeepalive), by decide⟩
  · refine ⟨?_, fun _ _ => ⟨?_, fun _ _ => ⟨trivial, fun _ _ => trivial⟩⟩⟩
    · rintro v ⟨⟩
      exact ⟨by decide, by decide, by decide⟩
    · rintro v ⟨⟩
      exact ⟨by decide, by decide, fun _ _ h => absurd h (by decide)⟩

end Libc6Shim
