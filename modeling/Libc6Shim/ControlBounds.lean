import Libc6Shim.ControlRound

/-!
# When the control-message loops stay in bounds

Both conversion loops copy `cmsg_len - CMSG_LEN(0)` bytes behind every
header they accept, and step to the next header by the same `cmsg_len`.
Nothing checks that length: the native macros only make sure that the next
*native* header fits. So a walk stays in bounds, and comes to an end,
exactly when every header it meets is well sized - which this file states
for each direction (`LinuxGood`, `NativeGood`) over the headers the walk
meets (`Visits`).

The argument is split at the loop. `Rewrites` is all a round needs to
promise: on a good header it goes on or aborts, on any other it faults or
stands still. `Rewrites.staysInBounds_iff` carries that over the walk, in
both directions: a good walk is total (`Outcome.rounds_rule`), a bad header
is reached (`Rewrites.reaches_of_visits`) and decides the run.
-/

namespace Libc6Shim

open CSem Buf Outcome

/-- The run touches nothing outside its objects and comes to an end: it
returns or aborts. -/
def StaysInBounds {α : Type} (x : Outcome α) : Prop :=
  x ≠ .error .fault ∧ x ≠ .error .spin

theorem staysInBounds_ok {α : Type} (a : α) :
    StaysInBounds (.ok a : Outcome α) := ⟨nofun, nofun⟩

theorem staysInBounds_abort {α : Type} :
    StaysInBounds (.error .abort : Outcome α) := ⟨nofun, nofun⟩

instance {α : Type} : (x : Outcome α) → Decidable (StaysInBounds x)
  | .ok a => .isTrue (staysInBounds_ok a)
  | .error .abort => .isTrue staysInBounds_abort
  | .error .fault => .isFalse fun h => h.1 rfl
  | .error .spin => .isFalse fun h => h.2 rfl

/-- A run that stays in bounds and does not return aborts. -/
theorem abort_of_staysInBounds {α : Type} {x : Outcome α}
    (hx : StaysInBounds x) (hno : ∀ a, x ≠ .ok a) : x = .error .abort := by
  cases x with
  | ok a => exact absurd rfl (hno a)
  | error e =>
      cases e with
      | abort => rfl
      | fault => exact absurd rfl hx.1
      | spin => exact absurd rfl hx.2

/-- What follows a run by pure means does not change whether it stays in
bounds. -/
theorem staysInBounds_bind_ok {α β : Type} {x : Outcome α} {f : α → β} :
    StaysInBounds (x >>= fun a => .ok (f a)) ↔ StaysInBounds x := by
  cases x with
  | ok a => exact iff_of_true (staysInBounds_ok _) (staysInBounds_ok _)
  | error e => simp [StaysInBounds]

/-! ## The headers a walk meets -/

/-- The offsets of the headers the native macros walk through in the `n`
control bytes `src`, as long as the conversion accepts them. -/
inductive Visits (abi : Abi) (n : Nat) (src : Buf) (Accepted : Nat → Prop) :
    Nat → Prop where
  | first : sizeofCmsghdr ≤ n → Visits abi n src Accepted 0
  | next {off : Nat} : Visits abi n src Accepted off → Accepted off →
      off + abi.align (lenAt cmsgLenWidth src off) + abi.align sizeofCmsghdr ≤ n →
      Visits abi n src Accepted
        (off + abi.align (lenAt cmsgLenWidth src off))

/-- Every header met has a native header's room. -/
theorem Visits.fits {abi : Abi} {n : Nat} {src : Buf} {Accepted : Nat → Prop}
    {off : Nat} (h : Visits abi n src Accepted off) :
    off + sizeofCmsghdr ≤ n := by
  cases h with
  | first h => omega
  | next _ _ h =>
      have halign : sizeofCmsghdr ≤ abi.align sizeofCmsghdr := by
        cases abi <;> decide
      omega

/-! ## The loop -/

/-- What the walk over `src` into a destination of `room` bytes needs of a
round: it goes on past a good header it accepts, aborts on a good one it
does not, and on a bad one it faults or stands still. -/
structure Rewrites (abi : Abi) (src : Buf) (conv : Nat → Buf → Outcome Buf)
    (room : Nat) (Accepted Good : Nat → Prop) : Prop where
  goes_on : ∀ {off dst}, dst.length = room →
    off + sizeofCmsghdr ≤ src.length → Good off → Accepted off →
    0 < abi.align (lenAt cmsgLenWidth src off) ∧
      ∃ dst', conv off dst = .ok dst' ∧ dst'.length = room
  aborts : ∀ {off dst}, dst.length = room →
    off + sizeofCmsghdr ≤ src.length → Good off → ¬Accepted off →
    conv off dst = .error .abort
  stuck : ∀ {off}, off + sizeofCmsghdr ≤ src.length → ¬Good off →
    (∀ dst, dst.length = room → conv off dst = .error .fault) ∨
      (abi.align (lenAt cmsgLenWidth src off) = 0 ∧
        off + abi.align sizeofCmsghdr ≤ src.length ∧
        ∀ dst, dst.length = room →
          ∃ dst', conv off dst = .ok dst' ∧ dst'.length = room)

namespace Rewrites

variable {abi : Abi} {src dst : Buf} {conv : Nat → Buf → Outcome Buf}
  {room : Nat} {Accepted Good : Nat → Prop}

/-- A round that rewrites its header takes the loop to the next one. -/
theorem goesTo_next {off : Nat} {dst' : Buf}
    (hfits : off + sizeofCmsghdr ≤ src.length)
    (hconv : conv off dst = .ok dst') :
    GoesTo (cmsgLoop abi conv src.length src) (some off, dst)
      (if src.length < off + abi.align (lenAt cmsgLenWidth src off)
          + abi.align sizeofCmsghdr then none
        else some (off + abi.align (lenAt cmsgLenWidth src off)), dst') := by
  rw [GoesTo, cmsgLoop, hconv, ok_bind, cmsgNxthdr_of_fits hfits]
  rfl

theorem loop_error {off : Nat} {e : Stop} (hconv : conv off dst = .error e) :
    cmsgLoop abi conv src.length src (some off, dst) = .error e := by
  rw [cmsgLoop, hconv, error_bind]

/-- The loop started at `CMSG_FIRSTHDR`, with `m` rounds to spend. -/
def loopFrom (abi : Abi) (conv : Nat → Buf → Outcome Buf) (src dst : Buf)
    (m : Nat) : Outcome Buf :=
  rounds (cmsgLoop abi conv src.length src) m (cmsgFirsthdr src.length, dst)

/-- A bad header the loop reaches is the end of it, whatever the budget. -/
theorem not_staysInBounds_of_reaches
    (H : Rewrites abi src conv room Accepted Good) {off : Nat} {dst' : Buf}
    (hreach : Relation.ReflTransGen
      (GoesTo (cmsgLoop abi conv src.length src))
      (cmsgFirsthdr src.length, dst) (some off, dst'))
    (hlen : dst'.length = room) (hfits : off + sizeofCmsghdr ≤ src.length)
    (hbad : ¬Good off) (m : Nat) :
    ¬StaysInBounds (loopFrom abi conv src dst m) := by
  rintro ⟨hfault, hspin⟩
  rcases H.stuck hfits hbad with hconv | ⟨hzero, hhdr, hconv⟩
  · have herror : cmsgLoop abi conv src.length src (some off, dst') =
        .error .fault := loop_error (hconv dst' hlen)
    rcases rounds_of_reaches_error hreach herror m with h | h
    · exact hfault h
    · exact hspin h
  · -- the step is zero: the loop stays at this header for ever
    refine hspin (rounds_of_reaches_cycle
      (fun s => s.1 = some off ∧ s.2.length = room) hreach ⟨rfl, hlen⟩ ?_ m)
    rintro ⟨c, d⟩ ⟨rfl, hd⟩
    obtain ⟨d', hd', hlen'⟩ := hconv d hd
    have hgo := @goesTo_next abi _ _ _ _ _ hfits hd'
    rw [hzero, Nat.add_zero, if_neg (by omega)] at hgo
    exact ⟨_, hgo, rfl, hlen'⟩

/-- Every header of a walk that stays in bounds is reached by the loop. -/
theorem reaches_of_visits (H : Rewrites abi src conv room Accepted Good)
    (hroom : dst.length = room) {m : Nat}
    (hsafe : StaysInBounds (loopFrom abi conv src dst m)) {off : Nat}
    (hvisits : Visits abi src.length src Accepted off) :
    ∃ dst', Relation.ReflTransGen
        (GoesTo (cmsgLoop abi conv src.length src))
        (cmsgFirsthdr src.length, dst) (some off, dst') ∧
      dst'.length = room := by
  induction hvisits with
  | first hfirst =>
      refine ⟨dst, ?_, hroom⟩
      rw [cmsgFirsthdr, if_pos hfirst]
  | @next off hvisits hacc hnext ih =>
      obtain ⟨d, hreach, hd⟩ := ih
      have hgood : Good off := by
        by_contra hbad
        exact H.not_staysInBounds_of_reaches hreach hd hvisits.fits hbad m hsafe
      obtain ⟨-, d', hconv, hd'⟩ := H.goes_on hd hvisits.fits hgood hacc
      have hgo := @goesTo_next abi _ _ _ _ _ hvisits.fits hconv
      rw [if_neg (by omega)] at hgo
      exact ⟨d', hreach.tail hgo, hd'⟩

/-- What holds before each round of a walk. -/
def Between (abi : Abi) (src : Buf) (room : Nat) (Accepted : Nat → Prop)
    (s : Option Nat × Buf) : Prop :=
  s.2.length = room ∧
    ∀ off, s.1 = some off → Visits abi src.length src Accepted off

/-- The rounds that may be left: each goes forward. -/
def roundsLeft (src : Buf) (s : Option Nat × Buf) : Nat :=
  s.1.elim 0 fun off => src.length + 1 - off

theorem between_firsthdr (hroom : dst.length = room) :
    Between abi src room Accepted (cmsgFirsthdr src.length, dst) := by
  refine ⟨hroom, fun off hoff => ?_⟩
  dsimp only [cmsgFirsthdr] at hoff
  split at hoff
  · rename_i hle
    cases hoff
    exact .first hle
  · cases hoff

theorem roundsLeft_firsthdr (src dst : Buf) :
    roundsLeft src (cmsgFirsthdr src.length, dst) < src.length + 2 := by
  rw [roundsLeft]
  cases cmsgFirsthdr src.length with
  | none => exact Nat.succ_pos _
  | some off => exact Nat.lt_succ_of_le (Nat.sub_le _ _)

/-- The walk meets a header of a kind it does not accept. -/
def Rejects (abi : Abi) (src : Buf) (Accepted : Nat → Prop) : Prop :=
  ∃ off, Visits abi src.length src Accepted off ∧ ¬Accepted off

/-- The step lemma: at a good header a round goes forward, and the walk
leaves the loop at its end or aborts on a kind it does not accept. -/
theorem round_of_good (H : Rewrites abi src conv room Accepted Good)
    (hgood : ∀ off, Visits abi src.length src Accepted off → Good off)
    (s : Option Nat × Buf) (hs : Between abi src room Accepted s) :
    (∃ s', GoesTo (cmsgLoop abi conv src.length src) s s' ∧
        Between abi src room Accepted s' ∧ roundsLeft src s' < roundsLeft src s)
      ∨ (∃ b, cmsgLoop abi conv src.length src s = .ok (.inr b) ∧ True)
      ∨ ∃ e, cmsgLoop abi conv src.length src s = .error e ∧
          e = .abort ∧ Rejects abi src Accepted := by
  obtain ⟨c, d⟩ := s
  obtain ⟨hd, hc⟩ := hs
  cases c with
  | none => exact .inr (.inl ⟨d, rfl, trivial⟩)
  | some off =>
      have hvisits := hc off rfl
      have hfits := hvisits.fits
      by_cases hacc : Accepted off
      · obtain ⟨hpos, d', hconv, hd'⟩ :=
          H.goes_on hd hfits (hgood off hvisits) hacc
        refine .inl ⟨_, goesTo_next hfits hconv, ⟨hd', ?_⟩, ?_⟩
        · intro off' hoff'
          split at hoff'
          · cases hoff'
          · cases hoff'
            exact .next hvisits hacc (by omega)
        · rw [roundsLeft, roundsLeft]
          dsimp only
          split
          · simp only [Option.elim_none, Option.elim_some]
            omega
          · simp only [Option.elim_some]
            omega
      · exact .inr (.inr ⟨.abort, loop_error
          (H.aborts hd hfits (hgood off hvisits) hacc), rfl, off, hvisits, hacc⟩)

/-- A walk over good headers returns, or aborts on a kind it does not
accept. -/
theorem returns_or_rejects (H : Rewrites abi src conv room Accepted Good)
    (hroom : dst.length = room)
    (hgood : ∀ off, Visits abi src.length src Accepted off → Good off)
    {m : Nat} (hm : src.length + 2 ≤ m) :
    (∃ b, loopFrom abi conv src dst m = .ok b) ∨
      loopFrom abi conv src dst m = .error .abort ∧ Rejects abi src Accepted := by
  have hleft := roundsLeft_firsthdr src dst
  rcases rounds_rule _ _ _ _ (H.round_of_good hgood) m
    (cmsgFirsthdr src.length, dst) (between_firsthdr hroom) (by omega) with
    ⟨b, hb, -⟩ | ⟨e, he, rfl, hrejects⟩
  · exact .inl ⟨b, hb⟩
  · exact .inr ⟨he, hrejects⟩

theorem staysInBounds_of_good (H : Rewrites abi src conv room Accepted Good)
    (hroom : dst.length = room)
    (hgood : ∀ off, Visits abi src.length src Accepted off → Good off)
    {m : Nat} (hm : src.length + 2 ≤ m) :
    StaysInBounds (loopFrom abi conv src dst m) := by
  rcases H.returns_or_rejects hroom hgood hm with ⟨b, hb⟩ | ⟨habort, -⟩
  · rw [hb]
    exact staysInBounds_ok b
  · rw [habort]
    exact staysInBounds_abort

/-- A walk that stays in bounds returns exactly if it accepts every header
it meets. -/
theorem returns_iff (H : Rewrites abi src conv room Accepted Good)
    (hroom : dst.length = room) {m : Nat} (hm : src.length + 2 ≤ m)
    (hgood : ∀ off, Visits abi src.length src Accepted off → Good off) :
    (∃ b, loopFrom abi conv src dst m = .ok b) ↔
      ∀ off, Visits abi src.length src Accepted off → Accepted off := by
  constructor
  · rintro ⟨b, hb⟩ off hvisits
    by_contra hacc
    have hsafe := H.staysInBounds_of_good hroom hgood hm
    obtain ⟨d, hreach, hd⟩ := H.reaches_of_visits hroom hsafe hvisits
    have herror : cmsgLoop abi conv src.length src (some off, d) =
        .error .abort :=
      loop_error (H.aborts hd hvisits.fits (hgood off hvisits) hacc)
    rw [loopFrom] at hb
    rcases rounds_of_reaches_error hreach herror m with h | h
    · exact nomatch h.symm.trans hb
    · exact nomatch h.symm.trans hb
  · intro hall
    refine (H.returns_or_rejects hroom hgood hm).resolve_right ?_
    rintro ⟨-, off, hvisits, hacc⟩
    exact hacc (hall off hvisits)

/-- The walk stays in bounds and ends exactly when every header it meets is
good. -/
theorem staysInBounds_iff (H : Rewrites abi src conv room Accepted Good)
    (hroom : dst.length = room) {m : Nat} (hm : src.length + 2 ≤ m) :
    StaysInBounds (loopFrom abi conv src dst m) ↔
      ∀ off, Visits abi src.length src Accepted off → Good off := by
  constructor
  · intro hsafe off hvisits
    obtain ⟨d, hreach, hd⟩ := H.reaches_of_visits hroom hsafe hvisits
    by_contra hbad
    exact H.not_staysInBounds_of_reaches hreach hd hvisits.fits hbad m hsafe
  · intro hgood
    exact H.staysInBounds_of_good hroom hgood hm

end Rewrites

/-! ## The two directions -/

/-- A well-sized header on the way out: it lies inside the source, and if
its kind is accepted, so does its message. -/
def LinuxGood (abi : Abi) (src : Buf) (off : Nat) : Prop :=
  off + sizeofLinuxCmsghdr abi ≤ src.length ∧
    (LinuxAccepted abi src off →
      LengthOk abi src.length off (lenAt (linuxCmsgLenWidth abi) src off))

/-- A well-sized header on the way in, for a destination of `room` bytes:
if its kind is accepted, its message lies inside the source and its Linux
header has room in the destination. -/
def NativeGood (abi : Abi) (src : Buf) (room off : Nat) : Prop :=
  NativeAccepted src off →
    off + sizeofLinuxCmsghdr abi ≤ room ∧
      LengthOk abi src.length off (lenAt cmsgLenWidth src off)

/-- A length that fits moves the walk forward. -/
theorem LengthOk.align_pos {abi : Abi} {n off len : Nat}
    (h : LengthOk abi n off len) : 0 < abi.align len := by
  obtain ⟨hge, -, htop⟩ := h
  have hround := (abi.align_spec htop).1
  have hzero := cmsgLen_zero abi
  rw [sizeofLinuxCmsghdr_eq] at hzero
  omega

/-- A length that fits the buffer but not `_ALIGN` wraps to zero: i386,
within a word of 4 GiB. -/
theorem align_eq_zero_of_top {abi : Abi} {len : Nat} (hlen : len < 2 ^ 32)
    (h : ¬len + abi.wordBytes ≤ abi.sizeMod) : abi.align len = 0 := by
  rcases abi.wordBytes_cases with ⟨hw, hm⟩ | ⟨hw, hm⟩
  · rw [hw, hm] at h
    rw [Abi.align, hw, hm]
    omega
  · rw [hw, hm] at h
    omega

/-- A length the copy bears but that is not `LengthOk` is of that kind. -/
theorem not_lengthOk_of_copied {abi : Abi} {n off len : Nat} (hn : n < 2 ^ 32)
    (hge : cmsgLen abi 0 ≤ len) (hle : len = cmsgLen abi 0 ∨ off + len ≤ n)
    (h : ¬LengthOk abi n off len) :
    len < 2 ^ 32 ∧ abi.align len = 0 ∧ off + len ≤ n := by
  have htop : ¬len + abi.wordBytes ≤ abi.sizeMod := fun ht => h ⟨hge, hle, ht⟩
  have hzero := cmsgLen_zero abi
  have hw := (linuxCmsgLenWidth_bounds abi).2
  rw [sizeofLinuxCmsghdr_eq] at hzero
  have hlt : len < 2 ^ 32 := by omega
  refine ⟨hlt, align_eq_zero_of_top hlt htop, ?_⟩
  rcases hle with heq | hle
  · rcases abi.wordBytes_cases with ⟨hwb, hm⟩ | ⟨hwb, hm⟩ <;>
      (rw [hwb, hm] at htop; omega)
  · exact hle

/-- The bound on the length of an accepted message is 4 GiB, so the macros
and the copy see the same length. -/
theorem LengthOk.lt {abi : Abi} {n off len : Nat} (hn : n < 2 ^ 32)
    (h : LengthOk abi n off len) : len < 2 ^ 32 := by
  obtain ⟨-, hle, -⟩ := h
  have hzero := cmsgLen_zero abi
  have hw := (linuxCmsgLenWidth_bounds abi).2
  rw [sizeofLinuxCmsghdr_eq] at hzero
  omega

section Rounds

variable {abi : Abi} {src dst : Buf} {off room : Nat}

/-- A message whose copy stays inside the source is rewritten in place. -/
theorem length_rewritten {w len : Nat} (hw : w ≤ linuxCmsgLenWidth abi)
    (hroom : src.length ≤ dst.length)
    (hhdr : off + sizeofLinuxCmsghdr abi ≤ dst.length)
    (hge : cmsgLen abi 0 ≤ len)
    (hle : len = cmsgLen abi 0 ∨ off + len ≤ src.length) (level type : Word) :
    (putMessage abi w dst off len level type
      (payloadAt abi src off len)).length = dst.length := by
  have hzero := cmsgLen_zero abi
  have hpay : (payloadAt abi src off len).length ≤ len - cmsgLen abi 0 := by
    rw [payloadAt, slice, List.length_take]
    exact Nat.min_le_left _ _
  rw [sizeofLinuxCmsghdr_eq] at hhdr hzero
  exact length_putMessage (by omega) (by omega) _ _

theorem linuxToNativeCmsg_returns (hn : src.length < 2 ^ 32)
    (hroom : src.length ≤ dst.length)
    (hfit : off + sizeofLinuxCmsghdr abi ≤ src.length)
    (hacc : LinuxAccepted abi src off)
    (hge : cmsgLen abi 0 ≤ lenAt (linuxCmsgLenWidth abi) src off)
    (hle : lenAt (linuxCmsgLenWidth abi) src off = cmsgLen abi 0 ∨
      off + lenAt (linuxCmsgLenWidth abi) src off ≤ src.length) :
    ∃ dst', linuxToNativeCmsg abi src off dst = .ok dst' ∧
      dst'.length = dst.length := by
  obtain ⟨htype, level, hlevel⟩ := hacc
  exact ⟨_, linuxToNativeCmsg_of_fits hn hroom hfit htype hlevel hge hle,
    length_rewritten (linuxCmsgLenWidth_bounds abi).1 hroom (by omega) hge hle
      level scmRights⟩

theorem nativeToLinuxCmsg_returns (hn : src.length < 2 ^ 32)
    (hroom : src.length ≤ dst.length)
    (hfits : off + sizeofCmsghdr ≤ src.length) (hacc : NativeAccepted src off)
    (hfit : off + sizeofLinuxCmsghdr abi ≤ dst.length)
    (hge : cmsgLen abi 0 ≤ lenAt cmsgLenWidth src off)
    (hle : lenAt cmsgLenWidth src off = cmsgLen abi 0 ∨
      off + lenAt cmsgLenWidth src off ≤ src.length) :
    ∃ dst', nativeToLinuxCmsg abi src off dst = .ok dst' ∧
      dst'.length = dst.length := by
  obtain ⟨⟨level, hlevel⟩, type, htype⟩ := hacc
  exact ⟨_, nativeToLinuxCmsg_of_fits hn hroom hfits hlevel htype hfit hge hle,
    length_rewritten (Nat.le_refl _) hroom hfit hge hle level type⟩

theorem linuxToNativeCmsg_rewrites (hn : src.length < 2 ^ 32)
    (hroom : src.length ≤ room) :
    Rewrites abi src (linuxToNativeCmsg abi src) room
      (LinuxAccepted abi src) (LinuxGood abi src) where
  goes_on := by
    rintro off dst rfl - ⟨hfit, hgood⟩ hacc
    have hok := hgood hacc
    have hw := (linuxCmsgLenWidth_bounds abi).1
    refine ⟨?_, linuxToNativeCmsg_returns hn hroom hfit hacc hok.1 hok.2.1⟩
    rw [lenAt_native_of_lt hw (hok.lt hn)]
    exact hok.align_pos
  aborts := by
    rintro off dst hdst - ⟨hfit, -⟩ hacc
    exact linuxToNativeCmsg_of_not_accepted (by omega) hfit hacc
  stuck := by
    intro off hfits hbad
    by_cases hfit : off + sizeofLinuxCmsghdr abi ≤ src.length
    · have hacc : LinuxAccepted abi src off := by
        by_contra hacc
        exact hbad ⟨hfit, fun h => absurd h hacc⟩
      have hlength : ¬LengthOk abi src.length off
          (lenAt (linuxCmsgLenWidth abi) src off) := fun h =>
        hbad ⟨hfit, fun _ => h⟩
      by_cases hcopy : cmsgLen abi 0 ≤ lenAt (linuxCmsgLenWidth abi) src off ∧
          (lenAt (linuxCmsgLenWidth abi) src off = cmsgLen abi 0 ∨
            off + lenAt (linuxCmsgLenWidth abi) src off ≤ src.length)
      · obtain ⟨hge, hle⟩ := hcopy
        obtain ⟨hlt, halign, -⟩ := not_lengthOk_of_copied hn hge hle hlength
        have hw := (linuxCmsgLenWidth_bounds abi).1
        refine .inr ⟨?_, ?_, ?_⟩
        · rw [lenAt_native_of_lt hw hlt]
          exact halign
        · rw [align_sizeofCmsghdr]
          exact hfit
        · rintro dst rfl
          exact linuxToNativeCmsg_returns hn hroom hfit hacc hge hle
      · exact .inl fun dst hdst =>
          linuxToNativeCmsg_of_not_fits hn (by omega) hfit hacc hcopy
    · exact .inl fun dst _ => linuxToNativeCmsg_of_cut hfit

theorem nativeToLinuxCmsg_rewrites (hn : src.length < 2 ^ 32)
    (hroom : src.length ≤ room) :
    Rewrites abi src (nativeToLinuxCmsg abi src) room
      (NativeAccepted src) (NativeGood abi src room) where
  goes_on := by
    rintro off dst rfl hfits hgood hacc
    obtain ⟨hfit, hok⟩ := hgood hacc
    exact ⟨hok.align_pos,
      nativeToLinuxCmsg_returns hn hroom hfits hacc hfit hok.1 hok.2.1⟩
  aborts := by
    intro off dst hdst hfits _ hacc
    exact nativeToLinuxCmsg_of_not_accepted (by omega) hfits hacc
  stuck := by
    intro off hfits hbad
    have hacc : NativeAccepted src off := by
      by_contra hacc
      exact hbad fun h => absurd h hacc
    by_cases hfit : off + sizeofLinuxCmsghdr abi ≤ room
    · have hlength : ¬LengthOk abi src.length off
          (lenAt cmsgLenWidth src off) := fun h => hbad fun _ => ⟨hfit, h⟩
      by_cases hcopy : cmsgLen abi 0 ≤ lenAt cmsgLenWidth src off ∧
          (lenAt cmsgLenWidth src off = cmsgLen abi 0 ∨
            off + lenAt cmsgLenWidth src off ≤ src.length)
      · obtain ⟨hge, hle⟩ := hcopy
        obtain ⟨-, halign, hend⟩ := not_lengthOk_of_copied hn hge hle hlength
        have hzero := cmsgLen_zero abi
        refine .inr ⟨halign, ?_, ?_⟩
        · rw [align_sizeofCmsghdr]
          omega
        · rintro dst rfl
          exact nativeToLinuxCmsg_returns hn hroom hfits hacc hfit hge hle
      · exact .inl fun dst hdst =>
          nativeToLinuxCmsg_of_not_fits hn (by omega) hfits hacc hcopy
    · exact .inl fun dst hdst =>
        nativeToLinuxCmsg_of_no_room (by omega) hfits hacc (by omega)

end Rounds

/-! ## The conversions -/

/-- The control bytes `linux_to_native_msg_control` is given are good: every
header the walk meets is. -/
def LinuxControlGood (abi : Abi) (src : Buf) : Prop :=
  ∀ off, Visits abi src.length src (LinuxAccepted abi src) off →
    LinuxGood abi src off

/-- The control bytes `native_to_linux_msg_control` is given, for a
destination of `room` bytes, are good. -/
def NativeControlGood (abi : Abi) (src : Buf) (room : Nat) : Prop :=
  ∀ off, Visits abi src.length src (NativeAccepted src) off →
    NativeGood abi src room off

/-- An empty buffer holds no header. -/
theorem not_visits_nil {abi : Abi} {Accepted : Nat → Prop} {off : Nat} :
    ¬Visits abi 0 [] Accepted off := fun h => by
  have hfits := h.fits
  have hsize : sizeofCmsghdr = 12 := rfl
  omega

/-- What the two functions have in common: the length `n` is checked, the
first `n` bytes of `whole` are converted round by round, and what follows is
pure. -/
theorem conversion_staysInBounds_iff {β : Type} {abi : Abi} {whole dst : Buf}
    {n cap : Nat} (conv : Buf → Nat → Buf → Outcome Buf)
    {Accepted Good : Buf → Nat → Prop} {f : Buf → β} {b : β}
    (hn : n ≤ whole.length)
    (H : ∀ src : Buf, src.length = n → n ≤ cap →
      Rewrites abi src (conv src) dst.length (Accepted src) (Good src)) :
    StaysInBounds (if 0 < n then
        require (n ≤ cap) >>= fun _ =>
          convertCmsgs abi (conv (whole.take n)) n (whole.take n) dst >>=
            fun dst' => .ok (f dst')
      else .ok b) ↔
      (n ≤ cap → ∀ off, Visits abi (whole.take n).length (whole.take n)
        (Accepted (whole.take n)) off → Good (whole.take n) off) := by
  have hlen : (whole.take n).length = n := by
    rw [List.length_take]
    omega
  by_cases hpos : 0 < n
  · rw [if_pos hpos]
    by_cases hle : n ≤ cap
    · have hiff := (H _ hlen hle).staysInBounds_iff rfl (Nat.le_refl _)
      rw [require_of hle, ok_bind]
      refine staysInBounds_bind_ok.trans ?_
      rw [Rewrites.loopFrom, hlen] at hiff
      rw [hlen]
      exact hiff.trans ⟨fun h _ => h, fun h => h hle⟩
    · rw [require_of_not hle]
      exact iff_of_true staysInBounds_abort fun h => absurd h hle
  · rw [if_neg hpos, show n = 0 by omega, List.take_zero]
    exact iff_of_true (staysInBounds_ok _)
      fun _ off hvisits => absurd hvisits not_visits_nil

/-- Both conversions stay in bounds and come to an end exactly when they
reject the length or every header the walk meets is well sized. The
hypotheses are about the arrays alone: each is as long as the length that
comes with it. -/
theorem msgControl_staysInBounds_iff (abi : Abi) (mem : Mem)
    (msg : NativeMsghdr) (linuxMsg : LinuxMsghdr)
    (hnative : msg.msgControllen.toNat ≤ (msg.msgControl.getD []).length)
    (hlinux : linuxMsg.msgControllen ≤ (mem.obj linuxMsg.msgControl).length) :
    (StaysInBounds (linuxToNativeMsgControl abi mem msg linuxMsg) ↔
      (linuxMsg.msgControllen ≤ msg.msgControllen.toNat →
        LinuxControlGood abi
          ((mem.obj linuxMsg.msgControl).take linuxMsg.msgControllen))) ∧
    (StaysInBounds (nativeToLinuxMsgControl abi mem linuxMsg msg) ↔
      (msg.msgControllen.toNat ≤ linuxMsg.msgControllen →
        NativeControlGood abi
          ((msg.msgControl.getD []).take msg.msgControllen.toNat)
          (mem.obj linuxMsg.msgControl).length)) := by
  have hlt := msg.msgControllen.isLt
  constructor
  · rw [linuxToNativeMsgControl]
    exact conversion_staysInBounds_iff (linuxToNativeCmsg abi) hlinux
      fun src hlen hle => linuxToNativeCmsg_rewrites (by omega) (by omega)
  · rw [nativeToLinuxMsgControl]
    exact conversion_staysInBounds_iff (nativeToLinuxCmsg abi) hnative
      fun src hlen hle => nativeToLinuxCmsg_rewrites (by omega) (by omega)

/-- A message of one descriptor, as the FreeBSD kernel leaves it in a
16-byte control buffer: the header still says 20. -/
def truncatedRights : Buf :=
  leBytes 4 20 ++ leBytes 4 solSocket.toNat ++ leBytes 4 scmRights.toNat ++
    leBytes 4 0

/-- The same message from a Linux caller, whole. -/
def wholeRights : Buf :=
  leBytes 8 20 ++ leBytes 4 linuxSolSocket.toNat ++
    leBytes 4 linuxScmRights.toNat ++ leBytes 4 7

theorem truncatedRights_not_staysInBounds :
    (NativeMsghdr.ofControl truncatedRights).msgControllen.toNat ≤
        ((NativeMsghdr.ofControl truncatedRights).msgControl.getD []).length ∧
      (LinuxMsghdr.ofControl 1 16).msgControllen ≤
        ((Mem.only 1 (.replicate 16 0)).obj 1).length ∧
      ¬StaysInBounds (nativeToLinuxMsgControl .amd64
        (.only 1 (.replicate 16 0)) (.ofControl 1 16)
        (.ofControl truncatedRights)) := by
  decide

/-- The whole message is good on the way out, the truncated one is not on
the way in. -/
theorem wholeRights_good :
    LinuxControlGood .amd64 wholeRights ∧
      ¬NativeControlGood .amd64 truncatedRights 20 := by
  have h := msgControl_staysInBounds_iff .amd64 (.only 1 wholeRights)
    (.ofControl (.replicate 20 0)) (.ofControl 1 20) (by decide) (by decide)
  have h' := msgControl_staysInBounds_iff .amd64 (.only 1 wholeRights)
    (.ofControl truncatedRights) (.ofControl 1 20) (by decide) (by decide)
  exact ⟨h.1.mp (by decide) (by decide),
    fun hgood => absurd (h'.2.mpr fun _ => hgood) (by decide)⟩

end Libc6Shim
