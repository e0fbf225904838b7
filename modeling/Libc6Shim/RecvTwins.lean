import Libc6Shim.SockCalls

/-!
# Receiving with a buffer check

`__recv_chk` is `recv` with a check in front, written down a second time. It
hands the flag word down as it stands and leaves the error number alone, so
it is `recv` for the flags that translate to themselves - three of eleven -
and then as far as the error number does (`recvChk_alike_iff`).
-/

namespace Libc6Shim

open CSem Buf Outcome Routine

/-- What an entry point that translates the error number makes of the answer
to its one call, with `e` in `errno` before. -/
def told {α : Type} (e : Errno) : Except Errno α → Option α × Errno
  | .ok a => (some a, e)
  | .error e' => (none, nativeToLinuxErrno e')

section

variable {h : (c : SockCall) → Except Errno (SockAnswer c)} {e : Errno}

theorem run_call_translate (c : SockCall) :
    run h (callNative c >>= translateErrno) e = .ok (told e (h c)) := by
  rw [run_bind, callNative, run_native]
  cases h c <;> rfl

theorem calls_call_translate (c : SockCall) :
    calls h (callNative c >>= translateErrno) e = [c] := by
  rw [calls_bind, callNative, calls_native, run_native]
  cases h c <;> rfl

/-! ## `recv` and `__recv_chk` -/

/-- The message flags with one number on both systems. -/
def sameMsgFlags : Word := linuxMsgOob ||| linuxMsgPeek ||| linuxMsgDontroute

/-- The pairs of the message-flag table as bit numbers. -/
def msgFlagBits : List (Nat × Nat) :=
  [(0, 0), (1, 1), (2, 2), (3, 5), (5, 4), (6, 7), (7, 3), (8, 6), (14, 17),
    (16, 19), (30, 18)]

theorem msgFlagPairs_eq : msgFlagPairs = bitTable 32 msgFlagBits := by decide

theorem msgFlagBits_lt : ∀ p ∈ msgFlagBits, p.1 < 32 ∧ p.2 < 32 := by decide

/-- Bit `i` of a Linux flag word is moved to where the table says. -/
theorem getLsbD_translated {f : Word} {j : Nat} (hj : j < 32) :
    (setFlags 0 msgFlagPairs f).getLsbD j = true ↔
      ∃ p ∈ msgFlagBits, f.getLsbD p.1 = true ∧ p.2 = j := by
  rw [msgFlagPairs_eq]
  exact getLsbD_setFlags_bits (fun p hp => (msgFlagBits_lt p hp).1) f hj

/-- A flag word translates to itself only if it consists of the flags with
one number: from any other bit the table leads, in a few steps, to one that
Linux does not have. -/
theorem translated_eq_self_iff {f : Word}
    (hknown : f &&& ~~~knownLinuxMsgFlags = 0) :
    setFlags 0 msgFlagPairs f = f ↔ f &&& ~~~sameMsgFlags = 0 := by
  have hunknown : ∀ i < 32, knownLinuxMsgFlags.getLsbD i = false →
      f.getLsbD i = false := by
    intro i hi hbit
    by_contra hset
    rw [and_not_eq_zero_iff.mp hknown i hi (by simpa using hset)] at hbit
    cases hbit
  constructor
  · intro hself
    have hmoved : ∀ p ∈ msgFlagBits, f.getLsbD p.2 = false →
        f.getLsbD p.1 = false := by
      intro p hp hclear
      by_contra hset
      have hbit := (getLsbD_translated (f := f) (msgFlagBits_lt p hp).2).mpr
        ⟨p, hp, by simpa using hset, rfl⟩
      rw [hself, hclear] at hbit
      cases hbit
    -- 8 leads to 6, 7, 3, 5 and 4; the last three bits leave at once
    have h5 := hmoved (5, 4) (by decide) (hunknown 4 (by decide) (by decide))
    have h3 := hmoved (3, 5) (by decide) h5
    have h7 := hmoved (7, 3) (by decide) h3
    have h6 := hmoved (6, 7) (by decide) h7
    have h8 := hmoved (8, 6) (by decide) h6
    have h14 := hmoved (14, 17) (by decide)
      (hunknown 17 (by decide) (by decide))
    have h16 := hmoved (16, 19) (by decide)
      (hunknown 19 (by decide) (by decide))
    have h30 := hmoved (30, 18) (by decide)
      (hunknown 18 (by decide) (by decide))
    have hcleared : ∀ i ∈ [3, 5, 6, 7, 8, 14, 16, 30],
        f.getLsbD i = false := by
      simp only [List.mem_cons, List.not_mem_nil, or_false]
      rintro i (rfl | rfl | rfl | rfl | rfl | rfl | rfl | rfl) <;> assumption
    have hcover : ∀ i < 32, sameMsgFlags.getLsbD i = true ∨
        knownLinuxMsgFlags.getLsbD i = false ∨
        i ∈ [3, 5, 6, 7, 8, 14, 16, 30] := by decide
    refine and_not_eq_zero_iff.mpr fun i hi hset => ?_
    rcases hcover i hi with hsame | hun | hmem
    · exact hsame
    · rw [hunknown i hi hun] at hset
      cases hset
    · rw [hcleared i hmem] at hset
      cases hset
  · intro hsame
    have hstays : ∀ p ∈ msgFlagBits, f.getLsbD p.1 = true → p.1 = p.2 := by
      intro p hp hset
      have hbit := and_not_eq_zero_iff.mp hsame p.1 (msgFlagBits_lt p hp).1 hset
      have hdiag : ∀ q ∈ msgFlagBits, sameMsgFlags.getLsbD q.1 = true →
          q.1 = q.2 := by decide
      exact hdiag p hp hbit
    have hcover : ∀ i < 32, sameMsgFlags.getLsbD i = true →
        (i, i) ∈ msgFlagBits := by decide
    refine BitVec.eq_of_getLsbD_eq fun j hj => Bool.eq_iff_iff.mpr ?_
    rw [getLsbD_translated hj]
    constructor
    · rintro ⟨p, hp, hset, rfl⟩
      rw [← hstays p hp hset]
      exact hset
    · intro hset
      exact ⟨(j, j), hcover j hj (and_not_eq_zero_iff.mp hsame j hj hset),
        hset, rfl⟩

section RecvChk

variable {fd : Word} {buf : Ptr} {len buflen : Nat} {flags : Word}

theorem shimRecvChk_eq (hlen : len ≤ buflen) :
    shimRecvChk fd buf len buflen flags = callNative (.recv fd buf len flags) := by
  rw [shimRecvChk, require_of hlen]
  rfl

theorem shimRecv_eq (hknown : flags &&& ~~~knownLinuxMsgFlags = 0) :
    shimRecv fd buf len flags =
      callNative (.recv fd buf len (setFlags 0 msgFlagPairs flags)) >>=
        translateErrno := by
  rw [shimRecv, linuxToNativeMsgFlags, require_of hknown]
  rfl

/-- The fortified receive is the plain one exactly for the flags with one
number on both systems, and unless the call fails with an error that has
two. -/
theorem recvChk_alike_iff (hlen : len ≤ buflen)
    (hknown : flags &&& ~~~knownLinuxMsgFlags = 0)
    (h : (c : SockCall) → Except Errno (SockAnswer c)) (e : Errno) :
    Alike id h e (shimRecvChk fd buf len buflen flags)
        (shimRecv fd buf len flags) ↔
      flags &&& ~~~sameMsgFlags = 0 ∧
        ∀ err, h (.recv fd buf len flags) = .error err → ¬Renumbered err := by
  rw [shimRecvChk_eq hlen, shimRecv_eq hknown,
    ← translated_eq_self_iff hknown, Alike, calls_call_translate,
    run_call_translate, callNative, calls_native, run_native, List.map_id,
    List.map_id]
  refine ⟨fun ⟨hcalls, hrun⟩ => ?_, fun ⟨hself, herr⟩ => ?_⟩
  · have hself : setFlags 0 msgFlagPairs flags = flags := by
      simpa using hcalls.symm
    refine ⟨hself, fun err hfail => ?_⟩
    rw [hself, hfail] at hrun
    exact nativeToLinuxErrno_eq_self_iff.mp
      (congrArg Prod.snd (Except.ok.inj hrun)).symm
  · rw [hself]
    refine ⟨rfl, ?_⟩
    cases hc : h (.recv fd buf len flags) with
    | ok n => rfl
    | error err =>
        show Except.ok (none, err) = .ok (none, nativeToLinuxErrno err)
        rw [nativeToLinuxErrno_eq_self_iff.mpr (herr err hc)]

end RecvChk

end

/-- A socket on which nothing can be received now. -/
def emptySocket : (c : SockCall) → Except Errno (SockAnswer c)
  | .recv .. => .error eagain
  | _ => .error enosys

/-- A socket on which five bytes wait. -/
def fullSocket : (c : SockCall) → Except Errno (SockAnswer c)
  | .recv .. => .ok (5 : Nat)
  | _ => .error enosys

/-- `MSG_DONTWAIT` reaches the native side as `MSG_WAITALL`. -/
theorem recvChk_dontwait_waits :
    ¬Alike id emptySocket 0 (shimRecvChk 3 1 16 16 linuxMsgDontwait)
      (shimRecv 3 1 16 linuxMsgDontwait) := by
  rintro ⟨hcalls, -⟩
  rw [shimRecvChk_eq (by decide), shimRecv_eq (by decide), callNative,
    calls_native, calls_call_translate] at hcalls
  have hflags := (SockCall.recv.inj (List.cons.inj hcalls).1).2.2.2
  exact absurd hflags (by decide)

theorem recvChk_peek_alike :
    Alike id fullSocket 0 (shimRecvChk 3 1 16 16 linuxMsgPeek)
      (shimRecv 3 1 16 linuxMsgPeek) :=
  (recvChk_alike_iff (by decide) (by decide) fullSocket 0).mpr
    ⟨by decide, fun _ hfail => by cases hfail⟩

end Libc6Shim
