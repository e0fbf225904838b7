import Libc6Shim.CSemStrFun

/-!
# Checked string functions

The `_chk` functions of `src/libc/string.c` are given the size of the
destination, and abort before the plain function would write behind it. Each
makes up its mind by the length it knows, or by `strlen`.

For `__strncat_chk` that is one `strlen` too many: it measures the whole
source, of which `strncat` appends `n` bytes at most. A source that does not
end there is read too far, and a copy that would fit is refused. The others
are as they should be (`chk_right_iff`).
-/

namespace Libc6Shim

open CSem Buf Outcome StrFun

/-! ## The shim -/

def shimMemsetChk (c : BitVec 32) (len destlen : Nat) : StrRoutine Nat := do
  Prog.ofOutcome (require (len ≤ destlen))
  callStr (.memset c len)

/-- Two objects are never so long that the sum of their lengths wraps. -/
def shimStrcatChk (destlen : Nat) : StrRoutine Nat := do
  let srclen ← callStr (.strlen .src)
  let dstlen ← callStr (.strlen .dst)
  Prog.ofOutcome (require (srclen + dstlen < destlen))
  callStr .strcat

def shimStrncatChk (n destlen : Nat) : StrRoutine Nat := do
  let srclen ← callStr (.strlen .src)
  let dstlen ← callStr (.strlen .dst)
  Prog.ofOutcome (require (srclen + dstlen < destlen))
  callStr (.strncat n)

def shimMemcpyChk (len destlen : Nat) : StrRoutine Nat := do
  Prog.ofOutcome (require (len ≤ destlen))
  callStr (.memcpy len)

def shimStrcpyChk (destlen : Nat) : StrRoutine Nat := do
  let srclen ← callStr (.strlen .src)
  Prog.ofOutcome (require (srclen < destlen))
  callStr .strcpy

def shimStpcpyChk (destlen : Nat) : StrRoutine Nat := do
  let srclen ← callStr (.strlen .src)
  Prog.ofOutcome (require (srclen < destlen))
  callStr .stpcpy

def shimStrncpyChk (n s1len : Nat) : StrRoutine Nat := do
  Prog.ofOutcome (require (n ≤ s1len))
  callStr (.strncpy n)

def shimMemmoveChk (place : Nat) (s : Side) (off len destlen : Nat) :
    StrRoutine Nat := do
  Prog.ofOutcome (require (len ≤ destlen))
  callStr (.memmove place s off len)

/-! ## A checked call and the plain one -/

/-- A call of a checked function, without the size of the destination. -/
inductive ChkCall where
  | memset (c : BitVec 32) (len : Nat)
  | strcat
  | strncat (n : Nat)
  | memcpy (len : Nat)
  | strcpy
  | stpcpy
  | strncpy (n : Nat)
  | memmove (place : Nat) (s : Side) (off len : Nat)
deriving Repr, DecidableEq

namespace ChkCall

def routine (destlen : Nat) : ChkCall → StrRoutine Nat
  | memset c len => shimMemsetChk c len destlen
  | strcat => shimStrcatChk destlen
  | strncat n => shimStrncatChk n destlen
  | memcpy len => shimMemcpyChk len destlen
  | strcpy => shimStrcpyChk destlen
  | stpcpy => shimStpcpyChk destlen
  | strncpy n => shimStrncpyChk n destlen
  | memmove place s off len => shimMemmoveChk place s off len destlen

def plain : ChkCall → StrCall
  | memset c len => .memset c len
  | strcat => .strcat
  | strncat n => .strncat n
  | memcpy len => .memcpy len
  | strcpy => .strcpy
  | stpcpy => .stpcpy
  | strncpy n => .strncpy n
  | memmove place s off len => .memmove place s off len

end ChkCall

/-- The plain function would write behind the size given. -/
def Overflows (o : Objs) (x : ChkCall) (destlen : Nat) : Prop :=
  ∃ e, effect o x.plain = .ok e ∧
    ∃ i, destlen ≤ i ∧ e.start ≤ i ∧ i < e.start + e.bytes.length

/-- The plain function finds its source, and a string to append to. -/
def HasSource (o : Objs) (x : ChkCall) : Prop := ∃ e, effect o x.plain = .ok e

/-- The call aborts exactly if the plain one would overflow, and otherwise is
the plain one, to the last byte of the source. -/
structure ChkRight (o : Objs) (x : ChkCall) (destlen : Nat) : Prop where
  aborts : (exec (x.routine destlen) o).1 = .error .abort ↔ Overflows o x destlen
  plain : ¬Overflows o x destlen →
    exec (x.routine destlen) o = exec (callStr x.plain) o
  reads : ¬Overflows o x destlen → ∀ c ∈ calls (x.routine destlen) o,
    examined o c ≤ examined o x.plain

/-- Where the source has to end: for `strncat`, within its bound. -/
def SourceEnds (o : Objs) (destlen : Nat) : ChkCall → Prop
  | .strncat n =>
      (Overflows o (.strncat n) destlen → 0 ∈ o.src) ∧
        (¬Overflows o (.strncat n) destlen → 0 ∈ o.src.take n)
  | _ => True

/-! ## Guards -/

section

variable {o : Objs} {x : ChkCall} {destlen : Nat} {e : StrEffect}

theorem overflows_iff (he : effect o x.plain = .ok e) :
    Overflows o x destlen ↔
      e.bytes ≠ [] ∧ destlen < e.start + e.bytes.length := by
  have hlen : e.bytes ≠ [] ↔ 0 < e.bytes.length := List.length_pos_iff.symm
  rw [hlen]
  constructor
  · rintro ⟨e', he', i, hi⟩
    cases he.symm.trans he'
    omega
  · intro h
    exact ⟨e, he, e.start + e.bytes.length - 1, by omega⟩

/-- A call that is a guard and the plain call is right if the guard is, and
nothing is read for it that the plain call does not read. -/
theorem chkRight_of_guard {p : Prop} [Decidable p]
    (hexec : exec (x.routine destlen) o =
      if p then perform x.plain o else (.error .abort, o))
    (hguard : p ↔ ¬Overflows o x destlen)
    (hreads : p → ∀ c ∈ calls (x.routine destlen) o,
      examined o c ≤ examined o x.plain) :
    ChkRight o x destlen := by
  constructor
  · rw [hexec]
    by_cases hp : p
    · rw [if_pos hp]
      exact iff_of_false perform_not_abort (hguard.mp hp)
    · rw [if_neg hp]
      exact iff_of_true rfl (by_contra fun h => hp (hguard.mpr h))
  · intro h
    rw [hexec, if_pos (hguard.mpr h), exec_callStr]
  · exact fun h => hreads (hguard.mpr h)

/-- The functions that are given the length of what they write. -/
theorem chkRight_of_len {len : Nat} (hroutine : x.routine destlen = (do
      Prog.ofOutcome (require (len ≤ destlen))
      callStr x.plain))
    (he : effect o x.plain = .ok e) (hstart : e.start = 0)
    (hlen : e.bytes.length = len) : ChkRight o x destlen := by
  refine chkRight_of_guard (p := len ≤ destlen) ?_ ?_ fun hp => ?_
  · rw [hroutine, exec_guard]
  · rw [overflows_iff he, hstart, hlen, ← List.length_pos_iff, hlen]
    omega
  · rw [hroutine, calls_guard, if_pos hp]
    intro c hc
    rw [List.mem_singleton.mp hc]

/-- The functions that copy the whole source. -/
theorem chkRight_of_copy {t : Buf} (hroutine : x.routine destlen = (do
      let srclen ← callStr (.strlen .src)
      Prog.ofOutcome (require (srclen < destlen))
      callStr x.plain))
    (ht : cstrAt (o.get .src) 0 = .ok t) (he : effect o x.plain = .ok e)
    (hstart : e.start = 0) (hbytes : e.bytes = t ++ [0])
    (hreads : examined o x.plain = srcLen o + 1) : ChkRight o x destlen := by
  refine chkRight_of_guard (p := t.length < destlen) ?_ ?_ fun hp => ?_
  · rw [hroutine, exec_strlen_bind ht, exec_guard]
  · rw [overflows_iff he, hstart, hbytes, List.length_append,
      List.length_singleton, not_and_or, not_not, Nat.zero_add, Nat.not_lt]
    exact ⟨.inr, fun h => h.resolve_left (by simp)⟩
  · rw [hroutine, calls_strlen_bind ht, calls_guard, if_pos hp]
    intro c hc
    rcases List.mem_cons.mp hc with rfl | hc
    · exact hreads.ge
    · rw [List.mem_singleton.mp hc]

/-- The functions that append measure both strings first. -/
theorem exec_measured {s t : Buf} (c : StrCall) (ht : cstrAt (o.get .src) 0 = .ok t)
    (hs : cstrAt (o.get .dst) 0 = .ok s) :
    exec (do
        let srclen ← callStr (.strlen .src)
        let dstlen ← callStr (.strlen .dst)
        Prog.ofOutcome (require (srclen + dstlen < destlen))
        callStr c) o =
      if t.length + s.length < destlen then perform c o else (.error .abort, o) := by
  rw [exec_strlen_bind ht, exec_strlen_bind hs, exec_guard]

/-- What is measured is the whole source. -/
theorem reads_measured {s t : Buf} {c : StrCall}
    (ht : cstrAt (o.get .src) 0 = .ok t) (hs : cstrAt (o.get .dst) 0 = .ok s)
    (hsrc : srcLen o + 1 ≤ examined o c) :
    ∀ c' ∈ calls (do
        let srclen ← callStr (.strlen .src)
        let dstlen ← callStr (.strlen .dst)
        Prog.ofOutcome (require (srclen + dstlen < destlen))
        callStr c) o, examined o c' ≤ examined o c := by
  rw [calls_strlen_bind ht, calls_strlen_bind hs, calls_guard]
  intro c' hc'
  rcases List.mem_cons.mp hc' with rfl | hc'
  · exact hsrc
  · rcases List.mem_cons.mp hc' with rfl | hc'
    · exact Nat.zero_le _
    · split at hc'
      · rw [List.mem_singleton.mp hc']
      · cases hc'

end

/-! ## One function after the other -/

section

variable {o : Objs} {destlen : Nat}

theorem memset_right (c : BitVec 32) (len : Nat) :
    ChkRight o (.memset c len) destlen :=
  chkRight_of_len rfl rfl rfl List.length_replicate

theorem memcpy_right {len : Nat} (hsource : HasSource o (.memcpy len)) :
    ChkRight o (.memcpy len) destlen := by
  obtain ⟨e, he⟩ := hsource
  obtain ⟨xs, hload, heff⟩ := bind_eq_ok.mp he
  cases heff
  exact chkRight_of_len rfl he rfl (length_load hload)

theorem memmove_right {place : Nat} {s : Side} {off len : Nat}
    (hsource : HasSource o (.memmove place s off len)) :
    ChkRight o (.memmove place s off len) destlen := by
  obtain ⟨e, he⟩ := hsource
  obtain ⟨xs, hload, heff⟩ := bind_eq_ok.mp he
  cases heff
  exact chkRight_of_len rfl he rfl (length_load hload)

theorem strcpy_right (hsource : HasSource o .strcpy) :
    ChkRight o .strcpy destlen := by
  obtain ⟨e, he⟩ := hsource
  obtain ⟨t, ht, heff⟩ := bind_eq_ok.mp he
  cases heff
  exact chkRight_of_copy rfl ht he rfl rfl rfl

theorem stpcpy_right (hsource : HasSource o .stpcpy) :
    ChkRight o .stpcpy destlen := by
  obtain ⟨e, he⟩ := hsource
  obtain ⟨t, ht, heff⟩ := bind_eq_ok.mp he
  cases heff
  exact chkRight_of_copy rfl ht he rfl rfl rfl

theorem strncpy_right {n : Nat} (hsource : HasSource o (.strncpy n)) :
    ChkRight o (.strncpy n) destlen := by
  obtain ⟨e, he⟩ := hsource
  obtain ⟨t, ht, heff⟩ := bind_eq_ok.mp he
  cases heff
  refine chkRight_of_len rfl he rfl ?_
  have hlen := (length_strnAt ht).1
  rw [List.length_append, List.length_replicate]
  omega

theorem strcat_right (hsource : HasSource o .strcat) :
    ChkRight o .strcat destlen := by
  obtain ⟨e, he⟩ := hsource
  obtain ⟨s, hs, heff⟩ := bind_eq_ok.mp he
  obtain ⟨t, ht, heff⟩ := bind_eq_ok.mp heff
  cases heff
  have ht' : cstrAt (o.get .src) 0 = .ok t := ht
  have hs' : cstrAt (o.get .dst) 0 = .ok s := hs
  refine chkRight_of_guard (p := t.length + s.length < destlen)
    (exec_measured .strcat ht' hs') ?_ fun _ => reads_measured ht' hs' le_rfl
  rw [overflows_iff he, List.length_append, List.length_singleton, not_and_or,
    not_not]
  constructor
  · exact fun h => .inr (by dsimp only; omega)
  · intro h
    have := h.resolve_left (by simp)
    dsimp only at this
    omega

/-- `__strncat_chk` is right as far as its source ends where it has to. -/
theorem strncat_right_iff {n : Nat} (hsource : HasSource o (.strncat n)) :
    ChkRight o (.strncat n) destlen ↔ SourceEnds o destlen (.strncat n) := by
  obtain ⟨e, he⟩ := hsource
  obtain ⟨s, hs, heff⟩ := bind_eq_ok.mp he
  obtain ⟨t, ht, heff⟩ := bind_eq_ok.mp heff
  cases heff
  obtain ⟨hlen, hends⟩ := length_strnAt ht
  have hs' : cstrAt (o.get .dst) 0 = .ok s := hs
  have hroutine : ChkCall.routine destlen (.strncat n) = shimStrncatChk n destlen :=
    rfl
  have hover : Overflows o (.strncat n) destlen ↔
      destlen ≤ s.length + min n (srcLen o) := by
    rw [overflows_iff he, List.length_append, List.length_singleton, hlen, srcLen]
    exact ⟨fun h => by have := h.2; dsimp only at this; omega,
      fun h => ⟨by simp, by dsimp only; omega⟩⟩
  have hstr : 0 ∈ o.src → cstrAt (o.get .src) 0 = .ok (o.src.takeWhile (· ≠ 0)) :=
    fun h0 => cstrAt_of_mem (show 0 ∈ o.src.drop 0 from h0)
  have hexec : 0 ∈ o.src → exec (shimStrncatChk n destlen) o =
      if srcLen o + s.length < destlen then perform (.strncat n) o
      else (.error .abort, o) := fun h0 =>
    exec_measured (.strncat n) (hstr h0) hs'
  constructor
  · intro hright
    refine ⟨fun ho => ?_, fun hno => ?_⟩
    · by_contra h0
      have hfault : cstrAt (o.get .src) 0 = .error .fault :=
        cstrAt_of_notMem (show 0 ∉ o.src.drop 0 from h0)
      have haborts := hright.aborts.mpr ho
      rw [hroutine, shimStrncatChk, exec_strlen_fault hfault] at haborts
      cases haborts
    · have hreads : srcLen o + 1 ≤ min n (srcLen o + 1) :=
        hright.reads hno (.strlen .src) (strlen_mem_calls _ _)
      exact hends.resolve_left (by rw [srcLen] at hreads; omega)
  · rintro ⟨hsrc, htake⟩
    by_cases ho : Overflows o (.strncat n) destlen
    · have hno : ¬srcLen o + s.length < destlen := by
        have := hover.mp ho
        omega
      refine ⟨?_, fun h => absurd ho h, fun h => absurd ho h⟩
      rw [hroutine, hexec (hsrc ho), if_neg hno]
      exact iff_of_true rfl ho
    · have h0 : 0 ∈ o.src := List.mem_of_mem_take (htake ho)
      have hlt : srcLen o < n := (zero_mem_take_iff.mp (htake ho)).1
      have hreads : srcLen o + 1 ≤ examined o (.strncat n) := by
        show srcLen o + 1 ≤ min n (srcLen o + 1)
        omega
      refine chkRight_of_guard (p := srcLen o + s.length < destlen) (hexec h0) ?_
        fun _ => reads_measured (hstr h0) hs' hreads
      rw [hover]
      omega

end

/-- A checked function aborts on overflow and is the plain one otherwise, except
for `__strncat_chk` on a source that does not end where it has to. -/
theorem chk_right_iff (o : Objs) (x : ChkCall) (destlen : Nat)
    (hsource : HasSource o x) :
    ChkRight o x destlen ↔ SourceEnds o destlen x := by
  cases x with
  | memset c len => exact iff_of_true (memset_right c len) trivial
  | strcat => exact iff_of_true (strcat_right hsource) trivial
  | strncat n => exact strncat_right_iff hsource
  | memcpy len => exact iff_of_true (memcpy_right hsource) trivial
  | strcpy => exact iff_of_true (strcpy_right hsource) trivial
  | stpcpy => exact iff_of_true (stpcpy_right hsource) trivial
  | strncpy n => exact iff_of_true (strncpy_right hsource) trivial
  | memmove place s off len => exact iff_of_true (memmove_right hsource) trivial

/-- A name is put behind a directory, whole and with a bound it ends before,
where there is room for it and where there is not; and the end of a text is
moved to its front. -/
theorem append_dir_right :
    let o : Objs := ⟨lit "/tmp/" ++ List.replicate 11 0, lit "log" ++ [0]⟩
    ChkRight o .strcat 16 ∧ ChkRight o (.strncat 8) 16 ∧ ChkRight o (.strncat 8) 8 ∧
      ChkRight o (.memmove 1 .dst 3 4) 15 := by
  intro o
  have hends : ∀ destlen, SourceEnds o destlen (.strncat 8) :=
    fun _ => ⟨fun _ => by decide, fun _ => by decide⟩
  exact ⟨(chk_right_iff o .strcat 16 ⟨⟨5, lit "log" ++ [0], 0⟩, rfl⟩).mpr trivial,
    (chk_right_iff o (.strncat 8) 16 ⟨⟨5, lit "log" ++ [0], 0⟩, rfl⟩).mpr (hends 16),
    (chk_right_iff o (.strncat 8) 8 ⟨⟨5, lit "log" ++ [0], 0⟩, rfl⟩).mpr (hends 8),
    (chk_right_iff o (.memmove 1 .dst 3 4) 15 ⟨⟨0, _, 0⟩, rfl⟩).mpr trivial⟩

/-- Three bytes of a longer name would fit, but are refused. -/
theorem strncat_prefix_not_right :
    (exec (shimStrncatChk 3 16)
        ⟨lit "/tmp/" ++ List.replicate 11 0, lit "log.previous" ++ [0]⟩).1 =
      .error .abort ∧
      ¬ChkRight ⟨lit "/tmp/" ++ List.replicate 11 0, lit "log.previous" ++ [0]⟩
        (.strncat 3) 16 := by
  have haborts : (exec (shimStrncatChk 3 16)
      ⟨lit "/tmp/" ++ List.replicate 11 0, lit "log.previous" ++ [0]⟩).1 =
      .error .abort := rfl
  refine ⟨haborts, fun hright => ?_⟩
  obtain ⟨e, he, i, hi⟩ := hright.aborts.mp haborts
  have heffect : effect ⟨lit "/tmp/" ++ List.replicate 11 0,
      lit "log.previous" ++ [0]⟩ (.strncat 3) = .ok ⟨5, lit "log" ++ [0], 0⟩ := rfl
  cases heffect.symm.trans he
  have hlast : i < 5 + 4 := hi.2.2
  omega

end Libc6Shim
