import Mathlib

/-!
# Words of flags

The C idiom `if (w & m) r |= t;`, once for each pair `(m, t)` of a table,
is `setFlags`. What it computes is read off bit by bit (`getLsbD_setFlags`):
a bit is set if it was set at the start, or if some pair that contributes it
is selected.
-/

namespace CSem

variable {n : Nat}

/-- Run `if (w & m) r |= t` for each pair `(m, t)` of the table, from `r`. -/
def setFlags (r : BitVec n) (table : List (BitVec n × BitVec n))
    (w : BitVec n) : BitVec n :=
  match table with
  | [] => r
  | (m, t) :: rest => setFlags (if w &&& m ≠ 0 then r ||| t else r) rest w

theorem getLsbD_setFlags (r : BitVec n) (table : List (BitVec n × BitVec n))
    (w : BitVec n) (i : Nat) :
    (setFlags r table w).getLsbD i =
      (r.getLsbD i || table.any fun p => w &&& p.1 ≠ 0 && p.2.getLsbD i) := by
  induction table generalizing r with
  | nil => simp [setFlags]
  | cons p rest ih =>
      obtain ⟨m, t⟩ := p
      rw [setFlags, ih, List.any_cons]
      by_cases h : w &&& m ≠ 0
      · rw [if_pos h, BitVec.getLsbD_or, decide_eq_true h, Bool.true_and,
          Bool.or_assoc]
      · rw [if_neg h, decide_eq_false h, Bool.false_and, Bool.false_or]

/-- The union of what the pairs of the table have for `w`. -/
def unionOf (table : List (BitVec n × BitVec n)) (w : BitVec n) : BitVec n :=
  ((table.filter fun p => w &&& p.1 ≠ 0).map Prod.snd).foldr (· ||| ·) 0

/-- What is selected of the table is united. -/
theorem setFlags_eq_union (r : BitVec n) (table : List (BitVec n × BitVec n))
    (w : BitVec n) : setFlags r table w = r ||| unionOf table w := by
  rw [unionOf]
  induction table generalizing r with
  | nil => exact (BitVec.or_zero ..).symm
  | cons p rest ih =>
      obtain ⟨m, t⟩ := p
      rw [setFlags, ih]
      by_cases h : w &&& m ≠ 0
      · rw [if_pos h, List.filter_cons_of_pos (by exact decide_eq_true h),
          List.map_cons, List.foldr_cons, BitVec.or_assoc]
      · rw [if_neg h, List.filter_cons_of_neg (by simpa using h)]

/-- The test for one bit. -/
theorem and_bit_ne_zero {w m : BitVec n} {i : Nat} (hm : m = BitVec.twoPow n i)
    (hi : i < n) : decide (w &&& m ≠ 0) = w.getLsbD i := by
  have hne : BitVec.twoPow n i ≠ 0 := by
    intro h0
    have hbit := congrArg (fun x => x.getLsbD i) h0
    simp [hi] at hbit
  rw [hm, BitVec.and_twoPow]
  cases w.getLsbD i with
  | false => simp
  | true => simpa using hne

/-! ## Tables of single bits -/

/-- The table that moves bit `p.1` to bit `p.2`, for each pair. -/
def bitTable (n : Nat) (bits : List (Nat × Nat)) :
    List (BitVec n × BitVec n) :=
  bits.map fun p => (BitVec.twoPow n p.1, BitVec.twoPow n p.2)

theorem swap_bitTable (bits : List (Nat × Nat)) :
    (bitTable n bits).map Prod.swap = bitTable n (bits.map Prod.swap) := by
  simp [bitTable, Function.comp_def]

theorem getLsbD_setFlags_bits {bits : List (Nat × Nat)}
    (hlt : ∀ p ∈ bits, p.1 < n) (w : BitVec n) {j : Nat} (hj : j < n) :
    (setFlags 0 (bitTable n bits) w).getLsbD j = true ↔
      ∃ p ∈ bits, w.getLsbD p.1 = true ∧ p.2 = j := by
  have hbit : ∀ p ∈ bits, (decide (w &&& BitVec.twoPow n p.1 ≠ 0) &&
      (BitVec.twoPow n p.2).getLsbD j) = true ↔
        w.getLsbD p.1 = true ∧ p.2 = j := by
    intro p hp
    rw [and_bit_ne_zero rfl (hlt p hp), BitVec.getLsbD_twoPow, Bool.and_eq_true]
    refine and_congr_right fun _ => ?_
    rw [Bool.and_eq_true, decide_eq_true_eq, decide_eq_true_eq]
    exact ⟨fun h => h.2, fun h => ⟨h ▸ hj, h⟩⟩
  have hzero : (0 : BitVec n).getLsbD j = false := BitVec.getLsbD_zero
  rw [getLsbD_setFlags, hzero, Bool.false_or, bitTable, List.any_map,
    List.any_eq_true]
  exact exists_congr fun p => and_congr_right fun hp => hbit p hp

/-- A bit is moved to where no other one is. -/
theorem setFlags_bits_and_ne_zero {bits : List (Nat × Nat)}
    (hlt : ∀ p ∈ bits, p.1 < n ∧ p.2 < n) {p : Nat × Nat} (hp : p ∈ bits)
    (hinj : ∀ q ∈ bits, q.2 = p.2 → q = p) (w : BitVec n) :
    setFlags 0 (bitTable n bits) w &&& BitVec.twoPow n p.2 ≠ 0 ↔
      w &&& BitVec.twoPow n p.1 ≠ 0 := by
  have hbit : ∀ (x : BitVec n) {i : Nat}, i < n →
      (x &&& BitVec.twoPow n i ≠ 0 ↔ x.getLsbD i = true) := fun x i hi => by
    rw [← and_bit_ne_zero rfl hi, decide_eq_true_iff]
  obtain ⟨h1, h2⟩ := hlt p hp
  rw [hbit _ h2, hbit _ h1,
    getLsbD_setFlags_bits (fun q hq => (hlt q hq).1) w h2]
  constructor
  · rintro ⟨q, hq, hset, heq⟩
    rw [← hinj q hq heq]
    exact hset
  · exact fun hset => ⟨p, hp, hset, rfl⟩

/-- Moved bits are brought back, if no two were moved to one place. -/
theorem setFlags_swap {bits : List (Nat × Nat)}
    (hlt : ∀ p ∈ bits, p.1 < n ∧ p.2 < n)
    (hinj : ∀ p ∈ bits, ∀ q ∈ bits, p.2 = q.2 → p = q) {w : BitVec n}
    (hw : ∀ i < n, w.getLsbD i = true → i ∈ bits.map Prod.fst) :
    setFlags 0 ((bitTable n bits).map Prod.swap)
      (setFlags 0 (bitTable n bits) w) = w := by
  refine BitVec.eq_of_getLsbD_eq fun i hi => Bool.eq_iff_iff.mpr ?_
  rw [swap_bitTable, getLsbD_setFlags_bits (by
    intro p hp
    obtain ⟨q, hq, rfl⟩ := List.mem_map.mp hp
    exact (hlt q hq).2) _ hi]
  constructor
  · rintro ⟨p', hp', hset, hfst⟩
    obtain ⟨p, hp, rfl⟩ := List.mem_map.mp hp'
    obtain ⟨q, hq, hwq, hsnd⟩ := (getLsbD_setFlags_bits
      (fun q hq => (hlt q hq).1) w (hlt p hp).2).mp hset
    rw [hinj q hq p hp hsnd] at hwq
    exact hfst ▸ hwq
  · intro hwi
    obtain ⟨p, hp, hpi⟩ := List.mem_map.mp (hw i hi hwi)
    refine ⟨p.swap, List.mem_map_of_mem hp, ?_, hpi⟩
    refine (getLsbD_setFlags_bits (fun q hq => (hlt q hq).1) w
      (hlt p hp).2).mpr ⟨p, hp, ?_, rfl⟩
    rw [hpi]
    exact hwi

/-- A word without bits outside a mask. -/
theorem and_not_eq_zero_iff {w m : BitVec n} :
    w &&& ~~~m = 0 ↔ ∀ i < n, w.getLsbD i = true → m.getLsbD i = true := by
  constructor
  · intro h i hi hw
    have hbit := congrArg (fun x => x.getLsbD i) h
    simpa [hi, hw] using hbit
  · intro h
    refine BitVec.eq_of_getLsbD_eq fun i hi => ?_
    have hbit := h i hi
    cases hw : w.getLsbD i <;> simp_all

/-- Two words with the same `k` low bits are the same under that mask. -/
theorem and_low_ext {k : Nat} {f g : BitVec n}
    (h : ∀ i < k, f.getLsbD i = g.getLsbD i) :
    f &&& BitVec.ofNat n (2 ^ k - 1) = g &&& BitVec.ofNat n (2 ^ k - 1) := by
  refine BitVec.eq_of_getLsbD_eq fun i hi => ?_
  simp only [BitVec.getLsbD_and, BitVec.getLsbD_ofNat,
    Nat.testBit_two_pow_sub_one]
  by_cases hk : i < k
  · rw [h i hk]
  · simp [hk]

end CSem
