import Mathlib

/-!
# Sets kept as bits

A word has a bit for each of some things, and perhaps bits for things nobody
has a name for. `members` is the set of the named things whose bits are set.
What is done to the word with `|||` and `&&& ~~~` is done to that set with
union and difference, and every set of named things is kept by some word
(`exists_members`).
-/

namespace CSem

variable {ι : Type} {n : Nat}

/-- The things that have a bit, and which bit that is. -/
structure BitNames (ι : Type) (n : Nat) where
  named : ι → Prop
  bit : ι → Nat
  bit_lt : ∀ i, named i → bit i < n
  bit_inj : ∀ i j, named i → named j → bit i = bit j → i = j

namespace BitNames

variable (N : BitNames ι n) {i : ι} {w v : BitVec n}

def members (w : BitVec n) : Set ι := {i | N.named i ∧ w.getLsbD (N.bit i)}

variable {N}

theorem mem_members : i ∈ N.members w ↔ N.named i ∧ w.getLsbD (N.bit i) := Iff.rfl

@[simp] theorem members_zero : N.members 0 = ∅ := by
  ext i
  simp [mem_members]

@[simp] theorem members_allOnes : N.members (BitVec.allOnes n) = {i | N.named i} := by
  ext i
  simp only [mem_members, Set.mem_ofPred_eq, BitVec.getLsbD_allOnes, decide_eq_true_eq]
  exact and_iff_left_of_imp (N.bit_lt i)

@[simp] theorem members_or : N.members (w ||| v) = N.members w ∪ N.members v := by
  ext i
  simp only [mem_members, Set.mem_union, BitVec.getLsbD_or, Bool.or_eq_true]
  tauto

@[simp] theorem members_and_not : N.members (w &&& ~~~v) = N.members w \ N.members v := by
  ext i
  simp only [mem_members, Set.mem_sdiff, BitVec.getLsbD_and, BitVec.getLsbD_not,
    Bool.and_eq_true, Bool.not_eq_true', decide_eq_true_eq]
  constructor
  · rintro ⟨hi, hw, -, hv⟩
    exact ⟨⟨hi, hw⟩, fun h => Bool.false_ne_true (hv.symm.trans h.2)⟩
  · rintro ⟨⟨hi, hw⟩, hv⟩
    exact ⟨hi, hw, N.bit_lt i hi, Bool.eq_false_iff.mpr fun h => hv ⟨hi, h⟩⟩

theorem members_twoPow (hi : N.named i) : N.members (BitVec.twoPow n (N.bit i)) = {i} := by
  ext j
  simp only [mem_members, Set.mem_singleton_iff, BitVec.getLsbD_twoPow, Bool.and_eq_true,
    decide_eq_true_eq]
  constructor
  · rintro ⟨hj, -, hbit⟩
    exact N.bit_inj j i hj hi hbit.symm
  · rintro rfl
    exact ⟨hi, N.bit_lt j hi, rfl⟩

/-- The word that keeps a set. -/
theorem exists_members {A : Set ι} (hA : ∀ i ∈ A, N.named i) : ∃ w, N.members w = A := by
  classical
  refine ⟨BitVec.ofFnLE fun k => decide (∃ i ∈ A, N.bit i = k), ?_⟩
  ext i
  rw [mem_members, BitVec.getLsbD_ofFnLE]
  constructor
  · rintro ⟨hi, hbit⟩
    rw [dif_pos (N.bit_lt i hi), decide_eq_true_eq] at hbit
    obtain ⟨j, hj, heq⟩ := hbit
    exact N.bit_inj j i (hA j hj) hi heq ▸ hj
  · intro hi
    refine ⟨hA i hi, ?_⟩
    rw [dif_pos (N.bit_lt i (hA i hi)), decide_eq_true_eq]
    exact ⟨i, hi, rfl⟩

end BitNames

end CSem
