import Mathlib
import Libc6Shim.CSemOutcome

/-!
# Byte buffers

An object in C memory is a list of bytes; a pointer into it is the object
and an offset. `load` and `store` are the only accesses, and both fault
when they leave the object - except that an access of no bytes (a `memcpy`
of length zero) touches nothing and never faults. Since the object is never
reallocated, a store keeps its length, and what a later load sees is
settled by two frame rules: the stored bytes themselves, and the bytes before
them (`slice_patch_same`, `slice_patch_before`).

Scalars are little-endian (`leNat`, `leBytes`); reading a narrow scalar at
the address of a wide one truncates it (`leNat_take`).

`Mem` is a memory of separate objects, for code that follows pointers it
was handed: a pointer names an object, and the null pointer names one of no
bytes, so that any access through it faults.
-/

namespace CSem

/-- An object's bytes. -/
abbrev Buf := List UInt8

namespace Buf

/-- The `n` bytes at `off`. -/
def slice (b : Buf) (off n : Nat) : Buf := (b.drop off).take n

/-- The buffer with `xs` written over the bytes at `off`. -/
def patch (b : Buf) (off : Nat) (xs : Buf) : Buf :=
  b.take off ++ xs ++ b.drop (off + xs.length)

/-- Read `n` bytes at `off`. -/
def load (b : Buf) (off n : Nat) : Outcome Buf :=
  if n = 0 ∨ off + n ≤ b.length then .ok (slice b off n) else .error .fault

/-- Write `xs` at `off`. -/
def store (b : Buf) (off : Nat) (xs : Buf) : Outcome Buf :=
  if xs = [] then .ok b
  else if off + xs.length ≤ b.length then .ok (patch b off xs)
  else .error .fault

/-! ## Slices and patches -/

variable {b : Buf} {off n : Nat} {xs : Buf}

theorem getElem?_slice (i : Nat) :
    (slice b off n)[i]? = if i < n then b[off + i]? else none := by
  simp only [slice, List.getElem?_take, List.getElem?_drop]

theorem length_slice (h : off + n ≤ b.length) : (slice b off n).length = n := by
  simp only [slice, List.length_take, List.length_drop]
  omega

@[simp] theorem slice_zero : slice b off 0 = [] := by simp [slice]

theorem slice_slice {o' m : Nat} (h : o' + m ≤ n) :
    slice (slice b off n) o' m = slice b (off + o') m := by
  refine List.ext_getElem? fun i => ?_
  simp only [getElem?_slice]
  by_cases hi : i < m
  · rw [if_pos hi, if_pos (by omega), if_pos hi, Nat.add_assoc]
  · rw [if_neg hi, if_neg hi]

theorem slice_add {m : Nat} :
    slice b off (n + m) = slice b off n ++ slice b (off + n) m := by
  rw [slice, List.take_add, List.drop_drop]
  rfl

/-- Cutting the buffer behind a slice leaves the slice. -/
theorem slice_take {k : Nat} (h : off + n ≤ k) :
    slice (b.take k) off n = slice b off n := by
  refine List.ext_getElem? fun i => ?_
  rw [getElem?_slice, getElem?_slice, List.getElem?_take]
  by_cases hi : i < n
  · rw [if_pos hi, if_pos hi, if_pos (by omega)]
  · rw [if_neg hi, if_neg hi]

theorem length_patch (h : off + xs.length ≤ b.length) :
    (patch b off xs).length = b.length := by
  simp only [patch, List.length_append, List.length_take, List.length_drop]
  omega

/-- A patched buffer, byte by byte. -/
theorem getElem?_patch (h : off + xs.length ≤ b.length) (i : Nat) :
    (patch b off xs)[i]? =
      if i < off then b[i]?
      else if i < off + xs.length then xs[i - off]? else b[i]? := by
  have htake : (b.take off).length = off := by
    rw [List.length_take]; omega
  rw [patch, List.append_assoc, List.getElem?_append, htake]
  split
  · rename_i hlt
    rw [List.getElem?_take, if_pos hlt]
  · rename_i hge
    rw [List.getElem?_append]
    by_cases hin : i < off + xs.length
    · rw [if_pos (by omega), if_pos hin]
    · rw [if_neg (by omega), if_neg hin, List.getElem?_drop]
      congr 1
      omega

theorem slice_patch_same (h : off + xs.length ≤ b.length) :
    slice (patch b off xs) off xs.length = xs := by
  refine List.ext_getElem? fun i => ?_
  rw [getElem?_slice, getElem?_patch h]
  by_cases hi : i < xs.length
  · rw [if_pos hi, if_neg (by omega), if_pos (by omega)]
    congr 1
    omega
  · rw [if_neg hi, List.getElem?_eq_none (by omega)]

theorem slice_patch_before {o' m : Nat} (h : off + xs.length ≤ b.length)
    (hlt : o' + m ≤ off) : slice (patch b off xs) o' m = slice b o' m := by
  refine List.ext_getElem? fun i => ?_
  rw [getElem?_slice, getElem?_slice, getElem?_patch h]
  by_cases hi : i < m
  · rw [if_pos hi, if_pos hi, if_pos (by omega)]
  · rw [if_neg hi, if_neg hi]

/-- A patch behind a patch is one patch. -/
theorem patch_patch_append {ys : Buf}
    (h : off + xs.length + ys.length ≤ b.length) :
    patch (patch b off xs) (off + xs.length) ys = patch b off (xs ++ ys) := by
  have hfits : off + xs.length ≤ b.length := by omega
  have hlen := length_patch hfits
  refine List.ext_getElem? fun i => ?_
  rw [getElem?_patch (by omega), getElem?_patch hfits,
    getElem?_patch (by rw [List.length_append]; omega), List.length_append,
    List.getElem?_append]
  rcases Nat.lt_or_ge i off with h1 | h1
  · rw [if_pos (by omega), if_pos h1, if_pos h1]
  · rcases Nat.lt_or_ge i (off + xs.length) with h2 | h2
    · rw [if_pos h2, if_neg (by omega), if_pos h2, if_neg (by omega),
        if_pos (by omega), if_pos (by omega)]
    · rcases Nat.lt_or_ge i (off + xs.length + ys.length) with h3 | h3
      · rw [if_neg (by omega), if_pos h3, if_neg (by omega), if_pos (by omega),
          if_neg (by omega)]
        congr 1
        omega
      · rw [if_neg (by omega), if_neg (by omega), if_neg (by omega),
          if_neg (by omega), if_neg (by omega), if_neg (by omega)]

/-- A patch over the whole buffer. -/
theorem patch_whole (h : xs.length = b.length) :
    patch b 0 xs = xs := by
  rw [patch, List.take_zero, List.nil_append, Nat.zero_add, h, List.drop_length,
    List.append_nil]

/-- The first bytes of a buffer patched at its start. -/
theorem take_patch_start {k : Nat} (hxs : xs.length ≤ k) :
    (patch b 0 xs).take k = xs ++ (b.take k).drop xs.length := by
  rw [patch, List.take_zero, List.nil_append, Nat.zero_add, List.take_append,
    List.take_of_length_le hxs, List.drop_take]

/-- A slice of what a buffer was patched with at its start. -/
theorem slice_patch_start {o m : Nat} (h : o + m ≤ xs.length) :
    slice (patch b 0 xs) o m = slice xs o m := by
  rw [← slice_take h, take_patch_start (Nat.le_refl _), List.drop_take,
    Nat.sub_self, List.take_zero, List.append_nil]

/-! ## Loads and stores -/

theorem load_of (h : n = 0 ∨ off + n ≤ b.length) :
    load b off n = .ok (slice b off n) := if_pos h

theorem load_eq_error {e : Stop} :
    load b off n = .error e ↔ e = .fault ∧ n ≠ 0 ∧ b.length < off + n := by
  unfold load
  split
  · rename_i h
    exact ⟨nofun, fun ⟨_, h0, hl⟩ => by omega⟩
  · rename_i h
    rw [not_or, Nat.not_le] at h
    exact ⟨fun he => ⟨(Except.error.inj he).symm, h⟩, fun ⟨he, _⟩ => by rw [he]⟩

/-- A store that fits patches the buffer (a store of nothing patches it with
nothing). -/
theorem store_of (h : off + xs.length ≤ b.length) :
    store b off xs = .ok (patch b off xs) := by
  by_cases hnil : xs = []
  · subst hnil
    simp [store, patch]
  · rw [store, if_neg hnil, if_pos h]

/-- A store at the start. -/
theorem store_start (h : xs.length ≤ b.length) :
    ∃ b', b.store 0 xs = .ok b' ∧ b'.length = b.length ∧
      ∀ n ≤ xs.length, b'.take n = xs.take n := by
  have hfits : 0 + xs.length ≤ b.length := by omega
  refine ⟨patch b 0 xs, store_of hfits, length_patch hfits, fun n hn => ?_⟩
  rw [patch, List.take_zero, List.nil_append, List.take_append_of_le_length hn]

/-- A store right behind what has been stored. -/
theorem store_next {ys : Buf} (ho : xs.length = off)
    (hd : off + ys.length ≤ b.length) :
    (patch b 0 xs).store off ys = .ok (patch b 0 (xs ++ ys)) := by
  have hlen : (patch b 0 xs).length = b.length :=
    length_patch (by omega)
  have hpatch : patch (patch b 0 xs) (0 + xs.length) ys = _ :=
    patch_patch_append (by omega)
  rw [Nat.zero_add, ho] at hpatch
  rw [store_of (by omega), hpatch]

theorem store_eq_error {e : Stop} :
    store b off xs = .error e ↔
      e = .fault ∧ xs ≠ [] ∧ b.length < off + xs.length := by
  unfold store
  split
  · rename_i h
    exact ⟨nofun, fun ⟨_, hne, _⟩ => absurd h hne⟩
  · rename_i hne
    split
    · rename_i h
      exact ⟨nofun, fun ⟨_, _, hl⟩ => by omega⟩
    · rename_i h
      exact ⟨fun he => ⟨(Except.error.inj he).symm, hne, by omega⟩,
        fun ⟨he, _⟩ => by rw [he]⟩

/-! ## Little-endian scalars -/

/-- The number whose little-endian bytes these are. -/
def leNat : Buf → Nat
  | [] => 0
  | x :: xs => x.toNat + 256 * leNat xs

/-- The low `w` bytes of a number, least significant first. -/
def leBytes : Nat → Nat → Buf
  | 0, _ => []
  | w + 1, n => UInt8.ofNat n :: leBytes w (n / 256)

@[simp] theorem length_leBytes (w n : Nat) : (leBytes w n).length = w := by
  induction w generalizing n with
  | zero => rfl
  | succ w ih => rw [leBytes, List.length_cons, ih]

theorem leBytes_ne_nil {w : Nat} (h : w ≠ 0) (n : Nat) : leBytes w n ≠ [] := by
  intro hnil
  exact h (by rw [← length_leBytes w n, hnil]; rfl)

/-- Writing a scalar in `w` bytes keeps it modulo `256 ^ w`. -/
theorem leNat_leBytes (w n : Nat) : leNat (leBytes w n) = n % 256 ^ w := by
  induction w generalizing n with
  | zero => rw [leBytes, leNat, Nat.pow_zero, Nat.mod_one]
  | succ w ih =>
      have hlow : (UInt8.ofNat n).toNat = n % 256 := UInt8.toNat_ofNat'
      rw [leBytes, leNat, ih, hlow, Nat.pow_succ', Nat.mod_mul]

theorem leNat_lt (xs : Buf) : leNat xs < 256 ^ xs.length := by
  induction xs with
  | nil => exact Nat.one_pos
  | cons x xs ih =>
      have hx : x.toNat < 256 := x.toNat_lt
      rw [leNat, List.length_cons, Nat.pow_succ']
      omega

theorem leNat_append (xs ys : Buf) :
    leNat (xs ++ ys) = leNat xs + 256 ^ xs.length * leNat ys := by
  induction xs with
  | nil => simp [leNat]
  | cons x xs ih =>
      rw [List.cons_append, leNat, leNat, ih, List.length_cons, Nat.pow_succ']
      ring

/-- The low bytes of a scalar are its remainder. -/
theorem leNat_take (xs : Buf) (w : Nat) :
    leNat (xs.take w) = leNat xs % 256 ^ w := by
  induction xs generalizing w with
  | nil => simp [leNat]
  | cons x xs ih =>
      cases w with
      | zero => rw [List.take_zero, leNat, Nat.pow_zero, Nat.mod_one]
      | succ w =>
          have hx : x.toNat < 256 := x.toNat_lt
          rw [List.take_succ_cons, leNat, leNat, ih, Nat.pow_succ',
            Nat.mod_mul, Nat.add_mul_mod_self_left, Nat.mod_eq_of_lt hx,
            Nat.add_mul_div_left _ _ (by decide), Nat.div_eq_of_lt hx,
            Nat.zero_add]

/-- Read a `w`-byte scalar at `off`. -/
def loadNat (b : Buf) (off w : Nat) : Outcome Nat := do
  return leNat (← load b off w)

/-- The `w`-byte scalar at `off`, where it lies inside the buffer. -/
def natAt (b : Buf) (off w : Nat) : Nat := leNat (slice b off w)

theorem loadNat_of {w : Nat} (h : off + w ≤ b.length) :
    loadNat b off w = .ok (natAt b off w) := by
  rw [loadNat, load_of (.inr h)]; rfl

theorem loadNat_of_not {w : Nat} (hw : w ≠ 0) (h : ¬off + w ≤ b.length) :
    loadNat b off w = .error .fault := by
  rw [loadNat, load_eq_error.mpr ⟨rfl, hw, by omega⟩]; rfl

theorem natAt_lt (b : Buf) (off w : Nat) : natAt b off w < 256 ^ w :=
  Nat.lt_of_lt_of_le (leNat_lt _)
    (Nat.pow_le_pow_right (by decide) (by rw [slice]; exact List.length_take_le ..))

/-- A scalar written is read back modulo its width. -/
theorem natAt_patch_same {w v : Nat} (h : off + w ≤ b.length) :
    natAt (patch b off (leBytes w v)) off w = v % 256 ^ w := by
  have hslice := slice_patch_same (b := b)
    (show off + (leBytes w v).length ≤ b.length by rw [length_leBytes]; exact h)
  rw [length_leBytes] at hslice
  rw [natAt, hslice, leNat_leBytes]

/-- A narrow read at the address of a wide scalar truncates it. -/
theorem natAt_narrow {v w : Nat} (h : v ≤ w) :
    natAt b off v = natAt b off w % 256 ^ v := by
  rw [natAt, natAt, ← leNat_take]
  congr 1
  rw [slice, slice, List.take_take, Nat.min_eq_left h]

end Buf

/-! ## Memory -/

/-- A pointer, as the name of the object it points to. -/
abbrev Ptr := Nat

/-- The null pointer. -/
def null : Ptr := 0

/-- The objects a caller's pointers name. -/
structure Mem where
  /-- The bytes of the object a pointer names. -/
  obj : Ptr → Buf
  /-- Nothing can be read or written through the null pointer. -/
  obj_null : obj null = []

namespace Mem

/-- The memory with other contents in the object `p` names. -/
def update (m : Mem) (p : Ptr) (b : Buf) : Mem where
  obj q := if q = null then [] else if q = p then b else m.obj q
  obj_null := if_pos rfl

/-- The memory whose one object is `b`, at `p`. -/
def only (p : Ptr) (b : Buf) : Mem := update ⟨fun _ => [], rfl⟩ p b

theorem obj_update_self {m : Mem} {p : Ptr} (hp : p ≠ null) (b : Buf) :
    (m.update p b).obj p = b := by
  simp only [update, if_neg hp, if_true]

theorem obj_update_of_ne {m : Mem} {p q : Ptr} (hq : q ≠ p) (b : Buf) :
    (m.update p b).obj q = m.obj q := by
  by_cases hn : q = null
  · rw [hn, (m.update p b).obj_null, m.obj_null]
  · simp only [update, if_neg hn, if_neg hq]

end Mem

end CSem
