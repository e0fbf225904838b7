import Mathlib
import Libc6Shim.CSemBuffer

/-!
# C strings

A string is the list of its bytes without the terminating NUL; `cstrAt`
takes one out of an object, and faults when no NUL ends it there.

`strsep` and `strtoul` have their C meaning: a spent string gives `strsep`
nothing to return, and `strtoul` skips blanks, takes a sign, reads as many
digits as there are and saturates. On a plain decimal numeral `strtoul` is
the number (`strtoul_decimal`).
-/

namespace CSem

/-- A string literal. -/
def lit (s : String) : Buf := s.toList.map fun c => UInt8.ofNat c.toNat

namespace Buf

/-- The string that starts at `off`. -/
def cstrAt (b : Buf) (off : Nat) : Outcome Buf :=
  let s := (b.drop off).takeWhile (· ≠ 0)
  if off + s.length < b.length then .ok s else .error .fault

/-- Store the string `s` at `off`, cut to fit `size` bytes with its NUL. -/
def storeStr (b : Buf) (off size : Nat) (s : Buf) : Outcome Buf :=
  if size = 0 then .ok b else b.store off (s.take (size - 1) ++ [0])

/-- `strncmp(s, t, strlen(t)) == 0`. -/
def startsWith (s t : Buf) : Bool := t.isPrefixOf s

theorem startsWith_iff {s t : Buf} : startsWith s t = true ↔ ∃ r, s = t ++ r := by
  rw [startsWith, List.isPrefixOf_iff_prefix]
  exact ⟨fun ⟨r, h⟩ => ⟨r, h.symm⟩, fun ⟨r, h⟩ => ⟨r, h.symm⟩⟩

/-! ## Strings in an object -/

section CstrAt

variable {b tail : Buf} {off : Nat}

theorem takeWhile_of_notMem (h : 0 ∉ b) : b.takeWhile (· ≠ 0) = b :=
  List.takeWhile_eq_self_iff.mpr fun _ hx =>
    decide_eq_true fun h0 => h (h0 ▸ hx)

/-- What follows the first NUL is not part of the string. -/
theorem takeWhile_append_of_mem (h : 0 ∈ b) :
    (b ++ tail).takeWhile (· ≠ 0) = b.takeWhile (· ≠ 0) := by
  obtain ⟨s, rest, rfl, hnot⟩ := List.eq_append_cons_of_mem h
  have hs : ∀ x ∈ s, decide (x ≠ 0) = true := fun x hx =>
    decide_eq_true fun h0 => hnot (h0 ▸ hx)
  rw [List.append_assoc, List.takeWhile_append_of_pos hs,
    List.takeWhile_append_of_pos hs]
  simp

theorem takeWhile_append_of_notMem (h : 0 ∉ b) :
    (b ++ tail).takeWhile (· ≠ 0) = b ++ tail.takeWhile (· ≠ 0) :=
  List.takeWhile_append_of_pos fun _ hx =>
    decide_eq_true fun h0 => h (h0 ▸ hx)

theorem notMem_takeWhile : 0 ∉ b.takeWhile (· ≠ 0) := fun h => by
  simpa using List.mem_takeWhile_imp h

/-- The bytes up to the next NUL. -/
theorem cstrAt_of_drop {s : Buf} (hdrop : b.drop off = s ++ 0 :: tail)
    (h : 0 ∉ s) : cstrAt b off = .ok s := by
  have hlen := congrArg List.length hdrop
  rw [List.length_drop, List.length_append, List.length_cons] at hlen
  have hs : (b.drop off).takeWhile (· ≠ 0) = s := by
    rw [hdrop, takeWhile_append_of_notMem h]
    simp
  rw [cstrAt, hs]
  exact if_pos (by omega)

theorem cstrAt_of_mem (h : 0 ∈ b.drop off) :
    cstrAt b off = .ok ((b.drop off).takeWhile (· ≠ 0)) := by
  obtain ⟨s, rest, hb, hnot⟩ := List.eq_append_cons_of_mem h
  rw [cstrAt_of_drop hb hnot, hb, takeWhile_append_of_notMem hnot]
  simp

/-- A string that no NUL ends runs out of the object. -/
theorem cstrAt_of_notMem (h : 0 ∉ b.drop off) :
    cstrAt b off = .error .fault := by
  rw [cstrAt, takeWhile_of_notMem h, List.length_drop]
  exact if_neg (by omega)

/-- A string that was read has no NUL in it, and one behind it. -/
theorem cstrAt_inv {s : Buf} (h : b.cstrAt off = .ok s) :
    0 ∉ s ∧ slice b off s.length = s ∧ off + s.length < b.length := by
  rw [cstrAt] at h
  split at h
  · rename_i hlt
    cases h
    refine ⟨notMem_takeWhile, ?_, hlt⟩
    exact (List.prefix_iff_eq_take.mp (List.takeWhile_prefix _)).symm
  · cases h

end CstrAt

/-! ## `strsep` -/

/-- `strsep(&s, "d")`: the token, and what `s` points to afterwards. A null
`s` gives a null token. -/
def strsep (d : UInt8) : Option Buf → Option Buf × Option Buf
  | none => (none, none)
  | some s =>
      (some (s.takeWhile (· ≠ d)),
        match s.dropWhile (· ≠ d) with
        | [] => none
        | _ :: rest => some rest)

/-- A string with the separator in it comes apart there. -/
theorem strsep_append {d : UInt8} {tok : Buf} (h : d ∉ tok) (rest : Buf) :
    strsep d (some (tok ++ d :: rest)) = (some tok, some rest) := by
  have htok : ∀ x ∈ tok, decide (x ≠ d) = true := fun x hx =>
    decide_eq_true fun hxd => h (hxd ▸ hx)
  have htake : (tok ++ d :: rest).takeWhile (fun x => decide (x ≠ d)) = tok := by
    rw [List.takeWhile_append_of_pos htok]; simp
  have hdrop : (tok ++ d :: rest).dropWhile (fun x => decide (x ≠ d))
      = d :: rest := by
    rw [List.dropWhile_append_of_pos htok]; simp
  simp only [strsep, htake, hdrop]

/-- A string without the separator is one token, and spends the string. -/
theorem strsep_of_notMem {d : UInt8} {s : Buf} (h : d ∉ s) :
    strsep d (some s) = (some s, none) := by
  have hs : ∀ x ∈ s, decide (x ≠ d) = true := fun x hx =>
    decide_eq_true fun hxd => h (hxd ▸ hx)
  have htake : s.takeWhile (fun x => decide (x ≠ d)) = s :=
    List.takeWhile_eq_self_iff.mpr hs
  have hdrop : s.dropWhile (fun x => decide (x ≠ d)) = [] :=
    List.dropWhile_eq_nil_iff.mpr hs
  simp only [strsep, htake, hdrop]

/-- Every string is one of the two. -/
theorem token_cases (d : UInt8) (s : Buf) :
    d ∉ s ∨ ∃ tok rest, d ∉ tok ∧ s = tok ++ d :: rest := by
  by_cases h : d ∈ s
  · obtain ⟨tok, rest, hs, hnot⟩ := List.eq_append_cons_of_mem h
    exact .inr ⟨tok, rest, hnot, hs⟩
  · exact .inl h

/-! ## Numerals -/

def isSpace (c : UInt8) : Bool := c = 32 || (9 ≤ c && c ≤ 13)

def isDigit (c : UInt8) : Bool := 48 ≤ c && c ≤ 57

/-- The number a run of digits stands for. -/
def digitsVal (s : Buf) : Nat := s.foldl (fun v c => 10 * v + (c.toNat - 48)) 0

/-- `strtoul(s, NULL, 10)` where `unsigned long` goes up to `max`. -/
def strtoul (max : Nat) (s : Buf) : Nat :=
  let s := s.dropWhile isSpace
  let neg := s.head? = some 45
  let s := if neg ∨ s.head? = some 43 then s.tail else s
  let v := digitsVal (s.takeWhile isDigit)
  if max < v then max
  else if neg then (max + 1 - v) % (max + 1) else v

/-- `ERANGE` and `EINVAL` of FreeBSD, as `strtoul` sets them. -/
def strtoulErange : Int := 34
def strtoulEinval : Int := 22

/-- `strtoul` with the error it leaves in `errno`: the number is out of
range, or there are no digits. -/
def strtoulErrno (max : Nat) (s : Buf) : Nat × Option Int :=
  let t := s.dropWhile isSpace
  let t := if t.head? = some 45 ∨ t.head? = some 43 then t.tail else t
  let digits := t.takeWhile isDigit
  (strtoul max s,
    if digits = [] then some strtoulEinval
    else if max < digitsVal digits then some strtoulErange
    else none)

/-- An `unsigned long` stored into an `int`. -/
def toInt32 (v : Nat) : Int := (BitVec.ofNat 32 v).toInt

theorem toInt32_of_lt {v : Nat} (h : v < 2 ^ 31) : toInt32 v = v := by
  rw [toInt32, BitVec.toInt_eq_toNat_of_lt, BitVec.toNat_ofNat,
    Nat.mod_eq_of_lt (by omega)]
  rw [BitVec.toNat_ofNat, Nat.mod_eq_of_lt (by omega)]
  omega

/-- The plain decimal numeral of `n`: no sign, no blanks, no leading
zeros. -/
def decimal (n : Nat) : Buf :=
  (Nat.toDigits 10 n).map fun c => UInt8.ofNat c.toNat

theorem toNat_of_isDigit {c : Char} (h : c.isDigit = true) :
    48 ≤ c.toNat ∧ c.toNat ≤ 57 := by
  simp only [Char.isDigit, Bool.and_eq_true, decide_eq_true_eq] at h
  exact ⟨UInt32.le_iff_toNat_le.mp h.1, UInt32.le_iff_toNat_le.mp h.2⟩

theorem toNat_digit_byte {n : Nat} {c : Char} (h : c ∈ Nat.toDigits 10 n) :
    (UInt8.ofNat c.toNat).toNat = c.toNat := by
  have hc := toNat_of_isDigit
    (Nat.isDigit_of_mem_toDigits (by decide) (by decide) h)
  rw [UInt8.toNat_ofNat', Nat.mod_eq_of_lt (by omega)]

theorem mem_decimal {n : Nat} {x : UInt8} (h : x ∈ decimal n) :
    48 ≤ x.toNat ∧ x.toNat ≤ 57 := by
  obtain ⟨c, hc, rfl⟩ := List.mem_map.mp h
  rw [toNat_digit_byte hc]
  exact toNat_of_isDigit
    (Nat.isDigit_of_mem_toDigits (by decide) (by decide) hc)

theorem decimal_ne_nil (n : Nat) : decimal n ≠ [] := by
  rw [decimal, ne_eq, List.map_eq_nil_iff]
  exact Nat.toDigits_ne_nil

/-- Reading the digits of a numeral back gives the number. -/
theorem digitsVal_decimal (n : Nat) : digitsVal (decimal n) = n := by
  have hfold : ∀ (cs : List Char) (v : Nat),
      (∀ c ∈ cs, (UInt8.ofNat c.toNat).toNat = c.toNat) →
      (cs.map fun c => UInt8.ofNat c.toNat).foldl
          (fun v c => 10 * v + (c.toNat - 48)) v
        = Nat.ofDigitChars 10 cs v := by
    intro cs
    induction cs with
    | nil => intro v _; rfl
    | cons c cs ih =>
        intro v hcs
        rw [List.map_cons, List.foldl_cons, hcs c (List.mem_cons_self ..),
          ih _ fun d hd => hcs d (List.mem_cons_of_mem _ hd)]
        rfl
  rw [digitsVal, decimal, hfold _ _ fun c hc => toNat_digit_byte hc]
  exact Nat.ofDigitChars_toDigits (by decide) (by decide)

theorem not_isSpace_of_isDigit {c : UInt8} (h : isDigit c = true) :
    isSpace c = false := by
  simp only [isDigit, Bool.and_eq_true, decide_eq_true_eq,
    UInt8.le_iff_toNat_le] at h
  have h48 : 48 ≤ c.toNat := h.1
  have h32 : c ≠ 32 := fun he => absurd (he ▸ h48) (by decide)
  have h13 : ¬c ≤ 13 := fun hle => by
    have hle' : c.toNat ≤ 13 := UInt8.le_iff_toNat_le.mp hle
    omega
  simp [isSpace, h32, h13]

/-- A run of digits is read to its end, whatever comes behind it. -/
theorem strtoulErrno_digits {max : Nat} {digits rest : Buf} (hne : digits ≠ [])
    (hdigits : ∀ c ∈ digits, isDigit c = true)
    (hrest : ∀ c ∈ rest.head?, isDigit c = false)
    (hmax : digitsVal digits ≤ max) :
    strtoulErrno max (digits ++ rest) = (digitsVal digits, none) := by
  have htake : (digits ++ rest).takeWhile isDigit = digits := by
    rw [List.takeWhile_append_of_pos hdigits]
    cases rest with
    | nil => simp
    | cons c cs =>
        rw [List.takeWhile_cons_of_neg (by simp [hrest c rfl]), List.append_nil]
  obtain ⟨x, xs, rfl⟩ := List.exists_cons_of_ne_nil hne
  have hx := hdigits x (List.mem_cons_self ..)
  have hdrop : (x :: xs ++ rest).dropWhile isSpace = x :: xs ++ rest :=
    List.dropWhile_cons_of_neg (by simp [not_isSpace_of_isDigit hx])
  have hneg : (x :: xs ++ rest).head? ≠ some 45 := fun he => by
    obtain rfl : x = 45 := Option.some.inj he
    exact absurd hx (by decide)
  have hpos : (x :: xs ++ rest).head? ≠ some 43 := fun he => by
    obtain rfl : x = 43 := Option.some.inj he
    exact absurd hx (by decide)
  simp only [strtoulErrno, strtoul, hdrop, hneg, hpos, or_self, if_false, htake,
    hne]
  rw [if_neg (by omega), if_neg (by omega)]

theorem isDigit_of_mem_decimal {n : Nat} {x : UInt8} (h : x ∈ decimal n) :
    isDigit x = true := by
  simp only [isDigit, Bool.and_eq_true, decide_eq_true_eq,
    UInt8.le_iff_toNat_le]
  exact mem_decimal h

/-- On a plain numeral `strtoul` is the number, up to saturation. -/
theorem strtoul_decimal {max n : Nat} (h : n ≤ max) :
    strtoul max (decimal n) = n := by
  have hread := @strtoulErrno_digits max (decimal n) [] (decimal_ne_nil n)
    (fun _ => isDigit_of_mem_decimal) (fun c hc => by cases hc)
    (by rwa [digitsVal_decimal])
  rw [List.append_nil, digitsVal_decimal] at hread
  exact congrArg Prod.fst hread

end Buf

end CSem
