import Mathlib

/-!
# Ruby regular expressions

The part of Ruby's regular expressions that a script of substitutions needs:
characters of a class, repeated greedily or lazily, the anchors of a line,
sequences, alternatives and numbered groups. `Regex.outs` gives the places a
backtracking matcher may end in, in the order in which it tries them, so that
its first element is the match Ruby finds; `search` is `=~` and `gsub` is
`String#gsub`.

What can match at all is membership in `outs`, which says nothing of order.
Where only one match is possible that is all there is to know
(`head?_outs_of_unique`); a lazy repetition is settled by the first place
that lets the rest match (`head?_lazy`).
-/

namespace Ruby

abbrev Text := List Char

/-- `\w` -/
def isWord (c : Char) : Bool := c.isAlphanum || c == '_'

/-- `\s` -/
def isSpace (c : Char) : Bool :=
  c == ' ' || c == '\t' || c == '\n' || c == '\x0b' || c == '\x0c' || c == '\r'

/-- `\d` -/
def isDigit (c : Char) : Bool := c.isDigit

/-- `.` -/
def isDot (c : Char) : Bool := c != '\n'

inductive Regex where
  | empty
  /-- A character of a class. -/
  | cls (p : Char → Bool)
  /-- `^` -/
  | bol
  /-- `$` -/
  | eol
  | seq (r s : Regex)
  | alt (r s : Regex)
  /-- `p*` -/
  | many (p : Char → Bool)
  /-- `p*?` -/
  | manyLazy (p : Char → Bool)
  /-- The group with number `n`. -/
  | group (n : Nat) (r : Regex)

/-- Where a matcher is: whether a line begins here, the text to come, and
what the groups have matched. -/
structure Place where
  bol : Bool
  rest : Text
  groups : Nat → Option Text

/-- The places behind the characters of the class, the nearest first. -/
def manyFrom (p : Char → Bool) (groups : Nat → Option Text) :
    Bool → Text → List Place
  | b, [] => [⟨b, [], groups⟩]
  | b, c :: s =>
      ⟨b, c :: s, groups⟩ :: if p c then manyFrom p groups (c == '\n') s else []

namespace Regex

def outs : Regex → Place → List Place
  | empty, a => [a]
  | cls p, a =>
      match a.rest with
      | c :: s => if p c then [⟨c == '\n', s, a.groups⟩] else []
      | [] => []
  | bol, a => if a.bol then [a] else []
  | eol, a => if a.rest.head?.all (· == '\n') then [a] else []
  | seq r s, a => (r.outs a).flatMap s.outs
  | alt r s, a => r.outs a ++ s.outs a
  | many p, a => (manyFrom p a.groups a.bol a.rest).reverse
  | manyLazy p, a => manyFrom p a.groups a.bol a.rest
  | group n r, a =>
      (r.outs a).map fun b =>
        { b with
          groups := Function.update b.groups n
            (some (a.rest.take (a.rest.length - b.rest.length))) }

/-- `p+` -/
def plus (p : Char → Bool) : Regex := seq (cls p) (many p)

/-- `p+?` -/
def plusLazy (p : Char → Bool) : Regex := seq (cls p) (manyLazy p)

/-- `r?` -/
def opt (r : Regex) : Regex := alt r empty

def char (c : Char) : Regex := cls (· == c)

/-- A literal text. -/
def lit : Text → Regex
  | [] => empty
  | c :: s => seq (char c) (lit s)

def str (s : String) : Regex := lit s.toList

/-- The sequence of several expressions. -/
def cat : List Regex → Regex
  | [] => empty
  | [r] => r
  | r :: rs => seq r (cat rs)

/-- One of several literal texts. -/
def oneOf : List String → Regex
  | [] => cls fun _ => false
  | [s] => str s
  | s :: ss => alt (str s) (oneOf ss)

/-- A match: the text before it, its own, and the text behind it. -/
structure Match where
  before : Text
  matched : Text
  after : Text
  groups : Nat → Option Text

/-- `"#{$n}"` -/
def Match.text (m : Match) (n : Nat) : Text := (m.groups n).getD []

/-- The match at the beginning of the text. -/
def matchAt (r : Regex) (bol : Bool) (s : Text) : Option Match :=
  (r.outs ⟨bol, s, fun _ => none⟩).head?.map fun a =>
    ⟨[], s.take (s.length - a.rest.length), a.rest, a.groups⟩

def searchFrom (r : Regex) : Bool → Text → Option Match
  | b, [] => r.matchAt b []
  | b, c :: s =>
      match r.matchAt b (c :: s) with
      | some m => some m
      | none =>
          (r.searchFrom (c == '\n') s).map fun m =>
            { m with before := c :: m.before }

/-- `s =~ r` -/
def search (r : Regex) (s : Text) : Option Match := r.searchFrom true s

/-- `skip` characters are left of the match before. -/
def gsubFrom (r : Regex) (f : Match → Text) : Nat → Bool → Text → Text
  | _, _, [] => []
  | skip + 1, _, c :: s => r.gsubFrom f skip (c == '\n') s
  | 0, b, c :: s =>
      match r.matchAt b (c :: s) with
      | some m => f m ++ r.gsubFrom f (m.matched.length - 1) (c == '\n') s
      | none => c :: r.gsubFrom f 0 (c == '\n') s

/-- `s.gsub(r) { f }`, for expressions that match no empty text. -/
def gsub (r : Regex) (f : Match → Text) (s : Text) : Text :=
  r.gsubFrom f 0 true s

end Regex

/-- `s.strip` -/
def strip (s : Text) : Text :=
  let blank (c : Char) := isSpace c || c == '\x00'
  ((s.dropWhile blank).reverse.dropWhile blank).reverse

/-- `parts.join(sep)` -/
def join (sep : Text) (parts : List Text) : Text := sep.intercalate parts

/-- `strip` takes the blanks around a text that neither begins nor ends with
one. -/
theorem strip_append {u s v : Text} (hu : ∀ c ∈ u, isSpace c)
    (hv : ∀ c ∈ v, isSpace c)
    (hfirst : ∀ c ∈ s.head?, isSpace c = false ∧ c ≠ '\x00')
    (hlast : ∀ c ∈ s.getLast?, isSpace c = false ∧ c ≠ '\x00') :
    strip (u ++ s ++ v) = s := by
  have hblank : ∀ w : Text, (∀ c ∈ w, isSpace c) →
      ∀ c ∈ w, (isSpace c || c == '\x00') = true := by
    intro w hw c hc
    rw [hw c hc, Bool.true_or]
  have hbare : ∀ w : Text, (∀ c ∈ w.head?, isSpace c = false ∧ c ≠ '\x00') →
      w.dropWhile (fun c => isSpace c || c == '\x00') = w := by
    intro w hw
    cases w with
    | nil => rfl
    | cons c w =>
        obtain ⟨hc, hnul⟩ := hw c rfl
        refine List.dropWhile_cons_of_neg ?_
        simp [hc, hnul]
  rw [strip]
  rw [List.append_assoc, List.dropWhile_append_of_pos (hblank u hu)]
  cases s with
  | nil =>
      rw [List.nil_append, List.dropWhile_eq_nil_iff.mpr (hblank v hv)]
      rfl
  | cons c t =>
      rw [hbare (c :: t ++ v) hfirst, List.reverse_append,
        List.dropWhile_append_of_pos
          (fun d hd => hblank v hv d (List.mem_reverse.mp hd)),
        hbare _ (by rw [List.head?_reverse]; exact hlast), List.reverse_reverse]

theorem strip_cons_blank {c : Char} {w : Text} (hc : isSpace c) :
    strip (c :: w) = strip w := by
  rw [strip, strip, List.dropWhile_cons_of_pos (by simp [hc])]

theorem strip_within (s : Text) : strip s <:+: s := by
  unfold strip
  have hleft : ∀ (p : Char → Bool) (u : Text),
      (u.reverse.dropWhile p).reverse <+: u := by
    intro p u
    rw [← List.reverse_suffix, List.reverse_reverse]
    exact List.dropWhile_suffix p
  exact (hleft _ _).isInfix.trans (List.dropWhile_suffix _).isInfix

theorem strip_ne_nil {c : Char} {w : Text} (hmem : c ∈ w)
    (hbare : (isSpace c || c == '\x00') = false) : strip w ≠ [] := by
  intro h
  rw [strip, List.reverse_eq_nil_iff] at h
  have hmem' : c ∈ w.dropWhile fun c => isSpace c || c == '\x00' := by
    rw [← List.takeWhile_append_dropWhile (p := fun c => isSpace c || c == '\x00')
      (l := w)] at hmem
    rcases List.mem_append.mp hmem with hmem | hmem
    · have hblank := List.mem_takeWhile_imp hmem
      rw [hbare] at hblank
      cases hblank
    · exact hmem
  have hblank := List.dropWhile_eq_nil_iff.mp h c (List.mem_reverse.mpr hmem')
  rw [hbare] at hblank
  cases hblank

/-! ## What can match -/

/-- Whether a line begins behind `u`, if one does before it or not. -/
def bolAfter (b : Bool) (u : Text) : Bool :=
  (u.getLast?.map (· == '\n')).getD b

@[simp] theorem bolAfter_nil (b : Bool) : bolAfter b [] = b := rfl

theorem bolAfter_cons (b : Bool) (c : Char) (u : Text) :
    bolAfter b (c :: u) = bolAfter (c == '\n') u := by
  cases u with
  | nil => rfl
  | cons d u => simp [bolAfter, List.getLast?_cons]

theorem bolAfter_append (b : Bool) (u v : Text) :
    bolAfter b (u ++ v) = bolAfter (bolAfter b u) v := by
  induction u generalizing b with
  | nil => rfl
  | cons c u ih => rw [List.cons_append, bolAfter_cons, ih, bolAfter_cons]

theorem mem_manyFrom {p : Char → Bool} {groups : Nat → Option Text} {b : Bool}
    {s : Text} {a : Place} :
    a ∈ manyFrom p groups b s ↔
      ∃ u v, s = u ++ v ∧ (∀ c ∈ u, p c) ∧ a = ⟨bolAfter b u, v, groups⟩ := by
  induction s generalizing b with
  | nil =>
      rw [manyFrom, List.mem_singleton]
      constructor
      · intro ha
        exact ⟨[], [], rfl, by simp, ha⟩
      · rintro ⟨u, v, huv, -, ha⟩
        obtain ⟨rfl, rfl⟩ := List.append_eq_nil_iff.mp huv.symm
        exact ha
  | cons c s ih =>
      rw [manyFrom, List.mem_cons]
      constructor
      · rintro (ha | ha)
        · exact ⟨[], c :: s, rfl, by simp, ha⟩
        · by_cases hc : p c
          · rw [if_pos hc, ih] at ha
            obtain ⟨u, v, rfl, hu, rfl⟩ := ha
            refine ⟨c :: u, v, rfl, ?_, by rw [bolAfter_cons]⟩
            simpa using ⟨hc, hu⟩
          · rw [if_neg hc] at ha
            cases ha
      · rintro ⟨u, v, huv, hu, rfl⟩
        cases u with
        | nil =>
            obtain rfl : c :: s = v := huv
            exact .inl rfl
        | cons d u =>
            obtain ⟨rfl, rfl⟩ := List.cons.inj huv
            right
            rw [if_pos (hu c (by simp)), ih]
            exact ⟨u, v, rfl, fun d hd => hu d (by simp [hd]),
              by rw [bolAfter_cons]⟩

namespace Regex

section Mem

variable {r t : Regex} {p : Char → Bool} {a c : Place} {n : Nat}

@[simp] theorem mem_outs_empty : c ∈ empty.outs a ↔ c = a :=
  List.mem_singleton

@[simp] theorem mem_outs_seq :
    c ∈ (seq r t).outs a ↔ ∃ b ∈ r.outs a, c ∈ t.outs b :=
  List.mem_flatMap

@[simp] theorem mem_outs_alt :
    c ∈ (alt r t).outs a ↔ c ∈ r.outs a ∨ c ∈ t.outs a :=
  List.mem_append

theorem mem_outs_cls :
    c ∈ (cls p).outs a ↔
      ∃ x s, a.rest = x :: s ∧ p x ∧ c = ⟨x == '\n', s, a.groups⟩ := by
  obtain ⟨b, _ | ⟨x, s⟩, g⟩ := a
  · refine iff_of_false List.not_mem_nil ?_
    rintro ⟨x, s, hrest, -⟩
    cases hrest
  · refine List.mem_ite_nil_right.trans ?_
    rw [List.mem_singleton]
    constructor
    · rintro ⟨hx, hc⟩
      exact ⟨x, s, rfl, hx, hc⟩
    · rintro ⟨x, s, hrest, hx, hc⟩
      cases hrest
      exact ⟨hx, hc⟩

@[simp] theorem mem_outs_bol : c ∈ bol.outs a ↔ a.bol ∧ c = a :=
  List.mem_ite_nil_right.trans (and_congr_right' List.mem_singleton)

theorem mem_outs_eol :
    c ∈ eol.outs a ↔ a.rest.head?.all (· == '\n') ∧ c = a :=
  List.mem_ite_nil_right.trans (and_congr_right' List.mem_singleton)

theorem mem_outs_many :
    c ∈ (many p).outs a ↔ ∃ u v, a.rest = u ++ v ∧ (∀ x ∈ u, p x) ∧
      c = ⟨bolAfter a.bol u, v, a.groups⟩ :=
  List.mem_reverse.trans mem_manyFrom

theorem mem_outs_manyLazy :
    c ∈ (manyLazy p).outs a ↔ ∃ u v, a.rest = u ++ v ∧ (∀ x ∈ u, p x) ∧
      c = ⟨bolAfter a.bol u, v, a.groups⟩ :=
  mem_manyFrom

/-- An expression takes characters from the front of the text. -/
theorem outs_takes (hc : c ∈ r.outs a) :
    ∃ u, a.rest = u ++ c.rest ∧ c.bol = bolAfter a.bol u := by
  induction r generalizing a c with
  | empty =>
      obtain rfl := mem_outs_empty.mp hc
      exact ⟨[], rfl, rfl⟩
  | cls p =>
      obtain ⟨x, s, hrest, -, rfl⟩ := mem_outs_cls.mp hc
      exact ⟨[x], hrest, rfl⟩
  | bol =>
      obtain ⟨-, rfl⟩ := mem_outs_bol.mp hc
      exact ⟨[], rfl, rfl⟩
  | eol =>
      obtain ⟨-, rfl⟩ := mem_outs_eol.mp hc
      exact ⟨[], rfl, rfl⟩
  | seq r t ihr iht =>
      obtain ⟨b, hb, hc⟩ := mem_outs_seq.mp hc
      obtain ⟨u, hu, hbolu⟩ := ihr hb
      obtain ⟨v, hv, hbolv⟩ := iht hc
      refine ⟨u ++ v, ?_, ?_⟩
      · rw [hu, hv, List.append_assoc]
      · rw [hbolv, hbolu, bolAfter_append]
  | alt r t ihr iht =>
      rcases mem_outs_alt.mp hc with hc | hc
      · exact ihr hc
      · exact iht hc
  | many p =>
      obtain ⟨u, v, hrest, -, rfl⟩ := mem_outs_many.mp hc
      exact ⟨u, hrest, rfl⟩
  | manyLazy p =>
      obtain ⟨u, v, hrest, -, rfl⟩ := mem_outs_manyLazy.mp hc
      exact ⟨u, hrest, rfl⟩
  | group n r ih =>
      rw [outs, List.mem_map] at hc
      obtain ⟨b, hb, rfl⟩ := hc
      obtain ⟨u, hu, hbol⟩ := ih hb
      exact ⟨u, hu, hbol⟩

/-- A group notes what its expression takes. -/
theorem mem_outs_group :
    c ∈ (group n r).outs a ↔ ∃ b ∈ r.outs a, ∃ u, a.rest = u ++ b.rest ∧
      c = ⟨b.bol, b.rest, Function.update b.groups n (some u)⟩ := by
  rw [outs, List.mem_map]
  constructor
  · rintro ⟨b, hb, rfl⟩
    obtain ⟨u, hu, -⟩ := outs_takes hb
    refine ⟨b, hb, u, hu, ?_⟩
    simp [hu]
  · rintro ⟨b, hb, u, hu, rfl⟩
    refine ⟨b, hb, ?_⟩
    simp [hu]

theorem mem_outs_plus :
    c ∈ (plus p).outs a ↔ ∃ u v, a.rest = u ++ v ∧ u ≠ [] ∧ (∀ x ∈ u, p x) ∧
      c = ⟨bolAfter a.bol u, v, a.groups⟩ := by
  simp only [plus, mem_outs_seq, mem_outs_cls, mem_outs_many]
  constructor
  · rintro ⟨b, ⟨x, s, hrest, hx, rfl⟩, u, v, huv, hu, rfl⟩
    obtain rfl : s = u ++ v := huv
    exact ⟨x :: u, v, hrest, by simp, by simpa using ⟨hx, hu⟩,
      by rw [bolAfter_cons]⟩
  · rintro ⟨_ | ⟨x, u⟩, v, hrest, hne, hu, rfl⟩
    · exact absurd rfl hne
    · exact ⟨_, ⟨x, u ++ v, hrest, hu x (by simp), rfl⟩, u, v, rfl,
        fun y hy => hu y (by simp [hy]), by rw [bolAfter_cons]⟩

theorem mem_outs_lit {w : Text} :
    c ∈ (lit w).outs a ↔
      ∃ v, a.rest = w ++ v ∧ c = ⟨bolAfter a.bol w, v, a.groups⟩ := by
  induction w generalizing a with
  | nil =>
      rw [lit, mem_outs_empty]
      constructor
      · rintro rfl
        exact ⟨c.rest, rfl, rfl⟩
      · rintro ⟨v, hrest, rfl⟩
        obtain rfl : a.rest = v := hrest
        rfl
  | cons x w ih =>
      simp only [lit, char, mem_outs_seq, mem_outs_cls, ih]
      constructor
      · rintro ⟨b, ⟨y, s, hrest, hy, rfl⟩, v, hv, rfl⟩
        obtain rfl : y = x := by simpa using hy
        obtain rfl : s = w ++ v := hv
        exact ⟨v, hrest, by rw [bolAfter_cons]⟩
      · rintro ⟨v, hrest, rfl⟩
        exact ⟨_, ⟨x, w ++ v, hrest, by simp, rfl⟩, v, rfl,
          by rw [bolAfter_cons]⟩

theorem mem_outs_oneOf {ws : List String} :
    c ∈ (oneOf ws).outs a ↔ ∃ w ∈ ws, c ∈ (str w).outs a := by
  match ws with
  | [] => simp [oneOf, mem_outs_cls]
  | [w] => simp [oneOf]
  | w :: w' :: ws =>
      rw [oneOf, mem_outs_alt, mem_outs_oneOf]
      · simp
      · exact List.cons_ne_nil w' ws

/-- The expression takes `u` and goes from one place to another. -/
def Goes (r : Regex) (a : Place) (u : Text) (c : Place) : Prop :=
  c ∈ r.outs a ∧ a.rest = u ++ c.rest

theorem exists_goes (hc : c ∈ r.outs a) : ∃ u, r.Goes a u c := by
  obtain ⟨u, hu, -⟩ := outs_takes hc
  exact ⟨u, hc, hu⟩

section Goes

variable {u : Text}

theorem goes_seq :
    (seq r t).Goes a u c ↔
      ∃ u₁ u₂, u = u₁ ++ u₂ ∧ ∃ b, r.Goes a u₁ b ∧ t.Goes b u₂ c := by
  constructor
  · rintro ⟨hc, hu⟩
    obtain ⟨b, hb, hc⟩ := mem_outs_seq.mp hc
    obtain ⟨u₁, hu₁⟩ := exists_goes hb
    obtain ⟨u₂, hu₂⟩ := exists_goes hc
    refine ⟨u₁, u₂, ?_, b, hu₁, hu₂⟩
    rw [hu₁.2, hu₂.2, ← List.append_assoc] at hu
    exact (List.append_cancel_right hu).symm
  · rintro ⟨u₁, u₂, rfl, b, hb, hc⟩
    refine ⟨mem_outs_seq.mpr ⟨b, hb.1, hc.1⟩, ?_⟩
    rw [hb.2, hc.2, List.append_assoc]

theorem goes_group :
    (group n r).Goes a u c ↔ ∃ b, r.Goes a u b ∧
      c = ⟨b.bol, b.rest, Function.update b.groups n (some u)⟩ := by
  constructor
  · rintro ⟨hc, hu⟩
    obtain ⟨b, hb, w, hw, rfl⟩ := mem_outs_group.mp hc
    obtain rfl : u = w := List.append_cancel_right (hu.symm.trans hw)
    exact ⟨b, ⟨hb, hw⟩, rfl⟩
  · rintro ⟨b, hb, rfl⟩
    exact ⟨mem_outs_group.mpr ⟨b, hb.1, u, hb.2, rfl⟩, hb.2⟩

theorem goes_alt : (alt r t).Goes a u c ↔ r.Goes a u c ∨ t.Goes a u c := by
  simp only [Goes, mem_outs_alt, or_and_right]

theorem goes_empty : empty.Goes a u c ↔ u = [] ∧ c = a := by
  rw [Goes, mem_outs_empty]
  constructor
  · rintro ⟨rfl, hu⟩
    exact ⟨List.append_left_eq_self.mp hu.symm, rfl⟩
  · rintro ⟨rfl, rfl⟩
    exact ⟨rfl, rfl⟩

theorem goes_bol : bol.Goes a u c ↔ a.bol ∧ u = [] ∧ c = a := by
  rw [Goes, mem_outs_bol]
  constructor
  · rintro ⟨⟨hbol, rfl⟩, hu⟩
    exact ⟨hbol, List.append_left_eq_self.mp hu.symm, rfl⟩
  · rintro ⟨hbol, rfl, rfl⟩
    exact ⟨⟨hbol, rfl⟩, rfl⟩

theorem goes_eol :
    eol.Goes a u c ↔ a.rest.head?.all (· == '\n') ∧ u = [] ∧ c = a := by
  rw [Goes, mem_outs_eol]
  constructor
  · rintro ⟨⟨heol, rfl⟩, hu⟩
    exact ⟨heol, List.append_left_eq_self.mp hu.symm, rfl⟩
  · rintro ⟨heol, rfl, rfl⟩
    exact ⟨⟨heol, rfl⟩, rfl⟩

theorem goes_cls :
    (cls p).Goes a u c ↔ ∃ x, p x ∧ u = [x] ∧ a.rest = x :: c.rest ∧
      c = ⟨x == '\n', c.rest, a.groups⟩ := by
  rw [Goes, mem_outs_cls]
  constructor
  · rintro ⟨⟨x, s, hrest, hx, rfl⟩, hu⟩
    rw [hrest] at hu
    exact ⟨x, hx, (@List.append_cancel_right _ [x] _ u hu).symm, hrest, rfl⟩
  · rintro ⟨x, hx, rfl, hrest, hc⟩
    exact ⟨⟨x, c.rest, hrest, hx, hc⟩, hrest⟩

theorem goes_char {x : Char} :
    (char x).Goes a u c ↔ u = [x] ∧ a.rest = x :: c.rest ∧
      c = ⟨x == '\n', c.rest, a.groups⟩ := by
  rw [char, goes_cls]
  constructor
  · rintro ⟨y, hy, hu⟩
    obtain rfl : y = x := by simpa using hy
    exact hu
  · intro hu
    exact ⟨x, by simp, hu⟩

theorem goes_plus :
    (plus p).Goes a u c ↔ u ≠ [] ∧ (∀ x ∈ u, p x) ∧ a.rest = u ++ c.rest ∧
      c = ⟨bolAfter a.bol u, c.rest, a.groups⟩ := by
  rw [Goes, mem_outs_plus]
  constructor
  · rintro ⟨⟨w, v, hrest, hne, hw, rfl⟩, hu⟩
    obtain rfl : u = w := List.append_cancel_right (hu.symm.trans hrest)
    exact ⟨hne, hw, hrest, rfl⟩
  · rintro ⟨hne, hu, hrest, hc⟩
    exact ⟨⟨u, c.rest, hrest, hne, hu, hc⟩, hrest⟩

theorem goes_many :
    (many p).Goes a u c ↔ (∀ x ∈ u, p x) ∧ a.rest = u ++ c.rest ∧
      c = ⟨bolAfter a.bol u, c.rest, a.groups⟩ := by
  rw [Goes, mem_outs_many]
  constructor
  · rintro ⟨⟨w, v, hrest, hw, rfl⟩, hu⟩
    obtain rfl : u = w := List.append_cancel_right (hu.symm.trans hrest)
    exact ⟨hw, hrest, rfl⟩
  · rintro ⟨hu, hrest, hc⟩
    exact ⟨⟨u, c.rest, hrest, hu, hc⟩, hrest⟩

theorem goes_lit {w : Text} :
    (lit w).Goes a u c ↔ u = w ∧ a.rest = w ++ c.rest ∧
      c = ⟨bolAfter a.bol w, c.rest, a.groups⟩ := by
  rw [Goes, mem_outs_lit]
  constructor
  · rintro ⟨⟨v, hrest, rfl⟩, hu⟩
    exact ⟨List.append_cancel_right (hu.symm.trans hrest), hrest, rfl⟩
  · rintro ⟨rfl, hrest, hc⟩
    exact ⟨⟨c.rest, hrest, hc⟩, hrest⟩

theorem goes_oneOf {ws : List String} :
    (oneOf ws).Goes a u c ↔ ∃ w ∈ ws, (str w).Goes a u c := by
  simp only [Goes, mem_outs_oneOf]
  constructor
  · rintro ⟨⟨w, hw, hc⟩, hu⟩
    exact ⟨w, hw, hc, hu⟩
  · rintro ⟨w, hw, hc, hu⟩
    exact ⟨⟨w, hw, hc⟩, hu⟩

end Goes

end Mem

/-! ## Texts an expression spans -/

/-- The expression can take `u` where `v` is behind it; `b` is whether a line
begins at `u`. -/
def Spans : Regex → Bool → Text → Text → Prop
  | empty, _, u, _ => u = []
  | cls p, _, u, _ => ∃ x, p x ∧ u = [x]
  | bol, b, u, _ => b ∧ u = []
  | eol, _, u, v => u = [] ∧ v.head?.all (· == '\n')
  | seq r t, b, u, v => ∃ u₁ u₂, u = u₁ ++ u₂ ∧ r.Spans b u₁ (u₂ ++ v) ∧
      t.Spans (bolAfter b u₁) u₂ v
  | alt r t, b, u, v => r.Spans b u v ∨ t.Spans b u v
  | many p, _, u, _ => ∀ x ∈ u, p x
  | manyLazy p, _, u, _ => ∀ x ∈ u, p x
  | group _ r, b, u, v => r.Spans b u v

section Spans

variable {r t : Regex} {p : Char → Bool} {b : Bool} {s u v w : Text}
  {a c : Place} {n : Nat}

theorem spans_cls : (cls p).Spans b u v ↔ ∃ x, p x ∧ u = [x] := Iff.rfl

theorem spans_bol : bol.Spans b u v ↔ b ∧ u = [] := Iff.rfl

theorem spans_seq : (seq r t).Spans b u v ↔ ∃ u₁ u₂, u = u₁ ++ u₂ ∧
    r.Spans b u₁ (u₂ ++ v) ∧ t.Spans (bolAfter b u₁) u₂ v := Iff.rfl

theorem spans_alt :
    (alt r t).Spans b u v ↔ r.Spans b u v ∨ t.Spans b u v := Iff.rfl

theorem spans_group : (group n r).Spans b u v ↔ r.Spans b u v := Iff.rfl

theorem bol_of_goes (h : r.Goes a u c) : c.bol = bolAfter a.bol u := by
  obtain ⟨w, hw, hbol⟩ := outs_takes h.1
  obtain rfl : u = w := List.append_cancel_right (h.2.symm.trans hw)
  exact hbol

theorem spans_of_goes (h : r.Goes a u c) : r.Spans a.bol u c.rest := by
  induction r generalizing a u c with
  | empty => exact (goes_empty.mp h).1
  | cls p =>
      obtain ⟨x, hx, hu, -⟩ := goes_cls.mp h
      exact ⟨x, hx, hu⟩
  | bol =>
      obtain ⟨hbol, hu, -⟩ := goes_bol.mp h
      exact ⟨hbol, hu⟩
  | eol =>
      obtain ⟨heol, hu, rfl⟩ := goes_eol.mp h
      exact ⟨hu, heol⟩
  | seq r t ihr iht =>
      obtain ⟨u₁, u₂, rfl, a', h₁, h₂⟩ := goes_seq.mp h
      have hspans₁ := ihr h₁
      have hspans₂ := iht h₂
      rw [h₂.2] at hspans₁
      rw [bol_of_goes h₁] at hspans₂
      exact ⟨u₁, u₂, rfl, hspans₁, hspans₂⟩
  | alt r t ihr iht =>
      rcases goes_alt.mp h with h | h
      · exact .inl (ihr h)
      · exact .inr (iht h)
  | many p => exact (goes_many.mp h).1
  | manyLazy p =>
      obtain ⟨w, v, hrest, hw, rfl⟩ := mem_outs_manyLazy.mp h.1
      obtain rfl : u = w := List.append_cancel_right (h.2.symm.trans hrest)
      exact hw
  | group n r ih =>
      obtain ⟨a', h', rfl⟩ := goes_group.mp h
      show r.Spans a.bol u a'.rest
      exact ih h'

theorem goes_of_spans {g : Nat → Option Text} (h : r.Spans b u v) :
    ∃ g', r.Goes ⟨b, u ++ v, g⟩ u ⟨bolAfter b u, v, g'⟩ := by
  induction r generalizing b u v g with
  | empty =>
      obtain rfl : u = [] := h
      exact ⟨g, goes_empty.mpr ⟨rfl, rfl⟩⟩
  | cls p =>
      obtain ⟨x, hx, rfl⟩ := h
      exact ⟨g, goes_cls.mpr ⟨x, hx, rfl, rfl, rfl⟩⟩
  | bol =>
      obtain ⟨hbol, rfl⟩ := h
      exact ⟨g, goes_bol.mpr ⟨hbol, rfl, rfl⟩⟩
  | eol =>
      obtain ⟨rfl, heol⟩ := h
      exact ⟨g, goes_eol.mpr ⟨heol, rfl, rfl⟩⟩
  | seq r t ihr iht =>
      obtain ⟨u₁, u₂, rfl, h₁, h₂⟩ := h
      obtain ⟨g₁, hg₁⟩ := @ihr b u₁ (u₂ ++ v) g h₁
      obtain ⟨g₂, hg₂⟩ := @iht (bolAfter b u₁) u₂ v g₁ h₂
      refine ⟨g₂, ?_⟩
      rw [List.append_assoc, bolAfter_append]
      exact goes_seq.mpr ⟨u₁, u₂, rfl, _, hg₁, hg₂⟩
  | alt r t ihr iht =>
      rcases h with h | h
      · obtain ⟨g', hg'⟩ := @ihr b u v g h
        exact ⟨g', goes_alt.mpr (.inl hg')⟩
      · obtain ⟨g', hg'⟩ := @iht b u v g h
        exact ⟨g', goes_alt.mpr (.inr hg')⟩
  | many p => exact ⟨g, goes_many.mpr ⟨h, rfl, rfl⟩⟩
  | manyLazy p => exact ⟨g, mem_outs_manyLazy.mpr ⟨u, v, rfl, h, rfl⟩, rfl⟩
  | group n r ih =>
      obtain ⟨g', hg'⟩ := @ih b u v g h
      exact ⟨_, goes_group.mpr ⟨_, hg', rfl⟩⟩

theorem spans_seq_char {x : Char} :
    (seq (char x) t).Spans b u v ↔
      ∃ w, u = x :: w ∧ t.Spans (x == '\n') w v := by
  constructor
  · rintro ⟨u₁, u₂, rfl, ⟨y, hy, rfl⟩, h⟩
    obtain rfl : y = x := by simpa using hy
    exact ⟨u₂, rfl, h⟩
  · rintro ⟨w, rfl, h⟩
    exact ⟨[x], w, rfl, ⟨x, by simp, rfl⟩, h⟩

theorem spans_char {x : Char} : (char x).Spans b u v ↔ u = [x] := by
  constructor
  · rintro ⟨y, hy, rfl⟩
    rw [show y = x by simpa using hy]
  · rintro rfl
    exact ⟨x, by simp, rfl⟩

theorem spans_lit : (lit w).Spans b u v ↔ u = w := by
  induction w generalizing b u with
  | nil => rfl
  | cons x w ih =>
      rw [lit, spans_seq_char]
      simp only [ih, exists_eq_right]

theorem spans_seq_lit {x : Text} :
    (seq (lit x) t).Spans b u v ↔
      ∃ w, u = x ++ w ∧ t.Spans (bolAfter b x) w v := by
  constructor
  · rintro ⟨u₁, u₂, rfl, h₁, h₂⟩
    obtain rfl := spans_lit.mp h₁
    exact ⟨u₂, rfl, h₂⟩
  · rintro ⟨w, rfl, h⟩
    exact ⟨x, w, rfl, spans_lit.mpr rfl, h⟩

theorem spans_seq_cls :
    (seq (cls p) t).Spans b u v ↔
      ∃ x w, p x ∧ u = x :: w ∧ t.Spans (x == '\n') w v := by
  constructor
  · rintro ⟨u₁, u₂, rfl, ⟨x, hx, rfl⟩, h⟩
    exact ⟨x, u₂, hx, rfl, h⟩
  · rintro ⟨x, w, hx, rfl, h⟩
    exact ⟨[x], w, rfl, ⟨x, hx, rfl⟩, h⟩

theorem spans_seq_bol :
    (seq bol t).Spans b u v ↔ b ∧ t.Spans b u v := by
  constructor
  · rintro ⟨u₁, u₂, rfl, ⟨hb, rfl⟩, h⟩
    exact ⟨hb, h⟩
  · rintro ⟨hb, h⟩
    exact ⟨[], u, rfl, ⟨hb, rfl⟩, h⟩

theorem spans_plus : (plus p).Spans b u v ↔ u ≠ [] ∧ ∀ x ∈ u, p x := by
  constructor
  · rintro ⟨u₁, u₂, rfl, ⟨x, hx, rfl⟩, h⟩
    exact ⟨by simp, by simpa using ⟨hx, h⟩⟩
  · rintro ⟨hne, hall⟩
    obtain ⟨x, w, rfl⟩ := List.exists_cons_of_ne_nil hne
    exact ⟨[x], w, rfl, ⟨x, hall x (by simp), rfl⟩,
      fun y hy => hall y (by simp [hy])⟩

end Spans

/-! ## Groups -/

/-- No group is in the expression. -/
def ungrouped : Regex → Bool
  | group _ _ => false
  | seq r t => r.ungrouped && t.ungrouped
  | alt r t => r.ungrouped && t.ungrouped
  | _ => true

theorem groups_of_ungrouped {r : Regex} {a c : Place} {u : Text}
    (hr : r.ungrouped) (hc : r.Goes a u c) : c.groups = a.groups := by
  induction r generalizing a u c with
  | empty => rw [(goes_empty.mp hc).2]
  | cls p =>
      obtain ⟨x, -, -, -, hplace⟩ := goes_cls.mp hc
      rw [hplace]
  | bol => rw [(goes_bol.mp hc).2.2]
  | eol => rw [(goes_eol.mp hc).2.2]
  | seq r t ihr iht =>
      obtain ⟨hr, ht⟩ := Bool.and_eq_true _ _ |>.mp hr
      obtain ⟨u₁, u₂, -, b, hb, hc⟩ := goes_seq.mp hc
      exact (iht ht hc).trans (ihr hr hb)
  | alt r t ihr iht =>
      obtain ⟨hr, ht⟩ := Bool.and_eq_true _ _ |>.mp hr
      rcases goes_alt.mp hc with hc | hc
      · exact ihr hr hc
      · exact iht ht hc
  | many p => rw [(goes_many.mp hc).2.2]
  | manyLazy p =>
      obtain ⟨u, v, -, -, rfl⟩ := mem_outs_manyLazy.mp hc.1
      rfl
  | group n r => cases hr

/-! ## Searching -/

section Search

variable {r : Regex} {s : Text} {b : Bool} {m : Match}

/-- The places a match may end in, at the beginning of the text. -/
def outsAt (r : Regex) (b : Bool) (s : Text) : List Place :=
  r.outs ⟨b, s, fun _ => none⟩

theorem matchAt_eq_none : r.matchAt b s = none ↔ r.outsAt b s = [] := by
  simp [matchAt, outsAt]

/-- Something matches if there is a place in the text where it does. -/
theorem searchFrom_eq_none :
    r.searchFrom b s = none ↔
      ∀ u v, s = u ++ v → r.outsAt (bolAfter b u) v = [] := by
  induction s generalizing b with
  | nil =>
      rw [searchFrom, matchAt_eq_none]
      constructor
      · intro h u v huv
        obtain ⟨rfl, rfl⟩ := List.append_eq_nil_iff.mp huv.symm
        exact h
      · intro h
        exact h [] [] rfl
  | cons c s ih =>
      rw [searchFrom]
      constructor
      · intro h u v huv
        split at h
        · cases h
        · rename_i hat
          cases u with
          | nil =>
              obtain rfl : c :: s = v := huv
              exact matchAt_eq_none.mp hat
          | cons d u =>
              obtain ⟨rfl, rfl⟩ := List.cons.inj huv
              rw [bolAfter_cons]
              exact ih.mp (Option.map_eq_none_iff.mp h) u v rfl
      · intro h
        have hat : r.matchAt b (c :: s) = none :=
          matchAt_eq_none.mpr (h [] (c :: s) rfl)
        rw [hat]
        refine Option.map_eq_none_iff.mpr (ih.mpr fun u v huv => ?_)
        rw [← bolAfter_cons b c u]
        exact h (c :: u) v (by rw [huv]; rfl)

theorem search_eq_none :
    r.search s = none ↔
      ∀ u v, s = u ++ v → r.outsAt (bolAfter true u) v = [] :=
  searchFrom_eq_none

/-- A text of one line. -/
def OneLine (s : Text) : Prop := '\n' ∉ s

theorem bolAfter_of_oneLine {u : Text} (hline : OneLine u) :
    bolAfter false u = false := by
  rcases List.eq_nil_or_concat u with rfl | ⟨w, c, rfl⟩
  · rfl
  · have hc : c ≠ '\n' := by
      rintro rfl
      exact hline (by simp)
    simpa [bolAfter] using hc

theorem outsAt_bol_false : (seq bol r).outsAt false s = [] := rfl

/-- An expression that begins with `^` matches a line from its beginning, or
not at all. -/
theorem search_bol (hline : OneLine s) :
    (seq bol r).search s = (seq bol r).matchAt true s := by
  cases s with
  | nil => rfl
  | cons c s =>
      rw [search, searchFrom]
      cases hat : (seq bol r).matchAt true (c :: s) with
      | some m => rfl
      | none =>
          refine Option.map_eq_none_iff.mpr (searchFrom_eq_none.mpr ?_)
          intro u v huv
          have hc : (c == '\n') = false := by
            rw [beq_eq_false_iff_ne]
            rintro rfl
            exact hline (by simp)
          have hu : OneLine u := fun hmem => hline (by simp [huv, hmem])
          rw [hc, bolAfter_of_oneLine hu, outsAt_bol_false]

theorem search_isSome : (r.search s).isSome ↔
    ∃ u w v, s = u ++ (w ++ v) ∧ r.Spans (bolAfter true u) w v := by
  rw [← Option.not_isNone, Bool.not_eq_true', ← Bool.not_eq_true,
    Option.isNone_iff_eq_none, search_eq_none]
  constructor
  · intro h
    push Not at h
    obtain ⟨u, v, hs, hne⟩ := h
    obtain ⟨a, ha⟩ := List.exists_mem_of_ne_nil _ hne
    obtain ⟨w, hw⟩ := exists_goes ha
    exact ⟨u, w, a.rest, hs.trans (congrArg (u ++ ·) hw.2), spans_of_goes hw⟩
  · rintro ⟨u, w, v, hs, hw⟩ h
    obtain ⟨g, hg⟩ := @goes_of_spans _ _ _ _ (fun _ => none) hw
    exact List.ne_nil_of_mem hg.1 (h u (w ++ v) hs)

/-- In a line `$` is its end. -/
theorem spans_eol {u v : Text} (hline : OneLine v) : eol.Spans b u v ↔ u = [] ∧ v = [] := by
  refine and_congr_right' ?_
  cases v with
  | nil => simp
  | cons x s =>
      have hx : x ≠ '\n' := by
        rintro rfl
        exact hline (by simp)
      simp [hx]

theorem OneLine.append {u v : Text} (hu : OneLine u) (hv : OneLine v) :
    OneLine (u ++ v) :=
  fun hmem => (List.mem_append.mp hmem).elim hu hv

theorem OneLine.left {u v : Text} (hline : OneLine (u ++ v)) : OneLine u :=
  fun hmem => hline (List.mem_append_left v hmem)

theorem isDot_of_oneLine (hline : OneLine s) : ∀ c ∈ s, isDot c := by
  intro c hc
  rw [isDot, bne_iff_ne]
  rintro rfl
  exact hline hc

theorem OneLine.right {u v : Text} (hline : OneLine (u ++ v)) : OneLine v :=
  fun hmem => hline (List.mem_append_right u hmem)

theorem spans_to_end {u v : Text} (hline : OneLine (u ++ v)) :
    (seq r eol).Spans b u v ↔ v = [] ∧ r.Spans b u [] := by
  constructor
  · rintro ⟨u₁, u₂, rfl, h, hend⟩
    obtain ⟨rfl, rfl⟩ := (spans_eol hline.right).mp hend
    rw [List.append_nil]
    exact ⟨rfl, h⟩
  · rintro ⟨rfl, h⟩
    exact ⟨u, [], (List.append_nil u).symm, h, rfl, rfl⟩

theorem goes_to_end {a c : Place} {u : Text} (hline : OneLine a.rest)
    (h : (seq r eol).Goes a u c) :
    u = a.rest ∧ ∃ b, r.Goes a u b ∧ c.groups = b.groups := by
  obtain ⟨u₁, u₂, rfl, b, hb, hend⟩ := goes_seq.mp h
  have hrest := hb.2
  rw [hend.2] at hrest
  rw [hrest] at hline
  obtain ⟨rfl, hnil⟩ := (spans_eol hline.right.right).mp (spans_of_goes hend)
  rw [List.append_nil]
  rw [hnil, List.append_nil, List.append_nil] at hrest
  exact ⟨hrest.symm, b, hb, groups_of_ungrouped rfl hend⟩

theorem search_bol_isSome (hline : OneLine s) :
    ((seq bol r).search s).isSome ↔ ∃ w v, s = w ++ v ∧ r.Spans true w v := by
  rw [search_isSome]
  constructor
  · rintro ⟨u, w, v, rfl, h⟩
    obtain ⟨hbol, h⟩ := spans_seq_bol.mp h
    cases u with
    | nil => exact ⟨w, v, rfl, h⟩
    | cons c u =>
        have hc : (c == '\n') = false := by
          rw [beq_eq_false_iff_ne]
          rintro rfl
          exact hline (by simp)
        rw [bolAfter_cons, hc,
          bolAfter_of_oneLine fun hmem => hline (by simp [hmem])] at hbol
        cases hbol
  · rintro ⟨w, v, rfl, h⟩
    exact ⟨[], w, v, rfl, spans_seq_bol.mpr ⟨rfl, h⟩⟩

/-- The match Ruby finds is the first. -/
theorem matchAt_of_head? {a : Place} (ha : (r.outsAt b s).head? = some a) :
    ∃ m, r.matchAt b s = some m ∧ s = m.matched ++ a.rest ∧
      m.after = a.rest ∧ m.groups = a.groups := by
  obtain ⟨u, hu, -⟩ := outs_takes (List.mem_of_mem_head? ha)
  have hs : s = u ++ a.rest := hu
  refine ⟨⟨[], u, a.rest, a.groups⟩, ?_, hs, rfl, rfl⟩
  have htake : s.take (s.length - a.rest.length) = u := by
    rw [hs]
    simp
  rw [matchAt]
  show (r.outsAt b s).head?.map _ = _
  rw [ha, Option.map_some, htake]

end Search

/-! ## Which match comes first -/

section First

variable {r : Regex} {p : Char → Bool} {b : Bool} {g : Nat → Option Text}
  {u v : Text} {n : Nat}

/-- Where only one match is possible it is the first. -/
theorem head?_of_unique {α : Type} {l : List α} {a : α} (ha : a ∈ l)
    (hunique : ∀ c ∈ l, c = a) : l.head? = some a := by
  cases l with
  | nil => cases ha
  | cons c l => rw [hunique c (by simp), List.head?_cons]

theorem head?_flatMap_manyFrom {β : Type} {f : Place → List β} {x : β}
    (hall : ∀ c ∈ u, p c)
    (hearlier : ∀ u₁ u₂, u = u₁ ++ u₂ → u₂ ≠ [] →
      f ⟨bolAfter b u₁, u₂ ++ v, g⟩ = [])
    (hx : (f ⟨bolAfter b u, v, g⟩).head? = some x) :
    ((manyFrom p g b (u ++ v)).flatMap f).head? = some x := by
  induction u generalizing b with
  | nil =>
      cases v with
      | nil =>
          rw [List.nil_append, manyFrom, List.flatMap_cons, List.flatMap_nil,
            List.append_nil]
          exact hx
      | cons c v =>
          rw [List.nil_append, manyFrom, List.flatMap_cons, List.head?_append,
            show (f ⟨b, c :: v, g⟩).head? = some x from hx]
          rfl
  | cons c u ih =>
      have hfirst : f ⟨b, c :: u ++ v, g⟩ = [] :=
        hearlier [] (c :: u) rfl (by simp)
      rw [List.cons_append, manyFrom, if_pos (hall c (by simp)),
        List.flatMap_cons]
      rw [List.cons_append] at hfirst
      rw [hfirst, List.nil_append]
      refine ih (fun d hd => hall d (by simp [hd])) ?_ ?_
      · intro u₁ u₂ hu hne
        rw [← bolAfter_cons b]
        exact hearlier (c :: u₁) u₂ (by rw [hu]; rfl) hne
      · rw [← bolAfter_cons b]
        exact hx

/-- A lazy repetition ends at the first place that lets the rest match. -/
theorem head?_lazy {x : Place} (hne : u ≠ []) (hall : ∀ c ∈ u, p c)
    (hearlier : ∀ u₁ u₂, u = u₁ ++ u₂ → u₁ ≠ [] → u₂ ≠ [] →
      r.outs ⟨bolAfter b u₁, u₂ ++ v, Function.update g n (some u₁)⟩ = [])
    (hx : (r.outs ⟨bolAfter b u, v, Function.update g n (some u)⟩).head? =
      some x) :
    ((seq (group n (plusLazy p)) r).outs ⟨b, u ++ v, g⟩).head? = some x := by
  obtain ⟨c, u, rfl⟩ := List.exists_cons_of_ne_nil hne
  have hlist : (seq (group n (plusLazy p)) r).outs ⟨b, c :: u ++ v, g⟩ =
      (manyFrom p g (c == '\n') (u ++ v)).flatMap fun a =>
        r.outs ⟨a.bol, a.rest, Function.update a.groups n
          (some ((c :: u ++ v).take
            ((c :: u ++ v).length - a.rest.length)))⟩ := by
    simp [outs, plusLazy, hall c (by simp), List.flatMap_map]
  have htake : ∀ u₁ u₂, u = u₁ ++ u₂ →
      (c :: u ++ v).take ((c :: u ++ v).length - (u₂ ++ v).length) = c :: u₁ := by
    rintro u₁ u₂ rfl
    have hlen : (c :: (u₁ ++ u₂) ++ v).length - (u₂ ++ v).length =
        (c :: u₁).length := by
      simp only [List.length_append, List.length_cons]
      omega
    rw [hlen]
    simp
  rw [hlist]
  refine head?_flatMap_manyFrom (fun d hd => hall d (by simp [hd])) ?_ ?_
  · intro u₁ u₂ hu hne₂
    rw [htake u₁ u₂ hu, ← bolAfter_cons b]
    exact hearlier (c :: u₁) u₂ (by rw [hu]; rfl) (by simp) hne₂
  · have hall' : (c :: u ++ v).take ((c :: u ++ v).length - v.length) =
        c :: u := htake u [] (by simp)
    rw [hall', ← bolAfter_cons b]
    exact hx

/-- A line that is read from its beginning by a lazy repetition. -/
theorem search_lazy (hline : OneLine (u ++ v)) (hne : u ≠ [])
    (hall : ∀ c ∈ u, p c)
    (hearlier : ∀ b u₁ u₂ w v', u = u₁ ++ u₂ → u₁ ≠ [] → u₂ ≠ [] →
      u₂ ++ v = w ++ v' → ¬r.Spans b w v')
    (hhere : ∃ w v', v = w ++ v' ∧ r.Spans (bolAfter true u) w v') :
    ∃ m w c, (seq bol (seq (group n (plusLazy p)) r)).search (u ++ v) = some m ∧
      r.Goes ⟨bolAfter true u, v, Function.update (fun _ => none) n (some u)⟩
        w c ∧ m.groups = c.groups := by
  have hnil : ∀ b u₁ u₂ g, u = u₁ ++ u₂ → u₁ ≠ [] → u₂ ≠ [] →
      r.outs ⟨b, u₂ ++ v, g⟩ = [] := by
    intro b u₁ u₂ g hu h₁ h₂
    refine List.eq_nil_iff_forall_not_mem.mpr fun c hc => ?_
    obtain ⟨w, hw⟩ := exists_goes hc
    exact hearlier b u₁ u₂ w c.rest hu h₁ h₂ hw.2 (spans_of_goes hw)
  obtain ⟨x, hx⟩ : ∃ x, (r.outs ⟨bolAfter true u, v,
      Function.update (fun _ => none) n (some u)⟩).head? = some x := by
    obtain ⟨w, v', rfl, hw⟩ := hhere
    obtain ⟨g, hg⟩ := goes_of_spans hw
    rw [← Option.isSome_iff_exists, List.isSome_head?]
    exact List.ne_nil_of_mem hg.1
  obtain ⟨w, hw⟩ := exists_goes (List.mem_of_mem_head? hx)
  have hhead : ((seq bol (seq (group n (plusLazy p)) r)).outsAt true
      (u ++ v)).head? = some x := by
    have hlazy := head?_lazy hne hall
      (fun u₁ u₂ hu h₁ h₂ => hnil _ u₁ u₂ _ hu h₁ h₂) hx
    simpa [outsAt, outs] using hlazy
  obtain ⟨m, hm, -, -, hgroups⟩ := matchAt_of_head? hhead
  rw [← search_bol hline] at hm
  exact ⟨m, w, x, hm, hw, hgroups⟩

end First

/-! ## Greedy repetitions -/

section Greedy

variable {r t : Regex} {p : Char → Bool} {b : Bool} {u v : Text}
  {g : Nat → Option Text} {a c d : Place}

theorem getLast?_manyFrom (hall : ∀ x ∈ u, p x)
    (hend : ∀ x ∈ v.head?, p x = false) :
    (manyFrom p g b (u ++ v)).getLast? = some ⟨bolAfter b u, v, g⟩ := by
  induction u generalizing b with
  | nil =>
      cases v with
      | nil => rfl
      | cons x v =>
          rw [List.nil_append, manyFrom, if_neg (by rw [hend x rfl]; decide)]
          rfl
  | cons x u ih =>
      have htail := ih (b := x == '\n') fun y hy => hall y (List.mem_cons_of_mem _ hy)
      rw [List.cons_append, manyFrom, if_pos (hall x (List.mem_cons_self ..)),
        List.getLast?_cons, htail, bolAfter_cons]
      rfl

/-- A greedy repetition tries the whole run of characters first. -/
theorem head?_plus (hne : u ≠ []) (hall : ∀ x ∈ u, p x)
    (hend : ∀ x ∈ v.head?, p x = false) :
    ((plus p).outs ⟨b, u ++ v, g⟩).head? = some ⟨bolAfter b u, v, g⟩ := by
  obtain ⟨x, u, rfl⟩ := List.exists_cons_of_ne_nil hne
  have hlast := @getLast?_manyFrom p (x == '\n') u v g
    (fun y hy => hall y (List.mem_cons_of_mem _ hy)) hend
  rw [bolAfter_cons, ← hlast]
  simp [plus, outs, hall x (List.mem_cons_self ..)]

theorem head?_seq (hr : (r.outs a).head? = some c)
    (ht : (t.outs c).head? = some d) : ((seq r t).outs a).head? = some d := by
  obtain ⟨l, hl⟩ := List.head?_eq_some_iff.mp hr
  rw [outs, hl, List.flatMap_cons, List.head?_append, ht]
  rfl

theorem head?_lit (w : Text) :
    ((lit w).outs ⟨b, w ++ v, g⟩).head? = some ⟨bolAfter b w, v, g⟩ := by
  refine head?_of_unique (mem_outs_lit.mpr ⟨v, rfl, rfl⟩) fun c hc => ?_
  obtain ⟨v', hv, rfl⟩ := mem_outs_lit.mp hc
  rw [List.append_cancel_left hv]

theorem head?_group {n : Nat}
    (hr : (r.outs ⟨b, u ++ v, g⟩).head? = some ⟨bolAfter b u, v, g⟩) :
    ((group n r).outs ⟨b, u ++ v, g⟩).head? =
      some ⟨bolAfter b u, v, Function.update g n (some u)⟩ := by
  rw [outs, List.head?_map, hr]
  simp

end Greedy

/-! ## Where a match is found -/

section Found

variable {r : Regex} {b : Bool} {s u v : Text} {m : Match}

/-- A match is found at the first place where there is one. -/
theorem first_of_search (hm : r.searchFrom b s = some m) :
    ∃ u v m', s = u ++ v ∧ r.matchAt (bolAfter b u) v = some m' ∧
      m.groups = m'.groups ∧ ∀ u' v', s = u' ++ v' → u'.length < u.length →
        r.matchAt (bolAfter b u') v' = none := by
  induction s generalizing b m with
  | nil => exact ⟨[], [], m, rfl, hm, rfl, fun _ _ _ h => absurd h (Nat.not_lt_zero _)⟩
  | cons c s ih =>
      rw [searchFrom] at hm
      split at hm
      · rename_i m' hat
        obtain rfl := Option.some.inj hm
        exact ⟨[], c :: s, m', rfl, hat, rfl,
          fun _ _ _ h => absurd h (Nat.not_lt_zero _)⟩
      · rename_i hat
        obtain ⟨m', hm', rfl⟩ := Option.map_eq_some_iff.mp hm
        obtain ⟨u, v, m'', rfl, hat', hgroups, hfirst⟩ := ih hm'
        refine ⟨c :: u, v, m'', rfl, by rw [bolAfter_cons]; exact hat', hgroups, ?_⟩
        intro u' v' hs hlt
        cases u' with
        | nil =>
            obtain rfl : c :: (u ++ v) = v' := hs
            exact hat
        | cons d u' =>
            obtain ⟨rfl, htail⟩ := List.cons.inj hs
            rw [bolAfter_cons]
            exact hfirst u' v' htail (Nat.lt_of_succ_lt_succ hlt)

theorem search_of_first (hs : s = u ++ v)
    (hm : r.matchAt (bolAfter b u) v = some m)
    (hfirst : ∀ u' v', s = u' ++ v' → u'.length < u.length →
      r.matchAt (bolAfter b u') v' = none) :
    ∃ m', r.searchFrom b s = some m' ∧ m'.groups = m.groups := by
  cases hsearch : r.searchFrom b s with
  | none =>
      have hnone := searchFrom_eq_none.mp hsearch u v hs
      rw [← matchAt_eq_none, hm] at hnone
      cases hnone
  | some m' =>
      obtain ⟨u', v', m'', hs', hat, hgroups, hfirst'⟩ := first_of_search hsearch
      have hlen : u'.length = u.length := by
        rcases Nat.lt_trichotomy u'.length u.length with hlt | heq | hgt
        · rw [hfirst u' v' hs' hlt] at hat
          cases hat
        · exact heq
        · rw [hfirst' u v hs hgt] at hm
          cases hm
      obtain ⟨rfl, rfl⟩ := List.append_inj (hs'.symm.trans hs) hlen
      rw [hm] at hat
      cases hat
      exact ⟨m', rfl, hgroups⟩

end Found

/-! ## Substitution -/

section Gsub

variable {r : Regex} {f : Match → Text} {s : Text} {b : Bool} {m : Match}

/-- Every match takes something. -/
def Nonempty (r : Regex) : Prop :=
  ∀ b s m, r.matchAt b s = some m → m.matched ≠ []

/-- Whether an expression takes a character at least. -/
def takes : Regex → Bool
  | cls _ => true
  | seq r s => r.takes || s.takes
  | alt r s => r.takes && s.takes
  | group _ r => r.takes
  | _ => false

theorem length_of_takes {a c : Place} (hr : r.takes) (hc : c ∈ r.outs a) :
    c.rest.length < a.rest.length := by
  induction r generalizing a c with
  | cls p =>
      obtain ⟨x, s, hrest, -, rfl⟩ := mem_outs_cls.mp hc
      rw [hrest]
      exact Nat.lt_succ_self _
  | seq r t ihr iht =>
      obtain ⟨a', ha', hc'⟩ := mem_outs_seq.mp hc
      obtain ⟨u, hu, -⟩ := outs_takes ha'
      obtain ⟨v, hv, -⟩ := outs_takes hc'
      have hu' := congrArg List.length hu
      have hv' := congrArg List.length hv
      rw [List.length_append] at hu' hv'
      rcases Bool.or_eq_true _ _ |>.mp hr with h | h
      · have := ihr h ha'
        omega
      · have := iht h hc'
        omega
  | alt r t ihr iht =>
      obtain ⟨hr, ht⟩ := Bool.and_eq_true _ _ |>.mp hr
      rcases mem_outs_alt.mp hc with hc | hc
      · exact ihr hr hc
      · exact iht ht hc
  | group n r ih =>
      obtain ⟨a', ha', u, -, rfl⟩ := mem_outs_group.mp hc
      have hlt := ih hr ha'
      exact hlt
  | empty | bol | eol | many p | manyLazy p => cases hr

theorem matchAt_split (hm : r.matchAt b s = some m) :
    ∃ a, r.Goes ⟨b, s, fun _ => none⟩ m.matched a ∧
      s = m.matched ++ m.after ∧ m.after = a.rest ∧ m.groups = a.groups := by
  obtain ⟨a, ha, -⟩ := Option.map_eq_some_iff.mp hm
  obtain ⟨m', hm', hs, hafter, hgroups⟩ := matchAt_of_head? ha
  obtain rfl : m' = m := Option.some.inj (hm'.symm.trans hm)
  exact ⟨a, ⟨List.mem_of_mem_head? ha, hs⟩, hafter ▸ hs, hafter, hgroups⟩

theorem nonempty_of_takes (hr : r.takes) : r.Nonempty := by
  rintro b s m hm hnil
  obtain ⟨a, ha, hs, hafter, -⟩ := matchAt_split hm
  have hlt : a.rest.length < s.length := length_of_takes hr ha.1
  rw [hs, hnil, hafter] at hlt
  exact absurd hlt (lt_irrefl _)

theorem gsubFrom_skip (u v : Text) :
    r.gsubFrom f u.length b (u ++ v) = r.gsubFrom f 0 (bolAfter b u) v := by
  induction u generalizing b with
  | nil => rfl
  | cons c u ih =>
      rw [List.length_cons, List.cons_append, gsubFrom, ih, bolAfter_cons]

theorem gsubFrom_of_match (hm : r.matchAt b s = some m)
    (hne : m.matched ≠ []) :
    r.gsubFrom f 0 b s =
      f m ++ r.gsubFrom f 0 (bolAfter b m.matched) m.after := by
  obtain ⟨-, -, hs, -⟩ := matchAt_split hm
  obtain ⟨c, u, hu⟩ := List.exists_cons_of_ne_nil hne
  rw [hu, List.cons_append] at hs
  subst hs
  rw [gsubFrom, hm]
  show f m ++ r.gsubFrom f (m.matched.length - 1) (c == '\n') (u ++ m.after) = _
  rw [hu, List.length_cons, Nat.add_sub_cancel, gsubFrom_skip, bolAfter_cons]

theorem gsubFrom_of_none {c : Char} (hm : r.matchAt b (c :: s) = none) :
    r.gsubFrom f 0 b (c :: s) = c :: r.gsubFrom f 0 (c == '\n') s := by
  rw [gsubFrom, hm]

/-- The rule for substitutions: a text is read from the front, a character
where nothing matches and a match where something does. -/
theorem gsubFrom_induction {motive : Bool → Text → Text → Prop}
    (hr : r.Nonempty) (nil : ∀ b, motive b [] [])
    (char : ∀ b c s out, r.matchAt b (c :: s) = none →
      motive (c == '\n') s out → motive b (c :: s) (c :: out))
    (matched : ∀ b s m out, r.matchAt b s = some m →
      s = m.matched ++ m.after →
      motive (bolAfter b m.matched) m.after out → motive b s (f m ++ out))
    (b : Bool) (s : Text) : motive b s (r.gsubFrom f 0 b s) := by
  induction hn : s.length using Nat.strong_induction_on generalizing b s with
  | _ n ih =>
      cases s with
      | nil =>
          rw [show r.gsubFrom f 0 b [] = [] by rw [gsubFrom]]
          exact nil b
      | cons c s =>
          cases hm : r.matchAt b (c :: s) with
          | none =>
              rw [gsubFrom_of_none hm]
              refine char b c s _ hm (ih s.length ?_ _ s rfl)
              rw [← hn, List.length_cons]
              exact Nat.lt_succ_self _
          | some m =>
              have hne := hr b _ m hm
              obtain ⟨-, -, hs, -⟩ := matchAt_split hm
              rw [gsubFrom_of_match hm hne]
              refine matched b _ m _ hm hs (ih m.after.length ?_ _ _ rfl)
              rw [← hn, hs, List.length_append]
              have := List.length_pos_of_ne_nil hne
              omega

/-- Where nothing matches nothing is changed. -/
theorem gsub_of_search_none (hnone : r.search s = none) : r.gsub f s = s := by
  suffices h : ∀ b s, r.searchFrom b s = none → r.gsubFrom f 0 b s = s from
    h true s hnone
  intro b s hnone
  induction s generalizing b with
  | nil => rw [gsubFrom]
  | cons c s ih =>
      rw [searchFrom] at hnone
      split at hnone
      · cases hnone
      · rename_i hat
        rw [gsubFrom_of_none hat, ih _ (Option.map_eq_none_iff.mp hnone)]

/-- The first character stays, or a match at the beginning is replaced. -/
theorem gsub_cons (hr : r.Nonempty) (f : Match → Text) (c : Char) (s : Text) :
    (∃ t, r.gsub f (c :: s) = c :: t) ∨
      ∃ m t, r.matchAt true (c :: s) = some m ∧
        r.gsub f (c :: s) = f m ++ t := by
  cases hm : r.matchAt true (c :: s) with
  | none => exact .inl ⟨_, gsubFrom_of_none hm⟩
  | some m => exact .inr ⟨m, _, rfl, gsubFrom_of_match hm (hr _ _ m hm)⟩

/-- What holds of the characters of a text and of what is put into it holds
of the characters of the result. -/
theorem gsub_forall {P : Char → Prop} (hr : r.Nonempty) (hs : ∀ c ∈ s, P c)
    (hf : ∀ b t m, r.matchAt b t = some m → (∀ c ∈ t, P c) →
      ∀ c ∈ f m, P c) : ∀ c ∈ r.gsub f s, P c := by
  refine @gsubFrom_induction r f
    (fun _ s out => (∀ c ∈ s, P c) → ∀ c ∈ out, P c)
    hr ?_ ?_ ?_ true s hs
  · intro _ h
    exact h
  · intro _ c s out _ ih hs d hd
    rcases List.mem_cons.mp hd with rfl | hd
    · exact hs d (by simp)
    · exact ih (fun e he => hs e (by simp [he])) d hd
  · intro b s m out hm hsplit ih hs d hd
    rcases List.mem_append.mp hd with hd | hd
    · exact hf b s m hm hs d hd
    · exact ih (fun e he => hs e (by rw [hsplit]; simp [he])) d hd

/-- Such a character is in the result if it is in everything put in, and in
the text. -/
theorem gsub_exists {P : Char → Prop} (hr : r.Nonempty) (hs : ∃ c ∈ s, P c)
    (hf : ∀ b t m, r.matchAt b t = some m → ∃ c ∈ f m, P c) :
    ∃ c ∈ r.gsub f s, P c := by
  refine @gsubFrom_induction r f
    (fun _ s out => (∃ c ∈ s, P c) → ∃ c ∈ out, P c)
    hr ?_ ?_ ?_ true s hs
  · intro _ h
    exact h
  · rintro _ c s out _ ih ⟨d, hd, hP⟩
    rcases List.mem_cons.mp hd with rfl | hd
    · exact ⟨d, by simp, hP⟩
    · obtain ⟨e, he, hP⟩ := ih ⟨d, hd, hP⟩
      exact ⟨e, by simp [he], hP⟩
  · intro b s m out hm _ _ _
    obtain ⟨d, hd, hP⟩ := hf b s m hm
    exact ⟨d, by simp [hd], hP⟩

/-- A character that is in what is put in as often as in what is taken out
is in the result as often as before. -/
theorem count_gsub {c : Char} (hr : r.Nonempty)
    (hf : ∀ b t m, r.matchAt b t = some m →
      (f m).count c = m.matched.count c) :
    (r.gsub f s).count c = s.count c := by
  refine @gsubFrom_induction r f
    (fun _ s out => out.count c = s.count c) hr ?_ ?_ ?_ true s
  · intro _
    rfl
  · intro _ d s out _ ih
    rw [List.count_cons, List.count_cons, ih]
  · intro b s m out hm hsplit ih
    rw [List.count_append, hf b s m hm, ih, ← List.count_append, ← hsplit]

/-- The last character stays if a match at the end leaves it; `P` is what is
known of it. -/
theorem getLast?_gsub {P : Char → Prop} (hr : r.Nonempty)
    (hs : ∀ c ∈ s.getLast?, P c)
    (hf : ∀ b t m, r.matchAt b t = some m → m.after = [] →
      (∀ c ∈ t.getLast?, P c) → (f m).getLast? = t.getLast?) :
    (r.gsub f s).getLast? = s.getLast? := by
  refine @gsubFrom_induction r f
    (fun _ s out => (∀ c ∈ s.getLast?, P c) →
      out.getLast? = s.getLast?) hr ?_ ?_ ?_ true s hs
  · intro _ _
    rfl
  · intro _ c s out _ ih hs
    have hlast : out.getLast? = s.getLast? := by
      refine ih fun d hd => hs d ?_
      rw [List.getLast?_cons, hd]
      rfl
    rw [List.getLast?_cons, List.getLast?_cons, hlast]
  · intro b t m out hm hsplit ih hs
    have hlast : out.getLast? = m.after.getLast? := by
      refine ih fun d hd => hs d ?_
      rw [hsplit, List.getLast?_append, hd]
      rfl
    rw [List.getLast?_append, hlast]
    cases hafter : m.after.getLast? with
    | some d =>
        rw [hsplit, List.getLast?_append, hafter]
        rfl
    | none =>
        have hnil := List.getLast?_eq_none_iff.mp hafter
        rw [Option.none_or]
        exact hf b t m hm hnil hs

end Gsub

/-! ## What groups note -/

/-- What a group notes was in the text. -/
theorem outs_groups {r : Regex} {a c : Place} (hc : c ∈ r.outs a) {n : Nat}
    {u : Text} (hu : c.groups n = some u) :
    a.groups n = some u ∨ u <:+: a.rest := by
  induction r generalizing a c with
  | empty =>
      obtain rfl := mem_outs_empty.mp hc
      exact .inl hu
  | cls p =>
      obtain ⟨x, s, -, -, rfl⟩ := mem_outs_cls.mp hc
      exact .inl hu
  | bol =>
      obtain ⟨-, rfl⟩ := mem_outs_bol.mp hc
      exact .inl hu
  | eol =>
      obtain ⟨-, rfl⟩ := mem_outs_eol.mp hc
      exact .inl hu
  | seq r t ihr iht =>
      obtain ⟨b, hb, hc⟩ := mem_outs_seq.mp hc
      obtain ⟨w, hw, -⟩ := outs_takes hb
      rcases iht hc hu with hb' | hwithin
      · exact ihr hb hb'
      · exact .inr (hwithin.trans (hw ▸ (List.suffix_append w b.rest).isInfix))
  | alt r t ihr iht =>
      rcases mem_outs_alt.mp hc with hc | hc
      · exact ihr hc hu
      · exact iht hc hu
  | many p =>
      obtain ⟨u, v, -, -, rfl⟩ := mem_outs_many.mp hc
      exact .inl hu
  | manyLazy p =>
      obtain ⟨u, v, -, -, rfl⟩ := mem_outs_manyLazy.mp hc
      exact .inl hu
  | group k r ih =>
      obtain ⟨b, hb, w, hw, rfl⟩ := mem_outs_group.mp hc
      by_cases hk : n = k
      · subst hk
        obtain rfl : w = u := by simpa using hu
        exact .inr (hw ▸ (List.prefix_append w b.rest).isInfix)
      · have hu' : Function.update b.groups k (some w) n = some u := hu
        rw [Function.update_of_ne hk] at hu'
        exact ih hb hu'

theorem matchAt_text_within {r : Regex} {b : Bool} {s : Text} {m : Match}
    (hm : r.matchAt b s = some m) (n : Nat) : m.text n <:+: s := by
  obtain ⟨a, ha, -, -, hgroups⟩ := matchAt_split hm
  rw [Match.text, hgroups]
  cases hu : a.groups n with
  | none => exact List.nil_infix
  | some u => exact (outs_groups ha.1 hu).resolve_left (by simp)

/-- A match that is found is one at some place of the text. -/
theorem matchAt_of_search {r : Regex} {s : Text} {m : Match}
    (hm : r.search s = some m) :
    ∃ u v m', s = u ++ v ∧ r.matchAt (bolAfter true u) v = some m' ∧
      m.groups = m'.groups := by
  obtain ⟨u, v, m', hs, hat, hgroups, -⟩ := first_of_search hm
  exact ⟨u, v, m', hs, hat, hgroups⟩

theorem search_goes {r : Regex} {s : Text} {m : Match}
    (hm : r.search s = some m) :
    ∃ b u v w a, s = u ++ v ∧ r.Goes ⟨b, v, fun _ => none⟩ w a ∧
      m.groups = a.groups := by
  obtain ⟨u, v, m', hs, hat, hgroups⟩ := matchAt_of_search hm
  obtain ⟨a, ha, -, -, hgroups'⟩ := matchAt_split hat
  exact ⟨_, u, v, _, a, hs, ha, hgroups.trans hgroups'⟩

theorem search_text_within {r : Regex} {s : Text} {m : Match}
    (hm : r.search s = some m) (n : Nat) : m.text n <:+: s := by
  obtain ⟨u, v, m', rfl, hat, hgroups⟩ := matchAt_of_search hm
  rw [Match.text, hgroups]
  exact (matchAt_text_within hat n).trans (List.suffix_append u v).isInfix

end Regex

end Ruby
