import Libc6Shim.DeclPatterns

/-!
# The forms of a declaration

The grammar that `parse_prototype` is for, as data: a parameter is a named
plain type, a type without a name, an array, a pointer to a function, either of
these two without a name and without a blank, `void` or the ellipsis (`Param`),
each with the blanks it is written with. `Param.Ok` is what makes its text one
that is read so, and `parseDecl_text` that it is. The word `restrict` behind a
pointer is read as a part of the type after one blank, and as a name after none
or several (`ReadUnnamed`).

The declarations read tell which form they are of (`Decl.form`): blanks at
the end of an element type or of a result are none of it.
-/

namespace Libc6Shim

open Ruby Regex

/-! ## The grammar -/

inductive Param where
  | plain (type gap name : Text)
  | unnamed (type : Text)
  | array (elem gap name size : Text)
  | funPtr (result gap name blanks params : Text)
  | loneArray (elem size : Text)
  | loneFunPtr (result params : Text)
  | void
  | ellipsis

/-- A pointer, one blank and `restrict`: a type without a name. -/
def ReadUnnamed (type gap name : Text) : Prop :=
  name = "restrict".toList ∧ type.getLast? = some '*' ∧
    ∃ c, isSpace c ∧ gap = [c]

/-- A type whose name behind `gap` is not read as a part of it. -/
structure Separated (type gap : Text) : Prop where
  blanks : Blanks gap
  apart : gap ≠ [] ∨ type.getLast? = some '*' ∧ ∃ c ∈ type, isSpace c

namespace Param

def text : Param → Text
  | plain t g n => t ++ g ++ n
  | unnamed t => t
  | array e g n sz => e ++ g ++ (n ++ brackets sz)
  | funPtr r g n ws q => pointerText (r ++ g) '*' n ws q
  | loneArray e sz => e ++ brackets sz
  | loneFunPtr r q => pointerText r '*' [] [] q
  | void => "void".toList
  | ellipsis => "...".toList

def Ok : Param → Prop
  | plain t g n =>
      TypeText t ∧ Separated t g ∧ WordText n ∧ ¬ReadUnnamed t g n
  | unnamed t => TypeText t ∧ (t.getLast? = some '*' ∨
      (∃ u c, isSpace c ∧ t = u ++ '*' :: c :: "restrict".toList) ∨
      (∀ c ∈ t, isSpace c = false) ∧ t ≠ "void".toList)
  | array e g n sz => TypeText e ∧ Separated e g ∧ WordText n ∧ IsSize sz
  | funPtr r g n ws q => TypeText r ∧ Blanks g ∧ WordText n ∧ Blanks ws ∧
      ParamsText q ∧ ∃ c ∈ r ++ g ++ ws ++ q, isSpace c
  | loneArray e sz => TypeText e ∧ IsSize sz ∧ ∀ c ∈ e, isSpace c = false
  | loneFunPtr r q => TypeText r ∧ ParamsText q ∧
      ∀ c ∈ r ++ q, isSpace c = false
  | void => True
  | ellipsis => True

/-- What is read for the parameter with index `i`. -/
def decl (i : Nat) : Param → Decl
  | plain t _ n => ⟨some n, some t⟩
  | unnamed t => ⟨some (argName i), some t⟩
  | array e g n sz => ⟨some n, some (e ++ g ++ brackets sz)⟩
  | funPtr r g n _ q => ⟨some n, some (pointerText (r ++ g) '*' [] [] q)⟩
  | loneArray e sz => ⟨some (argName i), some (e ++ brackets sz)⟩
  | loneFunPtr r q => ⟨some (argName i), some (pointerText r '*' [] [] q)⟩
  | void => ⟨none, some "void".toList⟩
  | ellipsis => ⟨some "...".toList, none⟩

end Param

/-! ## Texts of the grammar -/

section Texts

variable {t g n u u' n' : Text}

theorem isSpace_of_isBlank {c : Char} (hc : isBlank c) : isSpace c :=
  (Bool.and_eq_true _ _ |>.mp hc).1

theorem Blanks.oneLine (hg : Blanks g) : OneLine g :=
  fun hmem => absurd (hg _ hmem) (by decide)

theorem TypeText.oneLine (ht : TypeText t) : OneLine t :=
  fun hmem => absurd (ht.chars _ hmem) (by decide)

theorem WordText.oneLine (hn : WordText n) : OneLine n :=
  fun hmem => absurd (hn.chars _ hmem) (by decide)

theorem TypeText.ne_nil (ht : TypeText t) : t ≠ [] := by
  obtain ⟨c, u, rfl, -⟩ := ht.begins
  simp

theorem not_word_of_isSpace {c : Char} (hc : isSpace c) : isWord c = false := by
  simp only [isSpace, Bool.or_eq_true, beq_iff_eq] at hc
  rcases hc with ((((rfl | rfl) | rfl) | rfl) | rfl) | rfl <;> decide

theorem Separated.blank (h : Separated t g) : ∃ c ∈ t ++ g, isSpace c := by
  rcases h.apart with hne | ⟨-, c, hc, hspace⟩
  · obtain ⟨c, hc⟩ := List.exists_mem_of_ne_nil g hne
    exact ⟨c, List.mem_append_right t hc, isSpace_of_isBlank (h.blanks c hc)⟩
  · exact ⟨c, List.mem_append_left g hc, hspace⟩

theorem Separated.endsApart (h : Separated t g) : EndsApart (t ++ g) := by
  rcases List.eq_nil_or_concat' g with rfl | ⟨g', c, rfl⟩
  · obtain ⟨hlast, -⟩ := h.apart.resolve_left (by simp)
    rw [List.append_nil]
    exact endsApart_of_getLast? hlast rfl
  · exact ⟨c, t ++ g', by rw [List.append_assoc],
      not_word_of_isSpace (isSpace_of_isBlank (h.blanks c (by simp)))⟩

theorem EndsApart.eq_nil_of_word {a : Text} (hu : EndsApart (u ++ a))
    (ha : ∀ c ∈ a, isWord c) : a = [] := by
  by_contra hne
  exact not_endsApart_of_word ha (hu.append_right hne)

/-- The word a text ends with. -/
theorem word_unique (hu : EndsApart u) (hu' : EndsApart u')
    (hn : ∀ c ∈ n, isWord c) (hn' : ∀ c ∈ n', isWord c)
    (h : u ++ n = u' ++ n') : n = n' := by
  rcases List.append_eq_append_iff.mp h with ⟨a, rfl, rfl⟩ | ⟨a, rfl, rfl⟩
  · rw [hu'.eq_nil_of_word fun c hc => hn c (by simp [hc])]
    rfl
  · rw [hu.eq_nil_of_word fun c hc => hn' c (by simp [hc])]
    rfl

theorem restrict_word : WordText "restrict".toList :=
  ⟨by decide +kernel, List.all_eq_true.mp (by decide +kernel)⟩

/-- A named type that ends in `restrict` has it for a name, and is not read as
a type without one. -/
theorem not_restrict_of_named (ht : TypeText t) (hg : Separated t g)
    (hn : WordText n) (hno : ¬ReadUnnamed t g n) (hline : OneLine (t ++ g ++ n)) :
    ¬(restrictRegex.search (t ++ g ++ n)).isSome := by
  rw [restrictRegex_search hline]
  rintro ⟨u, c, hc, heq⟩
  have hcut : t ++ g ++ n = (u ++ ['*', c]) ++ "restrict".toList := by
    simp [heq]
  have hname : n = "restrict".toList := word_unique hg.endsApart
    ⟨c, u ++ ['*'], by simp, not_word_of_isSpace hc⟩ hn.chars
    restrict_word.chars hcut
  rw [hname] at hcut
  have htype : t ++ g = u ++ ['*', c] := List.append_cancel_right hcut
  rcases List.eq_nil_or_concat' g with rfl | ⟨g', d, rfl⟩
  · -- a type does not end in a blank
    obtain ⟨d, hd, hbare⟩ := endsBare_iff.mp ht.ends
    rw [List.append_nil] at htype
    rw [htype] at hd
    have hcd : c = d := by simpa using hd
    rw [← hcd, hc] at hbare
    cases hbare
  · have hsplit : (t ++ g') ++ [d] = (u ++ ['*']) ++ [c] := by
      simpa using htype
    obtain ⟨hfront, hlast⟩ := List.append_inj' hsplit rfl
    obtain rfl : d = c := by simpa using hlast
    rcases List.eq_nil_or_concat' g' with rfl | ⟨g'', d', rfl⟩
    · refine hno ⟨hname, List.getLast?_eq_some_iff.mpr ⟨u, ?_⟩, d, hc, rfl⟩
      simpa using hfront
    · rw [← List.append_assoc] at hfront
      obtain ⟨-, hstar⟩ := List.append_inj' hfront rfl
      have hblank := hg.blanks d' (by simp)
      obtain rfl : d' = '*' := by simpa using hstar
      exact absurd hblank (by decide)

theorem not_restrict_of_getLast? (hline : OneLine u)
    (hlast : u.getLast? ≠ some 't') : ¬(restrictRegex.search u).isSome := by
  rw [restrictRegex_search hline]
  rintro ⟨t, c, -, rfl⟩
  apply hlast
  rw [List.getLast?_append]
  rfl

theorem not_pointer_of_getLast? (hline : OneLine u)
    (hlast : u.getLast? ≠ some '*') : ¬(pointerRegex.search u).isSome := by
  rw [pointerRegex_search hline]
  rintro ⟨t, rfl⟩
  exact hlast List.getLast?_concat

theorem WordText.getLast? (hn : WordText n) : ∃ c, n.getLast? = some c ∧ isWord c :=
  ⟨_, List.getLast?_eq_some_getLast hn.ne_nil, hn.chars _ (List.getLast_mem _)⟩

end Texts

/-! ## Reading a declaration -/

section Reading

variable {proto s : Text} {i : Nat} {m : Match}

/-- A declaration with a blank that is not one of a pointer without a name. -/
structure Composite (s : Text) : Prop where
  oneLine : OneLine s
  blank : ∃ c ∈ s, isSpace c
  no_pointer : ¬((pointerRegex.search s).isSome ∨ (restrictRegex.search s).isSome)

theorem Composite.ne_bare {w : Text} (h : Composite s)
    (hw : w.all (!isSpace ·)) : s ≠ w := by
  rintro rfl
  obtain ⟨c, hc, hspace⟩ := h.blank
  have := List.all_eq_true.mp hw c hc
  simp [hspace] at this

theorem Composite.not_lone (h : Composite s) :
    ¬(loneRegex.search s).isSome := by
  rw [loneRegex_search h.oneLine]
  rintro ⟨-, hbare⟩
  obtain ⟨c, hc, hspace⟩ := h.blank
  rw [hbare c hc] at hspace
  cases hspace

theorem Composite.ne_void (h : Composite s) : s ≠ "void".toList :=
  h.ne_bare (by decide +kernel)

theorem Composite.ne_ellipsis (h : Composite s) : s ≠ "...".toList :=
  h.ne_bare (by decide +kernel)

theorem Composite.parse_functionPointer {r n q : Text} (h : Composite s)
    (hm : functionPointerDecl.search s = some m) (h₁ : m.groups 1 = some r)
    (h₂ : m.groups 2 = some n) (h₃ : m.groups 3 = some q) :
    parseDecl proto s i = .ok ⟨some n, some (r ++ "(*)".toList ++ q)⟩ := by
  rw [parseDecl, if_neg h.no_pointer, if_neg h.ne_void, if_neg h.ne_ellipsis,
    if_neg h.not_lone, hm]
  simp only [h₁, h₂, h₃, unlessNil]
  rfl

theorem Composite.parse_named {t n : Text} (h : Composite s)
    (hnone : functionPointerDecl.search s = none)
    (hm : namedRegex.search s = some m) (h₁ : m.groups 1 = some t)
    (h₂ : m.groups 2 = some n) :
    parseDecl proto s i = .ok ⟨some n, some (strip t)⟩ := by
  rw [parseDecl, if_neg h.no_pointer, if_neg h.ne_void, if_neg h.ne_ellipsis,
    if_neg h.not_lone, hnone, hm]
  simp only [h₁, h₂, unlessNil]
  rfl

theorem Composite.parse_array {t n b : Text} (h : Composite s)
    (hnone : functionPointerDecl.search s = none)
    (hnone' : namedRegex.search s = none)
    (hm : arrayRegex.search s = some m) (h₁ : m.groups 1 = some t)
    (h₂ : m.groups 2 = some n) (h₃ : m.groups 3 = some b) :
    parseDecl proto s i = .ok ⟨some n, some (t ++ b)⟩ := by
  rw [parseDecl, if_neg h.no_pointer, if_neg h.ne_void, if_neg h.ne_ellipsis,
    if_neg h.not_lone, hnone, hnone', hm]
  simp only [h₁, h₂, h₃, unlessNil]
  rfl

end Reading

/-! ## The declarations of the grammar -/

section Grammar

variable {proto t g n ws q r e sz s : Text} {i : Nat} {p : Param}

theorem strip_of_ends (hfirst : BeginsBare s) (hlast : EndsBare s)
    (hnul : '\x00' ∉ s) (hg : ∀ c ∈ g, isSpace c) : strip (s ++ g) = s := by
  have hne : ∀ c ∈ s, c ≠ '\x00' := by
    rintro c hc rfl
    exact hnul hc
  refine @strip_append [] s g nofun hg ?_ ?_
  · obtain ⟨c, u, rfl, hc⟩ := hfirst
    rintro d hd
    obtain rfl : c = d := Option.some.inj hd
    exact ⟨hc, hne c (by simp)⟩
  · obtain ⟨c, u, rfl, hc⟩ := hlast
    rintro d hd
    rw [List.getLast?_concat] at hd
    obtain rfl : c = d := Option.some.inj hd
    exact ⟨hc, hne c (by simp)⟩

theorem strip_type (ht : TypeText t) (hg : ∀ c ∈ g, isSpace c) :
    strip (t ++ g) = t :=
  strip_of_ends ht.begins ht.ends
    (fun hmem => absurd (ht.chars _ hmem) (by decide)) hg

theorem TypeText.not_mem {c : Char} (ht : TypeText t)
    (hc : isTypeChar c = false) : c ∉ t := by
  intro hmem
  rw [ht.chars c hmem] at hc
  cases hc

theorem Blanks.not_mem {c : Char} (hg : Blanks g) (hc : isBlank c = false) :
    c ∉ g := by
  intro hmem
  rw [hg c hmem] at hc
  cases hc

theorem WordText.not_mem {c : Char} (hn : WordText n) (hc : isWord c = false) :
    c ∉ n := by
  intro hmem
  rw [hn.chars c hmem] at hc
  cases hc

theorem IsSize.not_mem {c : Char} (hsz : IsSize sz) (hc : isWord c = false) :
    c ∉ sz := by
  rintro hmem
  rcases hsz with hsz | rfl
  · have hdigit : isWord c := by
      simp [isWord, Char.isAlphanum, show c.isDigit from hsz c hmem]
    rw [hdigit] at hc
    cases hc
  · have hword := List.all_eq_true.mp
      (show "restrict".toList.all isWord by decide +kernel) c hmem
    rw [hword] at hc
    cases hc

theorem IsSize.oneLine (hsz : IsSize sz) : OneLine (brackets sz) := by
  intro hmem
  simp [brackets, hsz.not_mem (show isWord '\n' = false from rfl)] at hmem

theorem oneLine_pointerText (ht : OneLine t) (hn : OneLine n) (hws : Blanks ws)
    (hq : ParamsText q) : OneLine (pointerText t '*' n ws q) := by
  intro hmem
  simp only [pointerText, List.mem_append, List.mem_cons] at hmem
  rcases hmem with h | h | h | h | h | h | h
  · exact ht h
  · exact absurd h (by decide)
  · exact absurd h (by decide)
  · exact hn h
  · exact absurd h (by decide)
  · exact hws.oneLine h
  · exact oneLine_parens hq h

theorem ParamsText.parts (hq : ParamsText q) (hn : ∀ c ∈ n, isWord c)
    (hws : Blanks ws) : PointerParts '*' n ws q :=
  ⟨rfl, hn, fun c hc => isSpace_of_isBlank (hws c hc), hq.ne_nil, hq.no_paren.2⟩

theorem getLast?_pointerText {c : Char} :
    (pointerText t c n ws q).getLast? = some ')' := by
  refine List.getLast?_eq_some_iff.mpr
    ⟨t ++ '(' :: c :: (n ++ ')' :: (ws ++ '(' :: q)), ?_⟩
  simp [pointerText, parens]

theorem parseDecl_plain (ht : TypeText t) (hg : Separated t g)
    (hn : WordText n) (hno : ¬ReadUnnamed t g n) :
    parseDecl proto (t ++ g ++ n) i = .ok ⟨some n, some t⟩ := by
  have hline : OneLine (t ++ g ++ n) :=
    (ht.oneLine.append hg.blanks.oneLine).append hn.oneLine
  obtain ⟨c, hlast, hc⟩ := hn.getLast?
  have hcomp : Composite (t ++ g ++ n) := by
    refine ⟨hline, ?_, not_or.mpr ⟨not_pointer_of_getLast? hline ?_,
      not_restrict_of_named ht hg hn hno hline⟩⟩
    · obtain ⟨d, hd, hspace⟩ := hg.blank
      exact ⟨d, List.mem_append_left n hd, hspace⟩
    · rw [List.getLast?_append, hlast]
      rintro heq
      obtain rfl : c = '*' := Option.some.inj heq
      exact absurd hc (by decide)
  have hcount : (t ++ g ++ n).count '(' = 0 := by
    rw [List.count_eq_zero]
    simp [ht.not_mem (show isTypeChar '(' = false from rfl),
      hg.blanks.not_mem (show isBlank '(' = false from rfl),
      hn.not_mem (show isWord '(' = false from rfl)]
  obtain ⟨m, hm, h₁, h₂⟩ := namedRegex_search hline hg.endsApart hn
  rw [hcomp.parse_named (functionPointerDecl_none hline (by omega)) hm h₁ h₂,
    strip_type ht fun c hc => isSpace_of_isBlank (hg.blanks c hc)]

theorem parseDecl_array (he : TypeText e) (hg : Separated e g) (hn : WordText n)
    (hsz : IsSize sz) : parseDecl proto (e ++ g ++ (n ++ brackets sz)) i =
      .ok ⟨some n, some (e ++ g ++ brackets sz)⟩ := by
  have hline : OneLine (e ++ g ++ (n ++ brackets sz)) :=
    (he.oneLine.append hg.blanks.oneLine).append
      (hn.oneLine.append hsz.oneLine)
  have hlast : (e ++ g ++ (n ++ brackets sz)).getLast? = some ']' := by
    simp [getLast?_brackets]
  have hcomp : Composite (e ++ g ++ (n ++ brackets sz)) := by
    refine ⟨hline, ?_, not_or.mpr ⟨not_pointer_of_getLast? hline
      (by rw [hlast]; decide),
      not_restrict_of_getLast? hline (by rw [hlast]; decide)⟩⟩
    obtain ⟨d, hd, hspace⟩ := hg.blank
    exact ⟨d, List.mem_append_left _ hd, hspace⟩
  have hcount : (e ++ g ++ (n ++ brackets sz)).count '(' = 0 := by
    rw [List.count_eq_zero]
    simp [he.not_mem (show isTypeChar '(' = false from rfl),
      hg.blanks.not_mem (show isBlank '(' = false from rfl),
      hn.not_mem (show isWord '(' = false from rfl), brackets,
      hsz.not_mem (show isWord '(' = false from rfl)]
  have hopen : '[' ∉ e ++ g := by
    simp [he.not_mem (show isTypeChar '[' = false from rfl),
      hg.blanks.not_mem (show isBlank '[' = false from rfl)]
  obtain ⟨m, hm, h₁, h₂, h₃⟩ :=
    arrayRegex_search hline hg.endsApart hopen hn hsz
  exact hcomp.parse_array (functionPointerDecl_none hline (by omega))
    (namedRegex_none hline (endsApart_of_getLast? hlast rfl)) hm h₁ h₂ h₃

theorem parseDecl_functionPointer (hr : OneLine r) (hne : r ≠ [])
    (hopen : '(' ∉ r) (hn : WordText n) (hws : Blanks ws) (hq : ParamsText q)
    (hblank : ∃ c ∈ r ++ ws ++ q, isSpace c) :
    parseDecl proto (pointerText r '*' n ws q) i =
      .ok ⟨some n, some (pointerText r '*' [] [] q)⟩ := by
  have hline := oneLine_pointerText hr hn.oneLine hws hq
  have hcomp : Composite (pointerText r '*' n ws q) := by
    refine ⟨hline, ?_, not_or.mpr ⟨?_, ?_⟩⟩
    · obtain ⟨d, hd, hspace⟩ := hblank
      refine ⟨d, ?_, hspace⟩
      simp only [List.mem_append] at hd
      simp only [pointerText, parens, List.mem_append, List.mem_cons]
      tauto
    · exact not_pointer_of_getLast? hline (by simp [getLast?_pointerText])
    · exact not_restrict_of_getLast? hline (by simp [getLast?_pointerText])
  obtain ⟨m, hm, h₁, h₂, h₃⟩ := functionPointerDecl_search hline
    (hq.parts hn.chars hws) hn.ne_nil hne hopen hq.no_paren.1
  rw [hcomp.parse_functionPointer hm h₁ h₂ h₃]
  simp [pointerText]

theorem parseDecl_pointer (hs : (pointerRegex.search s).isSome ∨
    (restrictRegex.search s).isSome) :
    parseDecl proto s i = .ok ⟨some (argName i), some s⟩ := by
  rw [parseDecl, if_pos hs]

theorem parseDecl_lone (hline : OneLine s) (hne : s ≠ [])
    (hs : ∀ c ∈ s, isSpace c = false) (hvoid : s ≠ "void".toList)
    (hellipsis : s ≠ "...".toList) :
    parseDecl proto s i = .ok ⟨some (argName i), some s⟩ := by
  by_cases hp : (pointerRegex.search s).isSome ∨ (restrictRegex.search s).isSome
  · exact parseDecl_pointer hp
  · rw [parseDecl, if_neg hp, if_neg hvoid, if_neg hellipsis,
      if_pos ((loneRegex_search hline).mpr ⟨hne, hs⟩)]

theorem parseDecl_unnamed (h : (Param.unnamed t).Ok) :
    parseDecl proto t i = .ok ⟨some (argName i), some t⟩ := by
  obtain ⟨ht, hlast | ⟨u, c, hc, heq⟩ | ⟨hbare, hvoid⟩⟩ := h
  · exact parseDecl_pointer (.inl ((pointerRegex_search ht.oneLine).mpr
      (List.getLast?_eq_some_iff.mp hlast)))
  · exact parseDecl_pointer (.inr ((restrictRegex_search ht.oneLine).mpr
      ⟨u, c, hc, heq⟩))
  · refine parseDecl_lone ht.oneLine ht.ne_nil hbare hvoid ?_
    rintro rfl
    exact absurd (ht.chars '.' (by decide +kernel)) (by decide)

theorem parseDecl_loneArray (h : (Param.loneArray e sz).Ok) :
    parseDecl proto (e ++ brackets sz) i =
      .ok ⟨some (argName i), some (e ++ brackets sz)⟩ := by
  obtain ⟨he, hsz, hbare⟩ := h
  have hmem : '[' ∈ e ++ brackets sz := by simp [brackets]
  refine parseDecl_lone (he.oneLine.append hsz.oneLine) (by simp [he.ne_nil]) ?_
    (fun heq => ?_) fun heq => ?_
  · intro c hc
    simp only [brackets, List.cons_append, List.mem_append, List.mem_cons,
      List.not_mem_nil, or_false] at hc
    rcases hc with hc | rfl | hc | rfl
    · exact hbare c hc
    · rfl
    · by_contra hspace
      exact hsz.not_mem (not_word_of_isSpace (by simpa using hspace)) hc
    · rfl
  · rw [heq] at hmem
    exact absurd hmem (by decide +kernel)
  · rw [heq] at hmem
    exact absurd hmem (by decide +kernel)

theorem parseDecl_loneFunPtr (h : (Param.loneFunPtr r q).Ok) :
    parseDecl proto (pointerText r '*' [] [] q) i =
      .ok ⟨some (argName i), some (pointerText r '*' [] [] q)⟩ := by
  obtain ⟨hr, hq, hbare⟩ := h
  have hmem : '(' ∈ pointerText r '*' [] [] q := by simp [pointerText]
  have hline := oneLine_pointerText hr.oneLine List.not_mem_nil
    (List.forall_mem_nil _) hq
  refine parseDecl_lone hline (List.ne_nil_of_mem hmem) ?_ (fun heq => ?_) fun heq => ?_
  · intro c hc
    simp only [pointerText, parens, List.nil_append, List.cons_append,
      List.mem_append, List.mem_cons, List.not_mem_nil, or_false] at hc
    rcases hc with hc | rfl | rfl | rfl | rfl | hc | rfl
    · exact hbare c (List.mem_append_left q hc)
    · rfl
    · rfl
    · rfl
    · rfl
    · exact hbare c (List.mem_append_right r hc)
    · rfl
  · rw [heq] at hmem
    exact absurd hmem (by decide +kernel)
  · rw [heq] at hmem
    exact absurd hmem (by decide +kernel)

theorem parseDecl_void :
    parseDecl proto "void".toList i = .ok ⟨none, some "void".toList⟩ := by
  have hline : OneLine "void".toList := by
    unfold OneLine
    decide +kernel
  rw [parseDecl, if_neg, if_pos rfl]
  exact not_or.mpr ⟨not_pointer_of_getLast? hline (by decide +kernel),
    not_restrict_of_getLast? hline (by decide +kernel)⟩

theorem parseDecl_ellipsis :
    parseDecl proto "...".toList i = .ok ⟨some "...".toList, none⟩ := by
  have hline : OneLine "...".toList := by
    unfold OneLine
    decide +kernel
  rw [parseDecl, if_neg, if_neg (by decide +kernel), if_pos rfl]
  exact not_or.mpr ⟨not_pointer_of_getLast? hline (by decide +kernel),
    not_restrict_of_getLast? hline (by decide +kernel)⟩

/-- A declaration of the grammar is read as what it is. -/
theorem parseDecl_text (h : p.Ok) :
    parseDecl proto p.text i = .ok (p.decl i) := by
  cases p with
  | plain t g n => exact parseDecl_plain h.1 h.2.1 h.2.2.1 h.2.2.2
  | unnamed t => exact parseDecl_unnamed h
  | array e g n sz =>
      obtain ⟨he, hg, hn, hsz⟩ := h
      exact parseDecl_array he hg hn hsz
  | funPtr r g n ws q =>
      obtain ⟨hr, hg, hn, hws, hq, hblank⟩ := h
      refine parseDecl_functionPointer (hr.oneLine.append hg.oneLine) ?_ ?_ hn hws
        hq hblank
      · exact fun hnil => hr.ne_nil (List.append_eq_nil_iff.mp hnil).1
      · simp [hr.not_mem (show isTypeChar '(' = false from rfl),
          hg.not_mem (show isBlank '(' = false from rfl)]
  | loneArray e sz => exact parseDecl_loneArray h
  | loneFunPtr r q => exact parseDecl_loneFunPtr h
  | void => exact parseDecl_void
  | ellipsis => exact parseDecl_ellipsis

end Grammar

/-! ## Forms -/

/-- The form of a declarator, with the types in it. -/
inductive Form where
  | plain (type : Text)
  | array (elem brackets : Text)
  | funPtr (result params : Text)
  | void
  | ellipsis
deriving DecidableEq

/-- The form a declaration that was read is of. -/
def Decl.form (d : Decl) : Form :=
  match d.name, d.type with
  | none, _ => .void
  | _, none => .ellipsis
  | _, some type =>
      match arrayType.search type with
      | some m => .array (strip (m.text 1)) (m.text 2)
      | none =>
          match functionPointerType.search type with
          | some m => .funPtr (strip (m.text 1)) (m.text 3)
          | none => .plain type

/-- The form with every type as Linux has it. -/
def Form.toShim : Form → Form
  | plain t => .plain (toShimType t)
  | array e b => .array (toShimType e) b
  | funPtr r q => .funPtr (toShimType r) (toShimType q)
  | void => .void
  | ellipsis => .ellipsis

def Param.form : Param → Form
  | plain t _ _ => .plain t
  | unnamed t => .plain t
  | array e _ _ sz => .array e (brackets sz)
  | funPtr r _ _ _ q => .funPtr r (parens q)
  | loneArray e sz => .array e (brackets sz)
  | loneFunPtr r q => .funPtr r (parens q)
  | void => .void
  | ellipsis => .ellipsis

section Forms

variable {t g n q r e sz : Text} {i : Nat} {p : Param}

theorem TypeText.not_array (ht : TypeText t) : arrayType.search t = none := by
  refine arrayType_none ht.oneLine fun hlast => ?_
  exact ht.not_mem (show isTypeChar ']' = false from rfl)
    (List.mem_of_getLast? hlast)

theorem TypeText.not_functionPointer (ht : TypeText t) :
    functionPointerType.search t = none := by
  refine functionPointerType_none ht.oneLine ?_
  rw [List.count_eq_zero.mpr (ht.not_mem (show isTypeChar '(' = false from rfl))]
  decide

theorem form_plain (ht : TypeText t) :
    (⟨some n, some t⟩ : Decl).form = .plain t := by
  simp only [Decl.form, ht.not_array, ht.not_functionPointer]

/-- One blank of the gap is not taken up in an array's type. -/
theorem arrayType_gap (he : TypeText e) (hg : Blanks g) (hsz : IsSize sz) :
    ∃ m, arrayType.search (e ++ g ++ brackets sz) = some m ∧
      m.groups 1 = some (e ++ g.dropLast) ∧ m.groups 2 = some (brackets sz) := by
  have hline : OneLine (e ++ g ++ brackets sz) :=
    (he.oneLine.append hg.oneLine).append hsz.oneLine
  have hopen : '[' ∉ e := he.not_mem rfl
  have hopen' : '[' ∉ g := hg.not_mem rfl
  rcases List.eq_nil_or_concat' g with rfl | ⟨g', c, rfl⟩
  · simpa using arrayType_search (w := []) (by simpa using hline) he.ne_nil
      (.inl ⟨rfl, he.ends⟩) hopen hsz
  · have hc := isSpace_of_isBlank (hg c (by simp))
    simpa using arrayType_search (u := e ++ g') (w := [c]) (by simpa using hline)
      (by simp [he.ne_nil]) (.inr ⟨c, hc, rfl⟩)
      (by simpa [hopen] using fun h => hopen' (by simp [h])) hsz

theorem form_array (he : TypeText e) (hg : Blanks g) (hsz : IsSize sz) :
    (⟨some n, some (e ++ g ++ brackets sz)⟩ : Decl).form =
      .array e (brackets sz) := by
  obtain ⟨m, hm, h₁, h₂⟩ := arrayType_gap he hg hsz
  have hblank : ∀ c ∈ g.dropLast, isSpace c := fun c hc =>
    isSpace_of_isBlank (hg c (List.mem_of_mem_dropLast hc))
  simp only [Decl.form, hm, Match.text, h₁, h₂, Option.getD_some,
    strip_type he hblank]

theorem form_functionPointer (hr : OneLine r) (hne : r ≠ []) (hopen : '(' ∉ r)
    (hq : ParamsText q) :
    (⟨some n, some (pointerText r '*' [] [] q)⟩ : Decl).form =
      .funPtr (strip r) (parens q) := by
  have hline : OneLine (pointerText r '*' [] [] q) :=
    oneLine_pointerText hr nofun nofun hq
  have hnone : arrayType.search (pointerText r '*' [] [] q) = none :=
    arrayType_none hline (by rw [getLast?_pointerText]; decide)
  obtain ⟨m, hm, h₁, -, h₃⟩ := functionPointerType_search hline
    (hq.parts nofun nofun) hne hopen hq.no_paren.1
  simp only [Decl.form, hnone, hm, Match.text, h₁, h₃, Option.getD_some]

theorem form_decl (h : p.Ok) : (p.decl i).form = p.form := by
  cases p with
  | plain t g n => exact form_plain h.1
  | unnamed t => exact form_plain h.1
  | array e g n sz =>
      obtain ⟨he, hg, -, hsz⟩ := h
      exact form_array he hg.blanks hsz
  | funPtr r g n ws q =>
      obtain ⟨hr, hg, -, -, hq, -⟩ := h
      rw [Param.decl, form_functionPointer (hr.oneLine.append hg.oneLine)
        (by simp [hr.ne_nil]) _ hq,
        strip_type hr fun c hc => isSpace_of_isBlank (hg c hc)]
      · rfl
      · simp [hr.not_mem (show isTypeChar '(' = false from rfl),
          hg.not_mem (show isBlank '(' = false from rfl)]
  | loneArray e sz =>
      have h := @form_array [] (argName i) e sz h.1 (List.forall_mem_nil _) h.2.1
      rwa [List.append_nil] at h
  | loneFunPtr r q =>
      have hr := h.1
      rw [Param.decl, form_functionPointer hr.oneLine hr.ne_nil
        (hr.not_mem (show isTypeChar '(' = false from rfl)) h.2.1]
      have hstrip := strip_type hr (List.forall_mem_nil _)
      rw [List.append_nil] at hstrip
      rw [hstrip]
      rfl
  | void => rfl
  | ellipsis => rfl

end Forms

end Libc6Shim
