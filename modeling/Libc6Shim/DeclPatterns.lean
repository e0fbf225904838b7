import Libc6Shim.ShimTypes

/-!
# The patterns of a declaration

Which lines the patterns of `parse_prototype` and of `to_decl` fit, and what
their groups are then. A pattern of a function pointer fits a line in one way
only, since there are two opening parentheses in it. The others end in a word
or in brackets and take as little as they can before it.
-/

namespace Libc6Shim

open Ruby Regex

/-! ## How a line ends -/

section LineEnds

variable {s : Text}

theorem pointerRegex_search (hline : OneLine s) :
    (pointerRegex.search s).isSome ↔ ∃ t, s = t ++ ['*'] := by
  rw [search_isSome]
  simp only [pointerRegex, cat, spans_seq_char]
  constructor
  · rintro ⟨u, w, v, rfl, w', rfl, h⟩
    obtain ⟨rfl, rfl⟩ := (spans_eol hline.right.right).mp h
    exact ⟨u, rfl⟩
  · rintro ⟨t, rfl⟩
    exact ⟨t, ['*'], [], rfl, [], rfl, rfl, rfl⟩

theorem restrictRegex_search (hline : OneLine s) :
    (restrictRegex.search s).isSome ↔
      ∃ t c, isSpace c ∧ s = t ++ '*' :: c :: "restrict".toList := by
  rw [search_isSome]
  simp only [restrictRegex, cat, str, spans_seq_char, spans_seq_cls,
    spans_seq_lit]
  constructor
  · rintro ⟨u, w, v, rfl, w', rfl, c, w'', hc, rfl, x, rfl, h⟩
    obtain ⟨rfl, rfl⟩ := (spans_eol hline.right.right).mp h
    exact ⟨u, c, hc, by simp⟩
  · rintro ⟨t, c, hc, rfl⟩
    exact ⟨t, '*' :: c :: "restrict".toList, [], by simp, _, rfl, c, _, hc, rfl,
      [], by simp, rfl, rfl⟩

theorem loneRegex_search (hline : OneLine s) :
    (loneRegex.search s).isSome ↔ s ≠ [] ∧ ∀ c ∈ s, isSpace c = false := by
  simp only [loneRegex, cat]
  rw [search_bol_isSome hline]
  constructor
  · rintro ⟨w, v, rfl, u, u', rfl, hu, h⟩
    obtain ⟨rfl, rfl⟩ := (spans_eol hline.right).mp h
    rw [List.append_nil, List.append_nil]
    obtain ⟨hne, hu⟩ := spans_plus.mp hu
    exact ⟨hne, fun c hc => by simpa using hu c hc⟩
  · rintro ⟨hne, hs⟩
    refine ⟨s, [], by simp, s, [], by simp, spans_plus.mpr ⟨hne, ?_⟩, rfl, rfl⟩
    intro c hc
    rw [hs c hc]
    rfl

end LineEnds

/-! ## Function pointers -/

section FunctionPointers

variable {s : Text} {m : Match}

/-- `\)\s*(\([^\)]+\))$` -/
def paramsRegex : Regex :=
  .cat [.char ')', .many isSpace,
    .group 3 (.cat [.char '(', .plus (· != ')'), .char ')']), .eol]

theorem goes_params {a c : Place} {u : Text} (hline : OneLine a.rest)
    (h : paramsRegex.Goes a u c) :
    ∃ ws q, a.rest = ')' :: (ws ++ parens q) ∧ (∀ x ∈ ws, isSpace x) ∧
      q ≠ [] ∧ ')' ∉ q ∧
      c.groups = Function.update a.groups 3 (some (parens q)) := by
  have hrest := h.2
  rw [hrest] at hline
  simp only [paramsRegex, cat, goes_seq, goes_group] at h
  obtain ⟨_, _, rfl, a₁, h₁, ws, _, rfl, a₂, h₂, _, _, rfl, _, ⟨b, hb, rfl⟩,
    h₄⟩ := h
  obtain ⟨_, _, rfl, b₁, hb₁, q, _, rfl, b₂, hb₂, hb₃⟩ := hb
  have hgroups : b.groups = a.groups := by
    rw [groups_of_ungrouped rfl hb₃, groups_of_ungrouped rfl hb₂,
      groups_of_ungrouped rfl hb₁, groups_of_ungrouped rfl h₂,
      groups_of_ungrouped rfl h₁]
  obtain ⟨rfl, hend⟩ := (spans_eol hline.right).mp (spans_of_goes h₄)
  obtain rfl := (goes_char.mp h₁).1
  obtain rfl := (goes_char.mp hb₁).1
  obtain rfl := (goes_char.mp hb₃).1
  obtain ⟨hne, hq, -⟩ := goes_plus.mp hb₂
  refine ⟨ws, q, ?_, (goes_many.mp h₂).1, hne, ?_, ?_⟩
  · rw [hrest]
    simp [parens, hend]
  · intro hmem
    exact absurd (hq _ hmem) (by decide)
  · rw [groups_of_ungrouped rfl h₄]
    simp [hgroups, parens]

theorem spans_params {b : Bool} {ws q : Text} (hws : ∀ x ∈ ws, isSpace x)
    (hne : q ≠ []) (hq : ')' ∉ q) :
    paramsRegex.Spans b (')' :: (ws ++ parens q)) [] := by
  simp only [paramsRegex, cat, spans_seq_char]
  refine ⟨_, rfl, ws, parens q, rfl, hws, parens q, [], by simp, ?_, rfl, rfl⟩
  rw [spans_group, spans_seq_char]
  refine ⟨_, rfl, q, [')'], rfl, spans_plus.mpr ⟨hne, ?_⟩, spans_char.mpr rfl⟩
  intro c hc
  rw [bne_iff_ne]
  rintro rfl
  exact hq hc

/-- The beginning of either pattern, `/^(.+)?\(/`. -/
theorem goes_result {t : Regex} {u : Text} {c : Place}
    (h : (cat [.bol, .opt (.group 1 (.plus isDot)), .char '(', t]).Goes
      ⟨true, s, fun _ => none⟩ u c) :
    ∃ r a v, s = r ++ '(' :: a.rest ∧ t.Goes a v c ∧
      (r ≠ [] → a.groups = Function.update (fun _ => none) 1 (some r)) := by
  simp only [cat, goes_seq] at h
  obtain ⟨_, _, rfl, _, hbol, r, _, rfl, a₁, h₁, _, v, rfl, a, h₂, h₃⟩ := h
  obtain ⟨-, rfl, rfl⟩ := goes_bol.mp hbol
  obtain ⟨rfl, hrest₂, -⟩ := goes_char.mp h₂
  refine ⟨r, a, v, ?_, h₃, ?_⟩
  · have hrest₁ : s = r ++ a₁.rest := h₁.2
    rw [hrest₁, hrest₂]
  · intro hne
    rw [groups_of_ungrouped rfl h₂]
    rcases goes_alt.mp h₁ with h₁ | h₁
    · obtain ⟨a₀, h₀, rfl⟩ := goes_group.mp h₁
      rw [groups_of_ungrouped rfl h₀]
    · exact absurd (goes_empty.mp h₁).1 hne

theorem spans_result {t : Regex} {r u v : Text} (hline : OneLine r)
    (h : t.Spans false u v) :
    (cat [.bol, .opt (.group 1 (.plus isDot)), .char '(', t]).Spans true
      (r ++ '(' :: u) v := by
  simp only [cat, spans_seq_bol]
  refine ⟨trivial, r, '(' :: u, rfl, ?_, spans_seq_char.mpr ⟨u, rfl, h⟩⟩
  rcases List.eq_nil_or_concat r with rfl | ⟨r', d, hr⟩
  · exact .inr rfl
  · refine .inl (spans_plus.mpr ⟨by simp [hr], fun c hc => ?_⟩)
    rw [isDot, bne_iff_ne]
    rintro rfl
    exact hline hc

/-- `n` is empty in a type. -/
def pointerText (r : Text) (mark : Char) (n ws q : Text) : Text :=
  r ++ '(' :: mark :: (n ++ ')' :: (ws ++ parens q))

/-- The parts that either pattern finds. -/
structure PointerParts (mark : Char) (n ws q : Text) : Prop where
  mark : isPointerMark mark
  word : ∀ c ∈ n, isWord c
  blanks : ∀ c ∈ ws, isSpace c
  ne_nil : q ≠ []
  no_close : ')' ∉ q

theorem functionPointerDecl_groups (hline : OneLine s)
    (hm : functionPointerDecl.search s = some m) :
    ∃ r mark n ws q, s = pointerText r mark n ws q ∧
      PointerParts mark n ws q ∧ n ≠ [] ∧ (r ≠ [] → m.groups 1 = some r) ∧
      m.groups 2 = some n ∧ m.groups 3 = some (parens q) := by
  have hm' : functionPointerDecl.matchAt true s = some m :=
    (search_bol hline).symm.trans hm
  obtain ⟨c, hc, -, -, hgroups⟩ := matchAt_split hm'
  obtain ⟨r, a, v, rfl, ht, hgroups₁⟩ := goes_result
    (t := cat [.cls isPointerMark, .group 2 (.plus isWord), paramsRegex]) hc
  simp only [cat, goes_seq, goes_group, goes_cls] at ht
  obtain ⟨_, _, rfl, a₁, ⟨mark, hmark, rfl, hrest₁, hplace₁⟩, n, _, rfl, _,
    ⟨a₂, h₂, rfl⟩, h₃⟩ := ht
  obtain ⟨hne, hn, hrest₂, -⟩ := goes_plus.mp h₂
  rw [hrest₁, hrest₂] at hline
  obtain ⟨ws, q, hrest₃, hws, hneq, hq, hgroups₃⟩ := goes_params
    (a := ⟨a₂.bol, a₂.rest, _⟩) (fun hmem => hline (by simp [hmem])) h₃
  have hgroups₂ : a₂.groups = a.groups := by
    rw [groups_of_ungrouped rfl h₂, hplace₁]
  refine ⟨r, mark, n, ws, q, ?_, ⟨hmark, hn, hws, hneq, hq⟩, hne, ?_, ?_, ?_⟩
  · rw [hrest₁, hrest₂, show a₂.rest = _ from hrest₃]
    rfl
  · intro hr
    rw [hgroups, hgroups₃, hgroups₂, hgroups₁ hr]
    simp [Function.update]
  · rw [hgroups, hgroups₃]
    simp [Function.update]
  · rw [hgroups, hgroups₃]
    simp

theorem functionPointerType_groups (hline : OneLine s)
    (hm : functionPointerType.search s = some m) :
    ∃ r mark ws q, s = pointerText r mark [] ws q ∧
      PointerParts mark [] ws q ∧ (r ≠ [] → m.groups 1 = some r) ∧
      m.groups 2 = some [mark] ∧ m.groups 3 = some (parens q) := by
  have hm' : functionPointerType.matchAt true s = some m :=
    (search_bol hline).symm.trans hm
  obtain ⟨c, hc, -, -, hgroups⟩ := matchAt_split hm'
  obtain ⟨r, a, v, rfl, ht, hgroups₁⟩ := goes_result
    (t := cat [.group 2 (.cls isPointerMark), paramsRegex]) hc
  simp only [cat, goes_seq, goes_group, goes_cls] at ht
  obtain ⟨_, _, rfl, _, ⟨a₁, ⟨mark, hmark, rfl, hrest₁, hplace₁⟩, rfl⟩, h₂⟩ := ht
  rw [hrest₁] at hline
  obtain ⟨ws, q, hrest₂, hws, hneq, hq, hgroups₂⟩ := goes_params
    (a := ⟨a₁.bol, a₁.rest, _⟩) (fun hmem => hline (by simp [hmem])) h₂
  have hgroups₀ : a₁.groups = a.groups := by rw [hplace₁]
  refine ⟨r, mark, ws, q, ?_, ⟨hmark, List.forall_mem_nil _, hws, hneq, hq⟩, ?_, ?_, ?_⟩
  · rw [hrest₁, show a₁.rest = _ from hrest₂]
    rfl
  · intro hr
    rw [hgroups, hgroups₂, hgroups₀, hgroups₁ hr]
    simp [Function.update]
  · rw [hgroups, hgroups₂]
    simp [Function.update]
  · rw [hgroups, hgroups₂]
    simp

variable {r n ws q : Text} {mark : Char}

theorem functionPointerDecl_isSome (hline : OneLine r)
    (h : PointerParts mark n ws q) (hne : n ≠ []) :
    (functionPointerDecl.search (pointerText r mark n ws q)).isSome := by
  have hspans : (cat [.cls isPointerMark, .group 2 (.plus isWord),
      paramsRegex]).Spans false (mark :: (n ++ ')' :: (ws ++ parens q))) [] := by
    simp only [cat, spans_seq_cls]
    exact ⟨mark, _, h.mark, rfl, n, _, rfl, spans_plus.mpr ⟨hne, h.word⟩,
      spans_params h.blanks h.ne_nil h.no_close⟩
  exact search_isSome.mpr ⟨[], _, [], (List.append_nil _).symm,
    spans_result hline hspans⟩

theorem functionPointerType_isSome (hline : OneLine r)
    (h : PointerParts mark [] ws q) :
    (functionPointerType.search (pointerText r mark [] ws q)).isSome := by
  have hspans : (cat [.group 2 (.cls isPointerMark), paramsRegex]).Spans false
      (mark :: ')' :: (ws ++ parens q)) [] :=
    ⟨[mark], _, rfl, ⟨mark, h.mark, rfl⟩,
      spans_params h.blanks h.ne_nil h.no_close⟩
  exact search_isSome.mpr ⟨[], _, [], (List.append_nil _).symm,
    spans_result hline hspans⟩

theorem count_pointerText (h : PointerParts mark n ws q) :
    (pointerText r mark n ws q).count '(' = r.count '(' + 2 + q.count '(' := by
  have hmark : mark ≠ '(' := by
    rintro rfl
    exact absurd h.mark (by decide)
  have hn : n.count '(' = 0 := by
    rw [List.count_eq_zero]
    exact fun hmem => absurd (h.word _ hmem) (by decide)
  have hws : ws.count '(' = 0 := by
    rw [List.count_eq_zero]
    exact fun hmem => absurd (h.blanks _ hmem) (by decide)
  simp [pointerText, parens, hn, hws, hmark]
  omega

/-- Where a character stands first there is one way to cut a text. -/
theorem cut_unique {c : Char} {u u' v v' : Text} (hu : c ∉ u) (hu' : c ∉ u')
    (h : u ++ c :: v = u' ++ c :: v') : u' = u ∧ v' = v := by
  induction u generalizing u' with
  | nil =>
      cases u' with
      | nil => exact ⟨rfl, (List.cons.inj h).2.symm⟩
      | cons d u' =>
          obtain ⟨rfl, -⟩ := List.cons.inj h
          exact absurd List.mem_cons_self hu'
  | cons d u ih =>
      cases u' with
      | nil =>
          obtain ⟨rfl, -⟩ := List.cons.inj h
          exact absurd List.mem_cons_self hu
      | cons d' u' =>
          obtain ⟨rfl, htail⟩ := List.cons.inj h
          obtain ⟨rfl, rfl⟩ := ih (List.not_mem_of_not_mem_cons hu)
            (List.not_mem_of_not_mem_cons hu') htail
          exact ⟨rfl, rfl⟩

/-- There is one way to read a function pointer. -/
theorem pointerText_inj {r' n' ws' q' : Text} {mark' : Char} (hr : '(' ∉ r)
    (hq : '(' ∉ q) (h : PointerParts mark n ws q)
    (h' : PointerParts mark' n' ws' q')
    (heq : pointerText r mark n ws q = pointerText r' mark' n' ws' q') :
    r' = r ∧ mark' = mark ∧ n' = n ∧ ws' = ws ∧ q' = q := by
  have hr' : '(' ∉ r' := by
    have hcount := congrArg (List.count '(') heq
    rw [count_pointerText h, count_pointerText h', List.count_eq_zero.mpr hr,
      List.count_eq_zero.mpr hq] at hcount
    rw [← List.count_eq_zero]
    omega
  have hclose : ∀ {w : Text}, (∀ c ∈ w, isWord c) → ')' ∉ w :=
    fun hw hmem => absurd (hw _ hmem) (by decide)
  have hopen : ∀ {w : Text}, (∀ c ∈ w, isSpace c) → '(' ∉ w :=
    fun hw hmem => absurd (hw _ hmem) (by decide)
  obtain ⟨rfl, htail₁⟩ := cut_unique hr hr' heq
  obtain ⟨rfl, htail₂⟩ := List.cons.inj htail₁
  obtain ⟨rfl, htail₃⟩ := cut_unique (hclose h'.word) (hclose h.word) htail₂
  obtain ⟨rfl, htail₄⟩ := cut_unique (hopen h.blanks) (hopen h'.blanks) htail₃
  exact ⟨rfl, rfl, rfl, rfl, @List.append_cancel_right _ q' [')'] q htail₄⟩

theorem functionPointerDecl_search
    (hline : OneLine (pointerText r mark n ws q)) (h : PointerParts mark n ws q)
    (hne : n ≠ []) (hr : r ≠ []) (hr' : '(' ∉ r) (hq : '(' ∉ q) :
    ∃ m, functionPointerDecl.search (pointerText r mark n ws q) = some m ∧
      m.groups 1 = some r ∧ m.groups 2 = some n ∧
      m.groups 3 = some (parens q) := by
  have hline' : OneLine r := fun hmem => hline (by simp [pointerText, hmem])
  obtain ⟨m, hm⟩ := Option.isSome_iff_exists.mp
    (functionPointerDecl_isSome hline' h hne)
  obtain ⟨r₁, mark₁, n₁, ws₁, q₁, heq, h₁, -, hgroups₁, hgroups₂⟩ :=
    functionPointerDecl_groups hline hm
  obtain ⟨rfl, rfl, rfl, rfl, rfl⟩ := pointerText_inj hr' hq h h₁ heq
  exact ⟨m, hm, hgroups₁ hr, hgroups₂⟩

theorem functionPointerType_search
    (hline : OneLine (pointerText r mark [] ws q))
    (h : PointerParts mark [] ws q) (hr : r ≠ []) (hr' : '(' ∉ r)
    (hq : '(' ∉ q) :
    ∃ m, functionPointerType.search (pointerText r mark [] ws q) = some m ∧
      m.groups 1 = some r ∧ m.groups 2 = some [mark] ∧
      m.groups 3 = some (parens q) := by
  have hline' : OneLine r := fun hmem => hline (by simp [pointerText, hmem])
  obtain ⟨m, hm⟩ := Option.isSome_iff_exists.mp
    (functionPointerType_isSome hline' h)
  obtain ⟨r₁, mark₁, ws₁, q₁, heq, h₁, hgroups₁, hgroups₂⟩ :=
    functionPointerType_groups hline hm
  obtain ⟨rfl, rfl, -, rfl, rfl⟩ := pointerText_inj hr' hq h h₁ heq
  exact ⟨m, hm, hgroups₁ hr, hgroups₂⟩

theorem functionPointerDecl_none (hline : OneLine s) (hcount : s.count '(' < 2) :
    functionPointerDecl.search s = none := by
  cases hm : functionPointerDecl.search s with
  | none => rfl
  | some m =>
      obtain ⟨r, mark, n, ws, q, rfl, h, -⟩ := functionPointerDecl_groups hline hm
      rw [count_pointerText h] at hcount
      omega

theorem functionPointerType_none (hline : OneLine s) (hcount : s.count '(' < 2) :
    functionPointerType.search s = none := by
  cases hm : functionPointerType.search s with
  | none => rfl
  | some m =>
      obtain ⟨r, mark, ws, q, rfl, h, -⟩ := functionPointerType_groups hline hm
      rw [count_pointerText h] at hcount
      omega

/-- A declaration of a function pointer is no type of one. -/
theorem functionPointerType_of_named
    (hline : OneLine (pointerText r mark n ws q)) (h : PointerParts mark n ws q)
    (hne : n ≠ []) (hr' : '(' ∉ r) (hq : '(' ∉ q) :
    functionPointerType.search (pointerText r mark n ws q) = none := by
  cases hm : functionPointerType.search (pointerText r mark n ws q) with
  | none => rfl
  | some m =>
      obtain ⟨r₁, mark₁, ws₁, q₁, heq, h₁, -⟩ := functionPointerType_groups hline hm
      obtain ⟨-, -, hnil, -, -⟩ := pointerText_inj hr' hq h h₁ heq
      exact absurd hnil.symm hne

end FunctionPointers

/-! ## Words and brackets -/

section Brackets

variable {s t n u w sz : Text} {m : Match}

/-- What stands in brackets. -/
def IsSize (sz : Text) : Prop :=
  (∀ c ∈ sz, isDigit c) ∨ sz = "restrict".toList

def brackets (sz : Text) : Text := '[' :: sz ++ [']']

/-- A word that can be told from what stands before it. -/
structure WordText (n : Text) : Prop where
  ne_nil : n ≠ []
  chars : ∀ c ∈ n, isWord c

/-- A text whose last character belongs to no word. -/
def EndsApart (t : Text) : Prop := ∃ c t', t = t' ++ [c] ∧ isWord c = false

theorem not_endsApart_of_word (hs : ∀ c ∈ s, isWord c) : ¬EndsApart s := by
  rintro ⟨c, t, rfl, hc⟩
  rw [hs c (by simp)] at hc
  cases hc

theorem EndsApart.append_right (h : EndsApart (u ++ t)) (hne : t ≠ []) :
    EndsApart t := by
  obtain ⟨c, t', heq, hc⟩ := h
  rcases List.eq_nil_or_concat' t with rfl | ⟨v, d, rfl⟩
  · exact absurd rfl hne
  · rw [← List.append_assoc] at heq
    obtain ⟨-, hd⟩ := List.append_inj' heq rfl
    obtain rfl : d = c := by simpa using hd
    exact ⟨d, v, rfl, hc⟩

theorem EndsApart.ne_nil (h : EndsApart t) : t ≠ [] := by
  obtain ⟨c, t', rfl, -⟩ := h
  simp

theorem namedRegex_search (hline : OneLine (t ++ n)) (ht : EndsApart t)
    (hn : WordText n) : ∃ m, namedRegex.search (t ++ n) = some m ∧
      m.groups 1 = some t ∧ m.groups 2 = some n := by
  obtain ⟨m, w, c, hm, hc, hgroups⟩ :
      ∃ m w c, namedRegex.search (t ++ n) = some m ∧
        (cat [.group 2 (.plus isWord), .eol]).Goes ⟨bolAfter true t, n,
          Function.update (fun _ => none) 1 (some t)⟩ w c ∧
        m.groups = c.groups := by
    refine search_lazy hline ht.ne_nil (isDot_of_oneLine hline.left) ?_ ?_
    · -- behind a shorter text there is no word to the end of the line
      rintro b u₁ u₂ w v' rfl - hne₂ heq hw
      have hline' : OneLine (w ++ v') := by
        rw [← heq]
        rw [List.append_assoc] at hline
        exact hline.right
      obtain ⟨rfl, hword⟩ := (spans_to_end hline').mp hw
      refine not_endsApart_of_word ?_ (ht.append_right hne₂)
      rw [List.append_nil] at heq
      intro c hc
      exact (spans_plus.mp hword).2 c (by rw [← heq]; simp [hc])
    · exact ⟨n, [], (List.append_nil n).symm, n, [], (List.append_nil n).symm,
        spans_plus.mpr ⟨hn.ne_nil, hn.chars⟩, rfl, rfl⟩
  obtain ⟨hw, b, hb, hgroups'⟩ := goes_to_end hline.right hc
  obtain ⟨a, ha, rfl⟩ := goes_group.mp hb
  refine ⟨m, hm, ?_, ?_⟩
  · rw [hgroups, hgroups', groups_of_ungrouped rfl ha]
    simp [Function.update]
  · rw [hgroups, hgroups', hw]
    simp

theorem spans_bracket {b : Bool} {v : Text} {k : Nat} :
    (bracketRegex k).Spans b u v ↔ ∃ sz, IsSize sz ∧ u = brackets sz := by
  simp only [bracketRegex, cat, str, spans_group, spans_seq_char]
  constructor
  · rintro ⟨_, rfl, sz, _, rfl, hsz, hclose⟩
    obtain rfl := spans_char.mp hclose
    rcases hsz with hsz | hsz
    · exact ⟨sz, .inl hsz, rfl⟩
    · exact ⟨sz, .inr (spans_lit.mp hsz), rfl⟩
  · rintro ⟨sz, hsz, rfl⟩
    refine ⟨_, rfl, sz, [']'], rfl, ?_, spans_char.mpr rfl⟩
    rcases hsz with hsz | rfl
    · exact .inl hsz
    · exact .inr (spans_lit.mpr rfl)

theorem goes_bracket {a c : Place} {k : Nat} (h : (bracketRegex k).Goes a u c) :
    c.groups k = some u ∧ ∀ j < k, c.groups j = a.groups j := by
  obtain ⟨a₁, h₁, rfl⟩ := goes_group.mp h
  refine ⟨by simp, fun j hj => ?_⟩
  simp only [cat, goes_seq, goes_group] at h₁
  obtain ⟨_, _, -, a₂, h₂, sz, _, -, _, ⟨a₃, h₃, rfl⟩, h₄⟩ := h₁
  show Function.update a₁.groups k (some u) j = a.groups j
  have hgroups := groups_of_ungrouped rfl h₄
  rw [Function.update_of_ne (Nat.ne_of_lt hj), hgroups]
  show Function.update a₃.groups (k + 1) (some sz) j = a.groups j
  rw [Function.update_of_ne (by omega), groups_of_ungrouped rfl h₃,
    groups_of_ungrouped rfl h₂]

theorem no_open_of_word (hw : ∀ c ∈ w, isWord c) : '[' ∉ w :=
  fun hmem => absurd (hw _ hmem) (by decide)

theorem brackets_cut {sz' : Text} (hu : '[' ∉ u) (hw : '[' ∉ w)
    (h : u ++ brackets sz = w ++ brackets sz') : w = u ∧ sz' = sz := by
  obtain ⟨rfl, htail⟩ := cut_unique hu hw h
  exact ⟨rfl, List.append_cancel_right htail⟩

/-- Brackets that are matched at the end of a line end it. -/
theorem bracket_ends_line {u₁ u₂ tail w₁ w₂ v' : Text} {b : Bool} {n : Nat}
    (hline : OneLine (u₁ ++ u₂ ++ tail)) (heq : u₂ ++ tail = w₁ ++ w₂ ++ v')
    (hw₂ : (seq (bracketRegex n) eol).Spans b w₂ v') :
    v' = [] ∧ ∃ sz', w₂ = brackets sz' := by
  have hline' : OneLine (w₁ ++ (w₂ ++ v')) := by
    rw [← List.append_assoc, ← heq]
    rw [List.append_assoc] at hline
    exact hline.right
  obtain ⟨rfl, hbracket⟩ := (spans_to_end hline'.right).mp hw₂
  obtain ⟨sz', -, rfl⟩ := spans_bracket.mp hbracket
  exact ⟨rfl, sz', rfl⟩

theorem arrayRegex_search (hline : OneLine (t ++ (n ++ brackets sz)))
    (ht : EndsApart t) (hopen : '[' ∉ t) (hn : WordText n) (hsz : IsSize sz) :
    ∃ m, arrayRegex.search (t ++ (n ++ brackets sz)) = some m ∧
      m.groups 1 = some t ∧ m.groups 2 = some n ∧
      m.groups 3 = some (brackets sz) := by
  obtain ⟨m, w, c, hm, hc, hgroups⟩ :
      ∃ m w c, arrayRegex.search (t ++ (n ++ brackets sz)) = some m ∧
        (seq (.group 2 (.plus isWord)) (seq (bracketRegex 3) eol)).Goes
          ⟨bolAfter true t, n ++ brackets sz,
            Function.update (fun _ => none) 1 (some t)⟩ w c ∧
        m.groups = c.groups := by
    refine search_lazy hline ht.ne_nil (isDot_of_oneLine hline.left) ?_ ?_
    · rintro b u₁ u₂ w v' rfl - hne₂ heq ⟨w₁, w₂, rfl, hw₁, hw₂⟩
      obtain ⟨rfl, sz', rfl⟩ := bracket_ends_line hline heq hw₂
      obtain ⟨-, hword⟩ := spans_plus.mp hw₁
      rw [List.append_nil, ← List.append_assoc] at heq
      have hopen₂ : '[' ∉ u₂ ++ n := by
        intro hmem
        rcases List.mem_append.mp hmem with hmem | hmem
        · exact hopen (List.mem_append_right u₁ hmem)
        · exact no_open_of_word hn.chars hmem
      obtain ⟨rfl, -⟩ := brackets_cut hopen₂ (no_open_of_word hword) heq
      exact not_endsApart_of_word (fun c hc => hword c (by simp [hc]))
        (ht.append_right hne₂)
    · refine ⟨n ++ brackets sz, [], (List.append_nil _).symm, n, brackets sz, rfl,
        spans_plus.mpr ⟨hn.ne_nil, hn.chars⟩, brackets sz, [],
        (List.append_nil _).symm, spans_bracket.mpr ⟨sz, hsz, rfl⟩, rfl, rfl⟩
  obtain ⟨n', v, rfl, b, hb, hbracket⟩ := goes_seq.mp hc
  obtain ⟨a, ha, rfl⟩ := goes_group.mp hb
  obtain ⟨-, hword, hrest, -⟩ := goes_plus.mp ha
  have hrest' : n ++ brackets sz = n' ++ a.rest := hrest
  rw [hrest'] at hline
  obtain ⟨rfl, b', hb', hgroups'⟩ :=
    goes_to_end (by exact hline.right.right) hbracket
  obtain ⟨sz', -, hsz'⟩ := spans_bracket.mp (spans_of_goes hb')
  rw [show a.rest = brackets sz' from hsz'] at hrest'
  obtain ⟨rfl, rfl⟩ := brackets_cut (no_open_of_word hn.chars)
    (no_open_of_word hword) hrest'
  obtain ⟨hgroup, hothers⟩ := goes_bracket hb'
  refine ⟨m, hm, ?_, ?_, ?_⟩
  · rw [hgroups, hgroups', hothers 1 (by decide)]
    simp [groups_of_ungrouped rfl ha, Function.update]
  · rw [hgroups, hgroups', hothers 2 (by decide)]
    simp
  · rw [hgroups, hgroups', hgroup, show a.rest = _ from hsz']

/-- An array's type is read up to one blank before the brackets. -/
theorem arrayType_search (hline : OneLine (u ++ (w ++ brackets sz)))
    (hne : u ≠ []) (hw : w = [] ∧ EndsBare u ∨ ∃ c, isSpace c ∧ w = [c])
    (hopen : '[' ∉ u) (hsz : IsSize sz) :
    ∃ m, arrayType.search (u ++ (w ++ brackets sz)) = some m ∧
      m.groups 1 = some u ∧ m.groups 2 = some (brackets sz) := by
  have hblank : ∀ {w' : Text}, (w' = [] ∨ ∃ c, isSpace c ∧ w' = [c]) → '[' ∉ w' := by
    rintro w' (rfl | ⟨c, hc, rfl⟩) hmem
    · cases hmem
    · obtain rfl := List.mem_singleton.mp hmem
      exact absurd hc (by decide)
  have hopt : ∀ {b v w'}, (opt (cls isSpace)).Spans b w' v →
      w' = [] ∨ ∃ c, isSpace c ∧ w' = [c] := fun h => h.symm
  have hopen' : '[' ∉ w := hblank (hw.imp_left And.left)
  obtain ⟨m, x, c, hm, hc, hgroups⟩ :
      ∃ m x c, arrayType.search (u ++ (w ++ brackets sz)) = some m ∧
        (seq (.opt (.cls isSpace)) (seq (bracketRegex 2) eol)).Goes
          ⟨bolAfter true u, w ++ brackets sz,
            Function.update (fun _ => none) 1 (some u)⟩ x c ∧
        m.groups = c.groups := by
    refine search_lazy hline hne (isDot_of_oneLine hline.left) ?_ ?_
    · rintro b u₁ u₂ x v' rfl - hne₂ heq ⟨w₁, w₂, rfl, hw₁, hw₂⟩
      obtain ⟨rfl, sz', rfl⟩ := bracket_ends_line hline heq hw₂
      rw [List.append_nil, ← List.append_assoc] at heq
      have hopen₂ : '[' ∉ u₂ ++ w := by
        intro hmem
        rcases List.mem_append.mp hmem with hmem | hmem
        · exact hopen (List.mem_append_right u₁ hmem)
        · exact hopen' hmem
      obtain ⟨rfl, -⟩ := brackets_cut hopen₂ (hblank (hopt hw₁)) heq
      -- one blank at most may be left out, and a shorter text leaves out more
      rcases hopt hw₁ with hnil | ⟨d, hd, hone⟩
      · exact hne₂ (List.append_eq_nil_iff.mp hnil).1
      · rcases hw with ⟨rfl, hbare⟩ | ⟨d', -, rfl⟩
        · rw [List.append_nil] at hone
          obtain ⟨e, he, hbare⟩ := endsBare_iff.mp hbare
          rw [hone, List.getLast?_concat] at he
          rw [← Option.some.inj he, hd] at hbare
          cases hbare
        · have hlen := congrArg List.length hone
          have := List.length_pos_of_ne_nil hne₂
          simp only [List.length_append, List.length_singleton] at hlen
          omega
    · refine ⟨w ++ brackets sz, [], (List.append_nil _).symm, w, brackets sz, rfl,
        (hw.imp_left And.left).symm, brackets sz, [], (List.append_nil _).symm,
        spans_bracket.mpr ⟨sz, hsz, rfl⟩, rfl, rfl⟩
  obtain ⟨w', v, rfl, b, hb, hbracket⟩ := goes_seq.mp hc
  have hrest : w ++ brackets sz = w' ++ b.rest := hb.2
  rw [hrest] at hline
  obtain ⟨rfl, b', hb', hgroups'⟩ := goes_to_end hline.right.right hbracket
  obtain ⟨sz', -, hsz'⟩ := spans_bracket.mp (spans_of_goes hb')
  rw [hsz'] at hrest
  obtain ⟨rfl, rfl⟩ := brackets_cut hopen' (hblank (hopt (spans_of_goes hb))) hrest
  obtain ⟨hgroup, hothers⟩ := goes_bracket hb'
  refine ⟨m, hm, ?_, ?_⟩
  · rw [hgroups, hgroups', hothers 1 (by decide), groups_of_ungrouped rfl hb]
    simp
  · rw [hgroups, hgroups', hgroup, hsz']

theorem endsApart_of_getLast? {c : Char} (hlast : s.getLast? = some c)
    (hc : isWord c = false) : EndsApart s := by
  obtain ⟨t, ht⟩ := List.getLast?_eq_some_iff.mp hlast
  exact ⟨c, t, ht, hc⟩

theorem namedRegex_none (hline : OneLine s) (hlast : EndsApart s) :
    namedRegex.search s = none := by
  rw [← Option.not_isSome_iff_eq_none]
  intro h
  obtain ⟨_, v, rfl, t, _, rfl, -, w⟩ := (search_bol_isSome hline).mp h
  obtain ⟨rfl, hn⟩ := (spans_to_end (List.append_assoc t _ v ▸ hline).right).mp w
  obtain ⟨hne, hn⟩ := spans_plus.mp hn
  rw [List.append_nil] at hlast
  exact not_endsApart_of_word hn (hlast.append_right hne)

theorem getLast?_brackets : (brackets sz).getLast? = some ']' :=
  List.getLast?_concat

/-- A pattern that ends in brackets fits no text that does not. -/
theorem bracketed_none {r r' : Regex} {k : Nat} (hline : OneLine s)
    (hlast : s.getLast? ≠ some ']') :
    (seq bol (seq r (seq r' (seq (bracketRegex k) eol)))).search s = none := by
  rw [← Option.not_isSome_iff_eq_none]
  intro h
  obtain ⟨_, v, rfl, t, _, rfl, -, n, _, rfl, -, h⟩ :=
    (search_bol_isSome hline).mp h
  rw [List.append_assoc, List.append_assoc] at hline hlast
  obtain ⟨rfl, hbracket⟩ := (spans_to_end hline.right.right).mp h
  obtain ⟨sz, -, rfl⟩ := spans_bracket.mp hbracket
  simp [getLast?_brackets] at hlast

theorem arrayRegex_none (hline : OneLine s) (hlast : s.getLast? ≠ some ']') :
    arrayRegex.search s = none :=
  bracketed_none hline hlast

theorem arrayType_none (hline : OneLine s) (hlast : s.getLast? ≠ some ']') :
    arrayType.search s = none :=
  bracketed_none hline hlast

end Brackets

end Libc6Shim
