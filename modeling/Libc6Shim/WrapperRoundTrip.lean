import Libc6Shim.PrototypeForms

/-!
# The declarator of a wrapper, read again

What `generate_wrapper` writes for a declaration of the grammar, and what
`parse_prototype` makes of it. Types are written as Linux has them, but an
element type as it is; a result with the blank behind it, with which ten
types are not known; and a parameter list that names a type looked for
anywhere as that type alone. One blank is written before every name, and
where the name is `restrict` and the type a pointer, none is read again.
-/

namespace Libc6Shim

open Ruby Regex

/-! ## Writing a declaration -/

section Writing

variable {t g n r q e sz : Text} {i : Nat} {p : Param}

/-- What is written for the parameter with index `i`. -/
def Param.emitted (i : Nat) : Param → Text
  | plain t _ n => toShimType t ++ " ".toList ++ n
  | unnamed t => toShimType t ++ " ".toList ++ argName i
  | array e g n sz => e ++ (g.dropLast ++ " ".toList) ++ (n ++ brackets sz)
  | funPtr r g n _ q =>
      toShimType (r ++ g) ++ '(' :: '*' :: (n ++ ')' :: toShimType (parens q))
  | loneArray e sz => e ++ " ".toList ++ (argName i ++ brackets sz)
  | loneFunPtr r q =>
      toShimType r ++ '(' :: '*' :: (argName i ++ ')' :: toShimType (parens q))
  | void => "void ".toList
  | ellipsis => " ...".toList

theorem toDecl_plain (ht : TypeText t) :
    toDecl ⟨some n, some t⟩ = .ok (toShimType t ++ " ".toList ++ n) := by
  simp only [toDecl, ht.not_array, ht.not_functionPointer, Option.getD_some]

theorem toDecl_array (he : TypeText e) (hg : Blanks g) (hsz : IsSize sz) :
    toDecl ⟨some n, some (e ++ g ++ brackets sz)⟩ =
      .ok (e ++ (g.dropLast ++ " ".toList) ++ (n ++ brackets sz)) := by
  obtain ⟨m, hm, h₁, h₂⟩ := arrayType_gap he hg hsz
  simp only [toDecl, hm, Match.text, h₁, h₂, Option.getD_some]
  simp only [List.append_assoc]

theorem pointerType_not_array (hr : OneLine r) (hq : ParamsText q) :
    arrayType.search (pointerText r '*' [] [] q) = none :=
  arrayType_none (oneLine_pointerText hr nofun nofun hq)
    (by rw [getLast?_pointerText]; decide)

theorem toDecl_functionPointer (hr : OneLine r) (hne : r ≠ []) (hopen : '(' ∉ r)
    (hq : ParamsText q) :
    toDecl ⟨some n, some (pointerText r '*' [] [] q)⟩ =
      .ok (toShimType r ++ '(' :: '*' :: (n ++ ')' :: toShimType (parens q))) := by
  have hline : OneLine (pointerText r '*' [] [] q) :=
    oneLine_pointerText hr nofun nofun hq
  obtain ⟨m, hm, h₁, h₂, h₃⟩ := functionPointerType_search hline
    (hq.parts nofun nofun) hne hopen hq.no_paren.1
  simp only [toDecl, pointerType_not_array hr hq, hm, Match.text, h₁, h₂, h₃,
    unlessNil, Option.getD_some]
  show Except.ok _ = _
  simp

/-- The types that are spelled out are types. -/
theorem typeText_of_all (hfirst : t.head?.any (!isSpace ·))
    (hlast : t.getLast?.any (!isSpace ·)) (hchars : t.all isTypeChar) :
    TypeText t :=
  ⟨beginsBare_of_head? hfirst, endsBare_of_getLast? hlast,
    List.all_eq_true.mp hchars⟩

theorem toDecl_void : toDecl ⟨none, some "void".toList⟩ = .ok "void ".toList := by
  have hvoid : TypeText "void".toList :=
    typeText_of_all (by decide +kernel) (by decide +kernel) (by decide +kernel)
  have hname : toShimType "void".toList = "void".toList := by decide +kernel
  simp only [toDecl, hvoid.not_array, hvoid.not_functionPointer, hname]
  rfl

theorem toDecl_decl (h : p.Ok) : toDecl (p.decl i) = .ok (p.emitted i) := by
  cases p with
  | plain t g n => exact toDecl_plain h.1
  | unnamed t => exact toDecl_plain h.1
  | array e g n sz => exact toDecl_array h.1 h.2.1.blanks h.2.2.2
  | funPtr r g n ws q =>
      obtain ⟨hr, hg, -, -, hq, -⟩ := h
      refine toDecl_functionPointer (hr.oneLine.append hg.oneLine)
        (by simp [hr.ne_nil]) ?_ hq
      simp [hr.not_mem (show isTypeChar '(' = false from rfl),
        hg.not_mem (show isBlank '(' = false from rfl)]
  | loneArray e sz =>
      have h := @toDecl_array [] (argName i) e sz h.1 (List.forall_mem_nil _) h.2.1
      rwa [List.append_nil] at h
  | loneFunPtr r q =>
      exact toDecl_functionPointer h.1.oneLine h.1.ne_nil
        (h.1.not_mem (show isTypeChar '(' = false from rfl)) h.2.1
  | void => exact toDecl_void
  | ellipsis => rfl

end Writing

/-! ## Reading it again -/

/-- What the parameter is written with, it is read with again. -/
def Param.Kept : Param → Prop
  | plain t _ n =>
      n = "restrict".toList → (toShimType t).getLast? ≠ some '*'
  | array e _ _ _ | loneArray e _ => toShimType e = e
  | funPtr r g _ _ q => strip (toShimType (r ++ g)) = toShimType r ∧
      ¬TakenWhole (parens q) ∧
      ∃ c ∈ toShimType (r ++ g) ++ toShimType (parens q), isSpace c
  | loneFunPtr r q => ¬TakenWhole (parens q) ∧
      ∃ c ∈ toShimType r ++ toShimType (parens q), isSpace c
  | _ => True

section Rereading

variable {proto s t g n r q w : Text} {i : Nat} {p : Param} {d : Decl}

theorem strip_bare (hfirst : BeginsBare s) (hlast : EndsBare s)
    (hnul : '\x00' ∉ s) : strip s = s := by
  have h := @strip_of_ends [] s hfirst hlast hnul nofun
  rwa [List.append_nil] at h

theorem not_space_of_isWord {c : Char} (hc : isWord c) : isSpace c = false := by
  by_contra h
  rw [not_word_of_isSpace (by simpa using h)] at hc
  cases hc

theorem WordText.endsBare (hn : WordText n) : EndsBare n := by
  obtain ⟨c, hlast, hc⟩ := hn.getLast?
  exact endsBare_iff.mpr ⟨c, hlast, not_space_of_isWord hc⟩

theorem argName_word (i : Nat) : WordText (argName i) where
  ne_nil := by simp [argName]
  chars := by
    intro c hc
    rcases List.mem_append.mp hc with hc | hc
    · exact List.all_eq_true.mp
        (show "_arg_".toList.all isWord by decide +kernel) c hc
    · have hdigit : c.isDigit := by
        refine Nat.isDigit_of_mem_toDigits (b := 10) (n := i) (by decide)
          (by decide) ?_
        simpa [Nat.repr] using hc
      simp [isWord, Char.isAlphanum, hdigit]

theorem argName_ne_restrict (i : Nat) : argName i ≠ "restrict".toList := by
  intro h
  have hhead := congrArg List.head? h
  simp [argName] at hhead

theorem separated_blank (t : Text) : Separated t " ".toList :=
  ⟨List.all_eq_true.mp (by decide +kernel), .inl (by decide +kernel)⟩

theorem strip_plain_emitted (ht : TypeText t) (hn : WordText n) :
    strip (toShimType t ++ " ".toList ++ n) = toShimType t ++ " ".toList ++ n := by
  have ht' := ht.toShimType
  refine strip_bare ((ht'.begins.append _).append _) (hn.endsBare.append _) ?_
  simp [ht'.not_mem (show isTypeChar '\x00' = false from rfl),
    hn.not_mem (show isWord '\x00' = false from rfl)]

theorem parse_plain_emitted (ht : TypeText t) (hn : WordText n)
    (hkept : n = "restrict".toList → (toShimType t).getLast? ≠ some '*') :
    parseDecl proto (strip (toShimType t ++ " ".toList ++ n)) i =
      .ok ⟨some n, some (toShimType t)⟩ := by
  rw [strip_plain_emitted ht hn,
    parseDecl_plain ht.toShimType (separated_blank _) hn]
  exact fun h => hkept h.1 h.2.1

/-- A pointer named `restrict` is read again as one without a name. -/
theorem parse_restrict_emitted (ht : TypeText t)
    (hlast : (toShimType t).getLast? = some '*') :
    parseDecl proto (strip (toShimType t ++ " ".toList ++ "restrict".toList)) i =
      .ok ⟨some (argName i),
        some (toShimType t ++ " ".toList ++ "restrict".toList)⟩ := by
  obtain ⟨u, hu⟩ := List.getLast?_eq_some_iff.mp hlast
  rw [strip_plain_emitted ht restrict_word]
  refine parseDecl_pointer (.inr ((restrictRegex_search ?_).mpr
    ⟨u, ' ', rfl, ?_⟩))
  · exact (ht.toShimType.oneLine.append (separated_blank t).blanks.oneLine).append
      restrict_word.oneLine
  · rw [hu]
    simp

/-- No type of a function pointer is read from a line with one parenthesis. -/
theorem parseDecl_type_within (hline : OneLine s) (hcount : s.count '(' < 2)
    (hlast : s.getLast? ≠ some ']') (h : parseDecl proto s i = .ok d) :
    ∀ type ∈ d.type, type <:+: s := by
  rw [parseDecl, functionPointerDecl_none hline hcount,
    arrayRegex_none hline hlast] at h
  split_ifs at h with hpointer hvoid hellipsis hlone
  · obtain rfl := Except.ok.inj h
    rintro type hs
    obtain rfl := Option.some.inj hs
    exact List.infix_rfl
  · obtain rfl := Except.ok.inj h
    rintro type hs
    obtain rfl := Option.some.inj hs
    rw [hvoid]
  · obtain rfl := Except.ok.inj h
    intro type hs
    cases hs
  · obtain rfl := Except.ok.inj h
    rintro type hs
    obtain rfl := Option.some.inj hs
    exact List.infix_rfl
  · cases hm : namedRegex.search s with
    | none =>
        rw [hm] at h
        cases h
    | some m =>
        rw [hm] at h
        dsimp only at h
        cases hgroup : m.groups 1 with
        | none =>
            rw [hgroup] at h
            cases h
        | some t =>
            rw [hgroup] at h
            obtain rfl := Except.ok.inj h
            rintro type hs
            obtain rfl := Option.some.inj hs
            have hwithin := search_text_within hm 1
            rw [Match.text, hgroup] at hwithin
            exact (strip_within t).trans hwithin

theorem form_ne_functionPointer
    (h : ∀ type ∈ d.type, functionPointerType.search type = none) :
    d.form ≠ .funPtr r q := by
  obtain ⟨name, type⟩ := d
  intro hform
  cases name with
  | none => cases hform
  | some name =>
      cases type with
      | none => cases hform
      | some type =>
          simp only [Decl.form, h type rfl] at hform
          split at hform <;> cases hform

/-- The form asked for is read. -/
def RereadAs (proto s : Text) (i : Nat) (name : Option Text) (form : Form) :
    Prop :=
  ∃ d, parseDecl proto s i = .ok d ∧ d.name = name ∧ d.form = form

theorem rereadAs_iff {name : Option Text} {form : Form}
    (h : parseDecl proto s i = .ok d) :
    RereadAs proto s i name form ↔ d.name = name ∧ d.form = form := by
  constructor
  · rintro ⟨d', hd', hname⟩
    obtain rfl : d = d' := Except.ok.inj (h.symm.trans hd')
    exact hname
  · exact fun hd => ⟨d, h, hd⟩

theorem reread_array {e sz : Text} (he : TypeText e) (hg : Blanks g)
    (hn : WordText n) (hsz : IsSize sz) :
    RereadAs proto (strip (Param.emitted i (.array e g n sz))) i (some n)
      (.array (toShimType e) (brackets sz)) ↔ toShimType e = e := by
  have hgap : Separated e (g.dropLast ++ " ".toList) := by
    refine ⟨?_, .inl (by simp)⟩
    intro c hc
    rcases List.mem_append.mp hc with hc | hc
    · exact hg c (List.mem_of_mem_dropLast hc)
    · exact (separated_blank e).blanks c hc
  have hstrip : strip (Param.emitted i (.array e g n sz)) =
      e ++ (g.dropLast ++ " ".toList) ++ (n ++ brackets sz) := by
    refine strip_bare ((he.begins.append _).append _) ?_ ?_
    · refine EndsBare.append (EndsBare.append ?_ _) _
      exact ⟨']', '[' :: sz, rfl, rfl⟩
    · have hnul : '\x00' ∉ g.dropLast := fun hmem =>
        hg.not_mem (show isBlank '\x00' = false from rfl)
          (List.mem_of_mem_dropLast hmem)
      simp [Param.emitted, he.not_mem (show isTypeChar '\x00' = false from rfl),
        hnul, hn.not_mem (show isWord '\x00' = false from rfl), brackets,
        hsz.not_mem (show isWord '\x00' = false from rfl)]
  rw [hstrip, rereadAs_iff (parseDecl_array he hgap hn hsz),
    form_array he hgap.blanks hsz]
  simp [eq_comm]

section FunctionPointers

variable {R Q q' : Text}

/-- The text that is written for a function pointer. -/
theorem strip_functionPointer (hbegin : BeginsBare R)
    (hR : ∀ c ∈ R, isTypeChar c) (hn : WordText n) (hend : EndsBare Q)
    (hnul : '\x00' ∉ Q) :
    strip (R ++ '(' :: '*' :: (n ++ ')' :: Q)) =
      R ++ '(' :: '*' :: (n ++ ')' :: Q) := by
  refine strip_bare (hbegin.append _) ?_ ?_
  · refine EndsBare.append ?_ R
    have h : EndsBare ((('(' :: '*' :: n) ++ [')']) ++ Q) := hend.append _
    simpa using h
  · have hR' : '\x00' ∉ R := fun hmem => absurd (hR _ hmem) (by decide)
    simp [hR', hn.not_mem (show isWord '\x00' = false from rfl), hnul]

/-- Without parentheses behind it nothing is read as a function pointer. -/
theorem not_reread_taken (hR : ∀ c ∈ R, isTypeChar c) (hn : WordText n)
    (hend : EndsBare Q) (hQ : ∀ c ∈ Q, isTypeChar c) {name : Option Text}
    {a b : Text} :
    ¬RereadAs proto (R ++ '(' :: '*' :: (n ++ ')' :: Q)) i name (.funPtr a b) := by
  have hne : ∀ {u : Text} {c}, (∀ x ∈ u, isTypeChar x) → isTypeChar c = false →
      c ∉ u := by
    intro u c hu hc hmem
    rw [hu c hmem] at hc
    cases hc
  have hline : OneLine (R ++ '(' :: '*' :: (n ++ ')' :: Q)) := by
    unfold OneLine
    simp [hne hR (c := '\n') rfl, hn.not_mem (show isWord '\n' = false from rfl),
      hne hQ (c := '\n') rfl]
  have hcount : (R ++ '(' :: '*' :: (n ++ ')' :: Q)).count '(' < 2 := by
    simp [List.count_eq_zero.mpr (hne hR (c := '(') rfl),
      List.count_eq_zero.mpr (hn.not_mem (show isWord '(' = false from rfl)),
      List.count_eq_zero.mpr (hne hQ (c := '(') rfl)]
  have hlast : (R ++ '(' :: '*' :: (n ++ ')' :: Q)).getLast? ≠ some ']' := by
    intro hlast
    obtain ⟨c, hc, -⟩ := endsBare_iff.mp hend
    have hlast' : (((R ++ '(' :: '*' :: n) ++ [')']) ++ Q).getLast? = some ']' := by
      simpa using hlast
    rw [List.getLast?_append, hc] at hlast'
    obtain rfl : c = ']' := Option.some.inj hlast'
    exact hne hQ rfl (List.mem_of_getLast? hc)
  rintro ⟨d, hd, -, hform⟩
  refine form_ne_functionPointer (fun type htype => ?_) hform
  have hwithin := parseDecl_type_within hline hcount hlast hd type htype
  exact functionPointerType_none (fun hmem => hline (hwithin.subset hmem))
    (lt_of_le_of_lt (hwithin.sublist.count_le _) hcount)

/-- Nor is a text without a blank, which is a type of its own. -/
theorem not_reread_lone (hR : ∀ c ∈ R, isTypeChar c) (hn : WordText n)
    (hq : ParamsText q') (hbare : ∀ c ∈ R ++ parens q', isSpace c = false)
    {name : Option Text} {a b : Text} :
    ¬RereadAs proto (pointerText R '*' n [] q') i name (.funPtr a b) := by
  have hRline : OneLine R := fun hmem => absurd (hR _ hmem) (by decide)
  have hopen : '(' ∉ R := fun hmem => absurd (hR _ hmem) (by decide)
  have hline : OneLine (pointerText R '*' n [] q') :=
    oneLine_pointerText hRline hn.oneLine nofun hq
  have hmem : '(' ∈ pointerText R '*' n [] q' := by simp [pointerText]
  have hlone : ∀ c ∈ pointerText R '*' n [] q', isSpace c = false := by
    intro c hc
    simp only [pointerText, List.nil_append, List.mem_append, List.mem_cons] at hc
    rcases hc with hc | rfl | rfl | hc | rfl | hc
    · exact hbare c (List.mem_append_left _ hc)
    · rfl
    · rfl
    · exact not_space_of_isWord (hn.chars c hc)
    · rfl
    · exact hbare c (List.mem_append_right R hc)
  rintro ⟨d, hd, -, hform⟩
  rw [parseDecl_lone hline (List.ne_nil_of_mem hmem) hlone ?_ ?_] at hd
  · obtain rfl := Except.ok.inj hd
    refine form_ne_functionPointer (fun type htype => ?_) hform
    obtain rfl := Option.some.inj htype
    exact functionPointerType_of_named hline (hq.parts hn.chars nofun) hn.ne_nil
      hopen hq.no_paren.1
  · intro h
    rw [h] at hmem
    exact absurd hmem (by decide +kernel)
  · intro h
    rw [h] at hmem
    exact absurd hmem (by decide +kernel)

theorem reread_named (hbegin : BeginsBare R) (hR : ∀ c ∈ R, isTypeChar c)
    (hn : WordText n) (hq : ParamsText q')
    (hblank : ∃ c ∈ R ++ parens q', isSpace c) {a : Text} :
    RereadAs proto (pointerText R '*' n [] q') i (some n)
      (.funPtr a (parens q')) ↔ strip R = a := by
  have hRline : OneLine R := fun hmem => absurd (hR _ hmem) (by decide)
  have hopen : '(' ∉ R := fun hmem => absurd (hR _ hmem) (by decide)
  have hne : R ≠ [] := by
    obtain ⟨c, u, rfl, -⟩ := hbegin
    simp
  have hblank' : ∃ c ∈ R ++ [] ++ q', isSpace c := by
    obtain ⟨c, hc, hspace⟩ := hblank
    refine ⟨c, ?_, hspace⟩
    simp only [parens, List.mem_append, List.mem_cons, List.not_mem_nil,
      or_false] at hc ⊢
    rcases hc with hc | (rfl | hc) | rfl
    · exact .inl hc
    · exact absurd hspace (by decide)
    · exact .inr hc
    · exact absurd hspace (by decide)
  have hnil : Blanks [] := List.forall_mem_nil _
  rw [rereadAs_iff
      (parseDecl_functionPointer hRline hne hopen hn hnil hq hblank'),
    form_functionPointer hRline hne hopen hq]
  simp

end FunctionPointers

theorem reread_functionPointer {ws : Text} (hr : TypeText r) (hg : Blanks g)
    (hn : WordText n) (hq : ParamsText q) :
    RereadAs proto (strip (Param.emitted i (.funPtr r g n ws q))) i (some n)
        (.funPtr (toShimType r) (toShimType (parens q))) ↔
      (Param.funPtr r g n ws q).Kept := by
  have hbegin : BeginsBare (toShimType (r ++ g)) :=
    beginsBare_toShimType (hr.begins.append g)
  have hR : ∀ c ∈ toShimType (r ++ g), isTypeChar c := by
    refine toShimType_forall (fun _ hc => hc) fun c hc => ?_
    rcases List.mem_append.mp hc with hc | hc
    · exact hr.chars c hc
    · simp [isTypeChar, hg c hc]
  have hend : EndsBare (toShimType (parens q)) :=
    endsBare_toShimType ⟨')', '(' :: q, rfl, rfl⟩
  rw [Param.Kept, Param.emitted]
  by_cases htaken : TakenWhole (parens q)
  · have hQ := toShimType_taken hq htaken
    rw [strip_functionPointer hbegin hR hn hend
      fun hmem => absurd (hQ _ hmem) (by decide)]
    exact iff_of_false (not_reread_taken hR hn hend hQ)
      fun hkept => hkept.2.1 htaken
  · obtain ⟨q', hq', hQ⟩ := toShimType_parens hq htaken
    rw [hQ] at hend ⊢
    have hnul : '\x00' ∉ parens q' := by
      intro hmem
      rcases parens_forall hq' _ hmem with h | h | h
      · exact absurd h (by decide)
      · exact absurd h (by decide)
      · exact absurd h (by decide)
    rw [strip_functionPointer hbegin hR hn hend hnul]
    by_cases hblank : ∃ c ∈ toShimType (r ++ g) ++ parens q', isSpace c
    · refine (reread_named hbegin hR hn hq' hblank).trans ?_
      exact ⟨fun h => ⟨h, htaken, hblank⟩, fun h => h.1⟩
    · refine iff_of_false (not_reread_lone hR hn hq' ?_)
        fun hkept => hblank hkept.2.2
      intro c hc
      by_contra hspace
      exact hblank ⟨c, hc, by simpa using hspace⟩

/-- What is written for a declaration is read as the same declarator over the
types as Linux has them just when it is kept. -/
theorem reread_emitted (h : p.Ok) :
    RereadAs proto (strip (p.emitted i)) i (p.decl i).name p.form.toShim ↔
      p.Kept := by
  cases p with
  | plain t g n =>
      obtain ⟨ht, -, hn, -⟩ := h
      by_cases hkept : n = "restrict".toList →
          (toShimType t).getLast? ≠ some '*'
      · exact iff_of_true
          ⟨_, parse_plain_emitted ht hn hkept, rfl, form_plain ht.toShimType⟩ hkept
      · obtain ⟨rfl, hlast⟩ := Classical.not_imp.mp hkept
        refine iff_of_false ?_ hkept
        rw [Param.emitted,
          rereadAs_iff (parse_restrict_emitted ht (not_not.mp hlast))]
        exact fun h => argName_ne_restrict i (Option.some.inj h.1)
  | unnamed t =>
      refine iff_of_true ?_ trivial
      exact ⟨_, parse_plain_emitted h.1 (argName_word i)
        fun h => absurd h (argName_ne_restrict i), rfl, form_plain h.1.toShimType⟩
  | array e g n sz => exact reread_array h.1 h.2.1.blanks h.2.2.1 h.2.2.2
  | funPtr r g n ws q =>
      exact reread_functionPointer h.1 h.2.1 h.2.2.1 h.2.2.2.2.1
  | loneArray e sz =>
      exact @reread_array proto [] (argName i) i e sz h.1 (List.forall_mem_nil _)
        (argName_word i) h.2.1
  | loneFunPtr r q =>
      have hfun := @reread_functionPointer proto [] (argName i) r q i [] h.1
        (List.forall_mem_nil _) (argName_word i) h.2.1
      have hstrip := strip_type h.1.toShimType (List.forall_mem_nil _)
      rw [List.append_nil] at hstrip
      rw [Param.emitted, Param.Kept, List.append_nil, and_iff_right hstrip] at hfun
      exact hfun
  | void =>
      refine iff_of_true ?_ trivial
      have hstrip : strip (Param.emitted i .void) = "void".toList := by
        show strip "void ".toList = "void".toList
        decide +kernel
      rw [hstrip]
      exact ⟨_, parseDecl_void, rfl, rfl⟩
  | ellipsis =>
      refine iff_of_true ?_ trivial
      have hstrip : strip (Param.emitted i .ellipsis) = "...".toList := by
        show strip " ...".toList = "...".toList
        decide +kernel
      rw [hstrip]
      exact ⟨_, parseDecl_ellipsis, rfl, rfl⟩

end Rereading

/-! ## Splitting a header -/

section Splitting

variable {proto s w w' : Text} {st : SplitState} {depth : Int} {i : Nat}

/-- At this depth the text is a part of the declaration that is split off.
No comment begins in it. -/
structure Through (depth : Int) (w : Text) : Prop where
  no_slash : '/' ∉ w
  split : ∀ proto (st : SplitState) i s, st.depth = depth →
    splitChars proto st i (w ++ s) =
      splitChars proto { st with decl := st.decl ++ w } (i + w.length) s

theorem through_nil : Through depth [] where
  no_slash := nofun
  split := by
    intro proto st i s _
    rw [List.nil_append, List.append_nil]
    rfl

theorem Through.append (h : Through depth w) (h' : Through depth w') :
    Through depth (w ++ w') where
  no_slash := fun hmem => (List.mem_append.mp hmem).elim h.no_slash h'.no_slash
  split := by
    intro proto st i s hdepth
    rw [List.append_assoc, h.split proto st i _ hdepth, h'.split proto
      { st with decl := st.decl ++ w } _ s hdepth, List.append_assoc,
      List.length_append, Nat.add_assoc]

theorem splitChars_cons {c : Char} {st' : SplitState}
    (h : splitChar proto st c i = .ok st') :
    splitChars proto st i (c :: s) = splitChars proto st' (i + 1) s := by
  rw [splitChars, h]
  rfl

theorem isDeclChar_plain {c : Char} (hc : isDeclChar c) :
    c ≠ '(' ∧ c ≠ ')' ∧ c ≠ ',' := by
  refine ⟨?_, ?_, ?_⟩
  · rintro rfl
    exact absurd hc (by decide)
  · rintro rfl
    exact absurd hc (by decide)
  · rintro rfl
    exact absurd hc (by decide)

theorem splitChar_of_isDeclChar {c : Char} (hc : isDeclChar c) :
    splitChar proto st c i = .ok { st with decl := st.decl ++ [c] } := by
  obtain ⟨hopen, hclose, hcomma⟩ := isDeclChar_plain hc
  rw [splitChar, if_neg hopen, if_neg hclose, if_neg hcomma, if_pos hc]

theorem through_chars (hw : ∀ c ∈ w, isDeclChar c) : Through depth w := by
  induction w with
  | nil => exact through_nil
  | cons c w ih =>
      have hc := hw c (by simp)
      refine Through.append (w := [c]) ⟨?_, ?_⟩ (ih fun d hd => hw d (by simp [hd]))
      · intro hmem
        rw [← List.mem_singleton.mp hmem] at hc
        exact absurd hc (by decide)
      · intro proto st i s _
        exact splitChars_cons (splitChar_of_isDeclChar hc)

/-- Below the outermost level a comma separates nothing. -/
theorem through_comma (hdepth : depth ≠ 1) : Through depth [','] := by
  refine ⟨by decide, ?_⟩
  rintro proto st i s rfl
  refine splitChars_cons ?_
  rw [splitChar, if_neg (by decide), if_neg (by decide), if_pos rfl,
    if_neg hdepth]

theorem through_params {q : Text} (hdepth : depth ≠ 1) (hq : ParamsText q) :
    Through depth q := by
  have h : ∀ q : Text, (∀ c ∈ q, isParamsChar c) → Through depth q := by
    intro q hq
    induction q with
    | nil => exact through_nil
    | cons c q ih =>
        refine Through.append (w := [c]) ?_ (ih fun d hd => hq d (by simp [hd]))
        have hc := hq c (by simp)
        simp only [isParamsChar, Bool.or_eq_true, Bool.and_eq_true] at hc
        rcases hc with ⟨hc, -⟩ | hc
        · exact through_chars (by simpa using hc)
        · rw [show c = ',' by simpa using hc]
          exact through_comma hdepth
  exact h q hq.chars

theorem through_parens (hdepth : 0 < depth) (h : Through (depth + 1) w) :
    Through depth (parens w) := by
  refine ⟨by simp [parens, h.no_slash], ?_⟩
  rintro proto st i s rfl
  have hopen : splitChar proto st '(' i = .ok
      { st with decl := st.decl ++ ['('], depth := st.depth + 1 } := by
    rw [splitChar, if_pos rfl, if_neg (by omega)]
  have hclose : splitChar proto
      { st with decl := st.decl ++ ['('] ++ w, depth := st.depth + 1 } ')'
      (i + 1 + w.length) = .ok { st with decl := st.decl ++ parens w } := by
    rw [splitChar, if_neg (by decide), if_pos rfl, if_neg (by simp; omega)]
    simp [parens]
  show splitChars proto st i ('(' :: ((w ++ [')']) ++ s)) = _
  rw [splitChars_cons hopen, List.append_assoc, h.split proto
    { st with decl := st.decl ++ ['('], depth := st.depth + 1 } _ _ rfl]
  refine (splitChars_cons hclose).trans ?_
  congr 1
  simp [parens]
  omega

theorem isDeclChar_of_isTypeChar {c : Char} (hc : isTypeChar c) :
    isDeclChar c := by
  simp only [isTypeChar, isBlank, isDeclChar, Bool.or_eq_true,
    Bool.and_eq_true] at hc ⊢
  tauto

theorem through_type (hw : ∀ c ∈ w, isTypeChar c) : Through depth w :=
  through_chars fun c hc => isDeclChar_of_isTypeChar (hw c hc)

theorem through_words (hw : ∀ c ∈ w, isWord c) : Through depth w :=
  through_type fun c hc => by simp [isTypeChar, hw c hc]

theorem through_blanks (hw : Blanks w) : Through depth w :=
  through_type fun c hc => by simp [isTypeChar, hw c hc]

theorem through_brackets (hw : IsSize w) : Through depth (brackets w) := by
  refine through_chars fun c hc => ?_
  rcases List.mem_append.mp hc with hc | hc
  · rcases List.mem_cons.mp hc with rfl | hc
    · rfl
    · by_contra hdecl
      refine hw.not_mem (c := c) ?_ hc
      by_contra hword
      exact hdecl (by simp [isDeclChar, show isWord c by simpa using hword])
  · rw [List.mem_singleton.mp hc]
    rfl

theorem through_paramsType {q : Text} (hdepth : depth = 1) (hq : ParamsText q) :
    Through depth (toShimType (parens q)) := by
  by_cases htaken : TakenWhole (parens q)
  · exact through_type (toShimType_taken hq htaken)
  · obtain ⟨q', hq', hQ⟩ := toShimType_parens hq htaken
    rw [hQ]
    exact through_parens (by omega) (through_params (by omega) hq')

theorem through_functionPointer {R n q : Text} (hR : ∀ c ∈ R, isTypeChar c)
    (hn : WordText n) (hq : ParamsText q) :
    Through 1 (R ++ '(' :: '*' :: (n ++ ')' :: toShimType (parens q))) := by
  have hname : Through 1 (parens ('*' :: n)) :=
    through_parens (by decide) (Through.append (w := ['*'])
      (through_chars (by simp [isDeclChar])) (through_words hn.chars))
  have h := ((through_type hR).append hname).append (through_paramsType rfl hq)
  simpa [parens] using h

theorem through_emitted {p : Param} (h : p.Ok) : Through 1 (p.emitted i) := by
  have hblank : Blanks " ".toList := (separated_blank []).blanks
  cases p with
  | plain t g n =>
      exact ((through_type h.1.toShimType.chars).append
        (through_blanks hblank)).append (through_words h.2.2.1.chars)
  | unnamed t =>
      exact ((through_type h.1.toShimType.chars).append
        (through_blanks hblank)).append (through_words (argName_word i).chars)
  | array e g n sz =>
      obtain ⟨he, hg, hn, hsz⟩ := h
      refine ((through_type he.chars).append (Through.append
        (through_blanks fun c hc => ?_) (through_blanks hblank))).append
        ((through_words hn.chars).append (through_brackets hsz))
      exact hg.blanks c (List.mem_of_mem_dropLast hc)
  | funPtr r g n ws q =>
      obtain ⟨hr, hg, hn, -, hq, -⟩ := h
      refine through_functionPointer (toShimType_forall (fun _ hc => hc)
        fun c hc => ?_) hn hq
      rcases List.mem_append.mp hc with hc | hc
      · exact hr.chars c hc
      · simp [isTypeChar, hg c hc]
  | loneArray e sz =>
      exact ((through_type h.1.chars).append (through_blanks hblank)).append
        ((through_words (argName_word i).chars).append (through_brackets h.2.1))
  | loneFunPtr r q =>
      exact through_functionPointer h.1.toShimType.chars (argName_word i) h.2.1
  | void =>
      exact through_chars (List.all_eq_true.mp
        (show "void ".toList.all isDeclChar by decide +kernel))
  | ellipsis =>
      exact through_chars (List.all_eq_true.mp
        (show " ...".toList.all isDeclChar by decide +kernel))

theorem splitChar_close (hdepth : st.depth = 1) :
    splitChar proto st ')' i = .ok
      { st with depth := st.depth - 1, parts := st.parts ++ [st.decl] } := by
  rw [splitChar, if_neg (by decide), if_pos rfl, if_pos (by omega)]

theorem splitChar_separate (hdepth : st.depth = 1) :
    splitChar proto st ',' i = .ok
      { st with parts := st.parts ++ [st.decl], decl := [] } := by
  rw [splitChar, if_neg (by decide), if_neg (by decide), if_pos rfl,
    if_pos hdepth]

/-- The declarations of a header are split at the commas between them. -/
theorem splitChars_decls (d : Text) (ds : List Text) (hdepth : st.depth = 1)
    (h : ∀ x ∈ d :: ds, Through 1 x) :
    ∃ st', splitChars proto st i (join ", ".toList (d :: ds) ++ [')']) = .ok st' ∧
      st'.parts = st.parts ++ (st.decl ++ d) :: ds.map (' ' :: ·) := by
  induction ds generalizing d st i with
  | nil =>
      rw [join, List.intercalate_singleton, (h d (by simp)).split proto st i _ hdepth]
      exact ⟨_, splitChars_cons (splitChar_close hdepth), rfl⟩
  | cons d' ds ih =>
      have hsplit : join ", ".toList (d :: d' :: ds) ++ [')'] =
          d ++ ',' :: ' ' :: (join ", ".toList (d' :: ds) ++ [')']) := by
        simp [join, List.intercalate_cons_cons]
      obtain ⟨st', hst', hparts⟩ := @ih
        { st with parts := st.parts ++ [st.decl ++ d], decl := [' '] }
        (i + d.length + 1 + 1) d' hdepth fun x hx => h x (by simp [hx])
      refine ⟨st', ?_, ?_⟩
      · rw [hsplit, (h d (by simp)).split proto st i _ hdepth]
        refine (splitChars_cons (splitChar_separate (by exact hdepth))).trans ?_
        exact (splitChars_cons (splitChar_of_isDeclChar rfl)).trans hst'
      · rw [hparts]
        simp

theorem gsub_comment_of_no_slash {f : Match → Text} (h : '/' ∉ s) :
    commentRegex.gsub f s = s := by
  refine gsub_of_search_none ?_
  rw [← Option.not_isSome_iff_eq_none, search_isSome]
  rintro ⟨u, w, v, rfl, hw⟩
  obtain ⟨w', rfl, -⟩ := spans_seq_lit.mp hw
  exact h (by simp)

theorem no_slash_join {ds : List Text} (h : ∀ d ∈ ds, '/' ∉ d) :
    '/' ∉ join ", ".toList ds := by
  induction ds with
  | nil => exact nofun
  | cons d ds ih =>
      cases ds with
      | nil =>
          rw [join, List.intercalate_singleton]
          exact h d (by simp)
      | cons d' ds =>
          have hrest := ih fun x hx => h x (by simp [hx])
          rw [join, List.intercalate_cons_cons]
          intro hmem
          rcases List.mem_append.mp hmem with hmem | hmem
          · rcases List.mem_append.mp hmem with hmem | hmem
            · exact h d (by simp) hmem
            · exact absurd hmem (by decide +kernel)
          · exact hrest hmem

/-- A header is split into its front and its declarations. -/
theorem splitPrototype_header {front : Text} {ds : List Text}
    (hfront : ∀ c ∈ front, isDeclChar c) (hds : ∀ d ∈ ds, Through 1 d)
    (hne : ∀ d ∈ front :: ds, strip d ≠ []) :
    ∃ parts, splitPrototype (front ++ '(' :: (join ", ".toList ds ++ [')'])) =
        .ok parts ∧
      parts.filter (· ≠ []) = (front :: ds).map strip := by
  have hthrough : Through 0 front := through_chars hfront
  have hslash : '/' ∉ front ++ '(' :: (join ", ".toList ds ++ [')']) := by
    have hjoin := no_slash_join fun d hd => (hds d hd).no_slash
    simpa [hthrough.no_slash] using hjoin
  have hopen : ∀ proto i, splitChar proto ⟨[], 0, front⟩ '(' i =
      .ok ⟨[front], 1, []⟩ := fun _ _ => rfl
  rw [splitPrototype, gsub_comment_of_no_slash hslash,
    hthrough.split _ ⟨[], 0, []⟩ 0 _ rfl]
  have hstart : ∀ proto i s, splitChars proto ⟨[], 0, [] ++ front⟩ i ('(' :: s) =
      splitChars proto ⟨[front], 1, []⟩ (i + 1) s :=
    fun proto i s => splitChars_cons (hopen proto i)
  rw [hstart]
  have hfilter : ∀ l : List Text, (∀ d ∈ l, strip d ≠ []) →
      (l.map strip).filter (· ≠ []) = l.map strip := by
    intro l hl
    rw [List.filter_eq_self]
    intro x hx
    obtain ⟨d, hd, rfl⟩ := List.mem_map.mp hx
    simpa using hl d hd
  cases ds with
  | nil =>
      refine ⟨[strip front, strip []], rfl, ?_⟩
      have hempty : strip [] = [] := rfl
      simp [hempty, hne front (by simp)]
  | cons d ds =>
      obtain ⟨st', hst', hparts⟩ := @splitChars_decls
        (front ++ '(' :: (join ", ".toList (d :: ds) ++ [')'])) ⟨[front], 1, []⟩
        (0 + front.length + 1) d ds rfl hds
      refine ⟨st'.parts.map strip, ?_, ?_⟩
      · rw [hst']
        rfl
      · have hspaces : (ds.map (' ' :: ·)).map strip = ds.map strip := by
          rw [List.map_map]
          exact List.map_congr_left fun x _ => strip_cons_blank rfl
        have hmap : st'.parts.map strip = (front :: d :: ds).map strip := by
          rw [hparts]
          simp only [List.nil_append, List.map_cons, List.cons_append, hspaces]
        rw [hmap]
        exact hfilter _ hne

end Splitting

end Libc6Shim
