import Libc6Shim.WrapperGen

/-!
# Types as Linux has them

What `to_shim_type` makes of a type and of a parameter list, as a text:
which characters there are, and which come first and last. The rules of its
cascade look at a type from its beginning, except for one group of them: ten
types have to be spelled just so, and are not known with a blank behind
them.
-/

namespace Libc6Shim

open Ruby Regex

/-! ## Characters -/

/-- A blank within a line. -/
def isBlank (c : Char) : Bool := isSpace c && c != '\n'

/-- A character of a type. -/
def isTypeChar (c : Char) : Bool := isWord c || isBlank c || c == '*'

/-- A text whose first character is no blank. -/
def BeginsBare (s : Text) : Prop := ∃ c t, s = c :: t ∧ isSpace c = false

/-- A text whose last character is no blank. -/
def EndsBare (s : Text) : Prop := ∃ c t, s = t ++ [c] ∧ isSpace c = false

/-- A type: words, blanks and asterisks. -/
structure TypeText (s : Text) : Prop where
  begins : BeginsBare s
  ends : EndsBare s
  chars : ∀ c ∈ s, isTypeChar c

/-- A character of a parameter list. -/
def isParamsChar (c : Char) : Bool := (isDeclChar c && c != '\n') || c == ','

/-- What stands in the parentheses of a parameter list. -/
structure ParamsText (s : Text) : Prop where
  ne_nil : s ≠ []
  chars : ∀ c ∈ s, isParamsChar c

/-- Nothing but blanks. -/
def Blanks (s : Text) : Prop := ∀ c ∈ s, isBlank c

/-! ## Matches -/

section Matches

variable {b : Bool} {s : Text} {m : Match}

theorem sigsetRegex_nonempty : sigsetRegex.Nonempty := nonempty_of_takes rfl

theorem structRegex_nonempty : structRegex.Nonempty := nonempty_of_takes rfl

/-- What one of two literal texts takes. -/
theorem goes_oneOf_pair {w w' : String} {a c : Place} {u : Text}
    (h : (oneOf [w, w']).Goes a u c) : u = w.toList ∨ u = w'.toList := by
  obtain ⟨x, hx, h⟩ := goes_oneOf.mp h
  rw [(goes_lit.mp h).1]
  simp only [List.mem_cons, List.not_mem_nil, or_false] at hx
  rcases hx with rfl | rfl
  · exact .inl rfl
  · exact .inr rfl

/-- A match of `sigsetRegex`: the name of a type and what stands beside it. -/
theorem sigsetRegex_match (hm : sigsetRegex.matchAt b s = some m) :
    m.matched = m.text 1 ++ m.text 2 ++ m.text 3 ∧
      (m.text 1 = [] ∨ ∃ c, isSpace c ∧ m.text 1 = [c]) ∧
      (m.text 2 = "stack_t".toList ∨ m.text 2 = "sigset_t".toList) ∧
      (m.text 3 = [] ∨ ∃ c, m.text 3 = [c]) := by
  obtain ⟨a, ha, hs, hafter, hgroups⟩ := matchAt_split hm
  simp only [sigsetRegex, cat, goes_seq, goes_group] at ha
  obtain ⟨u₁, -, hmatched, -, ⟨a₁, h₁, rfl⟩, u₂, u₃, rfl, -,
    ⟨a₂, h₂, rfl⟩, a₃, h₃, rfl⟩ := ha
  have hgroup₁ : a₁.groups = fun _ => none := groups_of_ungrouped rfl h₁
  have hgroup₂ := groups_of_ungrouped rfl h₂
  have hgroup₃ := groups_of_ungrouped rfl h₃
  have htext : m.text 1 = u₁ ∧ m.text 2 = u₂ ∧ m.text 3 = u₃ := by
    simp only [Match.text, hgroups, hgroup₃, hgroup₂, hgroup₁]
    simp [Function.update]
  obtain ⟨rfl, rfl, rfl⟩ := htext
  refine ⟨by rw [hmatched, List.append_assoc], ?_, ?_, ?_⟩
  · rcases goes_alt.mp h₁ with h₁ | h₁
    · exact .inl (goes_bol.mp h₁).2.1
    · obtain ⟨x, hx, hu, -⟩ := goes_cls.mp h₁
      exact .inr ⟨x, hx, hu⟩
  · exact goes_oneOf_pair h₂
  · rcases goes_alt.mp h₃ with h₃ | h₃
    · exact .inl (goes_eol.mp h₃).2.1
    · obtain ⟨x, -, hu, -⟩ := goes_cls.mp h₃
      exact .inr ⟨x, hu⟩

theorem structRegex_match (hm : structRegex.matchAt b s = some m) :
    ∃ w, m.matched = "struct".toList ++ w ∧ w ≠ [] ∧ ∀ c ∈ w, isSpace c := by
  obtain ⟨a, ha, -⟩ := matchAt_split hm
  simp only [structRegex, cat, str, goes_seq] at ha
  obtain ⟨u, w, hmatched, a₁, h₁, h₂⟩ := ha
  obtain ⟨hne, hw, -⟩ := goes_plus.mp h₂
  rw [(goes_lit.mp h₁).1] at hmatched
  exact ⟨w, hmatched, hne, hw⟩

theorem clockidRegex_text (hm : clockidRegex.search s = some m) :
    m.text 1 = "*".toList ∨ m.text 1 = [] := by
  obtain ⟨b, -, v, u, a, -, ha, hgroups⟩ := search_goes hm
  simp only [clockidRegex, cat, goes_seq, goes_group] at ha
  obtain ⟨u₁, u₂, -, a₁, -, a₂, h₂, rfl⟩ := ha
  have htext : m.text 1 = u₂ := by simp [Match.text, hgroups]
  rw [htext]
  exact goes_oneOf_pair h₂

theorem globRegex_text (hm : globRegex.search s = some m) :
    (m.text 1 = "64".toList ∨ m.text 1 = []) ∧
      (m.text 2 = [] ∨ ∃ c, isSpace c ∧ m.text 2 = c :: "restrict".toList) := by
  obtain ⟨b, -, v, u, a, -, ha, hgroups⟩ := search_goes hm
  simp only [globRegex, cat, goes_seq, goes_group] at ha
  obtain ⟨u₁, -, -, a₁, -, u₂, -, -, -, ⟨a₂, h₂, rfl⟩, u₃, u₄, -, a₃, h₃,
    a₄, h₄, rfl⟩ := ha
  have hgroup₃ := groups_of_ungrouped rfl h₃
  have hgroup₄ := groups_of_ungrouped rfl h₄
  have htext : m.text 1 = u₂ ∧ m.text 2 = u₄ := by
    simp only [Match.text, hgroups, hgroup₄, hgroup₃]
    simp [Function.update]
  rw [htext.1, htext.2]
  constructor
  · exact goes_oneOf_pair h₂
  · rcases goes_alt.mp h₄ with h₄ | h₄
    · obtain ⟨v₁, v₂, rfl, a₅, h₅, h₆⟩ := goes_seq.mp h₄
      obtain ⟨x, hx, rfl, -⟩ := goes_cls.mp h₅
      exact .inr ⟨x, hx, by rw [(goes_lit.mp h₆).1]; rfl⟩
    · exact .inl (goes_empty.mp h₄).1

/-- A match of `pthreadAttrRegex` begins a line. -/
theorem pthreadAttrRegex_match (hm : pthreadAttrRegex.search s = some m) :
    (m.text 1 = "const ".toList ∨ m.text 1 = []) ∧
      (m.text 2 = "barrier".toList ∨ m.text 2 = "cond".toList ∨
        m.text 2 = "mutex".toList ∨ m.text 2 = "rwlock".toList) ∧
      ∃ u v, s = u ++ (m.text 1 ++ ("pthread_".toList ++
          (m.text 2 ++ "attr_t*".toList))) ++ v ∧ bolAfter true u = true := by
  obtain ⟨u, v, m', rfl, hat, hgroups⟩ := matchAt_of_search hm
  obtain ⟨a, ha, hv, -, hgroups'⟩ := matchAt_split hat
  simp only [pthreadAttrRegex, cat, goes_seq, goes_group, goes_bol] at ha
  obtain ⟨_, w, hmatched, a₀, ⟨hbol, rfl, rfl⟩, c, _, rfl, _, ⟨a₁, h₁, rfl⟩, p, _,
    rfl, a₂, h₂, k, t, rfl, _, ⟨a₃, h₃, rfl⟩, h₄⟩ := ha
  have hgroup₂ := groups_of_ungrouped rfl h₂
  have hgroup₃ := groups_of_ungrouped rfl h₃
  have hgroup₄ := groups_of_ungrouped rfl h₄
  have htext : m.text 1 = c ∧ m.text 2 = k := by
    simp only [Match.text, hgroups, hgroups', hgroup₄, hgroup₃, hgroup₂]
    simp [Function.update]
  rw [htext.1, htext.2, hv, hmatched, (goes_lit.mp h₂).1, (goes_lit.mp h₄).1]
  refine ⟨goes_oneOf_pair h₁, ?_, u, m'.after, ?_, hbol⟩
  · obtain ⟨x, hx, h₃⟩ := goes_oneOf.mp h₃
    rw [(goes_lit.mp h₃).1]
    simp only [List.mem_cons, List.not_mem_nil, or_false] at hx
    rcases hx with rfl | rfl | rfl | rfl
    · exact .inl rfl
    · exact .inr (.inl rfl)
    · exact .inr (.inr (.inl rfl))
    · exact .inr (.inr (.inr rfl))
  · simp only [List.append_assoc, List.nil_append]

end Matches

/-! ## The characters of the result -/

section Chars

variable {P : Char → Prop} {s : Text} {c : Char}

theorem forall_of_within {u : Text} (hs : ∀ c ∈ s, P c) (hu : u <:+: s) :
    ∀ c ∈ u, P c :=
  fun c hc => hs c (hu.subset hc)

theorem shimTypeTable_chars :
    ∀ p ∈ shimTypeTable, p.2.all isTypeChar := by
  decide +kernel

theorem mem_of_lookup {α β : Type} [BEq α] [LawfulBEq α] {l : List (α × β)}
    {k : α} {b : β} (h : l.lookup k = some b) : (k, b) ∈ l := by
  obtain ⟨l₁, l₂, rfl, -⟩ := List.lookup_eq_some_iff.mp h
  simp

/-- A literal of the generator's has characters of types only. -/
theorem forall_of_all (hP : ∀ c, isTypeChar c → P c) {w : Text}
    (hw : w.all isTypeChar) : ∀ c ∈ w, P c :=
  fun c hc => hP c (List.all_eq_true.mp hw c hc)

theorem forall_append {u v : Text} (hu : ∀ c ∈ u, P c) (hv : ∀ c ∈ v, P c) :
    ∀ c ∈ u ++ v, P c := by
  intro c hc
  rcases List.mem_append.mp hc with hc | hc
  · exact hu c hc
  · exact hv c hc

theorem toShimTypeRest_forall (hP : ∀ c, isTypeChar c → P c)
    (hs : ∀ c ∈ s, P c) : ∀ c ∈ toShimTypeRest s, P c := by
  unfold toShimTypeRest
  split
  · rename_i m hm
    exact forall_append (forall_append (forall_append
      (forall_of_within hs (search_text_within hm 1)) (forall_of_all hP rfl))
      (forall_of_within hs (search_text_within hm 2))) (forall_of_all hP rfl)
  · split
    · refine gsub_forall sigsetRegex_nonempty hs fun b t m hm ht => ?_
      exact forall_append (forall_append (forall_append
        (forall_of_within ht (matchAt_text_within hm 1)) (forall_of_all hP rfl))
        (forall_of_within ht (matchAt_text_within hm 2)))
        (forall_of_within ht (matchAt_text_within hm 3))
    · exact gsub_forall structRegex_nonempty hs fun _ _ _ _ _ =>
        forall_of_all hP rfl

/-- A type gets no characters but such as types have. -/
theorem toShimType_forall (hP : ∀ c, isTypeChar c → P c)
    (hs : ∀ c ∈ s, P c) : ∀ c ∈ toShimType s, P c := by
  unfold toShimType
  split
  · rename_i m hm
    exact forall_append (forall_of_all hP rfl)
      (forall_of_within hs (search_text_within hm 1))
  · split
    · exact forall_of_all hP rfl
    · split
      · rename_i m hm
        exact forall_append (forall_append (forall_append
          (forall_of_all hP rfl)
          (forall_of_within hs (search_text_within hm 1)))
          (forall_of_all hP rfl))
          (forall_of_within hs (search_text_within hm 2))
      · split
        · rename_i shimType hlookup
          exact forall_of_all hP
            (shimTypeTable_chars _ (mem_of_lookup hlookup))
        · exact toShimTypeRest_forall hP hs

end Chars

/-! ## The ends of the result -/

section Ends

variable {s : Text} {c : Char}

theorem BeginsBare.append (h : BeginsBare s) (t : Text) : BeginsBare (s ++ t) := by
  obtain ⟨c, u, rfl, hc⟩ := h
  exact ⟨c, u ++ t, rfl, hc⟩

theorem EndsBare.append (h : EndsBare s) (t : Text) : EndsBare (t ++ s) := by
  obtain ⟨c, u, rfl, hc⟩ := h
  exact ⟨c, t ++ u, by rw [List.append_assoc], hc⟩

theorem endsBare_iff :
    EndsBare s ↔ ∃ c, s.getLast? = some c ∧ isSpace c = false := by
  constructor
  · rintro ⟨c, t, rfl, hc⟩
    exact ⟨c, by simp, hc⟩
  · rintro ⟨c, hlast, hc⟩
    obtain ⟨t, ht⟩ := List.getLast?_eq_some_iff.mp hlast
    exact ⟨c, t, ht, hc⟩

theorem beginsBare_gsub_sigset (hs : BeginsBare s) :
    BeginsBare (sigsetRegex.gsub linuxSigset s) := by
  obtain ⟨c, t, rfl, hc⟩ := hs
  rcases gsub_cons sigsetRegex_nonempty linuxSigset c t with
    ⟨u, hu⟩ | ⟨m, u, hm, hu⟩
  · exact ⟨c, u, hu, hc⟩
  · obtain ⟨hmatched, htext₁ | ⟨d, hd, htext₁⟩, -, -⟩ := sigsetRegex_match hm
    · rw [hu, linuxSigset, htext₁]
      exact ⟨'l', _, rfl, rfl⟩
    · obtain ⟨-, -, hsplit, -⟩ := matchAt_split hm
      rw [hmatched, htext₁] at hsplit
      obtain rfl : c = d := (List.cons.inj hsplit).1
      rw [hc] at hd
      cases hd

theorem beginsBare_gsub_struct (hs : BeginsBare s) :
    BeginsBare (structRegex.gsub (fun _ => "linux_".toList) s) := by
  obtain ⟨c, t, rfl, hc⟩ := hs
  rcases gsub_cons structRegex_nonempty (fun _ => "linux_".toList) c t with
    ⟨u, hu⟩ | ⟨m, u, -, hu⟩
  · exact ⟨c, u, hu, hc⟩
  · exact ⟨'l', _, hu, rfl⟩

theorem getLast?_gsub_sigset (s : Text) :
    (sigsetRegex.gsub linuxSigset s).getLast? = s.getLast? := by
  refine @getLast?_gsub _ _ _ (fun _ => True) sigsetRegex_nonempty
    (fun _ _ => trivial) ?_
  intro b t m hm hafter _
  obtain ⟨hmatched, -, htext₂, -⟩ := sigsetRegex_match hm
  obtain ⟨-, -, hsplit, -⟩ := matchAt_split hm
  rw [hsplit, hafter, List.append_nil, hmatched, linuxSigset]
  rcases htext₂ with htext₂ | htext₂
  · simp [htext₂]
  · simp [htext₂]

theorem getLast?_gsub_struct (hs : EndsBare s) :
    (structRegex.gsub (fun _ => "linux_".toList) s).getLast? =
      s.getLast? := by
  refine @getLast?_gsub _ _ _ (fun c => isSpace c = false)
    structRegex_nonempty ?_ ?_
  · intro c hc
    obtain ⟨d, hd, hbare⟩ := endsBare_iff.mp hs
    obtain rfl := Option.some.inj (hd.symm.trans hc)
    exact hbare
  · intro b t m hm hafter hbare
    -- a match ends with a blank, and cannot be at the end
    obtain ⟨w, hmatched, hne, hw⟩ := structRegex_match hm
    obtain ⟨-, -, hsplit, -⟩ := matchAt_split hm
    rw [hafter, List.append_nil, hmatched] at hsplit
    have hlast := List.getLast?_eq_some_getLast hne
    have hspace := hw _ (List.getLast_mem hne)
    rw [hbare _ (by rw [hsplit, List.getLast?_append, hlast]; rfl)] at hspace
    cases hspace

theorem endsBare_gsub_sigset (hs : EndsBare s) :
    EndsBare (sigsetRegex.gsub linuxSigset s) := by
  rw [endsBare_iff, getLast?_gsub_sigset]
  exact endsBare_iff.mp hs

theorem endsBare_gsub_struct (hs : EndsBare s) :
    EndsBare (structRegex.gsub (fun _ => "linux_".toList) s) := by
  rw [endsBare_iff, getLast?_gsub_struct hs]
  exact endsBare_iff.mp hs

theorem shimTypeTable_ends :
    ∀ p ∈ shimTypeTable, p.2.head?.any (!isSpace ·) ∧
      p.2.getLast?.any (!isSpace ·) := by
  decide +kernel

theorem beginsBare_of_head? (h : s.head?.any (!isSpace ·)) : BeginsBare s := by
  cases s with
  | nil => cases h
  | cons c t => exact ⟨c, t, rfl, by simpa using h⟩

theorem endsBare_of_getLast? (h : s.getLast?.any (!isSpace ·)) : EndsBare s := by
  obtain ⟨c, hc, hbare⟩ := Option.any_eq_true _ _ |>.mp h
  exact endsBare_iff.mpr ⟨c, hc, by simpa using hbare⟩

theorem beginsBare_toShimTypeRest (hs : BeginsBare s) :
    BeginsBare (toShimTypeRest s) := by
  unfold toShimTypeRest
  split
  · rename_i m hm
    rcases (pthreadAttrRegex_match hm).1 with htext | htext
    · rw [htext]
      exact ⟨'c', _, rfl, rfl⟩
    · rw [htext]
      exact ⟨'l', _, rfl, rfl⟩
  · split
    · exact beginsBare_gsub_sigset hs
    · exact beginsBare_gsub_struct hs

/-- A type that does not begin with a blank becomes one that does not. -/
theorem beginsBare_toShimType (hs : BeginsBare s) :
    BeginsBare (toShimType s) := by
  unfold toShimType
  split
  · exact ⟨'l', _, rfl, rfl⟩
  · split
    · exact ⟨'l', _, rfl, rfl⟩
    · split
      · exact ⟨'l', _, rfl, rfl⟩
      · split
        · rename_i hlookup
          exact beginsBare_of_head?
            (shimTypeTable_ends _ (mem_of_lookup hlookup)).1
        · exact beginsBare_toShimTypeRest hs

theorem endsBare_toShimTypeRest (hs : EndsBare s) :
    EndsBare (toShimTypeRest s) := by
  unfold toShimTypeRest
  split
  · exact EndsBare.append ⟨'*', "attr_t".toList, rfl, rfl⟩ _
  · split
    · exact endsBare_gsub_sigset hs
    · exact endsBare_gsub_struct hs

theorem endsBare_toShimType (hs : EndsBare s) : EndsBare (toShimType s) := by
  unfold toShimType
  split
  · rename_i m hm
    rcases clockidRegex_text hm with htext | htext
    · rw [htext]
      exact ⟨'*', "linux_clockid_t".toList, rfl, rfl⟩
    · rw [htext]
      exact ⟨'t', "linux_clockid_".toList, rfl, rfl⟩
  · split
    · exact ⟨'*', "linux_cpu_set_t".toList, rfl, rfl⟩
    · split
      · rename_i m hm
        obtain ⟨-, htext | ⟨c, -, htext⟩⟩ := globRegex_text hm
        · rw [htext, List.append_nil]
          exact EndsBare.append ⟨'*', "_t".toList, rfl, rfl⟩ _
        · rw [htext]
          exact EndsBare.append ⟨'t', c :: "restric".toList, rfl, rfl⟩ _
      · split
        · rename_i hlookup
          exact endsBare_of_getLast?
            (shimTypeTable_ends _ (mem_of_lookup hlookup)).2
        · exact endsBare_toShimTypeRest hs

/-- A type becomes a type. -/
theorem TypeText.toShimType (hs : TypeText s) : TypeText (toShimType s) where
  begins := beginsBare_toShimType hs.begins
  ends := endsBare_toShimType hs.ends
  chars := toShimType_forall (fun _ hc => hc) hs.chars

end Ends

/-! ## Parameter lists -/

section Params

variable {q : Text} {c : Char}

/-- In parentheses. -/
def parens (q : Text) : Text := '(' :: q ++ [')']

theorem ParamsText.no_paren (hq : ParamsText q) : '(' ∉ q ∧ ')' ∉ q :=
  ⟨fun h => absurd (hq.chars _ h) (by decide),
    fun h => absurd (hq.chars _ h) (by decide)⟩

theorem count_parens (hq : ParamsText q) (hc : c = '(' ∨ c = ')') :
    (parens q).count c = 1 := by
  obtain ⟨hopen, hclose⟩ := hq.no_paren
  rcases hc with rfl | rfl
  · simp [parens, List.count_eq_zero.mpr hopen]
  · simp [parens, List.count_eq_zero.mpr hclose]

/-- A text between one pair of parentheses is a parameter list. -/
theorem params_of_ends {s : Text} (hfirst : ∃ t, s = '(' :: t)
    (hlast : s.getLast? = some ')') (hopen : s.count '(' = 1)
    (hclose : s.count ')' = 1)
    (hchars : ∀ c ∈ s, isParamsChar c ∨ c = '(' ∨ c = ')')
    (hmore : ∃ c ∈ s, c ≠ '(' ∧ c ≠ ')') : ∃ q, ParamsText q ∧ s = parens q := by
  obtain ⟨t, rfl⟩ := hfirst
  obtain ⟨u, hu⟩ := List.getLast?_eq_some_iff.mp hlast
  cases u with
  | nil => cases hu
  | cons d q =>
      obtain ⟨rfl, rfl⟩ := List.cons.inj hu
      have hq₁ : '(' ∉ q := by
        rw [← List.count_eq_zero]
        simpa using hopen
      have hq₂ : ')' ∉ q := by
        rw [← List.count_eq_zero]
        simpa using hclose
      refine ⟨q, ⟨?_, ?_⟩, rfl⟩
      · rintro rfl
        obtain ⟨c, hc, hne, hne'⟩ := hmore
        simp [hne, hne'] at hc
      · intro c hc
        rcases hchars c (by simp [hc]) with h | rfl | rfl
        · exact h
        · exact absurd hc hq₁
        · exact absurd hc hq₂

theorem matchAt_sigset_parens (b : Bool) (t : Text) :
    sigsetRegex.matchAt b ('(' :: t) = none := by
  cases hm : sigsetRegex.matchAt b ('(' :: t) with
  | none => rfl
  | some m =>
      exfalso
      obtain ⟨hmatched, htext₁, htext₂, -⟩ := sigsetRegex_match hm
      obtain ⟨-, -, hsplit, -⟩ := matchAt_split hm
      rw [hmatched] at hsplit
      rcases htext₁ with htext₁ | ⟨d, hd, htext₁⟩
      · rw [htext₁] at hsplit
        rcases htext₂ with htext₂ | htext₂
        · rw [htext₂] at hsplit
          exact absurd (List.cons.inj hsplit).1 (by decide)
        · rw [htext₂] at hsplit
          exact absurd (List.cons.inj hsplit).1 (by decide)
      · rw [htext₁] at hsplit
        obtain rfl := (List.cons.inj hsplit).1
        exact absurd hd (by decide)

theorem matchAt_struct_parens (b : Bool) (t : Text) :
    structRegex.matchAt b ('(' :: t) = none := by
  cases hm : structRegex.matchAt b ('(' :: t) with
  | none => rfl
  | some m =>
      exfalso
      obtain ⟨w, hmatched, -⟩ := structRegex_match hm
      obtain ⟨-, -, hsplit, -⟩ := matchAt_split hm
      rw [hmatched] at hsplit
      exact absurd (List.cons.inj hsplit).1 (by decide)

/-- A substitution that leaves parentheses alone, and puts in more than
those, makes a parameter list of one. -/
theorem gsub_parens {r : Regex} {f : Match → Text} (hr : r.Nonempty)
    (hq : ParamsText q)
    (hfirst : ∀ t, r.matchAt true ('(' :: t) = none)
    (hcount : ∀ b t m c, r.matchAt b t = some m → isSpace c = false →
      isWord c = false → (f m).count c = m.matched.count c)
    (hlast : (r.gsub f (parens q)).getLast? = (parens q).getLast?)
    (hchars : ∀ c ∈ r.gsub f (parens q), isParamsChar c ∨ c = '(' ∨ c = ')')
    (hmore : ∀ b t m, r.matchAt b t = some m → ∃ c ∈ f m, c ≠ '(' ∧ c ≠ ')') :
    ∃ q', ParamsText q' ∧ r.gsub f (parens q) = parens q' := by
  obtain ⟨d, hd⟩ := List.exists_mem_of_ne_nil q hq.ne_nil
  refine params_of_ends ?_ ?_ ?_ ?_ hchars ?_
  · rcases gsub_cons hr f '(' (q ++ [')']) with hout | ⟨m, t, hm, -⟩
    · exact hout
    · rw [hfirst] at hm
      cases hm
  · rw [hlast]
    exact List.getLast?_concat
  · rw [count_gsub hr fun b t m hm => hcount b t m '(' hm rfl rfl]
    exact count_parens hq (.inl rfl)
  · rw [count_gsub hr fun b t m hm => hcount b t m ')' hm rfl rfl]
    exact count_parens hq (.inr rfl)
  · refine gsub_exists hr ⟨d, by simp [parens, hd], ?_, ?_⟩ hmore
    · rintro rfl
      exact hq.no_paren.1 hd
    · rintro rfl
      exact hq.no_paren.2 hd

theorem parens_forall (hq : ParamsText q) :
    ∀ c ∈ parens q, isParamsChar c ∨ c = '(' ∨ c = ')' := by
  intro c hc
  rcases List.mem_cons.mp hc with rfl | hc
  · exact .inr (.inl rfl)
  · rcases List.mem_append.mp hc with hc | hc
    · exact .inl (hq.chars c hc)
    · exact .inr (.inr (List.mem_singleton.mp hc))

theorem isParamsChar_of_isTypeChar (hc : isTypeChar c) : isParamsChar c := by
  have hnl : c ≠ '\n' := by
    rintro rfl
    exact absurd hc (by decide)
  simp only [isTypeChar, isBlank, isParamsChar, isDeclChar, Bool.or_eq_true,
    Bool.and_eq_true] at hc ⊢
  refine .inl ⟨?_, by simpa using hnl⟩
  rcases hc with (hc | ⟨hc, -⟩) | hc
  · simp [hc]
  · simp [hc]
  · simp [hc]

theorem count_eq_zero_of_words {w : Text} (hw : w.all isWord)
    (hc : isWord c = false) : w.count c = 0 := by
  rw [List.count_eq_zero]
  intro hmem
  rw [List.all_eq_true.mp hw c hmem] at hc
  cases hc

theorem gsub_sigset_parens (hq : ParamsText q) :
    ∃ q', ParamsText q' ∧
      sigsetRegex.gsub linuxSigset (parens q) = parens q' := by
  refine gsub_parens sigsetRegex_nonempty hq (matchAt_sigset_parens true) ?_
    (getLast?_gsub_sigset _) ?_ ?_
  · intro b t m c hm _ hc
    have hlinux : "linux_".toList.count c = 0 :=
      count_eq_zero_of_words (by decide) hc
    rw [(sigsetRegex_match hm).1, linuxSigset]
    simp only [List.count_append, hlinux, Nat.add_zero]
  · refine gsub_forall sigsetRegex_nonempty (parens_forall hq) ?_
    intro b t m hm ht
    exact forall_append (forall_append (forall_append
      (forall_of_within ht (matchAt_text_within hm 1))
      (forall_of_all (fun _ hc => .inl (isParamsChar_of_isTypeChar hc))
        rfl))
      (forall_of_within ht (matchAt_text_within hm 2)))
      (forall_of_within ht (matchAt_text_within hm 3))
  · intro b t m _
    exact ⟨'l', by simp [linuxSigset], by decide, by decide⟩

theorem gsub_struct_parens (hq : ParamsText q) :
    ∃ q', ParamsText q' ∧
      structRegex.gsub (fun _ => "linux_".toList) (parens q) = parens q' := by
  refine gsub_parens structRegex_nonempty hq (matchAt_struct_parens true) ?_
    (getLast?_gsub_struct ⟨')', '(' :: q, rfl, rfl⟩) ?_ ?_
  · intro b t m c hm hspace hc
    obtain ⟨w, hmatched, -, hw⟩ := structRegex_match hm
    have hstruct : "struct".toList.count c = 0 :=
      count_eq_zero_of_words (by decide) hc
    have hlinux : "linux_".toList.count c = 0 :=
      count_eq_zero_of_words (by decide) hc
    have hblanks : w.count c = 0 := by
      rw [List.count_eq_zero]
      intro hmem
      rw [hw c hmem] at hspace
      cases hspace
    rw [hmatched, List.count_append, hstruct, hlinux, hblanks]
  · exact gsub_forall structRegex_nonempty (parens_forall hq)
      fun _ _ _ _ _ => forall_of_all
        (fun _ hc => .inl (isParamsChar_of_isTypeChar hc)) rfl
  · intro b t m _
    exact ⟨'l', by simp, by decide, by decide⟩

/-- The parameter list names a type that is looked for anywhere. -/
def TakenWhole (params : Text) : Prop :=
  (clockidRegex.search params).isSome ∨ (globRegex.search params).isSome

instance (params : Text) : Decidable (TakenWhole params) :=
  inferInstanceAs (Decidable (_ ∨ _))

theorem parens_ne_cpuSet : parens q ≠ "cpu_set_t*".toList := by
  intro h
  exact absurd (List.cons.inj h).1 (by decide)

theorem toShimType_of_not_taken (htaken : ¬TakenWhole (parens q)) :
    toShimType (parens q) = toShimTypeRest (parens q) := by
  obtain ⟨hclock, hglob⟩ := not_or.mp htaken
  rw [Option.not_isSome_iff_eq_none] at hclock hglob
  have hlookup : shimTypeTable.lookup (parens q) = none := by
    rw [List.lookup_eq_none_iff]
    intro p hp
    have hhead : ∀ p ∈ shimTypeTable, p.1.head? ≠ some '(' := by
      decide +kernel
    rw [bne_iff_ne]
    intro heq
    exact hhead p hp (by rw [← heq]; rfl)
  rw [toShimType, hclock, hglob, hlookup]
  exact if_neg parens_ne_cpuSet

theorem oneLine_parens (hq : ParamsText q) : OneLine (parens q) := by
  intro hmem
  rcases parens_forall hq _ hmem with h | h | h
  · exact absurd h (by decide)
  · exact absurd h (by decide)
  · exact absurd h (by decide)

theorem pthreadAttrRegex_parens (hq : ParamsText q) :
    pthreadAttrRegex.search (parens q) = none := by
  cases hm : pthreadAttrRegex.search (parens q) with
  | none => rfl
  | some m =>
      exfalso
      simp only [pthreadAttrRegex, cat] at hm
      rw [search_bol (oneLine_parens hq)] at hm
      obtain ⟨a, ha, -⟩ := matchAt_split hm
      simp only [goes_seq, goes_group, goes_bol] at ha
      obtain ⟨_, _, -, _, ⟨-, -, rfl⟩, u₁, _, -, _, ⟨a₁, h₁, rfl⟩, u₂, _, -,
        a₂, h₂, -⟩ := ha
      have hrest : parens q = u₁ ++ a₁.rest := h₁.2
      have hrest' : a₁.rest = "pthread_".toList ++ a₂.rest := (goes_lit.mp h₂).2.1
      rw [hrest'] at hrest
      rcases goes_oneOf_pair h₁ with rfl | rfl
      · exact absurd (List.cons.inj hrest).1 (by decide)
      · exact absurd (List.cons.inj hrest).1 (by decide)

/-- A parameter list becomes one, unless a name that is looked for anywhere
is in it. -/
theorem toShimType_parens (hq : ParamsText q)
    (htaken : ¬TakenWhole (parens q)) :
    ∃ q', ParamsText q' ∧ toShimType (parens q) = parens q' := by
  rw [toShimType_of_not_taken htaken, toShimTypeRest,
    pthreadAttrRegex_parens hq]
  dsimp only
  split
  · exact gsub_sigset_parens hq
  · exact gsub_struct_parens hq

/-- In that case nothing is left of its parentheses. -/
theorem toShimType_taken (hq : ParamsText q) (htaken : TakenWhole (parens q)) :
    ∀ c ∈ toShimType (parens q), isTypeChar c := by
  have hlit : ∀ w : Text, w.all isTypeChar → ∀ c ∈ w, isTypeChar c :=
    fun w hw => forall_of_all (fun _ hc => hc) hw
  unfold toShimType
  split
  · rename_i m hm
    rcases clockidRegex_text hm with htext | htext
    · rw [htext]
      exact hlit _ rfl
    · rw [htext]
      exact hlit _ rfl
  · rename_i hclock
    have hglob := htaken.resolve_left (by rw [hclock]; exact nofun)
    obtain ⟨m, hm⟩ := Option.isSome_iff_exists.mp hglob
    rw [if_neg parens_ne_cpuSet, hm]
    dsimp only
    obtain ⟨htext₁, htext₂⟩ := globRegex_text hm
    refine forall_append (forall_append (forall_append
      (hlit _ rfl) ?_) (hlit _ rfl)) ?_
    · rcases htext₁ with htext | htext
      · rw [htext]
        exact hlit _ rfl
      · rw [htext]
        exact nofun
    · rcases htext₂ with htext | ⟨d, hd, htext⟩
      · rw [htext]
        exact nofun
      · rw [htext]
        have hnl : d ≠ '\n' := by
          rintro rfl
          exact oneLine_parens hq
            ((search_text_within hm 2).subset (by rw [htext]; simp))
        intro c hc
        rcases List.mem_cons.mp hc with rfl | hc
        · simp [isTypeChar, isBlank, hd, hnl]
        · exact hlit "restrict".toList rfl c hc

end Params

end Libc6Shim
