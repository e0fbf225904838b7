import Libc6Shim.ShimTypes

/-!
# What is passed on

A wrapper that the generator makes for itself hands its arguments on as they
are. Whether that is right depends on two lists: the types that
`to_shim_type` gives the shim's own representation, and the types that
`check_compat` turns a function down for. Neither is read off the other, and
what the second leaves out of the first (`Unseen`) is passed on unless
another type turns the function down (`passedSafely_iff`).
-/

namespace Libc6Shim

open Ruby Regex

/-! ## What is not to be passed on -/

/-- The types of the parameters, and of the result. -/
def Prototype.types (function : Prototype) : List Text :=
  (function.realArgs.map (·.type) ++ [function.type]).reduceOption

/-- Behind `u` the type names a struct. -/
structure StructAt (type u ws tag v : Text) : Prop where
  type_eq : type = u ++ "struct".toList ++ ws ++ tag ++ v
  before : ∀ c ∈ u.getLast?, isWord c = false
  ws_ne_nil : ws ≠ []
  spaces : ∀ c ∈ ws, isSpace c
  tag_ne_nil : tag ≠ []
  word : ∀ c ∈ tag, isWord c
  behind : ∀ c ∈ v.head?, isWord c = false

/-- The table has the struct as an incompatible one. -/
def Incompatible (tag : Text) : Prop :=
  structCompatibility.lookup tag = some false

/-- Somewhere in the type, be it the type of a function pointer, is a struct
that is marked as incompatible. -/
def MentionsIncompatible (type : Text) : Prop :=
  ∃ u ws tag v, StructAt type u ws tag v ∧ Incompatible tag

/-- The handles that have to be spelled so. -/
def handleSpellings : List Text :=
  ["DIR*".toList, "locale_t".toList, "pthread_once_t*".toList,
    "pthread_mutex_t*".toList]

/-- A `when` of `to_shim_type` for a handle fits the type. -/
def IsHandle (type : Text) : Prop :=
  (globRegex.search type).isSome ∨ type ∈ handleSpellings ∨
    (pthreadAttrRegex.search type).isSome ∨ (sigsetRegex.search type).isSome

/-- The same but for `pthread_rwlockattr_t`, which has another name in the
shim and no other representation. -/
def IsPrivateHandle (type : Text) : Prop :=
  (globRegex.search type).isSome ∨ type ∈ handleSpellings ∨
    (∃ m, pthreadAttrRegex.search type = some m ∧
      m.text 2 ≠ "rwlock".toList) ∨ (sigsetRegex.search type).isSome

/-- If `check_compat` accepts the function, none of its types is a handle or
mentions an incompatible struct. -/
def PassedSafely (isHandle : Text → Prop) (function : Prototype) : Prop :=
  checkCompat function = true → ∀ type ∈ function.types,
    ¬MentionsIncompatible type ∧ ¬isHandle type

/-! ## What a function is turned down for -/

/-- A line of the text begins with `w`. -/
def LineBegins (w s : Text) : Prop :=
  ∃ u v, s = u ++ w ++ v ∧ bolAfter true u = true

/-- Signals in the name. -/
def SignalName (name : Text) : Prop :=
  (LineBegins "sig".toList name ∨ "signal".toList <:+: name) ∧
    name ≠ "pthread_cond_signal".toList

/-- The text begins with a struct, which may be constant. -/
def BeginsStruct (tag s : Text) : Prop :=
  ∃ c v, (c = [] ∨ c = "const ".toList) ∧
    s = c ++ ("struct ".toList ++ (tag ++ v)) ∧ tag ≠ [] ∧
    (∀ x ∈ tag, isWord x) ∧ ∀ x ∈ v.head?, isWord x = false

/-- The first line of the text that begins with a struct begins with this
one. -/
def FirstStruct (tag s : Text) : Prop :=
  ∃ u v, s = u ++ v ∧ bolAfter true u = true ∧ BeginsStruct tag v ∧
    ∀ u' v', s = u' ++ v' → u'.length < u.length → bolAfter true u' = true →
      ∀ tag', ¬BeginsStruct tag' v'

/-- The pointers that `check_compat` knows by their names. -/
def knownPointers : List Text :=
  ["pthread_barrierattr_t*".toList, "pthread_condattr_t*".toList,
    "pthread_mutexattr_t*".toList, "pthread_mutex_t*".toList]

/-- The type has its function turned down. -/
inductive TurnsDown (type : Text) : Prop where
  | pointer (c w : Text) (hc : c = [] ∨ c = "const ".toList)
      (hw : w ∈ knownPointers) (h : LineBegins (c ++ w) type)
  | ucontext (h : "ucontext_t".toList <:+: type)
  | struct (tag : Text) (h : FirstStruct tag type)
      (hbad : structCompatibility.lookup tag ≠ some true)

/-! ## What is left out -/

/-- The name stands alone: behind a blank or nothing, and before no
character of a word. -/
def Alone (w s : Text) : Prop :=
  ∃ u v, s = u ++ w ++ v ∧ (∀ c ∈ u.getLast?, isSpace c) ∧
    ∀ c ∈ v.head?, isWord c = false

/-- What `check_compat` does not look for, of the types with a private
representation, and where it does not look for a struct: it does only at the
beginning of a line. -/
inductive UnseenPrivate (type : Text) : Prop where
  | glob (h : "glob_t*".toList <:+: type ∨ "glob64_t*".toList <:+: type)
  | spelled (h : type = "DIR*".toList ∨ type = "locale_t".toList ∨
      type = "pthread_once_t*".toList)
  | signals (h : Alone "stack_t".toList type ∨ Alone "sigset_t".toList type)
  | struct (u ws tag v : Text) (h : StructAt type u ws tag v)
      (hbad : Incompatible tag)
      (hu : ¬((u = [] ∨ u = "const ".toList) ∧ ws = " ".toList))

/-- And of the types with a name of the shim's. -/
def Unseen (type : Text) : Prop :=
  UnseenPrivate type ∨
    LineBegins "pthread_rwlockattr_t*".toList type ∨
    LineBegins "const pthread_rwlockattr_t*".toList type

/-! ## What the patterns find -/

section Patterns

variable {s tag : Text} {b : Bool} {m : Match}

theorem search_str {w : String} :
    ((str w).search s).isSome ↔ w.toList <:+: s := by
  rw [search_isSome, str]
  simp only [spans_lit]
  constructor
  · rintro ⟨u, _, v, rfl, rfl⟩
    exact ⟨u, v, List.append_assoc ..⟩
  · rintro ⟨u, v, rfl⟩
    exact ⟨u, _, v, List.append_assoc .., rfl⟩

theorem signalRegex_search :
    (signalRegex.search s).isSome ↔
      LineBegins "sig".toList s ∨ "signal".toList <:+: s := by
  rw [search_isSome]
  simp only [signalRegex, cat, str, spans_alt, spans_seq_bol, spans_lit]
  constructor
  · rintro ⟨u, _, v, rfl, ⟨hbol, rfl⟩ | rfl⟩
    · exact .inl ⟨u, v, (List.append_assoc ..).symm, hbol⟩
    · exact .inr ⟨u, v, List.append_assoc ..⟩
  · rintro (⟨u, v, rfl, hbol⟩ | ⟨u, v, rfl⟩)
    · exact ⟨u, _, v, List.append_assoc .., .inl ⟨hbol, rfl⟩⟩
    · exact ⟨u, _, v, List.append_assoc .., .inr rfl⟩

/-- The blank and `restrict` behind the type may be there or not. -/
theorem globRegex_search :
    (globRegex.search s).isSome ↔
      "glob_t*".toList <:+: s ∨ "glob64_t*".toList <:+: s := by
  have hglob : "glob_t*".toList = "glob".toList ++ "_t*".toList := rfl
  have hglob64 : "glob64_t*".toList =
      "glob".toList ++ ("64".toList ++ "_t*".toList) := rfl
  rw [search_isSome, hglob, hglob64]
  simp only [globRegex, cat, str, oneOf, spans_seq, spans_group, spans_alt,
    spans_lit]
  constructor
  · rintro ⟨u, _, v, rfl, _, _, rfl, rfl, _, _, rfl, hbits, _, w, rfl, rfl, -⟩
    rcases hbits with rfl | rfl
    · exact .inr ⟨u, w ++ v, by simp only [List.append_assoc]⟩
    · exact .inl ⟨u, w ++ v, by simp only [List.append_assoc]; rfl⟩
  · rintro (⟨u, v, rfl⟩ | ⟨u, v, rfl⟩)
    · exact ⟨u, _, v, List.append_assoc .., _, _, rfl, rfl, [], _, rfl, .inr rfl,
        _, [], (List.append_nil _).symm, rfl, .inr rfl⟩
    · exact ⟨u, _, v, List.append_assoc .., _, _, rfl, rfl, _, _, rfl, .inl rfl,
        _, [], (List.append_nil _).symm, rfl, .inr rfl⟩

/-- The pointers as the pattern puts them together. -/
theorem mem_knownPointers {w : Text} (hw : w ∈ knownPointers) :
    (∃ k, (k = "barrier".toList ∨ k = "cond".toList ∨ k = "mutex".toList) ∧
      w = "pthread_".toList ++ (k ++ "attr_t".toList) ++ ['*']) ∨
    w = "pthread_mutex_t".toList ++ ['*'] := by
  simp only [knownPointers, List.mem_cons, List.not_mem_nil, or_false] at hw
  rcases hw with rfl | rfl | rfl | rfl
  · exact .inl ⟨_, .inl rfl, rfl⟩
  · exact .inl ⟨_, .inr (.inl rfl), rfl⟩
  · exact .inl ⟨_, .inr (.inr rfl), rfl⟩
  · exact .inr rfl

theorem pthreadTypeRegex_search :
    (pthreadTypeRegex.search s).isSome ↔ ∃ c w, (c = [] ∨ c = "const ".toList) ∧
      w ∈ knownPointers ∧ LineBegins (c ++ w) s := by
  rw [search_isSome]
  simp only [pthreadTypeRegex, cat, str, oneOf, spans_bol, spans_seq,
    spans_group, spans_alt, spans_lit, spans_char]
  constructor
  · rintro ⟨u, _, v, rfl, _, _, rfl, ⟨hbol, rfl⟩, c, _, rfl, hc, w, _, rfl, hw, rfl⟩
    refine ⟨c, w ++ ['*'], hc.symm, ?_, u, v, (List.append_assoc ..).symm, hbol⟩
    rcases hw with ⟨_, _, rfl, rfl, _, _, rfl, rfl | rfl | rfl, rfl⟩ | rfl
    · exact .head _
    · exact .tail _ (.head _)
    · exact .tail _ (.tail _ (.head _))
    · exact .tail _ (.tail _ (.tail _ (.head _)))
  · rintro ⟨c, w, hc, hw, u, v, rfl, hbol⟩
    refine ⟨u, c ++ w, v, List.append_assoc .., [], _, rfl, ⟨hbol, rfl⟩, c, w, rfl,
      hc.symm, ?_⟩
    rcases mem_knownPointers hw with ⟨k, hk, rfl⟩ | rfl
    · exact ⟨_, _, rfl, .inl ⟨_, _, rfl, rfl, k, _, rfl, hk, rfl⟩, rfl⟩
    · exact ⟨_, _, rfl, .inr rfl, rfl⟩

theorem isSpace_of_bolAfter {u : Text} (hbol : bolAfter true u = true) :
    ∀ c ∈ u.getLast?, isSpace c := by
  intro c hc
  rw [bolAfter, hc] at hbol
  obtain rfl : c = '\n' := by simpa using hbol
  rfl

/-- The name stands alone where the pattern finds it. -/
theorem sigsetRegex_search :
    (sigsetRegex.search s).isSome ↔
      Alone "stack_t".toList s ∨ Alone "sigset_t".toList s := by
  have halone : Alone "stack_t".toList s ∨ Alone "sigset_t".toList s ↔
      ∃ w, (w = "stack_t".toList ∨ w = "sigset_t".toList) ∧ Alone w s := by
    simp only [or_and_right, exists_or, exists_eq_left]
  rw [halone, search_isSome]
  simp only [sigsetRegex, cat, str, oneOf, spans_seq, spans_group, spans_alt,
    spans_lit, spans_bol, spans_cls]
  constructor
  · rintro ⟨u, _, v, rfl, u₁, _, rfl, hbefore, w, v₁, rfl, hw, hbehind⟩
    refine ⟨w, hw, u ++ u₁, v₁ ++ v, by simp only [List.append_assoc], ?_, ?_⟩
    · rcases hbefore with ⟨hbol, rfl⟩ | ⟨x, hx, rfl⟩
      · rw [List.append_nil]
        exact isSpace_of_bolAfter hbol
      · intro c hc
        rw [List.getLast?_concat] at hc
        cases hc
        exact hx
    · rcases hbehind with ⟨rfl, hend⟩ | ⟨x, hx, rfl⟩
      · intro c hc
        have hc : v.head? = some c := hc
        rw [hc] at hend
        obtain rfl : c = '\n' := by simpa using hend
        rfl
      · intro c hc
        cases hc
        exact (Bool.or_eq_false_iff.mp (Bool.not_eq_true' _ |>.mp hx)).1
  · rintro ⟨w, hw, u, v, rfl, hbefore, hbehind⟩
    have hfirst : ∃ u' u₁, u = u' ++ u₁ ∧ (bolAfter true u' = true ∧ u₁ = [] ∨
        ∃ x, isSpace x ∧ u₁ = [x]) := by
      rcases List.eq_nil_or_concat u with rfl | ⟨u', x, rfl⟩
      · exact ⟨[], [], rfl, .inl ⟨rfl, rfl⟩⟩
      · rw [List.concat_eq_append] at hbefore ⊢
        exact ⟨u', [x], rfl, .inr ⟨x, hbefore x List.getLast?_concat, rfl⟩⟩
    have hlast : ∃ v₁ v', v = v₁ ++ v' ∧ (eol.Spans (bolAfter true (u ++ w)) v₁ v' ∨
        ∃ x, (!(isWord x || x == '_')) = true ∧ v₁ = [x]) := by
      cases v with
      | nil => exact ⟨[], [], rfl, .inl ⟨rfl, rfl⟩⟩
      | cons x v =>
          have hx : isWord x = false := hbehind x rfl
          have hx' : (x == '_') = false := (Bool.or_eq_false_iff.mp hx).2
          exact ⟨[x], v, rfl, .inr ⟨x, by rw [hx, hx']; rfl, rfl⟩⟩
    obtain ⟨u', u₁, rfl, hu⟩ := hfirst
    obtain ⟨v₁, v', rfl, hv⟩ := hlast
    exact ⟨u', u₁ ++ (w ++ v₁), v', by simp only [List.append_assoc], u₁, _, rfl, hu,
      w, v₁, rfl, hw, hv⟩

/-! The struct at the beginning of a line. -/

theorem structTypeRegex_at (h : BeginsStruct tag s) :
    ∃ m, structTypeRegex.matchAt true s = some m ∧ m.text 2 = tag := by
  obtain ⟨c, v, hc, rfl, hne, hword, hend⟩ := h
  have hconst : ((oneOf ["const ", ""]).outs ⟨true, c ++ ("struct ".toList ++
      (tag ++ v)), fun _ => none⟩).head? =
        some ⟨bolAfter true c, "struct ".toList ++ (tag ++ v), fun _ => none⟩ := by
    show ((str "const ").outs _ ++ (str "").outs _).head? = _
    rw [List.head?_append]
    rcases hc with rfl | rfl
    · have hnone : (str "const ").outs ⟨true, [] ++ ("struct ".toList ++ (tag ++ v)),
          fun _ => none⟩ = [] := rfl
      rw [hnone]
      exact head?_lit []
    · rw [str, head?_lit]
      rfl
  have hbol : (bol.outs ⟨true, c ++ ("struct ".toList ++ (tag ++ v)),
      fun _ => none⟩).head? = some ⟨true, c ++ ("struct ".toList ++ (tag ++ v)),
        fun _ => none⟩ := rfl
  have hhead := head?_seq hbol (head?_seq (head?_group (n := 1) hconst)
    (head?_seq (head?_lit "struct ".toList)
      (head?_group (n := 2) (head?_plus hne hword hend))))
  obtain ⟨m, hm, -, -, hgroups⟩ := matchAt_of_head? (r := structTypeRegex) hhead
  exact ⟨m, hm, by rw [Match.text, hgroups]; rfl⟩

theorem beginsStruct_of_spans {u v : Text}
    (h : structTypeRegex.Spans b u v) :
    b = true ∧ ∃ tag, BeginsStruct tag (u ++ v) := by
  simp only [structTypeRegex, cat, str, oneOf, spans_bol, spans_seq, spans_group,
    spans_alt, spans_lit, spans_plus] at h
  obtain ⟨_, _, rfl, ⟨hb, rfl⟩, c, _, rfl, hc, _, w, rfl, rfl, hne, hword⟩ := h
  refine ⟨hb, (w ++ v).takeWhile isWord, c, (w ++ v).dropWhile isWord, hc.symm, ?_,
    ?_, fun x hx => List.mem_takeWhile_imp hx, ?_⟩
  · rw [List.takeWhile_append_dropWhile]
    simp only [List.append_assoc, List.nil_append]
  · rw [List.takeWhile_append_of_pos hword]
    exact List.append_ne_nil_of_left_ne_nil hne _
  · intro x hx
    have hnot := List.head?_dropWhile_not isWord (w ++ v)
    rw [hx] at hnot
    exact hnot

theorem beginsStruct_of_matchAt (hm : structTypeRegex.matchAt b s = some m) :
    b = true ∧ BeginsStruct (m.text 2) s := by
  obtain ⟨a, ha, hs, hafter, -⟩ := matchAt_split hm
  obtain ⟨hb, tag, htag⟩ := beginsStruct_of_spans (spans_of_goes ha)
  have hb : b = true := hb
  rw [← hafter, ← hs] at htag
  obtain ⟨m', hm', htext⟩ := structTypeRegex_at htag
  rw [← hb, hm] at hm'
  cases hm'
  exact ⟨hb, htext ▸ htag⟩

theorem matchAt_struct_eq_none :
    structTypeRegex.matchAt b s = none ↔
      (b = true → ∀ tag, ¬BeginsStruct tag s) := by
  constructor
  · rintro hnone rfl tag h
    obtain ⟨m, hm, -⟩ := structTypeRegex_at h
    rw [hnone] at hm
    cases hm
  · intro hnone
    cases hm : structTypeRegex.matchAt b s with
    | none => rfl
    | some m =>
        obtain ⟨hb, h⟩ := beginsStruct_of_matchAt hm
        exact absurd h (hnone hb _)

theorem firstStruct_iff :
    FirstStruct tag s ↔
      ∃ m, structTypeRegex.search s = some m ∧ m.text 2 = tag := by
  constructor
  · rintro ⟨u, v, hs, hbol, hbegins, hfirst⟩
    obtain ⟨m, hm, htext⟩ := structTypeRegex_at hbegins
    obtain ⟨m', hm', hgroups⟩ := @search_of_first structTypeRegex true s u v m hs
      (by rw [hbol]; exact hm) fun u' v' hs' hlt =>
        matchAt_struct_eq_none.mpr (hfirst u' v' hs' hlt)
    exact ⟨m', hm', by rw [Match.text, hgroups]; exact htext⟩
  · rintro ⟨m, hm, rfl⟩
    obtain ⟨u, v, m', hs, hat, hgroups, hfirst⟩ := first_of_search hm
    obtain ⟨hbol, hbegins⟩ := beginsStruct_of_matchAt hat
    rw [Match.text, hgroups]
    exact ⟨u, v, hs, hbol, hbegins, fun u' v' hs' hlt =>
      matchAt_struct_eq_none.mp (hfirst u' v' hs' hlt)⟩

theorem pthreadAttrRegex_rwlock {c : Text} (hc : c = [] ∨ c = "const ".toList)
    (h : LineBegins (c ++ "pthread_rwlockattr_t*".toList) s) :
    (pthreadAttrRegex.search s).isSome := by
  obtain ⟨u, v, rfl, hbol⟩ := h
  have hname : "pthread_rwlockattr_t*".toList =
      "pthread_".toList ++ ("rwlock".toList ++ "attr_t*".toList) := rfl
  rw [search_isSome, hname]
  simp only [pthreadAttrRegex, cat, str, oneOf, spans_bol, spans_seq, spans_group,
    spans_alt, spans_lit]
  exact ⟨u, _, v, List.append_assoc .., [], _, rfl, ⟨hbol, rfl⟩, c, _, rfl, hc.symm,
    _, _, rfl, rfl, _, _, rfl, .inr (.inr (.inr rfl)), rfl⟩

end Patterns

/-! ## The two lists -/

section Lists

variable {type : Text} {function : Prototype}

theorem TurnsDown.of_compatType (h : compatType type = false) :
    TurnsDown type := by
  rw [compatType] at h
  split at h
  · rename_i hpointer
    obtain ⟨c, w, hc, hw, hline⟩ := pthreadTypeRegex_search.mp hpointer
    exact .pointer c w hc hw hline
  · split at h
    · rename_i hucontext
      exact .ucontext (search_str.mp hucontext)
    · split at h
      · rename_i m hm
        refine .struct (m.text 2) (firstStruct_iff.mpr ⟨m, hm, rfl⟩) fun hgood => ?_
        rw [hgood] at h
        cases h
      · cases h

theorem TurnsDown.compatType_eq (h : TurnsDown type) :
    compatType type = false := by
  rw [compatType]
  cases h with
  | pointer c w hc hw hline =>
      rw [if_pos (pthreadTypeRegex_search.mpr ⟨c, w, hc, hw, hline⟩)]
  | ucontext hmem =>
      have hucontext : (ucontextRegex.search type).isSome := search_str.mpr hmem
      rw [if_pos hucontext, ite_self]
  | struct tag hfirst hbad =>
      obtain ⟨m, hm, rfl⟩ := firstStruct_iff.mp hfirst
      have hlookup : (structCompatibility.lookup (m.text 2)).getD false = false := by
        cases hval : structCompatibility.lookup (m.text 2) with
        | none => rfl
        | some good =>
            rw [hval] at hbad
            simpa using hbad
      rw [hm]
      dsimp only
      rw [hlookup, ite_self, ite_self]

theorem compatType_iff : compatType type = true ↔ ¬TurnsDown type := by
  constructor
  · intro h hdown
    rw [hdown.compatType_eq] at h
    cases h
  · intro h
    by_contra hcompat
    exact h (.of_compatType (Bool.not_eq_true _ |>.mp hcompat))

theorem checkCompat_iff : checkCompat function = true ↔
    ¬SignalName (function.name.getD []) ∧
      ∀ type ∈ function.types, ¬TurnsDown type := by
  have htypes : ((function.realArgs.map (·.type) ++ [function.type]).all
      fun type => type.all compatType) = true ↔
        ∀ type ∈ function.types, ¬TurnsDown type := by
    simp only [Prototype.types, List.reduceOption_mem_iff, List.all_eq_true,
      Option.all_eq_true, compatType_iff]
    constructor
    · intro h type hmem
      exact h _ hmem type rfl
    · rintro h _ hmem type rfl
      exact h type hmem
  rw [checkCompat, ← htypes, SignalName, ← signalRegex_search]
  split
  · rename_i hsignal
    exact iff_of_false (by decide) fun h => h.1 hsignal
  · rename_i hsignal
    exact (and_iff_right hsignal).symm

/-- Where a function is not turned down for the type, the struct is not where
the pattern looks for one. -/
theorem not_seen_of_struct {u ws tag v : Text} (h : StructAt type u ws tag v)
    (hbad : Incompatible tag) (hnot : ¬TurnsDown type) :
    ¬((u = [] ∨ u = "const ".toList) ∧ ws = " ".toList) := by
  rintro ⟨hu, rfl⟩
  have hstruct : "struct ".toList = "struct".toList ++ " ".toList := rfl
  refine hnot (.struct tag ⟨[], type, rfl, rfl, ⟨u, v, hu, ?_, h.tag_ne_nil, h.word,
    h.behind⟩, fun _ _ _ hlt => absurd hlt (Nat.not_lt_zero _)⟩ ?_)
  · rw [h.type_eq, hstruct]
    simp only [List.append_assoc]
  · rw [hbad]
    decide

theorem unsafe_iff_unseenPrivate (hnot : ¬TurnsDown type) :
    MentionsIncompatible type ∨ IsPrivateHandle type ↔ UnseenPrivate type := by
  constructor
  · rintro (⟨u, ws, tag, v, h, hbad⟩ | hglob | hspelled | ⟨m, hm, hne⟩ | hsignals)
    · exact .struct u ws tag v h hbad (not_seen_of_struct h hbad hnot)
    · exact .glob (globRegex_search.mp hglob)
    · simp only [handleSpellings, List.mem_cons, List.not_mem_nil, or_false]
        at hspelled
      rcases hspelled with h | h | h | rfl
      · exact .spelled (.inl h)
      · exact .spelled (.inr (.inl h))
      · exact .spelled (.inr (.inr h))
      · exact absurd (.pointer [] _ (.inl rfl) (.tail _ (.tail _ (.tail _ (.head _))))
          ⟨[], [], (List.append_nil _).symm, rfl⟩) hnot
    · -- the other attributes are known pointers
      obtain ⟨hc, hk, hline⟩ := pthreadAttrRegex_match hm
      refine absurd (.pointer _ _ hc.symm ?_ hline) hnot
      rcases hk with hk | hk | hk | hk
      · rw [hk]
        exact .head _
      · rw [hk]
        exact .tail _ (.head _)
      · rw [hk]
        exact .tail _ (.tail _ (.head _))
      · exact absurd hk hne
    · exact .signals (sigsetRegex_search.mp hsignals)
  · intro h
    cases h with
    | glob h => exact .inr (.inl (globRegex_search.mpr h))
    | spelled h =>
        refine .inr (.inr (.inl ?_))
        rcases h with rfl | rfl | rfl
        · exact .head _
        · exact .tail _ (.head _)
        · exact .tail _ (.tail _ (.head _))
    | signals h => exact .inr (.inr (.inr (.inr (sigsetRegex_search.mpr h))))
    | struct u ws tag v h hbad hu => exact .inl ⟨u, ws, tag, v, h, hbad⟩

/-- The attributes of a lock for readers and writers. -/
theorem isHandle_iff : IsHandle type ↔ IsPrivateHandle type ∨
    LineBegins "pthread_rwlockattr_t*".toList type ∨
    LineBegins "const pthread_rwlockattr_t*".toList type := by
  have hconst : "const pthread_rwlockattr_t*".toList =
      "const ".toList ++ "pthread_rwlockattr_t*".toList := rfl
  have hname : "pthread_rwlockattr_t*".toList =
      "pthread_".toList ++ ("rwlock".toList ++ "attr_t*".toList) := rfl
  constructor
  · rintro (hglob | hspelled | hattr | hsignals)
    · exact .inl (.inl hglob)
    · exact .inl (.inr (.inl hspelled))
    · obtain ⟨m, hm⟩ := Option.isSome_iff_exists.mp hattr
      by_cases hk : m.text 2 = "rwlock".toList
      · obtain ⟨hc, -, hline⟩ := pthreadAttrRegex_match hm
        rw [hk, ← hname] at hline
        rcases hc with hc | hc
        · rw [hc, ← hconst] at hline
          exact .inr (.inr hline)
        · rw [hc] at hline
          exact .inr (.inl hline)
      · exact .inl (.inr (.inr (.inl ⟨m, hm, hk⟩)))
    · exact .inl (.inr (.inr (.inr hsignals)))
  · rintro ((hglob | hspelled | ⟨m, hm, -⟩ | hsignals) | hline | hline)
    · exact .inl hglob
    · exact .inr (.inl hspelled)
    · exact .inr (.inr (.inl (Option.isSome_iff_exists.mpr ⟨m, hm⟩)))
    · exact .inr (.inr (.inr hsignals))
    · exact .inr (.inr (.inl (pthreadAttrRegex_rwlock (.inl rfl) hline)))
    · exact .inr (.inr (.inl (pthreadAttrRegex_rwlock (.inr rfl) (hconst ▸ hline))))

theorem unsafe_iff_unseen (hnot : ¬TurnsDown type) :
    MentionsIncompatible type ∨ IsHandle type ↔ Unseen type := by
  rw [isHandle_iff, ← or_assoc, unsafe_iff_unseenPrivate hnot, Unseen]

/-- For either list of handles, with what is not seen of it. -/
theorem passedSafely_of_unseen {isHandle unseen : Text → Prop}
    (hunseen : ∀ type, ¬TurnsDown type →
      (MentionsIncompatible type ∨ isHandle type ↔ unseen type)) :
    PassedSafely isHandle function ↔
      SignalName (function.name.getD []) ∨
        (∃ type ∈ function.types, TurnsDown type) ∨
        ∀ type ∈ function.types, ¬unseen type := by
  rw [PassedSafely, checkCompat_iff]
  constructor
  · intro hsafe
    by_contra hnot
    obtain ⟨hsignal, hrest⟩ := not_or.mp hnot
    obtain ⟨hdown, hseen⟩ := not_or.mp hrest
    refine hseen fun type hmem hun => ?_
    have hkept : ∀ type ∈ function.types, ¬TurnsDown type :=
      fun type hmem h => hdown ⟨type, hmem, h⟩
    obtain ⟨hstruct, hhandle⟩ := hsafe ⟨hsignal, hkept⟩ type hmem
    exact ((hunseen type (hkept type hmem)).mpr hun).elim hstruct hhandle
  · rintro hcond ⟨hsignal, hkept⟩ type hmem
    rcases hcond with h | ⟨type', hmem', h⟩ | h
    · exact absurd h hsignal
    · exact absurd h (hkept type' hmem')
    · exact not_or.mp fun hbad =>
        h type hmem ((hunseen type (hkept type hmem)).mp hbad)

end Lists

/-- Whether what `check_compat` accepts is passed on safely, where the
attributes of a lock for readers and writers are taken for a handle, and where
they are not. -/
theorem passedSafely_iff (function : Prototype) :
    (PassedSafely IsHandle function ↔
      SignalName (function.name.getD []) ∨
        (∃ type ∈ function.types, TurnsDown type) ∨
        ∀ type ∈ function.types, ¬Unseen type) ∧
    (PassedSafely IsPrivateHandle function ↔
      SignalName (function.name.getD []) ∨
        (∃ type ∈ function.types, TurnsDown type) ∨
        ∀ type ∈ function.types, ¬UnseenPrivate type) :=
  ⟨passedSafely_of_unseen fun _ => unsafe_iff_unseen,
    passedSafely_of_unseen fun _ => unsafe_iff_unseenPrivate⟩

/-- `dirfd`, as it is in `src/prototypes.rb`. -/
def dirfdPrototype : Prototype where
  prototype := "int dirfd(DIR* dirp)".toList
  name := some "dirfd".toList
  type := some "int".toList
  args := [⟨some "dirp".toList, some "DIR*".toList⟩]

/-- And `ftw`. -/
def ftwPrototype : Prototype where
  prototype := ("int ftw(const char* path, " ++
    "int (*fn)(const char*, const struct stat*, int), int maxfds)").toList
  name := some "ftw".toList
  type := some "int".toList
  args := [⟨some "path".toList, some "const char*".toList⟩,
    ⟨some "fn".toList, some "int (*)(const char*, const struct stat*, int)".toList⟩,
    ⟨some "maxfds".toList, some "int".toList⟩]

/-- Both are accepted, with the handle of a directory and with the function
that is given a `struct stat`. -/
theorem not_passedSafely_dirfd :
    parsePrototype dirfdPrototype.prototype = .ok dirfdPrototype ∧
      ¬PassedSafely IsPrivateHandle dirfdPrototype ∧
    parsePrototype ftwPrototype.prototype = .ok ftwPrototype ∧
      ¬PassedSafely IsPrivateHandle ftwPrototype := by
  refine ⟨by decide +kernel, fun h => ?_, by decide +kernel, fun h => ?_⟩
  · obtain ⟨-, hhandle⟩ := h (by decide +kernel) "DIR*".toList (.head _)
    exact hhandle (.inr (.inl (.head _)))
  · obtain ⟨hstruct, -⟩ := h (by decide +kernel)
      "int (*)(const char*, const struct stat*, int)".toList (.tail _ (.head _))
    have hat : StructAt "int (*)(const char*, const struct stat*, int)".toList
        "int (*)(const char*, const ".toList " ".toList "stat".toList
        "*, int)".toList := {
      type_eq := rfl
      before := by rintro _ ⟨⟩; rfl
      ws_ne_nil := List.cons_ne_nil _ _
      spaces := List.all_eq_true.mp (by decide +kernel)
      tag_ne_nil := List.cons_ne_nil _ _
      word := List.all_eq_true.mp (by decide +kernel)
      behind := by rintro _ ⟨⟩; rfl }
    have hbad : structCompatibility.lookup "stat".toList = some false := rfl
    exact hstruct ⟨_, _, _, _, hat, hbad⟩

end Libc6Shim
