import Libc6Shim.RubyRegex

/-!
# Hashes, lines and fields of text

A hash of Ruby keeps its keys in the order in which they came, each once
(`Hash`). `String#lines` cuts a text behind each end of a line and
`String#split` at each separator; both undo what puts the pieces together
(`lines_flatten`, `split_join`). `Array#sort` of texts is `sortTexts`.
-/

namespace Ruby

/-! ## Hashes -/

structure Hash (κ α : Type) where
  entries : List (κ × α)
  nodup : (entries.map Prod.fst).Nodup

namespace Hash

variable {κ α : Type} [DecidableEq κ] {h : Hash κ α} {k q : κ} {v : α}

def empty : Hash κ α := ⟨[], .nil⟩

def keys (h : Hash κ α) : List κ := h.entries.map Prod.fst

/-- `h[k]` -/
def get? (h : Hash κ α) (k : κ) : Option α :=
  (h.entries.find? fun e => e.1 = k).map Prod.snd

/-- `h[k] = v` -/
def set (h : Hash κ α) (k : κ) (v : α) : Hash κ α :=
  if hk : k ∈ h.keys then
    { entries := h.entries.map fun e => if e.1 = k then (k, v) else e
      nodup := by
        have hsame : (h.entries.map fun e => if e.1 = k then (k, v) else e).map
            Prod.fst = h.entries.map Prod.fst := by
          rw [List.map_map]
          refine List.map_congr_left fun e _ => ?_
          by_cases he : e.1 = k <;> simp [he]
        rw [hsame]
        exact h.nodup }
  else
    { entries := h.entries ++ [(k, v)]
      nodup := by
        rw [List.map_append, List.map_singleton]
        exact List.nodup_append.mpr ⟨h.nodup, List.nodup_singleton _, by
          rintro a ha b hb rfl
          obtain rfl : a = k := List.mem_singleton.mp hb
          exact hk ha⟩ }

theorem get?_eq_some_iff : h.get? k = some v ↔ (k, v) ∈ h.entries := by
  constructor
  · intro hget
    obtain ⟨e, hfind, rfl⟩ := Option.map_eq_some_iff.mp hget
    have he := List.find?_some hfind
    rw [decide_eq_true_eq] at he
    exact he ▸ List.mem_of_find?_eq_some hfind
  · intro hmem
    obtain ⟨e, hfind⟩ : ∃ e, h.entries.find? (fun e => e.1 = k) = some e :=
      Option.isSome_iff_exists.mp (List.find?_isSome.mpr ⟨_, hmem, by simp⟩)
    have he := List.find?_some hfind
    rw [decide_eq_true_eq] at he
    -- a key has one entry
    have hsame := List.inj_on_of_nodup_map h.nodup
      (List.mem_of_find?_eq_some hfind) hmem he
    rw [get?, hfind, hsame]
    rfl

theorem mem_keys_iff : k ∈ h.keys ↔ ∃ v, h.get? k = some v := by
  constructor
  · intro hk
    obtain ⟨e, he, rfl⟩ := List.mem_map.mp hk
    exact ⟨e.2, get?_eq_some_iff.mpr he⟩
  · rintro ⟨v, hv⟩
    exact List.mem_map.mpr ⟨_, get?_eq_some_iff.mp hv, rfl⟩

theorem entries_set_of_not_mem (hk : k ∉ h.keys) (v : α) :
    (h.set k v).entries = h.entries ++ [(k, v)] := by
  rw [set, dif_neg hk]

theorem get?_set_self (v : α) : (h.set k v).get? k = some v := by
  rw [get?_eq_some_iff, set]
  split
  · rename_i hk
    obtain ⟨e, he, rfl⟩ := List.mem_map.mp hk
    exact List.mem_map.mpr ⟨e, he, if_pos rfl⟩
  · exact List.mem_append_right _ (List.mem_singleton_self _)

theorem get?_set_of_ne (hq : q ≠ k) (v : α) : (h.set k v).get? q = h.get? q := by
  refine Option.ext fun w => ?_
  rw [get?_eq_some_iff, get?_eq_some_iff, set]
  split
  · constructor
    · intro hmem
      obtain ⟨e, he, heq⟩ := List.mem_map.mp hmem
      split at heq
      · exact absurd (congrArg Prod.fst heq).symm hq
      · exact heq ▸ he
    · exact fun hmem => List.mem_map.mpr ⟨_, hmem, if_neg hq⟩
  · rw [List.mem_append, List.mem_singleton]
    exact or_iff_left fun heq => hq (congrArg Prod.fst heq)

end Hash

/-! ## Sorting -/

/-- `texts.sort` -/
def sortTexts (texts : List Text) : List Text :=
  texts.mergeSort fun a b => decide (a ≤ b)

theorem mem_sortTexts {a : Text} {texts : List Text} :
    a ∈ sortTexts texts ↔ a ∈ texts := List.mem_mergeSort

theorem sortTexts_sorted (texts : List Text) : (sortTexts texts).Pairwise (· ≤ ·) := by
  have htrans : ∀ a b c : Text, decide (a ≤ b) = true → decide (b ≤ c) = true →
      decide (a ≤ c) = true := by
    intro a b c hab hbc
    rw [decide_eq_true_eq] at hab hbc ⊢
    exact le_trans hab hbc
  have htotal : ∀ a b : Text, (decide (a ≤ b) || decide (b ≤ a)) = true := by
    intro a b
    rw [Bool.or_eq_true, decide_eq_true_eq, decide_eq_true_eq]
    exact le_total a b
  exact (List.pairwise_mergeSort htrans htotal texts).imp fun hab => of_decide_eq_true hab

/-- What is sorted and has nothing twice goes up. -/
theorem sortTexts_lt {texts : List Text} (hnodup : texts.Nodup) :
    (sortTexts texts).Pairwise (· < ·) := by
  have hnodup' : (sortTexts texts).Nodup :=
    (List.mergeSort_perm ..).nodup_iff.mpr hnodup
  exact ((sortTexts_sorted texts).and hnodup').imp fun h => lt_of_le_of_ne h.1 h.2

/-! ## Lines -/

/-- `text.lines` -/
def lines : Text → List Text
  | [] => []
  | c :: s =>
      if c = '\n' then [c] :: lines s
      else match lines s with
        | l :: ls => (c :: l) :: ls
        | [] => [[c]]

theorem lines_cons_line {u : Text} (hline : '\n' ∉ u) (s : Text) :
    lines (u ++ '\n' :: s) = (u ++ ['\n']) :: lines s := by
  induction u with
  | nil => rw [List.nil_append, lines, if_pos rfl]; rfl
  | cons c u ih =>
      rw [List.mem_cons, not_or] at hline
      obtain ⟨hc, hline⟩ := hline
      rw [List.cons_append, lines, if_neg (Ne.symm hc), ih hline]
      rfl

/-- Lines put one behind the other are found again. -/
theorem lines_flatten {ls : List Text} (hlines : ∀ l ∈ ls, '\n' ∉ l) :
    lines (ls.map (· ++ ['\n'])).flatten = ls.map (· ++ ['\n']) := by
  induction ls with
  | nil => rfl
  | cons l ls ih =>
      obtain ⟨hl, hls⟩ := List.forall_mem_cons.mp hlines
      rw [List.map_cons, List.flatten_cons, List.append_assoc, List.singleton_append,
        lines_cons_line hl, ih hls]

/-! ## Fields -/

/-- The pieces of a text between the separators. `skip` characters are left
of the one before. -/
def pieces (sep : Text) : Nat → Text → List Text
  | _, [] => [[]]
  | skip + 1, _ :: s => pieces sep skip s
  | 0, c :: s =>
      if sep.isPrefixOf (c :: s) then [] :: pieces sep (sep.length - 1) s
      else match pieces sep 0 s with
        | p :: ps => (c :: p) :: ps
        | [] => [[c]]

/-- `text.split(sep)`, which drops the empty pieces at the end. -/
def split (sep s : Text) : List Text :=
  ((pieces sep 0 s).reverse.dropWhile List.isEmpty).reverse

variable {x : Char} {sep u : Text}

theorem pieces_skip (sep u v : Text) : pieces sep u.length (u ++ v) = pieces sep 0 v := by
  induction u with
  | nil => rfl
  | cons c u ih => rw [List.cons_append, List.length_cons, pieces, ih]

/-- A piece without the first character of the separator. -/
theorem pieces_append_sep (hu : x ∉ u) (v : Text) :
    pieces (x :: sep) 0 (u ++ (x :: sep ++ v)) = u :: pieces (x :: sep) 0 v := by
  induction u with
  | nil =>
      rw [List.nil_append, List.cons_append, pieces,
        if_pos (List.isPrefixOf_iff_prefix.mpr ⟨v, List.cons_append⟩), List.length_cons,
        Nat.add_sub_cancel, pieces_skip]
  | cons c u ih =>
      rw [List.mem_cons, not_or] at hu
      obtain ⟨hc, hu⟩ := hu
      have hnot : ¬(x :: sep).isPrefixOf (c :: (u ++ (x :: sep ++ v))) := by
        rw [List.isPrefixOf_iff_prefix]
        rintro ⟨t, ht⟩
        exact hc (List.cons.inj ht).1
      rw [List.cons_append, pieces, if_neg hnot, ih hu]

theorem pieces_of_not_mem (hu : x ∉ u) : pieces (x :: sep) 0 u = [u] := by
  induction u with
  | nil => rfl
  | cons c u ih =>
      rw [List.mem_cons, not_or] at hu
      obtain ⟨hc, hu⟩ := hu
      have hnot : ¬(x :: sep).isPrefixOf (c :: u) := by
        rw [List.isPrefixOf_iff_prefix]
        rintro ⟨t, ht⟩
        exact hc (List.cons.inj ht).1
      rw [pieces, if_neg hnot, ih hu]

theorem pieces_join {parts : List Text} (hne : parts ≠ [])
    (hparts : ∀ p ∈ parts, x ∉ p) :
    pieces (x :: sep) 0 (join (x :: sep) parts) = parts := by
  induction parts with
  | nil => exact absurd rfl hne
  | cons p ps ih =>
      obtain ⟨hp, hps⟩ := List.forall_mem_cons.mp hparts
      cases ps with
      | nil =>
          rw [join, List.intercalate_singleton]
          exact pieces_of_not_mem hp
      | cons q qs =>
          have hjoin : join (x :: sep) (p :: q :: qs) =
              p ++ (x :: sep ++ join (x :: sep) (q :: qs)) := by
            simp [join, List.intercalate]
          rw [hjoin, pieces_append_sep hp, ih (List.cons_ne_nil q qs) hps]

/-- What is joined by a separator none of whose first characters is in a part
is split again. -/
theorem split_join {parts : List Text} (hparts : ∀ p ∈ parts, x ∉ p)
    (hlast : ∀ p ∈ parts.getLast?, p ≠ []) (hne : parts ≠ []) :
    split (x :: sep) (join (x :: sep) parts) = parts := by
  rw [split, pieces_join hne hparts]
  obtain ⟨ps, p, rfl⟩ := (List.eq_nil_or_concat' parts).resolve_left hne
  have hp : p ≠ [] := hlast p (by simp)
  rw [List.reverse_append, List.reverse_singleton, List.singleton_append,
    List.dropWhile_cons_of_neg (by simpa using hp), List.reverse_cons,
    List.reverse_reverse]

/-- A text that is joined has the last part at its end. -/
theorem join_concat (sep : Text) (parts : List Text) (p : Text) :
    ∃ w, join sep (parts ++ [p]) = w ++ p := by
  induction parts with
  | nil => exact ⟨[], by simp [join, List.intercalate]⟩
  | cons q parts ih =>
      obtain ⟨w, hw⟩ := ih
      obtain ⟨q', parts', hparts⟩ : ∃ q' parts', parts ++ [p] = q' :: parts' := by
        cases parts with
        | nil => exact ⟨p, [], rfl⟩
        | cons q' parts => exact ⟨q', parts ++ [p], rfl⟩
      refine ⟨q ++ sep ++ w, ?_⟩
      rw [hparts] at hw
      rw [List.cons_append, hparts, List.append_assoc, ← hw]
      simp [join, List.intercalate]

/-- The characters of a joined text. -/
theorem forall_mem_join {P : Char → Prop} {sep : Text} {parts : List Text}
    (hsep : ∀ c ∈ sep, P c) (hparts : ∀ p ∈ parts, ∀ c ∈ p, P c) :
    ∀ c ∈ join sep parts, P c := by
  induction parts with
  | nil => exact fun c hc => nomatch hc
  | cons p parts ih =>
      rw [List.forall_mem_cons] at hparts
      cases parts with
      | nil =>
          rw [join, List.intercalate_singleton]
          exact hparts.1
      | cons q parts =>
          have hjoin : join sep (p :: q :: parts) =
              p ++ (sep ++ join sep (q :: parts)) := by
            simp [join, List.intercalate]
          intro c hc
          rw [hjoin, List.mem_append, List.mem_append] at hc
          rcases hc with hc | hc | hc
          · exact hparts.1 c hc
          · exact hsep c hc
          · exact ih hparts.2 c hc

/-- What matches at the beginning is what is found. -/
theorem Regex.search_of_matchAt {r : Regex} {s : Text} {m : Regex.Match}
    (hm : r.matchAt true s = some m) : r.search s = some m := by
  cases s with
  | nil => exact hm
  | cons c s => rw [Regex.search, Regex.searchFrom, hm]

end Ruby
