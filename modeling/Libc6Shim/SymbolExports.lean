import Libc6Shim.SymbolTables

/-!
# What symbols are given out as

`utils/symver.rb` writes a macro for each symbol of a table: for each of the
symbol's versions it declares an alias of the shim's function and gives the
alias out as that version of the symbol.

A macro is a line of C, so the script ends all but the last of the lines it
writes with a backslash. `spliceLines` is what the compiler makes of that. It
finds one line for each macro, with the whole text in it (`symver_spliced`),
and no alias is declared twice, whatever symbols and versions there are
(`nodup_aliases`).
-/

namespace Libc6Shim

open Ruby Regex

/-! ## Lines of C -/

/-- The second phase of translation: a backslash at the end of a line joins it
with the next. -/
def spliceLines : Text → Text
  | [] => []
  | [c] => [c]
  | c :: d :: s =>
      if c = '\\' ∧ d = '\n' then spliceLines s else c :: spliceLines (d :: s)

/-- `puts` -/
def puts (s : Text) : Text := if s.getLast? = some '\n' then s else s ++ ['\n']

section Splice

variable {u v : Text}

theorem spliceLines_cons {c d : Char} {s : Text} (hd : d ≠ '\n') :
    spliceLines (c :: d :: s) = c :: spliceLines (d :: s) := by
  rw [spliceLines, if_neg fun h => hd h.2]

/-- A line that is joined with what follows. -/
theorem spliceLines_joined (hu : '\n' ∉ u) (v : Text) :
    spliceLines (u ++ '\\' :: '\n' :: v) = u ++ spliceLines v := by
  induction u with
  | nil => rw [List.nil_append, spliceLines, if_pos ⟨rfl, rfl⟩, List.nil_append]
  | cons c u ih =>
      rw [List.mem_cons, not_or] at hu
      have hnext : spliceLines (c :: (u ++ '\\' :: '\n' :: v)) =
          c :: spliceLines (u ++ '\\' :: '\n' :: v) := by
        cases u with
        | nil => exact spliceLines_cons (by decide)
        | cons d u => exact spliceLines_cons fun hd => hu.2 (by simp [hd])
      rw [List.cons_append, hnext, ih hu.2, List.cons_append]

/-- A line that is not. -/
theorem spliceLines_ended (hu : '\n' ∉ u) (hlast : u.getLast? ≠ some '\\') (v : Text) :
    spliceLines (u ++ '\n' :: v) = u ++ '\n' :: spliceLines v := by
  induction u with
  | nil =>
      cases v with
      | nil => rfl
      | cons d v => rw [List.nil_append, spliceLines, if_neg (by simp), List.nil_append]
  | cons c u ih =>
      rw [List.mem_cons, not_or] at hu
      have hnext : spliceLines (c :: (u ++ '\n' :: v)) =
          c :: spliceLines (u ++ '\n' :: v) := by
        cases u with
        | nil =>
            have hc : c ≠ '\\' := by simpa using hlast
            rw [List.nil_append, spliceLines, if_neg fun h => hc h.1]
        | cons d u => exact spliceLines_cons fun hd => hu.2 (by simp [hd])
      have hlast' : u.getLast? ≠ some '\\' := by
        cases u with
        | nil => simp
        | cons d u => rwa [List.getLast?_cons_cons] at hlast
      rw [List.cons_append, hnext, ih hu.2 hlast', List.cons_append]

/-- Lines that are joined by what joins them for the compiler. -/
theorem spliceLines_join {ls : List Text}
    (hls : ∀ l ∈ ls, '\n' ∉ l ∧ l.getLast? ≠ some '\\') (v : Text) :
    spliceLines (join ['\\', '\n'] ls ++ '\n' :: v) = ls.flatten ++ '\n' :: spliceLines v := by
  induction ls with
  | nil => exact spliceLines_ended List.not_mem_nil (by simp) v
  | cons l ls ih =>
      obtain ⟨⟨hline, hlast⟩, hls⟩ := List.forall_mem_cons.mp hls
      cases ls with
      | nil =>
          rw [join, List.intercalate_singleton, spliceLines_ended hline hlast,
            List.flatten_singleton]
      | cons l' ls =>
          have hjoin : join ['\\', '\n'] (l :: l' :: ls) ++ '\n' :: v =
              l ++ '\\' :: '\n' :: (join ['\\', '\n'] (l' :: ls) ++ '\n' :: v) := by
            simp [join, List.intercalate]
          rw [hjoin, spliceLines_joined hline, ih hls, List.flatten_cons (l := l),
            List.append_assoc]

theorem puts_of_getLast? {s : Text} (h : s.getLast? ≠ some '\n') :
    puts s = s ++ ['\n'] := if_neg h

end Splice

/-! ## symver.rb -/

/-- `"#{sym}_#{version.gsub('.', '_')}"` -/
def symAlias (sym version : Text) : Text :=
  sym ++ '_' :: version.map fun c => if c = '.' then '_' else c

/-- The declaration of an alias, and its export as a version of the symbol. -/
def exportLines (sym version : Text) : List Text :=
  [" extern __typeof(shim_".toList ++ sym ++ ") shim_".toList ++
      symAlias sym version ++ " __attribute__((alias(\"shim_".toList ++ sym ++
      "\"))); ".toList,
    " __asm__(\".symver shim_".toList ++ symAlias sym version ++ ",".toList ++
      sym ++ "@".toList ++ version ++ "\"); ".toList]

/-- The body of the loop over the symbols. -/
def exportMacro (sym : Text) (symbol : TableSymbol) : Text :=
  puts ("#define SHIM_EXPORT_".toList ++ sym ++ " \\".toList) ++
    puts (join ['\\', '\n'] (symbol.versions.map (exportLines sym)).flatten) ++
    puts []

def symver (table : Hash Text TableSymbol) : Text :=
  (table.entries.map fun e => exportMacro e.1 e.2).flatten

/-! ## Aliases -/

/-- Texts that end in characters of a class, behind one that is not, agree up
to there. -/
theorem append_class_inj {p : Char → Bool} {u u' w w' : Text}
    (hw : ∀ c ∈ w, p c) (hw' : ∀ c ∈ w', p c) (hu : ∀ c ∈ u.getLast?, p c = false)
    (hu' : ∀ c ∈ u'.getLast?, p c = false) (heq : u ++ w = u' ++ w') :
    u = u' ∧ w = w' := by
  have htail : ∀ u w : Text, (∀ c ∈ w, p c) → (∀ c ∈ u.getLast?, p c = false) →
      (u ++ w).reverse.takeWhile p = w.reverse := by
    intro u w hw hu
    rw [List.reverse_append,
      List.takeWhile_append_of_pos fun c hc => hw c (List.mem_reverse.mp hc)]
    cases hrev : u.reverse with
    | nil => simp
    | cons c v =>
        have hc := hu c (by rw [← List.head?_reverse, hrev]; rfl)
        rw [List.takeWhile_cons_of_neg (by simp [hc]), List.append_nil]
  have hsame : w = w' := List.reverse_injective
    ((htail u w hw hu).symm.trans (heq ▸ htail u' w' hw' hu'))
  subst hsame
  exact ⟨List.append_cancel_right heq, rfl⟩

/-- A version in an alias: the letters, and the numbers behind them. -/
theorem GlibcVersion.alias {version : Text} (h : GlibcVersion version) :
    ∃ g d, version = g ++ '_' :: d ∧ g.length = 5 ∧ (∀ c ∈ g, c.isAlpha) ∧
      (∀ c ∈ d, c.isDigit ∨ c = '.') ∧ ∀ sym, symAlias sym version =
        sym ++ '_' :: g ++ '_' :: d.map fun c => if c = '.' then '_' else c := by
  obtain ⟨g, d, rfl, hg, -, hd⟩ := h.split
  have halpha : ∀ c ∈ g, c.isAlpha := fun c hc =>
    isAlpha_of_toLower (hg ▸ List.mem_map_of_mem hc)
  have hlen : g.length = 5 := by
    rw [← List.length_map, hg]
    rfl
  have hletters : (g.map fun c => if c = '.' then '_' else c) = g := by
    refine (List.map_congr_left fun c hc => if_neg ?_).trans g.map_id'
    rintro rfl
    exact absurd (halpha _ hc) (by decide)
  refine ⟨g, d, rfl, hlen, halpha, hd, fun sym => ?_⟩
  rw [symAlias, List.map_append, hletters, List.map_cons, if_neg (by decide)]
  simp

/-- The dots of a number are told from its digits behind the change too. -/
theorem dots_inj {d d' : Text} (hd : ∀ c ∈ d, c.isDigit ∨ c = '.')
    (hd' : ∀ c ∈ d', c.isDigit ∨ c = '.')
    (heq : (d.map fun c => if c = '.' then '_' else c) =
      d'.map fun c => if c = '.' then '_' else c) : d = d' := by
  have hback : ∀ d : Text, (∀ c ∈ d, c.isDigit ∨ c = '.') →
      (d.map fun c => if c = '.' then '_' else c).map
        (fun c => if c = '_' then '.' else c) = d := by
    intro d hd
    rw [List.map_map]
    refine (List.map_congr_left fun c hc => ?_).trans d.map_id'
    rcases hd c hc with hdigit | rfl
    · have hdot : c ≠ '.' := by rintro rfl; exact absurd hdigit (by decide)
      have hunder : c ≠ '_' := by rintro rfl; exact absurd hdigit (by decide)
      simp [hdot, hunder]
    · rfl
  rw [← hback d hd, heq, hback d' hd']

theorem not_isAlpha_of_isDigit {c : Char} (h : c.isDigit) : c.isAlpha = false := by
  have hdigit : c.val.toNat ≤ 57 := by
    simp only [Char.isDigit, Bool.and_eq_true, decide_eq_true_eq,
      UInt32.le_iff_toNat_le] at h
    exact h.2
  rw [← Bool.not_eq_true, Char.isAlpha, Bool.or_eq_true]
  rintro (hupper | hlower)
  · simp only [Char.isUpper, decide_eq_true_eq, ge_iff_le,
      UInt32.le_iff_toNat_le] at hupper
    exact absurd (Nat.le_trans hupper.1 hdigit) (by decide)
  · simp only [Char.isLower, Bool.and_eq_true, decide_eq_true_eq, ge_iff_le,
      UInt32.le_iff_toNat_le] at hlower
    exact absurd (Nat.le_trans hlower.1 hdigit) (by decide)

/-- An alias says of which symbol and version it is. -/
theorem symAlias_inj {sym sym' version version' : Text} (h : GlibcVersion version)
    (h' : GlibcVersion version')
    (heq : symAlias sym version = symAlias sym' version') :
    sym = sym' ∧ version = version' := by
  obtain ⟨g, d, rfl, hlen, hg, hd, halias⟩ := h.alias
  obtain ⟨g', d', rfl, hlen', hg', hd', halias'⟩ := h'.alias
  rw [halias, halias'] at heq
  -- the numbers begin behind the last letter
  have hnumber : ∀ d : Text, (∀ c ∈ d, c.isDigit ∨ c = '.') →
      ∀ c ∈ '_' :: d.map (fun c => if c = '.' then '_' else c), !c.isAlpha := by
    intro d hd c hc
    rcases List.mem_cons.mp hc with rfl | hc
    · decide
    · obtain ⟨b, hb, rfl⟩ := List.mem_map.mp hc
      rcases hd b hb with hdigit | rfl
      · split
        · decide
        · rw [not_isAlpha_of_isDigit hdigit]
          rfl
      · decide
  have hletter : ∀ sym g : Text, g.length = 5 → (∀ c ∈ g, c.isAlpha) →
      ∀ c ∈ (sym ++ '_' :: g).getLast?, (!c.isAlpha) = false := by
    intro sym g hlen hg c hc
    have hne : g ≠ [] := by rintro rfl; cases hlen
    rw [List.getLast?_append_of_ne_nil _ (List.cons_ne_nil '_' g),
      List.getLast?_cons_of_ne_nil hne] at hc
    rw [hg c (List.mem_of_getLast? hc)]
    rfl
  obtain ⟨hfront, hback⟩ := append_class_inj (hnumber d hd) (hnumber d' hd')
    (hletter sym g hlen hg) (hletter sym' g' hlen' hg') heq
  obtain ⟨rfl, htail⟩ := List.append_inj' hfront (by simp [hlen, hlen'])
  obtain rfl := (List.cons.inj htail).2
  obtain rfl := dots_inj hd hd' (List.cons.inj hback).2
  exact ⟨rfl, rfl⟩

/-! ## The macros -/

theorem exportLines_line {sym version l : Text} (hsym : OneLine sym)
    (hversion : OneLine version) (hl : l ∈ exportLines sym version) :
    '\n' ∉ l ∧ l.getLast? = some ' ' := by
  have halias : '\n' ∉ version.map fun c => if c = '.' then '_' else c := by
    intro hmem
    obtain ⟨c, hc, heq⟩ := List.mem_map.mp hmem
    split at heq
    · cases heq
    · exact hversion (heq ▸ hc)
  unfold OneLine at hsym hversion
  rcases List.mem_pair.mp hl with rfl | rfl
  · refine ⟨by simp [symAlias, hsym, halias], ?_⟩
    rw [List.getLast?_append_of_ne_nil _ (by simp)]
    simp
  · refine ⟨by simp [symAlias, hsym, hversion, halias], ?_⟩
    rw [List.getLast?_append_of_ne_nil _ (by simp)]
    simp

theorem exportMacro_spliced {sym : Text} {symbol : TableSymbol} (hsym : OneLine sym)
    (hversions : ∀ v ∈ symbol.versions, OneLine v) (v : Text) :
    spliceLines (exportMacro sym symbol ++ v) =
      "#define SHIM_EXPORT_".toList ++ sym ++ [' '] ++
        (symbol.versions.map (exportLines sym)).flatten.flatten ++ ['\n', '\n'] ++
        spliceLines v := by
  have hlines : ∀ l ∈ (symbol.versions.map (exportLines sym)).flatten,
      '\n' ∉ l ∧ l.getLast? = some ' ' := by
    intro l hl
    obtain ⟨ls, hls, hl⟩ := List.mem_flatten.mp hl
    obtain ⟨version, hversion, rfl⟩ := List.mem_map.mp hls
    exact exportLines_line hsym (hversions version hversion) hl
  -- the text that is joined does not end a line itself
  have hopen : (join ['\\', '\n'] (symbol.versions.map (exportLines sym)).flatten).getLast? ≠
      some '\n' := by
    rcases List.eq_nil_or_concat' (symbol.versions.map (exportLines sym)).flatten with
      hnil | ⟨ls, l, hls⟩
    · rw [hnil]
      exact nofun
    · obtain ⟨w, hw⟩ := join_concat ['\\', '\n'] ls l
      have hl := (hlines l (by simp [hls])).2
      have hne : l ≠ [] := by rintro rfl; cases hl
      rw [hls, hw, List.getLast?_append_of_ne_nil w hne, hl]
      decide
  have hfirst : puts ("#define SHIM_EXPORT_".toList ++ sym ++ " \\".toList) =
      "#define SHIM_EXPORT_".toList ++ sym ++ [' '] ++ ['\\', '\n'] := by
    rw [puts_of_getLast? (by rw [List.getLast?_append_of_ne_nil _ (by simp)]; simp)]
    simp
  have hhead : '\n' ∉ "#define SHIM_EXPORT_".toList ++ sym ++ [' '] := by
    unfold OneLine at hsym
    simp [hsym]
  rw [exportMacro, hfirst, puts_of_getLast? hopen]
  have hparts : "#define SHIM_EXPORT_".toList ++ sym ++ [' '] ++ ['\\', '\n'] ++
      (join ['\\', '\n'] (symbol.versions.map (exportLines sym)).flatten ++ ['\n']) ++
      puts [] ++ v = ("#define SHIM_EXPORT_".toList ++ sym ++ [' ']) ++ '\\' :: '\n' ::
        (join ['\\', '\n'] (symbol.versions.map (exportLines sym)).flatten ++
          '\n' :: ([] ++ '\n' :: v)) := by
    simp [puts]
  rw [hparts, spliceLines_joined hhead,
    spliceLines_join fun l hl => ⟨(hlines l hl).1, by rw [(hlines l hl).2]; decide⟩,
    spliceLines_ended List.not_mem_nil (by simp)]
  simp

section Table

variable {found : List ElfSymbol} {table : Hash Text TableSymbol}

/-- The symbols with their versions, in the order of the table. -/
def exported (table : Hash Text TableSymbol) : List (Text × Text) :=
  table.entries.flatMap fun e => e.2.versions.map fun v => (e.1, v)

theorem mem_exported {sym version : Text} : (sym, version) ∈ exported table ↔
    ∃ symbol, table.get? sym = some symbol ∧ version ∈ symbol.versions := by
  rw [exported, List.mem_flatMap]
  constructor
  · rintro ⟨⟨sym', symbol⟩, he, hmem⟩
    obtain ⟨v, hv, heq⟩ := List.mem_map.mp hmem
    cases heq
    exact ⟨symbol, Hash.get?_eq_some_iff.mpr he, hv⟩
  · rintro ⟨symbol, hget, hv⟩
    exact ⟨(sym, symbol), Hash.get?_eq_some_iff.mp hget, List.mem_map.mpr ⟨_, hv, rfl⟩⟩

theorem ReadBack.mem_exported (h : ReadBack found table) {sym version : Text} :
    (sym, version) ∈ exported table ↔
      ∃ l ∈ found, l.name = sym ∧ l.version = version := by
  rw [Libc6Shim.mem_exported]
  constructor
  · rintro ⟨symbol, hget, hv⟩
    exact ((h.spec hget).2.2 version).mp hv
  · rintro ⟨l, hl, rfl, rfl⟩
    cases hget : table.get? l.name with
    | none => exact absurd rfl (h.get?_eq_none_iff.mp hget l hl)
    | some symbol => exact ⟨symbol, rfl, ((h.spec hget).2.2 _).mpr ⟨l, hl, rfl, rfl⟩⟩

theorem ReadBack.nodup_exported (h : ReadBack found table) : (exported table).Nodup := by
  rw [exported, List.nodup_flatMap]
  constructor
  · rintro ⟨sym, symbol⟩ he
    have hversions := (h.spec (Hash.get?_eq_some_iff.mpr he)).2.1
    exact (hversions.imp fun hlt => ne_of_lt hlt).map _ fun v v' hne heq =>
      hne (congrArg Prod.snd heq)
  · refine (List.pairwise_map.mp table.nodup).imp fun {e e'} hne => ?_
    rw [Function.onFun, List.disjoint_left]
    intro p hp hp'
    obtain ⟨v, -, rfl⟩ := List.mem_map.mp hp
    obtain ⟨v', -, heq⟩ := List.mem_map.mp hp'
    exact hne (congrArg Prod.fst heq).symm

/-- No alias is declared twice. -/
theorem ReadBack.nodup_aliases (h : ReadBack found table)
    (hfound : ∀ l ∈ found, l.Ok) :
    ((exported table).map fun e => symAlias e.1 e.2).Nodup := by
  refine (List.nodup_map_iff_inj_on h.nodup_exported).mpr ?_
  rintro ⟨sym, version⟩ hmem ⟨sym', version'⟩ hmem' heq
  obtain ⟨l, hl, rfl, rfl⟩ := h.mem_exported.mp hmem
  obtain ⟨l', hl', rfl, rfl⟩ := h.mem_exported.mp hmem'
  obtain ⟨hsym, hversion⟩ := symAlias_inj (hfound l hl).version (hfound l' hl').version heq
  exact Prod.ext hsym hversion

theorem SymName.oneLine {sym : Text} (h : SymName sym) : OneLine sym := fun hmem =>
  absurd (h.2 _ hmem) (by decide)

theorem GlibcVersion.oneLine {version : Text} (h : GlibcVersion version) :
    OneLine version := fun hmem => (h.plain _ hmem).2.1 rfl

theorem ReadBack.symName (h : ReadBack found table) (hfound : ∀ l ∈ found, l.Ok)
    {sym : Text} {symbol : TableSymbol} (hget : table.get? sym = some symbol) :
    SymName sym := by
  obtain ⟨l, hl, -⟩ := Option.map_eq_some_iff.mp (h.spec hget).1
  have hname : l.name = sym := by simpa using List.find?_some hl
  exact hname ▸ (hfound l (List.mem_of_find?_eq_some hl)).name

theorem ReadBack.symver_spliced (h : ReadBack found table)
    (hfound : ∀ l ∈ found, l.Ok) :
    spliceLines (symver table) = (table.entries.map fun e =>
      "#define SHIM_EXPORT_".toList ++ e.1 ++ [' '] ++
        (e.2.versions.map (exportLines e.1)).flatten.flatten ++ ['\n', '\n']).flatten := by
  have hlines : ∀ e ∈ table.entries, OneLine e.1 ∧ ∀ v ∈ e.2.versions, OneLine v := by
    rintro ⟨sym, symbol⟩ he
    have hget := Hash.get?_eq_some_iff.mpr he
    have hspec := h.spec hget
    constructor
    · exact (h.symName hfound hget).oneLine
    · intro v hv
      obtain ⟨l, hl, -, rfl⟩ := (hspec.2.2 v).mp hv
      exact (hfound l hl).version.oneLine
  rw [symver]
  generalize table.entries = es at hlines
  induction es with
  | nil => rfl
  | cons e es ih =>
      obtain ⟨⟨hsym, hversions⟩, hlines⟩ := List.forall_mem_cons.mp hlines
      rw [List.map_cons, List.flatten_cons, exportMacro_spliced hsym hversions,
        ih hlines, List.map_cons, List.flatten_cons]

/-- The exports of a table that was found and read. Each macro is a line, a
symbol is given out as the versions it was found with and no others, and no
two of the aliases for that are the same. -/
theorem symver_exports (hfound : ∀ l ∈ found, l.Ok) :
    ∃ table, readSymbols (printSymbols (findSymbols found)) = .ok table ∧
      spliceLines (symver table) = (table.entries.map fun e =>
        "#define SHIM_EXPORT_".toList ++ e.1 ++ [' '] ++
          (e.2.versions.map (exportLines e.1)).flatten.flatten ++
          ['\n', '\n']).flatten ∧
      (exported table).Nodup ∧
      (∀ sym version, (sym, version) ∈ exported table ↔
        ∃ l ∈ found, l.name = sym ∧ l.version = version) ∧
      ((exported table).map fun e => symAlias e.1 e.2).Nodup := by
  obtain ⟨table, h⟩ := exists_readBack hfound
  exact ⟨table, h.read, h.symver_spliced hfound, h.nodup_exported,
    fun _ _ => h.mem_exported, h.nodup_aliases hfound⟩

theorem symver_exports_memcpy :
    ∃ table, readSymbols (printSymbols (findSymbols memcpyFound)) = .ok table ∧
      ("memcpy".toList, "GLIBC_2.14".toList) ∈ exported table ∧
      ((exported table).map fun e => symAlias e.1 e.2).Nodup := by
  obtain ⟨table, hread, -, -, hexported, haliases⟩ := symver_exports memcpyFound_ok
  exact ⟨table, hread, (hexported _ _).mpr ⟨_, List.mem_cons_of_mem _
    (List.mem_singleton_self _), rfl, rfl⟩, haliases⟩

end Table

end Libc6Shim
