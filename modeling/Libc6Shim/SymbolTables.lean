import Libc6Shim.Prototype
import Libc6Shim.RubyTables

/-!
# Tables of symbols

`utils/find_glibc_symbols.rb` writes down which symbols the libraries of glibc
have, of which type and in which versions; `src/glibc-symbols.32` and
`src/glibc-symbols.64` are what it wrote. `utils/symver.rb` and
`utils/wrappers_c.rb` read such a file back, line by line, with one regular
expression.

What they read is what was found, sorted: every symbol once, with the type
it was first seen with and each of its versions (`symbolTable_read_back`).
-/

namespace Libc6Shim

open Ruby Regex

/-! ## Data -/

/-- `:fun` and `:obj`. -/
inductive SymType where
  | function
  | object
deriving DecidableEq

def SymType.text : SymType → Text
  | .function => "fun".toList
  | .object => "obj".toList

/-- What a line of `readelf -s` says of a symbol that is defined. -/
structure ElfSymbol where
  name : Text
  version : Text
  type : SymType

/-- A symbol of the table, `{versions: .., type: ..}`. -/
structure FoundSymbol where
  versions : List Text
  type : SymType

/-- A symbol as it is read, `{type: .., versions: ..}`. -/
structure TableSymbol where
  type : Text
  versions : List Text
deriving DecidableEq

/-! ## find_glibc_symbols.rb -/

/-- The body of the loop over the lines. -/
def addSymbol (symbols : Hash Text FoundSymbol) (line : ElfSymbol) :
    Hash Text FoundSymbol :=
  let known := (symbols.get? line.name).getD ⟨[], line.type⟩
  symbols.set line.name
    (if line.version ∈ known.versions then known
    else { known with versions := known.versions ++ [line.version] })

def findSymbols (found : List ElfSymbol) : Hash Text FoundSymbol :=
  found.foldl addSymbol .empty

/-- The line of a symbol, as far as its end. -/
def symbolLine (sym : Text) (symbol : FoundSymbol) : Text :=
  symbol.type.text ++ ([' '] ++ (sym ++ ([':', ' '] ++
    join [',', ' '] (sortTexts symbol.versions))))

def printSymbols (symbols : Hash Text FoundSymbol) : Text :=
  ((sortTexts symbols.keys).filterMap fun sym =>
    (symbols.get? sym).map fun symbol => symbolLine sym symbol ++ ['\n']).flatten

/-! ## symver.rb and wrappers_c.rb -/

/-- `/(fun|obj) (\w+): (.+)/` -/
def symbolRegex : Regex :=
  .cat [.group 1 (.oneOf ["fun", "obj"]), .str " ", .group 2 (.plus isWord),
    .str ": ", .group 3 (.plus isDot)]

/-- The body of the loop: where nothing matches, `$3` is `nil`. -/
def readSymbol (symbols : Hash Text TableSymbol) (line : Text) :
    Except GenError (Hash Text TableSymbol) :=
  match symbolRegex.search (strip line) with
  | some m => .ok (symbols.set (m.text 2) ⟨m.text 1, split [',', ' '] (m.text 3)⟩)
  | none => .error .nilError

def readSymbols (file : Text) : Except GenError (Hash Text TableSymbol) :=
  (lines file).foldlM readSymbol .empty

/-! ## What is found -/

/-- `\w+` -/
def SymName (sym : Text) : Prop := sym ≠ [] ∧ ∀ c ∈ sym, isWord c

/-- `/GLIBC_[0-9\.]+/i` -/
structure GlibcVersion (version : Text) : Prop where
  split : ∃ g d, version = g ++ '_' :: d ∧ g.map Char.toLower = "glibc".toList ∧
    d ≠ [] ∧ ∀ c ∈ d, c.isDigit ∨ c = '.'

/-- What the expressions that look for symbols take. -/
structure ElfSymbol.Ok (line : ElfSymbol) : Prop where
  name : SymName line.name
  version : GlibcVersion line.version

/-- One of them is found at least. -/
structure FoundSymbol.Ok (symbol : FoundSymbol) : Prop where
  some_version : symbol.versions ≠ []
  versions : ∀ v ∈ symbol.versions, GlibcVersion v

theorem isAlpha_of_toLower {c : Char} (hc : c.toLower ∈ "glibc".toList) :
    c.isAlpha := by
  by_cases hupper : c.isUpper
  · simp [Char.isAlpha, hupper]
  · have hsame : c.toLower = c := by
      rw [Char.toLower, dif_neg]
      simpa [Char.isUpper] using hupper
    rw [hsame] at hc
    fin_cases hc <;> rfl

namespace GlibcVersion

variable {version : Text} (h : GlibcVersion version)
include h

theorem chars : ∀ c ∈ version, c.isAlphanum ∨ c = '_' ∨ c = '.' := by
  obtain ⟨g, d, rfl, hg, -, hd⟩ := h.split
  intro c hc
  rw [List.mem_append, List.mem_cons] at hc
  rcases hc with hc | rfl | hc
  · have hlower : c.toLower ∈ "glibc".toList := hg ▸ List.mem_map_of_mem hc
    exact .inl (by rw [Char.isAlphanum, isAlpha_of_toLower hlower, Bool.true_or])
  · exact .inr (.inl rfl)
  · rcases hd c hc with hdigit | rfl
    · exact .inl (by simp [Char.isAlphanum, hdigit])
    · exact .inr (.inr rfl)

/-- No character of a version has a meaning of its own in a table. -/
theorem plain : ∀ c ∈ version, c ≠ ',' ∧ c ≠ '\n' ∧ isSpace c = false ∧ c ≠ '\x00' := by
  intro c hc
  have hchars := h.chars c hc
  have hne : ∀ d : Char, d.isAlphanum = false → d ≠ '_' → d ≠ '.' → c ≠ d := by
    rintro d hd hunder hdot rfl
    rcases hchars with halnum | rfl | rfl
    · rw [hd] at halnum
      cases halnum
    · exact hunder rfl
    · exact hdot rfl
  refine ⟨?_, ?_, ?_, ?_⟩
  · exact hne ',' rfl (by decide) (by decide)
  · exact hne '\n' rfl (by decide) (by decide)
  · simp only [isSpace, Bool.or_eq_false_iff, beq_eq_false_iff_ne]
    refine ⟨⟨⟨⟨⟨?_, ?_⟩, ?_⟩, ?_⟩, ?_⟩, ?_⟩ <;>
      exact hne _ rfl (by decide) (by decide)
  · exact hne '\x00' rfl (by decide) (by decide)

theorem ne_nil : version ≠ [] := by
  obtain ⟨g, d, rfl, -⟩ := h.split
  simp

end GlibcVersion

theorem head?_type (t : SymType) {v : Text} {b : Bool} {g : Nat → Option Text} :
    ((oneOf ["fun", "obj"]).outs ⟨b, t.text ++ v, g⟩).head? =
      some ⟨bolAfter b t.text, v, g⟩ := by
  cases t <;> rfl

/-- The expression takes a line apart where it was put together. -/
theorem symbolRegex_search {sym rest : Text} (t : SymType) (hsym : SymName sym)
    (hne : rest ≠ []) (hline : OneLine rest) :
    ∃ m, symbolRegex.search
        (t.text ++ ([' '] ++ (sym ++ ([':', ' '] ++ rest)))) = some m ∧
      m.text 1 = t.text ∧ m.text 2 = sym ∧ m.text 3 = rest := by
  have hrest : ∀ b g, ((plus isDot).outs ⟨b, rest ++ [], g⟩).head? =
      some ⟨bolAfter b rest, [], g⟩ := fun b g =>
    head?_plus hne (isDot_of_oneLine hline) (fun x hx => nomatch hx)
  -- a name ends at the colon
  have hname : ∀ x ∈ ([':', ' '] ++ (rest ++ [])).head?, isWord x = false := by
    intro x hx
    obtain rfl := Option.some.inj hx
    rfl
  have hhead : (symbolRegex.outsAt true
      (t.text ++ ([' '] ++ (sym ++ ([':', ' '] ++ (rest ++ [])))))).head? =
      some ⟨_, [], _⟩ :=
    head?_seq (head?_group (head?_type t)) <|
      head?_seq (head?_lit [' ']) <|
        head?_seq (head?_group (head?_plus hsym.1 hsym.2 hname)) <|
          head?_seq (head?_lit [':', ' ']) <|
            head?_group (hrest _ _)
  rw [List.append_nil] at hhead
  obtain ⟨m, hm, -, -, hgroups⟩ := matchAt_of_head? hhead
  refine ⟨m, search_of_matchAt hm, ?_, ?_, ?_⟩ <;>
    simp [Match.text, hgroups, Function.update]

/-! ## What is read -/

/-- A symbol as it is read back. -/
def FoundSymbol.written (symbol : FoundSymbol) : TableSymbol :=
  ⟨symbol.type.text, sortTexts symbol.versions⟩

variable {sym : Text} {symbol : FoundSymbol}

theorem FoundSymbol.Ok.sorted (h : symbol.Ok) :
    sortTexts symbol.versions ≠ [] ∧
      ∀ v ∈ sortTexts symbol.versions, GlibcVersion v := by
  refine ⟨fun hnil => ?_, fun v hv => h.versions v (mem_sortTexts.mp hv)⟩
  obtain ⟨v, hv⟩ := List.exists_mem_of_ne_nil _ h.some_version
  have hmem := mem_sortTexts.mpr hv
  rw [hnil] at hmem
  cases hmem

/-- The line of a symbol is one line, and begins and ends with no blank. -/
theorem symbolLine_bare (hsym : SymName sym) (h : symbol.Ok) :
    '\n' ∉ symbolLine sym symbol ∧ strip (symbolLine sym symbol ++ ['\n']) =
      symbolLine sym symbol := by
  obtain ⟨hne, hversions⟩ := h.sorted
  constructor
  · have hjoin : ∀ c ∈ join [',', ' '] (sortTexts symbol.versions), c ≠ '\n' :=
      forall_mem_join (by simp) fun v hv c hc => ((hversions v hv).plain c hc).2.1
    have hword : ∀ c ∈ sym, c ≠ '\n' := by
      rintro c hc rfl
      exact absurd (hsym.2 _ hc) (by decide)
    have htype : ∀ c ∈ symbol.type.text, c ≠ '\n' := by
      cases symbol.type <;> simp [SymType.text]
    intro hmem
    simp only [symbolLine, List.mem_append] at hmem
    rcases hmem with hmem | hmem | hmem | hmem | hmem
    · exact htype _ hmem rfl
    · simp at hmem
    · exact hword _ hmem rfl
    · simp at hmem
    · exact hjoin _ hmem rfl
  · obtain ⟨ps, v, hlast⟩ := (List.eq_nil_or_concat' _).resolve_left hne
    have hv := hversions v (by rw [hlast]; simp)
    obtain ⟨w, hw⟩ := join_concat [',', ' '] ps v
    have hend : ∃ u, symbolLine sym symbol = u ++ v := by
      refine ⟨symbol.type.text ++ ([' '] ++ (sym ++ ([':', ' '] ++ w))), ?_⟩
      simp only [symbolLine, hlast, hw, List.append_assoc]
    obtain ⟨u, hu⟩ := hend
    show strip ([] ++ symbolLine sym symbol ++ ['\n']) = symbolLine sym symbol
    refine strip_append (by simp) (by simp [isSpace]) ?_ ?_
    · intro c hc
      have hfirst : c = 'f' ∨ c = 'o' := by
        rw [symbolLine] at hc
        cases htype : symbol.type <;> rw [htype] at hc
        · exact .inl (Option.some.inj hc).symm
        · exact .inr (Option.some.inj hc).symm
      rcases hfirst with rfl | rfl <;> decide
    · intro c hc
      rw [hu, List.getLast?_append_of_ne_nil _ hv.ne_nil] at hc
      exact (hv.plain c (List.mem_of_getLast? hc)).2.2

/-- A line is read as what it was written for. -/
theorem readSymbol_line (symbols : Hash Text TableSymbol) (hsym : SymName sym)
    (h : symbol.Ok) :
    readSymbol symbols (symbolLine sym symbol ++ ['\n']) =
      .ok (symbols.set sym symbol.written) := by
  obtain ⟨hne, hversions⟩ := h.sorted
  have hline : OneLine (join [',', ' '] (sortTexts symbol.versions)) := fun hmem =>
    forall_mem_join (P := (· ≠ '\n')) (by simp)
      (fun v hv c hc => ((hversions v hv).plain c hc).2.1) _ hmem rfl
  have hjoin : join [',', ' '] (sortTexts symbol.versions) ≠ [] := by
    obtain ⟨ps, v, hlast⟩ := (List.eq_nil_or_concat' _).resolve_left hne
    obtain ⟨w, hw⟩ := join_concat [',', ' '] ps v
    rw [hlast, hw]
    have hv := (hversions v (by rw [hlast]; simp)).ne_nil
    simp [hv]
  obtain ⟨m, hm, htype, hname, hrest⟩ :=
    symbolRegex_search symbol.type hsym hjoin hline
  rw [readSymbol, (symbolLine_bare hsym h).2, symbolLine, hm]
  show Except.ok _ = _
  rw [htype, hname, hrest, split_join
    (fun v hv hcomma => ((hversions v hv).plain _ hcomma).1 rfl)
    (fun v hv => (hversions v (List.mem_of_getLast? hv)).ne_nil) hne]
  rfl

/-- The loop over the lines of several symbols. -/
theorem foldlM_readSymbol {es : List (Text × FoundSymbol)}
    (hes : ∀ e ∈ es, SymName e.1 ∧ e.2.Ok) (hnodup : (es.map Prod.fst).Nodup)
    (symbols : Hash Text TableSymbol) (hnew : ∀ e ∈ es, e.1 ∉ symbols.keys) :
    ∃ symbols', (es.map fun e => symbolLine e.1 e.2 ++ ['\n']).foldlM readSymbol
        symbols = .ok symbols' ∧
      symbols'.entries = symbols.entries ++ es.map fun e => (e.1, e.2.written) := by
  induction es generalizing symbols with
  | nil => exact ⟨symbols, rfl, (List.append_nil _).symm⟩
  | cons e es ih =>
      obtain ⟨⟨hname, hok⟩, hes⟩ := List.forall_mem_cons.mp hes
      obtain ⟨hfirst, hnodup⟩ := List.nodup_cons.mp hnodup
      obtain ⟨hnot, hnew⟩ := List.forall_mem_cons.mp hnew
      have hentries := Hash.entries_set_of_not_mem hnot e.2.written
      obtain ⟨symbols', hread, hsymbols'⟩ := ih hes hnodup
        (symbols.set e.1 e.2.written) fun e' he' hmem => by
          rw [Hash.keys, hentries, List.map_append, List.mem_append] at hmem
          rcases hmem with hmem | hmem
          · exact hnew e' he' hmem
          · exact hfirst (List.mem_singleton.mp hmem ▸ List.mem_map_of_mem he')
      refine ⟨symbols', ?_, ?_⟩
      · rw [List.map_cons, List.foldlM_cons, readSymbol_line symbols hname hok]
        exact hread
      · rw [hsymbols', hentries, List.append_assoc]
        rfl

/-- The entries of a table in the order they are written in. -/
def sortedEntries (symbols : Hash Text FoundSymbol) : List (Text × FoundSymbol) :=
  (sortTexts symbols.keys).filterMap fun sym => (symbols.get? sym).map (sym, ·)

theorem mem_sortedEntries {symbols : Hash Text FoundSymbol} :
    (sym, symbol) ∈ sortedEntries symbols ↔ symbols.get? sym = some symbol := by
  rw [sortedEntries, List.mem_filterMap]
  constructor
  · rintro ⟨sym', -, hsome⟩
    obtain ⟨symbol', hget, heq⟩ := Option.map_eq_some_iff.mp hsome
    cases heq
    exact hget
  · intro hget
    exact ⟨sym, mem_sortTexts.mpr (Hash.mem_keys_iff.mpr ⟨_, hget⟩), by rw [hget]; rfl⟩

theorem map_fst_sortedEntries (symbols : Hash Text FoundSymbol) :
    (sortedEntries symbols).map Prod.fst = sortTexts symbols.keys := by
  have hpresent : ∀ sym ∈ sortTexts symbols.keys,
      ((symbols.get? sym).map (sym, ·)).map Prod.fst = some sym := by
    intro sym hsym
    obtain ⟨symbol, hget⟩ := Hash.mem_keys_iff.mp (mem_sortTexts.mp hsym)
    rw [hget]
    rfl
  rw [sortedEntries, List.map_filterMap, List.filterMap_congr hpresent,
    List.filterMap_some]

/-- A table that is written is read back sorted. -/
theorem readSymbols_printSymbols {symbols : Hash Text FoundSymbol}
    (hok : ∀ sym symbol, symbols.get? sym = some symbol → SymName sym ∧ symbol.Ok) :
    ∃ table, readSymbols (printSymbols symbols) = .ok table ∧
      table.entries = (sortedEntries symbols).map fun e => (e.1, e.2.written) := by
  have hes : ∀ e ∈ sortedEntries symbols, SymName e.1 ∧ e.2.Ok := fun e he =>
    hok e.1 e.2 (mem_sortedEntries.mp he)
  have hnodup : ((sortedEntries symbols).map Prod.fst).Nodup := by
    rw [map_fst_sortedEntries]
    exact (List.mergeSort_perm ..).nodup_iff.mpr symbols.nodup
  obtain ⟨table, hread, htable⟩ :=
    foldlM_readSymbol hes hnodup .empty fun _ _ => List.not_mem_nil
  refine ⟨table, ?_, htable⟩
  have hprint : printSymbols symbols =
      (((sortedEntries symbols).map fun e => symbolLine e.1 e.2).map
        (· ++ ['\n'])).flatten := by
    rw [printSymbols, sortedEntries, List.map_map, List.map_filterMap]
    refine congrArg List.flatten (List.filterMap_congr fun sym _ => ?_)
    rw [Option.map_map]
    rfl
  have hlines : ∀ l ∈ (sortedEntries symbols).map fun e => symbolLine e.1 e.2,
      '\n' ∉ l := by
    intro l hl
    obtain ⟨e, he, rfl⟩ := List.mem_map.mp hl
    exact (symbolLine_bare (hes e he).1 (hes e he).2).1
  rw [readSymbols, hprint, lines_flatten hlines, List.map_map]
  exact hread

/-! ## What was found -/

/-- What is known of a symbol from the lines that were looked at. -/
structure Gathered (found : List ElfSymbol) (sym : Text) (symbol : FoundSymbol) :
    Prop where
  type : (found.find? (·.name = sym)).map (·.type) = some symbol.type
  versions : ∀ v, v ∈ symbol.versions ↔ ∃ l ∈ found, l.name = sym ∧ l.version = v
  nodup : symbol.versions.Nodup

variable {found : List ElfSymbol} {l : ElfSymbol}

/-- A line about another symbol. -/
theorem Gathered.of_ne (h : Gathered found sym symbol) (hl : l.name ≠ sym) :
    Gathered (found ++ [l]) sym symbol where
  type := by
    rw [List.find?_append, List.find?_singleton, if_neg (by simpa using hl),
      Option.or_none]
    exact h.type
  versions v := by
    rw [h.versions]
    refine exists_congr fun l' => and_congr_left fun ⟨hname, _⟩ => ?_
    rw [List.mem_append, List.mem_singleton]
    refine (or_iff_left ?_).symm
    rintro rfl
    exact hl hname
  nodup := h.nodup

/-- A line about a symbol that was seen before. -/
theorem Gathered.again (h : Gathered found l.name symbol) :
    Gathered (found ++ [l]) l.name
      (if l.version ∈ symbol.versions then symbol
      else { symbol with versions := symbol.versions ++ [l.version] }) where
  type := by
    obtain ⟨l', hfind, htype⟩ := Option.map_eq_some_iff.mp h.type
    rw [List.find?_append, hfind, Option.some_or]
    split <;> exact congrArg some htype
  versions v := by
    have hlast : (∃ l' ∈ found ++ [l], l'.name = l.name ∧ l'.version = v) ↔
        (∃ l' ∈ found, l'.name = l.name ∧ l'.version = v) ∨ v = l.version := by
      simp only [List.mem_append, List.mem_singleton, or_and_right, exists_or,
        exists_eq_left, true_and]
      exact or_congr_right eq_comm
    rw [hlast, ← h.versions]
    split
    · rename_i hmem
      exact (or_iff_left_of_imp fun hv => hv ▸ hmem).symm
    · rw [List.mem_append, List.mem_singleton]
  nodup := by
    split
    · exact h.nodup
    · rename_i hnot
      refine List.nodup_append.mpr ⟨h.nodup, List.nodup_singleton _, ?_⟩
      rintro v hv w hw rfl
      exact hnot (List.mem_singleton.mp hw ▸ hv)

/-- A line about a symbol that was not. -/
theorem Gathered.first (hnew : ∀ l' ∈ found, l'.name ≠ l.name) :
    Gathered (found ++ [l]) l.name ⟨[l.version], l.type⟩ where
  type := by
    have hnone : found.find? (·.name = l.name) = none :=
      List.find?_eq_none.mpr fun l' hl' => by simpa using hnew l' hl'
    rw [List.find?_append, hnone, Option.none_or]
    simp
  versions v := by
    rw [List.mem_singleton]
    constructor
    · rintro rfl
      exact ⟨l, by simp, rfl, rfl⟩
    · rintro ⟨l', hl', hname, rfl⟩
      rcases List.mem_append.mp hl' with hl' | hl'
      · exact absurd hname (hnew l' hl')
      · rw [List.mem_singleton.mp hl']
  nodup := List.nodup_singleton _

/-- The induction over the lines. -/
theorem findSymbols_gathered (found : List ElfSymbol) (sym : Text) :
    (∀ symbol, (findSymbols found).get? sym = some symbol →
      Gathered found sym symbol) ∧
    ((findSymbols found).get? sym = none → ∀ l ∈ found, l.name ≠ sym) := by
  induction found using List.reverseRecOn with
  | nil => exact ⟨nofun, nofun⟩
  | append_singleton found l ih =>
      have hstep : findSymbols (found ++ [l]) = addSymbol (findSymbols found) l := by
        rw [findSymbols, List.foldl_append]
        rfl
      rw [hstep, addSymbol]
      by_cases hl : l.name = sym
      · subst hl
        rw [Hash.get?_set_self]
        refine ⟨fun symbol hsymbol => ?_, nofun⟩
        obtain rfl := Option.some.inj hsymbol
        cases hget : (findSymbols found).get? l.name with
        | none => exact .first (ih.2 hget)
        | some symbol => exact (ih.1 symbol hget).again
      · rw [Hash.get?_set_of_ne (Ne.symm hl)]
        refine ⟨fun symbol hsymbol => (ih.1 symbol hsymbol).of_ne hl, fun hnone l' hl' => ?_⟩
        rcases List.mem_append.mp hl' with hl' | hl'
        · exact ih.2 hnone l' hl'
        · exact List.mem_singleton.mp hl' ▸ hl

/-- The symbols found are fit to be written. -/
theorem Gathered.ok (h : Gathered found sym symbol) (hfound : ∀ l ∈ found, l.Ok) :
    SymName sym ∧ symbol.Ok := by
  obtain ⟨l, hfind, -⟩ := Option.map_eq_some_iff.mp h.type
  have hmem := List.mem_of_find?_eq_some hfind
  have hname : l.name = sym := by simpa using List.find?_some hfind
  refine ⟨hname ▸ (hfound l hmem).name, fun hnil => ?_, fun v hv => ?_⟩
  · have hv := (h.versions l.version).mpr ⟨l, hmem, hname, rfl⟩
    rw [hnil] at hv
    cases hv
  · obtain ⟨l', hl', -, rfl⟩ := (h.versions v).mp hv
    exact (hfound l' hl').version

/-- The table that is read from what was written of `found`. -/
structure ReadBack (found : List ElfSymbol) (table : Hash Text TableSymbol) : Prop where
  read : readSymbols (printSymbols (findSymbols found)) = .ok table
  keys : table.keys = sortTexts (findSymbols found).keys
  get? : ∀ sym symbol, table.get? sym = some symbol ↔
    ∃ symbol', (findSymbols found).get? sym = some symbol' ∧
      symbol = symbol'.written

theorem exists_readBack (hfound : ∀ l ∈ found, l.Ok) :
    ∃ table, ReadBack found table := by
  obtain ⟨table, hread, hentries⟩ :=
    readSymbols_printSymbols fun sym symbol hget =>
      ((findSymbols_gathered found sym).1 symbol hget).ok hfound
  refine ⟨table, hread, ?_, fun sym symbol => ?_⟩
  · rw [Hash.keys, hentries, List.map_map]
    exact map_fst_sortedEntries _
  · rw [Hash.get?_eq_some_iff, hentries, List.mem_map]
    constructor
    · rintro ⟨⟨sym', symbol'⟩, he, heq⟩
      cases heq
      exact ⟨symbol', mem_sortedEntries.mp he, rfl⟩
    · rintro ⟨symbol', hget', rfl⟩
      exact ⟨(sym, symbol'), mem_sortedEntries.mpr hget', rfl⟩

namespace ReadBack

variable {table : Hash Text TableSymbol} {read : TableSymbol}

/-- A symbol that was read. -/
theorem spec (h : ReadBack found table) (hget : table.get? sym = some read) :
    (found.find? (·.name = sym)).map (·.type.text) = some read.type ∧
      read.versions.Pairwise (· < ·) ∧
      ∀ v, v ∈ read.versions ↔ ∃ l ∈ found, l.name = sym ∧ l.version = v := by
  obtain ⟨symbol, hget', rfl⟩ := (h.get? sym read).mp hget
  have hgathered := (findSymbols_gathered found sym).1 symbol hget'
  refine ⟨?_, sortTexts_lt hgathered.nodup, fun v => ?_⟩
  · obtain ⟨l, hl, htype⟩ := Option.map_eq_some_iff.mp hgathered.type
    rw [hl, Option.map_some, htype]
    rfl
  · exact mem_sortTexts.trans (hgathered.versions v)

theorem get?_eq_none_iff (h : ReadBack found table) :
    table.get? sym = none ↔ ∀ l ∈ found, l.name ≠ sym := by
  cases hfind : (findSymbols found).get? sym with
  | none =>
      refine iff_of_true ?_ ((findSymbols_gathered found sym).2 hfind)
      refine Option.eq_none_iff_forall_ne_some.mpr fun read hread => ?_
      obtain ⟨symbol, hget, -⟩ := (h.get? sym read).mp hread
      rw [hfind] at hget
      cases hget
  | some symbol =>
      refine iff_of_false ?_ fun hnone => ?_
      · rw [(h.get? sym _).mpr ⟨symbol, hfind, rfl⟩]
        exact nofun
      · have hgathered := (findSymbols_gathered found sym).1 symbol hfind
        obtain ⟨l, hl, -⟩ := Option.map_eq_some_iff.mp hgathered.type
        exact hnone l (List.mem_of_find?_eq_some hl)
          (by simpa using List.find?_some hl)

end ReadBack

/-- What the generators read is what was found: the symbols, each once and in
order, with the type each was first seen with and all of its versions in
order. -/
theorem symbolTable_read_back (hfound : ∀ l ∈ found, l.Ok) :
    ∃ table, readSymbols (printSymbols (findSymbols found)) = .ok table ∧
      table.keys.Pairwise (· < ·) ∧
      (∀ sym, table.get? sym = none ↔ ∀ l ∈ found, l.name ≠ sym) ∧
      ∀ sym symbol, table.get? sym = some symbol →
        (found.find? (·.name = sym)).map (·.type.text) = some symbol.type ∧
        symbol.versions.Pairwise (· < ·) ∧
        ∀ v, v ∈ symbol.versions ↔ ∃ l ∈ found, l.name = sym ∧ l.version = v := by
  obtain ⟨table, h⟩ := exists_readBack hfound
  refine ⟨table, h.read, ?_, fun _ => h.get?_eq_none_iff, fun _ _ => h.spec⟩
  rw [h.keys]
  exact sortTexts_lt (findSymbols found).nodup

/-- Two lines of `readelf` for `memcpy`. -/
def memcpyFound : List ElfSymbol :=
  [⟨"memcpy".toList, "GLIBC_2.2.5".toList, .function⟩,
    ⟨"memcpy".toList, "GLIBC_2.14".toList, .function⟩]

theorem memcpyFound_ok : ∀ l ∈ memcpyFound, l.Ok := by
  have hname : SymName "memcpy".toList := ⟨by simp, List.all_eq_true.mp rfl⟩
  have hold : GlibcVersion "GLIBC_2.2.5".toList :=
    ⟨"GLIBC".toList, "2.2.5".toList, rfl, rfl, by simp, by simp⟩
  have hnew : GlibcVersion "GLIBC_2.14".toList :=
    ⟨"GLIBC".toList, "2.14".toList, rfl, rfl, by simp, by simp⟩
  intro l hl
  rcases List.mem_pair.mp hl with rfl | rfl
  · exact ⟨hname, hold⟩
  · exact ⟨hname, hnew⟩

theorem symbolTable_read_back_memcpy :
    ∃ table, readSymbols (printSymbols (findSymbols memcpyFound)) = .ok table ∧
      ∀ symbol, table.get? "memcpy".toList = some symbol → ∀ v,
        v ∈ symbol.versions ↔ v = "GLIBC_2.2.5".toList ∨ v = "GLIBC_2.14".toList := by
  obtain ⟨table, hread, -, -, hspec⟩ := symbolTable_read_back memcpyFound_ok
  refine ⟨table, hread, fun symbol hsymbol v => ?_⟩
  rw [(hspec _ symbol hsymbol).2.2]
  simp [memcpyFound, eq_comm]

end Libc6Shim
