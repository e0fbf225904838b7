import Libc6Shim.DynamicLinking
import Libc6Shim.WrappersFile

/-!
# What the library gives out

From the symbols of glibc to those of the shim's library: `SHIM_EXPORT(sym)` is
for the compiler what `utils/symver.rb` wrote of `sym` (`macroBody_symver`), and
there is one for each function, in the file of `utils/wrappers_c.rb` or where
the function is wrapped by hand.

So each version of each function that was found in glibc is given out, by one
alias and no other, and nothing that was not found (`library_exports`). What a
program finds of these at run time is what its references are bound to
(`library_lookups`). A symbol that was first found as something else is not a
function in the table, and none of the functions that are other names of the
shim's own may be wrapped by hand.
-/

namespace Libc6Shim

open Ruby Regex CSem

/-! ## Macros -/

/-- What a line defines a macro as. -/
def definedAs (name l : Text) : Option Text :=
  let front := "#define ".toList ++ name ++ [' ']
  if front.isPrefixOf l then some (l.drop front.length) else none

/-- What a macro is defined as in a file. -/
def macroBody (file name : Text) : Option Text :=
  ((lines (spliceLines file)).map chomp).findSome? (definedAs name)

/-- What a symbol's exports are, of all of its versions. -/
def exportText (sym : Text) (versions : List Text) : Text :=
  (versions.map (exportLines sym)).flatten.flatten

section Macros

variable {u v w : Text} {sym : Text}

/-- A name, and the blank behind it. -/
theorem name_prefix_iff (hu : ∀ c ∈ u, isWord c) (hv : ∀ c ∈ v, isWord c) :
    (u ++ [' ']) <+: (v ++ ' ' :: w) ↔ u = v := by
  constructor
  · rintro ⟨t, ht⟩
    have hname : ∀ {u t : Text}, (∀ c ∈ u, isWord c) →
        (u ++ ' ' :: t).takeWhile isWord = u := by
      intro u t hu
      rw [List.takeWhile_append_of_pos hu, List.takeWhile_cons_of_neg (by decide),
        List.append_nil]
    rw [List.append_assoc, List.singleton_append] at ht
    rw [← hname hu, ht, hname hv]
  · rintro rfl
    exact ⟨w, by simp⟩

theorem definedAs_export (hsym : SymName sym) {n : Text} (hn : SymName n) (text : Text) :
    definedAs ("SHIM_EXPORT_".toList ++ sym)
      ("#define SHIM_EXPORT_".toList ++ n ++ [' '] ++ text) =
        if n = sym then some text else none := by
  have hfront : "#define ".toList ++ ("SHIM_EXPORT_".toList ++ sym) ++ [' '] =
      "#define SHIM_EXPORT_".toList ++ (sym ++ [' ']) := by simp
  have hline : "#define SHIM_EXPORT_".toList ++ n ++ [' '] ++ text =
      "#define SHIM_EXPORT_".toList ++ (n ++ ' ' :: text) := by simp
  have hstarts : ("#define SHIM_EXPORT_".toList ++ (sym ++ [' '])).isPrefixOf
      ("#define SHIM_EXPORT_".toList ++ (n ++ ' ' :: text)) = true ↔ n = sym := by
    rw [List.isPrefixOf_iff_prefix, List.prefix_append_right_inj,
      name_prefix_iff hsym.2 hn.2, eq_comm]
  unfold definedAs
  rw [hfront, hline]
  by_cases hname : n = sym
  · have hbehind : "#define SHIM_EXPORT_".toList ++ (sym ++ ' ' :: text) =
        "#define SHIM_EXPORT_".toList ++ (sym ++ [' ']) ++ text := by simp
    rw [if_pos hname, if_pos (hstarts.mpr hname), hname, hbehind, List.drop_left]
  · rw [if_neg hname, if_neg (mt hstarts.mp hname)]

theorem definedAs_blank (name : Text) : definedAs name [] = none := by
  simp [definedAs]

end Macros

section Table

variable {found : List ElfSymbol} {table : Hash Text TableSymbol} {sym : Text}

/-- The lines of a symbol: its macro, and a blank one. -/
def macroLines (e : Text × TableSymbol) : List Text :=
  ["#define SHIM_EXPORT_".toList ++ e.1 ++ [' '] ++ exportText e.1 e.2.versions, []]

theorem findSome_macroLines (hsym : SymName sym) {es : List (Text × TableSymbol)}
    (hes : ∀ e ∈ es, SymName e.1) :
    (es.flatMap macroLines).findSome? (definedAs ("SHIM_EXPORT_".toList ++ sym)) =
      (es.find? fun e => e.1 = sym).map fun e => exportText sym e.2.versions := by
  induction es with
  | nil => rfl
  | cons e es ih =>
      obtain ⟨he, hes⟩ := List.forall_mem_cons.mp hes
      rw [List.flatMap_cons, macroLines, List.cons_append, List.cons_append,
        List.findSome?_cons, List.findSome?_cons, List.nil_append,
        definedAs_export hsym he, definedAs_blank, ih hes, List.find?_cons]
      by_cases hname : e.1 = sym <;> simp [hname]

theorem flatten_macroLines (es : List (Text × TableSymbol)) :
    (es.map fun e => "#define SHIM_EXPORT_".toList ++ e.1 ++ [' '] ++
        (e.2.versions.map (exportLines e.1)).flatten.flatten ++ ['\n', '\n']).flatten =
      ((es.flatMap macroLines).map (· ++ ['\n'])).flatten := by
  induction es with
  | nil => rfl
  | cons e es ih =>
      rw [List.map_cons, List.flatten_cons, ih, List.flatMap_cons, List.map_append,
        List.flatten_append]
      simp [macroLines, exportText]

theorem ReadBack.oneLine_macroLines (h : ReadBack found table) (hfound : ∀ l ∈ found, l.Ok) :
    ∀ l ∈ table.entries.flatMap macroLines, OneLine l := by
  intro l hl
  obtain ⟨⟨sym, symbol⟩, he, hl⟩ := List.mem_flatMap.mp hl
  have hget := Hash.get?_eq_some_iff.mpr he
  rcases List.mem_pair.mp hl with rfl | rfl
  · have hsym := (h.symName hfound hget).oneLine
    refine (((oneLine_of_all rfl).append hsym).append (oneLine_of_all rfl)).append fun hmem => ?_
    obtain ⟨t, ht, hmem⟩ := List.mem_flatten.mp hmem
    obtain ⟨ts, hts, ht⟩ := List.mem_flatten.mp ht
    obtain ⟨version, hversion, rfl⟩ := List.mem_map.mp hts
    obtain ⟨l, hl, -, rfl⟩ := ((h.spec hget).2.2 version).mp hversion
    exact (exportLines_line hsym (hfound l hl).version.oneLine ht).1 hmem
  · exact List.not_mem_nil

/-- The macro of a symbol is the one that was written for it. -/
theorem ReadBack.macroBody_symver (h : ReadBack found table) (hfound : ∀ l ∈ found, l.Ok)
    (hsym : SymName sym) :
    macroBody (symver table) ("SHIM_EXPORT_".toList ++ sym) =
      (table.get? sym).map fun symbol => exportText sym symbol.versions := by
  have hnames : ∀ e ∈ table.entries, SymName e.1 := fun e he =>
    h.symName hfound (Hash.get?_eq_some_iff.mpr he)
  rw [macroBody, h.symver_spliced hfound, flatten_macroLines,
    lines_chomp (h.oneLine_macroLines hfound), findSome_macroLines hsym hnames, Hash.get?,
    Option.map_map]
  rfl

/-! ## The library -/

/-- What some exports give out: symbols, each in its versions. -/
def givenOut (table : Hash Text TableSymbol) (names : List Text) : List (Text × Text) :=
  names.flatMap fun sym =>
    (((table.get? sym).map TableSymbol.versions).getD []).map fun version => (sym, version)

theorem mem_givenOut {names : List Text} {version : Text} :
    (sym, version) ∈ givenOut table names ↔
      sym ∈ names ∧ (sym, version) ∈ exported table := by
  rw [mem_exported, givenOut, List.mem_flatMap]
  constructor
  · rintro ⟨name, hname, hmem⟩
    obtain ⟨v, hv, heq⟩ := List.mem_map.mp hmem
    cases heq
    cases hget : table.get? sym with
    | none =>
        rw [hget] at hv
        cases hv
    | some symbol =>
        rw [hget] at hv
        exact ⟨hname, symbol, rfl, hv⟩
  · rintro ⟨hname, symbol, hget, hv⟩
    refine ⟨sym, hname, List.mem_map.mpr ⟨version, ?_, rfl⟩⟩
    rw [hget]
    exact hv

theorem ReadBack.nodup_givenOut (h : ReadBack found table) {names : List Text}
    (hnames : names.Nodup) : (givenOut table names).Nodup := by
  rw [givenOut, List.nodup_flatMap]
  constructor
  · intro sym _
    have hversions : (((table.get? sym).map TableSymbol.versions).getD []).Nodup := by
      cases hget : table.get? sym with
      | none => exact .nil
      | some symbol => exact (h.spec hget).2.1.imp fun hlt => ne_of_lt hlt
    exact hversions.map fun v v' heq => congrArg Prod.snd heq
  · refine hnames.imp fun {sym sym'} hne => List.disjoint_left.mpr fun e he he' => ?_
    obtain ⟨v, -, rfl⟩ := List.mem_map.mp he
    obtain ⟨v', -, heq⟩ := List.mem_map.mp he'
    exact hne (congrArg Prod.fst heq).symm

/-- No two aliases for what is given out are the same. -/
theorem ReadBack.nodup_outAliases (h : ReadBack found table) (hfound : ∀ l ∈ found, l.Ok)
    {names : List Text} (hnames : names.Nodup) :
    ((givenOut table names).map fun e => symAlias e.1 e.2).Nodup := by
  have hall := (List.nodup_map_iff_inj_on h.nodup_exported).mp (h.nodup_aliases hfound)
  refine (List.nodup_map_iff_inj_on (h.nodup_givenOut hnames)).mpr fun e he e' he' heq => ?_
  exact hall e (mem_givenOut.mp he).2 e' (mem_givenOut.mp he').2 heq

/-- A symbol all of whose lines say it is a function is one in the table. -/
theorem ReadBack.exists_function (h : ReadBack found table) {l : ElfSymbol} (hl : l ∈ found)
    (htype : ∀ l' ∈ found, l'.name = l.name → l'.type = .function) :
    ∃ symbol, table.get? l.name = some symbol ∧ symbol.type = "fun".toList := by
  cases hget : table.get? l.name with
  | none => exact absurd rfl (h.get?_eq_none_iff.mp hget l hl)
  | some symbol =>
      refine ⟨symbol, rfl, ?_⟩
      obtain ⟨l', hl', hsymbol⟩ := Option.map_eq_some_iff.mp (h.spec hget).1
      have hname : l'.name = l.name := by simpa using List.find?_some hl'
      rw [← hsymbol, htype l' (List.mem_of_find?_eq_some hl') hname]
      rfl

end Table

section Main

variable {found : List ElfSymbol} {calls : List DefineCall} {functions : Functions}

/-- The table and the file that the scripts make of what was found, and that
each version of each function in it is given out. -/
theorem exists_library (hfound : ∀ l ∈ found, l.Ok) (hcalls : ∀ call ∈ calls, call.Readable)
    (hdefined : defineAll calls = .ok functions) :
    ∃ table file, ReadBack found table ∧ wrappersC functions table = .ok file ∧
      ∀ hand : List Text, hand.Nodup → (∀ n ∈ hand, n ∉ substitutions.map Prod.fst) →
        let names := hand ++ (compiled (handMacros hand) file).filterMap exportOf
        names.Nodup ∧ ∀ l ∈ found, (∀ l' ∈ found, l'.name = l.name → l'.type = .function) →
          startRegex.search l.name = none → (l.name, l.version) ∈ givenOut table names := by
  obtain ⟨table, h⟩ := exists_readBack hfound
  have hsyms : ∀ e ∈ table.entries, SymName e.1 := fun e he =>
    h.symName hfound (Hash.get?_eq_some_iff.mpr he)
  obtain ⟨ls, hls, hleaves⟩ := wrappersLines_leaves (.of_defineAll hcalls hdefined) hsyms
  refine ⟨table, (ls.map puts).flatten, h, by rw [wrappersC, hls]; rfl, fun hand hhand hapart => ?_⟩
  have honce := (hleaves.compiled (handMacros hand)).exportedOnce hhand hapart
  refine ⟨honce.exports_nodup, fun l hl htype hstart => ?_⟩
  obtain ⟨symbol, hget, hfun⟩ := h.exists_function hl htype
  exact mem_givenOut.mpr ⟨honce.exported l.name symbol hget hfun hstart,
    h.mem_exported.mpr ⟨l, hl, rfl, rfl⟩⟩

/-- Each version of each function that was found is given out by the library, by
an alias no other version of a function has, and what is given out was found.
What is wrapped by hand is none of the `SUBSTITUTIONS`; and a function is one
of which every line that was found says so, as the table goes by the first. -/
theorem library_exports (hfound : ∀ l ∈ found, l.Ok) (hcalls : ∀ call ∈ calls, call.Readable)
    (hdefined : defineAll calls = .ok functions) :
    ∃ table file, readSymbols (printSymbols (findSymbols found)) = .ok table ∧
      wrappersC functions table = .ok file ∧
      (∀ sym symbol, table.get? sym = some symbol →
        macroBody (symver table) ("SHIM_EXPORT_".toList ++ sym) =
          some (exportText sym symbol.versions)) ∧
      ∀ hand : List Text, hand.Nodup → (∀ n ∈ hand, n ∉ substitutions.map Prod.fst) →
        let out := givenOut table
          (hand ++ (compiled (handMacros hand) file).filterMap exportOf)
        (out.map fun e => symAlias e.1 e.2).Nodup ∧
        (∀ e ∈ out, ∃ l ∈ found, l.name = e.1 ∧ l.version = e.2) ∧
        ∀ l ∈ found, (∀ l' ∈ found, l'.name = l.name → l'.type = .function) →
          startRegex.search l.name = none → (l.name, l.version) ∈ out := by
  obtain ⟨table, file, h, hfile, hout⟩ := exists_library hfound hcalls hdefined
  refine ⟨table, file, h.read, hfile, ?_, ?_⟩
  · intro sym symbol hget
    rw [h.macroBody_symver hfound (h.symName hfound hget), hget]
    rfl
  · intro hand hhand hapart
    obtain ⟨hnodup, hgiven⟩ := hout hand hhand hapart
    exact ⟨h.nodup_outAliases hfound hnodup,
      fun e he => h.mem_exported.mp (mem_givenOut.mp he).2, hgiven⟩

theorem library_exports_memcpy : ∃ functions table file,
    defineAll [stdlibCall] = .ok functions ∧ wrappersC functions table = .ok file ∧
      ("memcpy".toList, "GLIBC_2.14".toList) ∈ givenOut table
        ([] ++ (compiled (handMacros []) file).filterMap exportOf) := by
  obtain ⟨functions, hdefined⟩ := stdlibCall_defined
  obtain ⟨table, file, -, hfile, -, hout⟩ := library_exports memcpyFound_ok
    (List.forall_mem_singleton.mpr stdlibCall_readable) hdefined
  have hmemcpy := (hout [] .nil nofun).2.2 ⟨_, "GLIBC_2.14".toList, _⟩
    (List.mem_cons_of_mem _ (List.mem_singleton_self _))
  refine ⟨functions, table, file, hdefined, hfile, hmemcpy (fun l hl _ => ?_) ?_⟩
  · rcases List.mem_pair.mp hl with rfl | rfl <;> rfl
  · decide +kernel

/-! ## Lookups -/

/-- Where a reference to a version of a symbol is bound, if the library's
functions are at `place`. An alias is where its function is. -/
def bound (place : Text → Ptr) (out : List (Text × Text)) (sym version : Text) : Option Ptr :=
  if (sym, version) ∈ out then some (place ("shim_".toList ++ sym)) else none

/-- The linker has the functions of the library under their own names too,
which `src/shim.map` does not hide. -/
def Loaded (rtld : Rtld) (place : Text → Ptr) (names : List Text) : Prop :=
  ∀ sym ∈ names, rtld.own ("shim_".toList ++ sym) = some (place ("shim_".toList ++ sym))

theorem Loaded.exec_lookup {rtld : Rtld} {place : Text → Ptr} {names : List Text} {sym : Text}
    (h : Loaded rtld place names) (hsym : sym ∈ names) (hfits : sym.length ≤ 94) (abi : Abi)
    (handle : Ptr) (version : Option Text) (st : LinkerState) :
    rtld.exec (shimDlvsymAs abi handle sym version) st =
      .ok (place ("shim_".toList ++ sym), st) := by
  have hbuf : shimNameBuf sym = "shim_".toList ++ sym := by
    refine List.take_of_length_le ?_
    rw [List.length_append]
    change 5 + sym.length ≤ 99
    omega
  rw [Rtld.exec_shimDlvsymAs, hbuf, h sym hsym]

/-- A program that looks for a function of glibc at run time, in any version or
in none and whatever handle it has, gets the one that a reference to it is bound
to. The functions are those of `library_exports`, with names that fit into the
buffer. -/
theorem library_lookups (hfound : ∀ l ∈ found, l.Ok) (hcalls : ∀ call ∈ calls, call.Readable)
    (hdefined : defineAll calls = .ok functions) :
    ∃ table file, readSymbols (printSymbols (findSymbols found)) = .ok table ∧
      wrappersC functions table = .ok file ∧
      ∀ hand : List Text, hand.Nodup → (∀ n ∈ hand, n ∉ substitutions.map Prod.fst) →
        let names := hand ++ (compiled (handMacros hand) file).filterMap exportOf
        ∀ rtld place, Loaded rtld place names →
          ∀ l ∈ found, (∀ l' ∈ found, l'.name = l.name → l'.type = .function) →
            startRegex.search l.name = none → l.name.length ≤ 94 →
            ∃ p, bound place (givenOut table names) l.name l.version = some p ∧
              ∀ abi handle st, rtld.exec (shimDlsym abi handle l.name) st = .ok (p, st) ∧
                ∀ version, rtld.exec (shimDlvsym abi handle l.name version) st = .ok (p, st) := by
  obtain ⟨table, file, h, hfile, hout⟩ := exists_library hfound hcalls hdefined
  refine ⟨table, file, h.read, hfile, fun hand hhand hapart => ?_⟩
  obtain ⟨-, hgiven⟩ := hout hand hhand hapart
  intro names rtld place hloaded l hl htype hstart hfits
  have hmem := hgiven l hl htype hstart
  have hname := (mem_givenOut.mp hmem).1
  refine ⟨place ("shim_".toList ++ l.name), if_pos hmem, fun abi handle st =>
    ⟨?_, fun version => ?_⟩⟩
  · exact hloaded.exec_lookup hname hfits abi handle none st
  · exact hloaded.exec_lookup hname hfits abi handle (some version) st

/-- Names at addresses of their own. -/
def placeAt (name : Text) : Ptr :=
  1 + (name.map Char.toNat).foldr (fun c n => c + 0x110000 * n) 0

/-- A linker that has whatever the library is asked for under `shim_`. -/
def namedRtld : Rtld where
  own name := if "shim_".toList.isPrefixOf name then some (placeAt name) else none
  own_ne_null h := by
    split at h
    · cases h
      exact (Nat.add_pos_left Nat.one_pos _).ne'
    · cases h
  ownMissing := smallRtld.ownMissing
  find := smallRtld.find
  load := smallRtld.load
  load_ne_null := smallRtld.load_ne_null
  locate := smallRtld.locate
  linkMap := smallRtld.linkMap
  origin := smallRtld.origin
  badHandle := smallRtld.badHandle

theorem namedRtld_loaded (names : List Text) : Loaded namedRtld placeAt names := by
  intro sym _
  have hstarts : "shim_".toList.isPrefixOf ("shim_".toList ++ sym) = true :=
    List.isPrefixOf_iff_prefix.mpr (List.prefix_append _ _)
  simp only [namedRtld, hstarts, if_true]

theorem library_lookups_memcpy : ∃ table names p,
    readSymbols (printSymbols (findSymbols memcpyFound)) = .ok table ∧
      bound placeAt (givenOut table names) "memcpy".toList "GLIBC_2.14".toList = some p ∧
      ∀ st, namedRtld.exec (shimDlsym .amd64 glibcRtldDefault "memcpy".toList) st =
        .ok (p, st) := by
  obtain ⟨functions, hdefined⟩ := stdlibCall_defined
  obtain ⟨table, file, htable, -, hlookups⟩ := library_lookups memcpyFound_ok
    (List.forall_mem_singleton.mpr stdlibCall_readable) hdefined
  obtain ⟨p, hbound, hlookup⟩ := hlookups [] .nil nofun namedRtld placeAt
    (namedRtld_loaded _) ⟨_, "GLIBC_2.14".toList, _⟩
    (List.mem_cons_of_mem _ (List.mem_singleton_self _)) (fun l hl _ => by
      rcases List.mem_pair.mp hl with rfl | rfl <;> rfl) (by decide +kernel) (by decide)
  exact ⟨table, _, p, htable, hbound, fun st => (hlookup .amd64 glibcRtldDefault st).1⟩

end Main

end Libc6Shim
