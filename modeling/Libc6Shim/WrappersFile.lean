import Libc6Shim.CSemConditionals
import Libc6Shim.WrapperMacros

/-!
# The file of wrappers

`utils/wrappers_c.rb` goes through the symbols of a table and writes for each
function a wrapper or a stub, with its export, to be left out where there is a
`SHIM_WRAPPER_` macro: such a function is wrapped by hand in another file. A
few functions are other names of functions of the shim's.

The compiler finds each function of the table in one of these three ways and in
one only (`wrappersC_exports`), if none of the other names is wrapped by hand:
the script does not ask whether one is, and both would be there.
-/

namespace Libc6Shim

open Ruby Regex CSem

/-! ## prototypes.rb -/

/-- A call of `define`, or with `lsb` of `lsb_define`. -/
structure DefineCall where
  headers : List Text
  prototypes : List Text
  lsb : Bool := false

/-- What is in `$functions`. -/
structure FunctionDef extends Prototype where
  includes : List Text
  lsb : Bool

abbrev Functions := Hash (Option Text) FunctionDef

def includeLine (header : Text) : Text := "#include <".toList ++ header ++ ['>']

/-- The body of the loop. -/
def definePrototype (call : DefineCall) (functions : Functions) (prototype : Text) :
    Except GenError Functions := do
  let fn ← parsePrototype prototype
  if (functions.get? fn.name).isSome then .error (.duplicateDefinition prototype)
  else .ok (functions.set fn.name
    { fn with includes := call.headers.map includeLine, lsb := call.lsb })

def define (functions : Functions) (call : DefineCall) : Except GenError Functions :=
  call.prototypes.foldlM (definePrototype call) functions

/-- The whole of the file. -/
def defineAll (calls : List DefineCall) : Except GenError Functions :=
  calls.foldlM define .empty

/-! ## wrappers_c.rb -/

/-- `SUBSTITUTIONS` -/
def substitutions : List (Text × Text) :=
  [("__getdelim".toList, "getdelim".toList), ("__isoc99_sscanf".toList, "sscanf".toList),
    ("__libc_free".toList, "free".toList), ("__libc_malloc".toList, "malloc".toList),
    ("__strdup".toList, "strdup".toList), ("__strndup".toList, "strndup".toList),
    ("_exit".toList, "_Exit".toList), ("_IO_getc".toList, "getc".toList),
    ("_IO_putc".toList, "putc".toList), ("creat64".toList, "creat".toList),
    ("mkstemp64".toList, "mkstemp".toList)]

/-- What the file begins with. -/
def wrappersHead : List Text :=
  ["#include <stdarg.h>".toList, "#include <stdint.h>".toList, [],
    "#include \"../src/shim.h\"".toList, "#include \"../src/libc/dirent.h\"".toList,
    "#include \"../src/libc/glob.h\"".toList, "#include \"../src/libc/locale.h\"".toList,
    "#include \"../src/libc/netdb.h\"".toList, "#include \"../src/libc/signal.h\"".toList,
    "#include \"../src/libc/sched.h\"".toList, "#include \"../src/libc/time.h\"".toList,
    "#include \"../src/libc/sys/mount.h\"".toList,
    "#include \"../src/libc/sys/socket.h\"".toList,
    "#include \"../src/libc/sys/stat.h\"".toList,
    "#include \"../src/libc/sys/utsname.h\"".toList,
    "#include \"../src/libthr/pthread.h\"".toList]

def generateStub (name : Text) : List Text :=
  ["void shim_".toList ++ name ++ "() \x7b".toList, "  UNIMPLEMENTED();".toList,
    "\x7d".toList]

/-- The lines for a function with a prototype, and for one without. -/
def functionLines (functions : Functions) (sym : Text) : Except GenError (List Text) :=
  match functions.get? (some sym) with
  | none => .ok (generateStub sym)
  | some function => do
      let body ←
        if !function.lsb && checkCompat function.toPrototype then
          (function.includes ++ ·) <$> generateWrapper function.toPrototype none
        else generateStub <$> unlessNil function.name
      return ("// ".toList ++ function.prototype) :: body

/-- `/^__libc_start_main$|setjmp/` -/
def startRegex : Regex :=
  .alt (.cat [.bol, .str "__libc_start_main", .eol]) (.str "setjmp")

/-- The functions that are written. -/
def isGenerated (sym : Text) (symbol : TableSymbol) : Bool :=
  symbol.type == "fun".toList &&
    !((substitutions.lookup sym).isSome || (startRegex.search sym).isSome)

def exportLine (sym : Text) : Text := "SHIM_EXPORT(".toList ++ sym ++ ");".toList

/-- The lines of a function that is written. -/
def guardedLines (functions : Functions) (sym : Text) : Except GenError (List Text) := do
  let body ← functionLines functions sym
  return ("#ifndef SHIM_WRAPPER_".toList ++ sym) ::
    ([] :: body ++ [[], exportLine sym, []] ++ ["#endif // SHIM_WRAPPER_".toList ++ sym])

/-- The body of the loop over the symbols. -/
def symbolLines (functions : Functions) (sym : Text) (symbol : TableSymbol) :
    Except GenError (List Text) := do
  let guarded ← if isGenerated sym symbol then guardedLines functions sym else pure []
  return ("// ".toList ++ sym) :: guarded ++ [[]]

def substitutionLine (sym subst : Text) : Text :=
  "extern __typeof(shim_".toList ++ subst ++ ") shim_".toList ++ sym ++
    " __attribute__((alias(\"shim_".toList ++ subst ++ "\")));".toList

def substitutionLines : List Text :=
  substitutions.flatMap fun e => [substitutionLine e.1 e.2, exportLine e.1]

/-- The lines that are written, each by a `puts`. -/
def wrappersLines (functions : Functions) (table : Hash Text TableSymbol) :
    Except GenError (List Text) := do
  let blocks ← table.entries.mapM fun e => symbolLines functions e.1 e.2
  return wrappersHead ++ blocks.flatten ++ [[]] ++ substitutionLines ++ [[]]

def wrappersC (functions : Functions) (table : Hash Text TableSymbol) :
    Except GenError Text := do
  return ((← wrappersLines functions table).map puts).flatten

/-! ## What the compiler finds -/

/-- A line without its end. -/
def chomp (l : Text) : Text := if l.getLast? = some '\n' then l.dropLast else l

/-- The lines that are left of a file where some macros are defined. What it
includes is not gone into. -/
def compiled (defined : Text → Bool) (file : Text) : List Text :=
  active defined [] ((lines (spliceLines file)).map chomp)

/-- `SHIM_EXPORT(sym);` -/
def exportOf (l : Text) : Option Text :=
  if "SHIM_EXPORT(".toList.isPrefixOf l && ");".toList.isSuffixOf l then
    some ((l.drop "SHIM_EXPORT(".toList.length).dropLast.dropLast)
  else none

/-- A line that is not indented, no comment and no directive, and that ends in
a brace, begins the definition of a function. Of a function of the shim's it
gives the name behind `shim_`. -/
def definitionOf (l : Text) : Option Text :=
  if l.getLast? = some '\x7b' ∧ ¬l.head?.any (" /#".toList.contains ·) then
    let name := ((l.takeWhile (· != '(')).reverse.takeWhile isWord).reverse
    if "shim_".toList.isPrefixOf name then some (name.drop "shim_".toList.length) else none
  else none

/-- `extern __typeof(shim_subst) shim_sym ..;`, as the two names. -/
def aliasOf (l : Text) : Option (Text × Text) :=
  if "extern __typeof(shim_".toList.isPrefixOf l && l.getLast? == some ';' then
    let rest := l.drop "extern __typeof(shim_".toList.length
    let subst := rest.takeWhile isWord
    some (((rest.drop (subst.length + ") shim_".toList.length)).takeWhile isWord), subst)
  else none

/-! ## Lines that are found again -/

/-- A line that ends where it is written to. -/
def Ended (l : Text) : Prop := OneLine l ∧ l.getLast? ≠ some '\\'

theorem spliceLines_ends {ls : List Text} (hls : ∀ l ∈ ls, Ended l) :
    spliceLines (ls.map (· ++ ['\n'])).flatten = (ls.map (· ++ ['\n'])).flatten := by
  induction ls with
  | nil => rfl
  | cons l ls ih =>
      obtain ⟨⟨hline, hlast⟩, hls⟩ := List.forall_mem_cons.mp hls
      rw [List.map_cons, List.flatten_cons, List.append_assoc, List.singleton_append,
        spliceLines_ended hline hlast, ih hls]

theorem lines_chomp {ls : List Text} (hls : ∀ l ∈ ls, OneLine l) :
    (lines (ls.map (· ++ ['\n'])).flatten).map chomp = ls := by
  rw [lines_flatten hls, List.map_map]
  exact (List.map_congr_left fun l _ => by simp [chomp]).trans ls.map_id

theorem compiled_puts {defined : Text → Bool} {ls : List Text} (hls : ∀ l ∈ ls, Ended l) :
    compiled defined (ls.map puts).flatten = active defined [] ls := by
  have hputs : ls.map puts = ls.map (· ++ ['\n']) := by
    refine List.map_congr_left fun l hl => puts_of_getLast? fun hlast => ?_
    exact (hls l hl).1 (List.mem_of_getLast? hlast)
  rw [compiled, hputs, spliceLines_ends hls, lines_chomp fun l hl => (hls l hl).1]

section Last

variable {u v : Text}

theorem last_append (hv : v ≠ []) : (u ++ v).getLast? = v.getLast? :=
  List.getLast?_append_of_ne_nil u hv

/-- A line with an end that was written. -/
theorem Ended.of_append (hu : OneLine (u ++ v)) (hv : v ≠ []) (hlast : v.getLast? ≠ some '\\') :
    Ended (u ++ v) := ⟨hu, by rwa [last_append hv]⟩

theorem ended_of_all (h : u.all isDot) (hlast : u.getLast? ≠ some '\\') : Ended u :=
  ⟨oneLine_of_all h, hlast⟩

end Last

/-! ## What there is in some lines -/

/-- What the compiler finds in lines that are no directives. -/
structure UnitHas (ls : List Text) (definitions exports : List Text)
    (aliases : List (Text × Text)) : Prop where
  plain : ∀ l ∈ ls, directive l = none
  definitions_eq : ls.filterMap definitionOf = definitions
  exports_eq : ls.filterMap exportOf = exports
  aliases_eq : ls.filterMap aliasOf = aliases

section UnitHas

variable {ls ls' definitions definitions' exports exports' : List Text}
  {aliases aliases' : List (Text × Text)} {l : Text}

theorem UnitHas.nil : UnitHas [] [] [] [] := ⟨nofun, rfl, rfl, rfl⟩

theorem UnitHas.append (h : UnitHas ls definitions exports aliases)
    (h' : UnitHas ls' definitions' exports' aliases') :
    UnitHas (ls ++ ls') (definitions ++ definitions') (exports ++ exports')
      (aliases ++ aliases') where
  plain := List.forall_mem_append.mpr ⟨h.plain, h'.plain⟩
  definitions_eq := by rw [List.filterMap_append, h.definitions_eq, h'.definitions_eq]
  exports_eq := by rw [List.filterMap_append, h.exports_eq, h'.exports_eq]
  aliases_eq := by rw [List.filterMap_append, h.aliases_eq, h'.aliases_eq]

theorem unitHas_one {definition sym : Option Text} {shimAlias : Option (Text × Text)}
    (hplain : directive l = none) (hdefinition : definitionOf l = definition)
    (hexport : exportOf l = sym) (halias : aliasOf l = shimAlias) :
    UnitHas [l] definition.toList sym.toList shimAlias.toList where
  plain := List.forall_mem_singleton.mpr hplain
  definitions_eq := by
    subst hdefinition
    cases h : definitionOf l <;> simp [h]
  exports_eq := by
    subst hexport
    cases h : exportOf l <;> simp [h]
  aliases_eq := by
    subst halias
    cases h : aliasOf l <;> simp [h]

/-- Nothing is found in them. -/
def Quiet (l : Text) : Prop := UnitHas [l] [] [] []

theorem unitHas_quiet (h : ∀ l ∈ ls, Quiet l) : UnitHas ls [] [] [] := by
  induction ls with
  | nil => exact .nil
  | cons l ls ih =>
      obtain ⟨hl, hls⟩ := List.forall_mem_cons.mp h
      exact UnitHas.append hl (ih hls)

theorem exportOf_of_head? (h : l.head? ≠ some 'S') : exportOf l = none := by
  cases l with
  | nil => rfl
  | cons c l =>
      have hc : ('S' == c) = false := by
        rw [beq_eq_false_iff_ne]
        rintro rfl
        exact h rfl
      simp [exportOf, List.isPrefixOf, hc]

theorem aliasOf_of_head? (h : l.head? ≠ some 'e') : aliasOf l = none := by
  cases l with
  | nil => rfl
  | cons c l =>
      have hc : ('e' == c) = false := by
        rw [beq_eq_false_iff_ne]
        rintro rfl
        exact h rfl
      simp [aliasOf, List.isPrefixOf, hc]

/-- A line that is blank, indented or a comment. -/
theorem quiet_of_head? (h : ∀ c ∈ l.head?, c = ' ' ∨ c = '/') : Quiet l := by
  have hne : ∀ c, c ≠ ' ' → c ≠ '/' → l.head? ≠ some c := by
    intro c hspace hslash heq
    rcases h c heq with rfl | rfl
    · exact hspace rfl
    · exact hslash rfl
  have hdefinition : definitionOf l = none := by
    cases l with
    | nil => rfl
    | cons c l => rcases h c rfl with rfl | rfl <;> simp [definitionOf]
  have hexport := exportOf_of_head? (hne 'S' (by decide) (by decide))
  have halias := aliasOf_of_head? (hne 'e' (by decide) (by decide))
  exact unitHas_one (directive_of_head? (hne '#' (by decide) (by decide))) hdefinition hexport
    halias

theorem quiet_of_setOff (h : SetOff l) : Quiet l := by
  rcases h with h | rfl
  · exact quiet_of_head? fun c hc => .inl (Option.some.inj (hc.symm.trans h))
  · exact ⟨List.forall_mem_singleton.mpr rfl, rfl, rfl, rfl⟩

theorem quiet_includeLine (header : Text) : Quiet (includeLine header) := by
  obtain ⟨l, hl⟩ : ∃ l, includeLine header = '#' :: 'i' :: 'n' :: l := ⟨_, rfl⟩
  have hplain : directive ('#' :: 'i' :: 'n' :: l) = none := by
    simp [directive, List.isPrefixOf]
  have hdefinition : definitionOf ('#' :: 'i' :: 'n' :: l) = none := by
    simp [definitionOf]
  have hexport := exportOf_of_head? (l := '#' :: 'i' :: 'n' :: l) (by simp)
  have halias := aliasOf_of_head? (l := '#' :: 'i' :: 'n' :: l) (by simp)
  rw [hl]
  exact unitHas_one hplain hdefinition hexport halias

/-- The line that begins the function `n` of type `t`. -/
def headerLine (t n params : Text) : Text :=
  t ++ " shim_".toList ++ n ++ '(' :: params ++ " \x7b".toList

section Header

variable {t n params : Text}

theorem last_headerLine (t n params : Text) : (headerLine t n params).getLast? = some '\x7b' := by
  rw [headerLine, last_append (by simp)]
  rfl

theorem head_headerLine (ht : TypeText t) (n params : Text) :
    ∃ c, (headerLine t n params).head? = some c ∧ isTypeChar c ∧ isSpace c = false := by
  obtain ⟨c, u, rfl, hbare⟩ := ht.begins
  exact ⟨c, rfl, ht.chars c List.mem_cons_self, hbare⟩

theorem directive_headerLine (ht : TypeText t) : directive (headerLine t n params) = none := by
  obtain ⟨c, hhead, hc, -⟩ := head_headerLine ht n params
  refine directive_of_head? ?_
  rw [hhead]
  rintro ⟨⟩
  exact absurd hc (by decide)

theorem exportOf_headerLine : exportOf (headerLine t n params) = none := by
  have hsuffix : ");".toList.isSuffixOf (headerLine t n params) = false := by
    have hlast := last_headerLine t n params
    rw [← Bool.not_eq_true, List.isSuffixOf_iff_suffix]
    rintro ⟨w, hw⟩
    rw [← hw, last_append (by simp)] at hlast
    cases hlast
  rw [exportOf, hsuffix, Bool.and_false]
  rfl

theorem aliasOf_headerLine : aliasOf (headerLine t n params) = none := by
  rw [aliasOf, last_headerLine]
  simp

/-- What stands before the parameters ends in the name. -/
theorem name_headerLine (ht : TypeText t) (hn : SymName n) :
    (((headerLine t n params).takeWhile (· != '(')).reverse.takeWhile isWord).reverse =
      "shim_".toList ++ n := by
  have hopen : ∀ d ∈ t ++ " shim_".toList ++ n, (d != '(') = true := by
    intro d hd
    rw [bne_iff_ne]
    rintro rfl
    rcases List.mem_append.mp hd with hd | hd
    · rcases List.mem_append.mp hd with hd | hd
      · exact absurd (ht.chars _ hd) (by decide)
      · exact absurd hd (by decide)
    · exact absurd (hn.2 _ hd) (by decide)
  have hfront : (headerLine t n params).takeWhile (· != '(') =
      t ++ " ".toList ++ ("shim_".toList ++ n) := by
    rw [headerLine, List.append_assoc, List.cons_append,
      List.takeWhile_append_of_pos hopen]
    simp
  have hword : ∀ d ∈ ("shim_".toList ++ n).reverse, isWord d := by
    intro d hd
    rw [List.mem_reverse] at hd
    rcases List.mem_append.mp hd with hd | hd
    · exact List.all_eq_true.mp (show "shim_".toList.all isWord from rfl) d hd
    · exact hn.2 d hd
  rw [hfront, List.reverse_append, List.takeWhile_append_of_pos hword, List.reverse_append]
  simp [isWord]

theorem definitionOf_headerLine (ht : TypeText t) (hn : SymName n) :
    definitionOf (headerLine t n params) = some n := by
  obtain ⟨c, hhead, hc, hbare⟩ := head_headerLine ht n params
  have hbegins : ¬(headerLine t n params).head?.any (" /#".toList.contains ·) := by
    rw [hhead]
    intro hmem
    simp only [Option.any_some, List.contains_iff_mem] at hmem
    rcases List.mem_cons.mp hmem with rfl | hmem
    · cases hbare
    rcases List.mem_pair.mp hmem with rfl | rfl
    · exact absurd hc (by decide)
    · exact absurd hc (by decide)
  have hprefix : "shim_".toList.isPrefixOf ("shim_".toList ++ n) = true :=
    List.isPrefixOf_iff_prefix.mpr (List.prefix_append ..)
  rw [definitionOf, if_pos ⟨last_headerLine t n params, hbegins⟩, name_headerLine ht hn]
  show (if _ then _ else _) = _
  rw [if_pos hprefix, List.drop_left]

theorem unitHas_header (ht : TypeText t) (hn : SymName n) (params : Text) :
    UnitHas [headerLine t n params] [n] [] [] :=
  unitHas_one (directive_headerLine ht) (definitionOf_headerLine ht hn) exportOf_headerLine
    aliasOf_headerLine

end Header

theorem exportLine_eq (sym : Text) :
    exportLine sym = "SHIM_EXPORT(".toList ++ (sym ++ [')', ';']) :=
  List.append_assoc ..

theorem last_exportLine (sym : Text) : (exportLine sym).getLast? = some ';' := by
  rw [exportLine_eq, last_append (by simp), last_append (by simp)]
  rfl

theorem unitHas_exportLine (sym : Text) : UnitHas [exportLine sym] [] [sym] [] := by
  obtain ⟨l, hl⟩ : ∃ l, exportLine sym = 'S' :: l := ⟨_, rfl⟩
  have hhead : (exportLine sym).head? = some 'S' := congrArg List.head? hl
  have hne : ∀ c, c ≠ 'S' → (exportLine sym).head? ≠ some c := by
    rintro c hc heq
    exact hc (Option.some.inj (heq.symm.trans hhead))
  have hdefinition : definitionOf (exportLine sym) = none :=
    if_neg fun h => absurd (h.1.symm.trans (last_exportLine sym)) (by decide)
  have hexport : exportOf (exportLine sym) = some sym := by
    have hprefix : "SHIM_EXPORT(".toList.isPrefixOf (exportLine sym) = true :=
      List.isPrefixOf_iff_prefix.mpr ⟨_, (exportLine_eq sym).symm⟩
    have hsuffix : ");".toList.isSuffixOf (exportLine sym) = true :=
      List.isSuffixOf_iff_suffix.mpr (List.suffix_append ..)
    have hdrop : (exportLine sym).drop "SHIM_EXPORT(".toList.length = sym ++ [')', ';'] := by
      rw [exportLine_eq, List.drop_left]
    rw [exportOf, hprefix, hsuffix, hdrop]
    simp
  exact unitHas_one (directive_of_head? (hne '#' (by decide))) hdefinition hexport
    (aliasOf_of_head? (hne 'e' (by decide)))

/-- The lines that are always the same, at the beginning. -/
theorem unitHas_head : UnitHas wrappersHead [] [] [] ∧ ∀ l ∈ wrappersHead, Ended l := by
  have hall : (∀ l ∈ wrappersHead, directive l = none) ∧
      wrappersHead.filterMap definitionOf = [] ∧ wrappersHead.filterMap exportOf = [] ∧
      wrappersHead.filterMap aliasOf = [] ∧
      ∀ l ∈ wrappersHead, '\n' ∉ l ∧ l.getLast? ≠ some '\\' := by decide +kernel
  exact ⟨⟨hall.1, hall.2.1, hall.2.2.1, hall.2.2.2.1⟩, hall.2.2.2.2⟩

/-- And at the end. -/
theorem unitHas_substitutions :
    UnitHas substitutionLines [] (substitutions.map Prod.fst) substitutions ∧
      ∀ l ∈ substitutionLines, Ended l := by
  have hall : (∀ l ∈ substitutionLines, directive l = none) ∧
      substitutionLines.filterMap definitionOf = [] ∧
      substitutionLines.filterMap exportOf = substitutions.map Prod.fst ∧
      substitutionLines.filterMap aliasOf = substitutions ∧
      ∀ l ∈ substitutionLines, '\n' ∉ l ∧ l.getLast? ≠ some '\\' := by decide +kernel
  exact ⟨⟨hall.1, hall.2.1, hall.2.2.1, hall.2.2.2.1⟩, hall.2.2.2.2⟩

end UnitHas

/-! ## The functions there are prototypes of -/

/-- Headers and prototypes that are each on a line. -/
structure DefineCall.Readable (call : DefineCall) : Prop where
  headers : ∀ h ∈ call.headers, OneLine h
  prototypes : ∀ p ∈ call.prototypes, Ended p ∧ ∃ sig : Signature, sig.WrittenAs p

/-- A function as it is kept under a name. -/
structure FunctionDef.Known (function : FunctionDef) (name : Option Text) : Prop where
  name_eq : function.name = name
  line : Ended function.prototype
  signature : ∃ sig : Signature, sig.WrittenAs function.prototype ∧
    function.toPrototype = sig.function function.prototype
  headers : ∀ i ∈ function.includes, ∃ h, i = includeLine h ∧ OneLine h

/-- So are all of them. -/
def Functions.Known (functions : Functions) : Prop :=
  ∀ name function, functions.get? name = some function → function.Known name

/-- A loop that keeps something, as far as nothing is raised. -/
theorem foldlM_keeps {α β : Type} {P : β → Prop} {f : β → α → Except GenError β}
    {as : List α} {b b' : β} (hstep : ∀ a ∈ as, ∀ b b', P b → f b a = .ok b' → P b')
    (hb : P b) (h : as.foldlM f b = .ok b') : P b' := by
  induction as generalizing b with
  | nil =>
      cases h
      exact hb
  | cons a as ih =>
      obtain ⟨hstep, hsteps⟩ := List.forall_mem_cons.mp hstep
      rw [List.foldlM_cons] at h
      obtain ⟨b₁, hb₁, h⟩ := exists_of_bind_ok h
      exact ih hsteps (hstep b b₁ hb hb₁) h

section Functions

variable {functions functions' : Functions} {call : DefineCall} {prototype : Text}

theorem Functions.Known.definePrototype (hcall : call.Readable)
    (hmem : prototype ∈ call.prototypes) (h : functions.Known)
    (hdefine : definePrototype call functions prototype = .ok functions') :
    functions'.Known := by
  obtain ⟨hline, sig, hsig⟩ := hcall.prototypes prototype hmem
  obtain ⟨fn, hfn, hdefine⟩ := exists_of_bind_ok hdefine
  obtain rfl := Except.ok.inj ((Signature.parsePrototype_eq hsig).symm.trans hfn)
  split at hdefine
  · cases hdefine
  cases hdefine
  intro name function hget
  by_cases hname : name = some sig.name
  · subst hname
    obtain rfl := Option.some.inj ((Hash.get?_set_self _).symm.trans hget)
    refine ⟨rfl, hline, ⟨sig, hsig, rfl⟩, fun i hi => ?_⟩
    obtain ⟨header, hheader, rfl⟩ := List.mem_map.mp hi
    exact ⟨header, rfl, hcall.headers header hheader⟩
  · exact h name function ((Hash.get?_set_of_ne hname _).symm.trans hget)

theorem Functions.Known.of_defineAll {calls : List DefineCall}
    (hcalls : ∀ call ∈ calls, call.Readable) (h : defineAll calls = .ok functions) :
    functions.Known := by
  refine foldlM_keeps (P := Functions.Known) (fun call hcall b b' hb hdefine => ?_) ?_ h
  · exact foldlM_keeps (fun p hp b b' hb hdefine =>
      hb.definePrototype (hcalls call hcall) hp hdefine) hb hdefine
  · intro name function hget
    cases hget

end Functions

/-! ## The lines of a function -/

section Lines

variable {functions : Functions} {sym : Text} {symbol : TableSymbol} {function : Prototype}

theorem last_logArgs (args : List Decl) : (logArgs args).getLast? = some ';' := by
  unfold logArgs
  simp only
  split
  · rfl
  split
  · rw [last_append (by simp)]
    rfl
  · rw [last_append (by simp)]
    rfl

theorem last_logResult (function : Prototype) : (logResult function).getLast? = some ';' := by
  unfold logResult
  simp only
  split
  · rfl
  · rw [last_append (by simp)]
    rfl

/-- No line of a wrapper joins the next. -/
theorem generateWrapper_last {wrapper : List Text}
    (hgen : generateWrapper function none = .ok wrapper) :
    ∀ l ∈ wrapper, l.getLast? ≠ some '\\' := by
  obtain ⟨header, -, hgen⟩ := exists_of_bind_ok hgen
  obtain ⟨type, -, hgen⟩ := exists_of_bind_ok hgen
  cases hgen
  have hlast : ∀ {u v : Text} {c : Char}, v.getLast? = some c → c ≠ '\\' →
      (u ++ v).getLast? ≠ some '\\' := by
    intro u v c hv hc heq
    have hne : v ≠ [] := by rintro rfl; cases hv
    rw [last_append hne, hv] at heq
    exact hc (Option.some.inj heq)
  have hcall : (wrapperCall function none).getLast? = some ';' := by
    unfold wrapperCall
    rw [last_append (by simp)]
    rfl
  simp only [List.forall_mem_append, List.forall_mem_cons]
  refine ⟨⟨⟨⟨⟨⟨⟨⟨hlast rfl (by decide), hlast (last_logArgs _) (by decide),
    List.forall_mem_nil _⟩, ?_⟩, ?_⟩, hlast hcall (by decide), List.forall_mem_nil _⟩, ?_⟩,
    hlast (last_logResult _) (by decide), List.forall_mem_nil _⟩, ?_⟩, by decide,
    List.forall_mem_nil _⟩
  · split
    · exact List.forall_mem_cons.mpr ⟨by decide, List.forall_mem_cons.mpr
        ⟨hlast rfl (by decide), List.forall_mem_nil _⟩⟩
    · exact List.forall_mem_nil _
  · split
    · exact List.forall_mem_nil _
    · exact List.forall_mem_cons.mpr ⟨hlast rfl (by decide), List.forall_mem_nil _⟩
  · split
    · exact List.forall_mem_cons.mpr ⟨by decide, List.forall_mem_nil _⟩
    · exact List.forall_mem_nil _
  · split
    · exact List.forall_mem_nil _
    · exact List.forall_mem_cons.mpr ⟨by decide, List.forall_mem_nil _⟩

theorem ended_wrapper {wrapper : List Text} (hf : function.Line)
    (hgen : generateWrapper function none = .ok wrapper) : ∀ l ∈ wrapper, Ended l :=
  fun l hl => ⟨generateWrapper_line hf (by simp) hgen l hl, generateWrapper_last hgen l hl⟩

theorem unitHas_wrapper {sig : Signature} {prototype : Text} {wrapper : List Text}
    (hgen : generateWrapper (sig.function prototype) none = .ok wrapper) :
    UnitHas wrapper [sig.name] [] [] := by
  obtain ⟨wrapper', hgen', hhead, -⟩ := sig.generateWrapper_eq prototype none
  obtain rfl := Except.ok.inj (hgen'.symm.trans hgen)
  obtain ⟨htype, -, hname⟩ := sig.function_ok
  obtain ⟨tail, rfl⟩ := List.head?_eq_some_iff.mp hhead
  have hbegins := unitHas_header htype.toShimType ⟨hname.1.ne_nil, hname.1.chars⟩
    (join ", ".toList (emittedFrom 1 sig.params) ++ [')'])
  exact hbegins.append (unitHas_quiet fun l hl =>
    quiet_of_setOff (generateWrapper_setOff hgen l hl))

theorem unitHas_stub (hsym : SymName sym) : UnitHas (generateStub sym) [sym] [] [] := by
  have hvoid : TypeText "void".toList := typeText_of_all rfl rfl rfl
  have hbegins := unitHas_header hvoid hsym [')']
  have hbody : SetOff "  UNIMPLEMENTED();".toList := .inl rfl
  have hend : SetOff "\x7d".toList := .inr rfl
  have hheader : "void shim_".toList ++ sym ++ "() \x7b".toList =
      "void".toList ++ " shim_".toList ++ sym ++ '(' :: [')'] ++ " \x7b".toList := by simp
  unfold generateStub
  rw [hheader]
  exact hbegins.append ((quiet_of_setOff hbody).append (quiet_of_setOff hend))

/-- A line that ends in a name. -/
theorem ended_name {u : Text} (hu : OneLine u) (hsym : SymName sym) : Ended (u ++ sym) := by
  refine .of_append (hu.append hsym.oneLine) hsym.1 fun hlast => ?_
  exact absurd (hsym.2 _ (List.mem_of_getLast? hlast)) (by decide)

theorem ended_exportLine (hsym : OneLine sym) : Ended (exportLine sym) :=
  ⟨((oneLine_of_all rfl).append hsym).append (oneLine_of_all rfl),
    by rw [last_exportLine]; decide⟩

theorem ended_nil : Ended [] := ended_of_all rfl (by decide)

theorem ended_comment {l : Text} (h : Ended l) : Ended ("// ".toList ++ l) := by
  refine ⟨(oneLine_of_all rfl).append h.1, ?_⟩
  cases l with
  | nil => decide
  | cons c l => exact (last_append (List.cons_ne_nil c l)).symm ▸ h.2

theorem ended_includeLine {header : Text} (h : OneLine header) : Ended (includeLine header) :=
  .of_append (((oneLine_of_all rfl).append h).append (oneLine_of_all rfl)) (by simp) (by decide)

theorem ended_stub (hsym : OneLine sym) : ∀ l ∈ generateStub sym, Ended l := by
  have hheader : Ended ("void shim_".toList ++ sym ++ "() \x7b".toList) :=
    .of_append (((oneLine_of_all rfl).append hsym).append (oneLine_of_all rfl)) (by simp)
      (by decide)
  exact List.forall_mem_cons.mpr ⟨hheader, List.forall_mem_cons.mpr
    ⟨ended_of_all rfl (by decide), List.forall_mem_cons.mpr
      ⟨ended_of_all rfl (by decide), List.forall_mem_nil _⟩⟩⟩

/-- There are lines for each function, and they define it. -/
theorem functionLines_has (h : functions.Known) (hsym : SymName sym) :
    ∃ ls, functionLines functions sym = .ok ls ∧ UnitHas ls [sym] [] [] ∧
      ∀ l ∈ ls, Ended l := by
  unfold functionLines
  cases hget : functions.get? (some sym) with
  | none => exact ⟨_, rfl, unitHas_stub hsym, ended_stub hsym.oneLine⟩
  | some function =>
      obtain ⟨hname, hline, ⟨sig, hwritten, hsig⟩, hheaders⟩ := h _ _ hget
      have hcomment : Quiet ("// ".toList ++ function.prototype) :=
        quiet_of_head? fun c hc => .inr (Option.some.inj hc).symm
      have hended := ended_comment hline
      by_cases hcompat : (!function.lsb && checkCompat function.toPrototype) = true
      · obtain ⟨wrapper, hgen, -, -⟩ := sig.generateWrapper_eq function.prototype none
        rw [← hsig] at hgen
        have hwrapper : UnitHas wrapper [sym] [] [] := by
          have hreads := unitHas_wrapper (hsig ▸ hgen)
          have hsame : some sig.name = some sym := by
            rw [← hname, hsig]
            rfl
          rwa [Option.some.inj hsame] at hreads
        refine ⟨("// ".toList ++ function.prototype) :: (function.includes ++ wrapper),
          ?_, ?_, ?_⟩
        · simp only [hcompat, hgen]
          rfl
        · have hincludes : UnitHas function.includes [] [] [] := unitHas_quiet fun i hi => by
            obtain ⟨header, rfl, -⟩ := hheaders i hi
            exact quiet_includeLine header
          exact UnitHas.append hcomment (hincludes.append hwrapper)
        · have hf : function.toPrototype.Line :=
            hsig ▸ parsePrototype_line hline.1 (Signature.parsePrototype_eq hwritten)
          refine List.forall_mem_cons.mpr ⟨hended, List.forall_mem_append.mpr
            ⟨fun i hi => ?_, ended_wrapper hf hgen⟩⟩
          obtain ⟨header, rfl, hheader⟩ := hheaders i hi
          exact ended_includeLine hheader
      · refine ⟨("// ".toList ++ function.prototype) :: generateStub sym, ?_, ?_, ?_⟩
        · simp only [hcompat, hname]
          rfl
        · exact UnitHas.append hcomment (unitHas_stub hsym)
        · exact List.forall_mem_cons.mpr ⟨hended, ended_stub hsym.oneLine⟩

end Lines

/-! ## The file -/

/-- What the compiler finds of lines with conditions among them. -/
structure Leaves (ls : List Text) (definitions exports : (Text → Bool) → List Text)
    (aliases : List (Text × Text)) : Prop where
  ended : ∀ l ∈ ls, Ended l
  leaves : ∀ defined, ∃ kept, (∀ rest, active defined [] (ls ++ rest) =
    kept ++ active defined [] rest) ∧ UnitHas kept (definitions defined) (exports defined) aliases

section Leaves

variable {ls ls' : List Text}
  {definitions definitions' exports exports' : (Text → Bool) → List Text}
  {aliases aliases' : List (Text × Text)}

theorem UnitHas.leaves {definitions exports : List Text}
    (h : UnitHas ls definitions exports aliases) (hended : ∀ l ∈ ls, Ended l) :
    Leaves ls (fun _ => definitions) (fun _ => exports) aliases where
  ended := hended
  leaves _ := ⟨ls, fun _ => active_append h.plain, h⟩

theorem Leaves.append (h : Leaves ls definitions exports aliases)
    (h' : Leaves ls' definitions' exports' aliases') :
    Leaves (ls ++ ls') (fun defined => definitions defined ++ definitions' defined)
      (fun defined => exports defined ++ exports' defined) (aliases ++ aliases') where
  ended := List.forall_mem_append.mpr ⟨h.ended, h'.ended⟩
  leaves defined := by
    obtain ⟨kept, hkept, hreads⟩ := h.leaves defined
    obtain ⟨kept', hkept', hreads'⟩ := h'.leaves defined
    refine ⟨kept ++ kept', fun rest => ?_, hreads.append hreads'⟩
    rw [List.append_assoc, hkept, hkept', List.append_assoc]

/-- What is found in a file. -/
theorem Leaves.compiled (h : Leaves ls definitions exports aliases) (defined : Text → Bool) :
    UnitHas (compiled defined (ls.map puts).flatten) (definitions defined) (exports defined)
      aliases := by
  obtain ⟨kept, hkept, hreads⟩ := h.leaves defined
  have hall := hkept []
  rw [List.append_nil] at hall
  rw [compiled_puts h.ended, hall]
  simpa [active] using hreads

end Leaves

/-- The function is written and not left out. -/
def isWritten (defined : Text → Bool) (e : Text × TableSymbol) : Bool :=
  isGenerated e.1 e.2 && !defined ("SHIM_WRAPPER_".toList ++ e.1)

def writtenFunctions (defined : Text → Bool) (entries : List (Text × TableSymbol)) : List Text :=
  (entries.filter (isWritten defined)).map Prod.fst

section File

variable {functions : Functions} {table : Hash Text TableSymbol} {sym : Text}
  {symbol : TableSymbol}

theorem guardedLines_leaves (h : functions.Known) (hsym : SymName sym) :
    ∃ ls, guardedLines functions sym = .ok ls ∧
      Leaves ls (fun defined => if defined ("SHIM_WRAPPER_".toList ++ sym) then [] else [sym])
        (fun defined => if defined ("SHIM_WRAPPER_".toList ++ sym) then [] else [sym]) [] := by
  obtain ⟨body, hbody, hreads, hended⟩ := functionLines_has h hsym
  have hblank : Quiet [] := quiet_of_head? nofun
  have hinner : UnitHas ([] :: body ++ [[], exportLine sym, []]) [sym] [sym] [] := by
    have hexport := UnitHas.append hblank ((unitHas_exportLine sym).append hblank)
    exact (UnitHas.append hblank hreads).append hexport
  refine ⟨_, by rw [guardedLines, hbody]; rfl, ?_, fun defined => ?_⟩
  · refine List.forall_mem_cons.mpr ⟨ended_name (oneLine_of_all rfl) hsym,
      List.forall_mem_append.mpr ⟨List.forall_mem_append.mpr
        ⟨List.forall_mem_cons.mpr ⟨ended_nil, hended⟩, ?_⟩,
        List.forall_mem_singleton.mpr (ended_name (oneLine_of_all rfl) hsym)⟩⟩
    exact List.forall_mem_cons.mpr ⟨ended_nil, List.forall_mem_cons.mpr
      ⟨ended_exportLine hsym.oneLine, List.forall_mem_singleton.mpr ended_nil⟩⟩
  · refine ⟨if defined ("SHIM_WRAPPER_".toList ++ sym) then [] else
      [] :: body ++ [[], exportLine sym, []], fun rest => ?_, ?_⟩
    · rw [List.cons_append, List.append_assoc]
      exact active_guarded hinner.plain ("SHIM_WRAPPER_".toList ++ sym)
        (" // SHIM_WRAPPER_".toList ++ sym)
    · split
      · exact .nil
      · exact hinner

theorem symbolLines_leaves (h : functions.Known) (hsym : SymName sym) (symbol : TableSymbol) :
    ∃ ls, symbolLines functions sym symbol = .ok ls ∧
      Leaves ls (fun defined => writtenFunctions defined [(sym, symbol)])
        (fun defined => writtenFunctions defined [(sym, symbol)]) [] := by
  have hcomment : Leaves ["// ".toList ++ sym] (fun _ => []) (fun _ => []) [] := by
    have hquiet : Quiet ("// ".toList ++ sym) :=
      quiet_of_head? fun c hc => .inr (Option.some.inj hc).symm
    exact UnitHas.leaves hquiet (List.forall_mem_singleton.mpr
      (ended_name (oneLine_of_all rfl) hsym))
  have hblank : Leaves [[]] (fun _ => []) (fun _ => []) [] :=
    UnitHas.leaves (quiet_of_head? nofun) (List.forall_mem_singleton.mpr ended_nil)
  unfold symbolLines
  cases hgenerated : isGenerated sym symbol with
  | false =>
      have hnone : ∀ defined, writtenFunctions defined [(sym, symbol)] = [] := by
        intro defined
        have hwritten : isWritten defined (sym, symbol) = false := by
          rw [isWritten, hgenerated, Bool.false_and]
        rw [writtenFunctions, List.filter_singleton, hwritten]
        rfl
      refine ⟨_, rfl, ?_⟩
      simp only [hnone]
      exact hcomment.append hblank
  | true =>
      obtain ⟨ls, hls, hleaves⟩ := guardedLines_leaves h hsym
      have hwritten : ∀ defined, writtenFunctions defined [(sym, symbol)] =
          if defined ("SHIM_WRAPPER_".toList ++ sym) then [] else [sym] := by
        intro defined
        have hwritten : isWritten defined (sym, symbol) =
            !defined ("SHIM_WRAPPER_".toList ++ sym) := by
          rw [isWritten, hgenerated, Bool.true_and]
        rw [writtenFunctions, List.filter_singleton, hwritten]
        cases defined ("SHIM_WRAPPER_".toList ++ sym) <;> rfl
      refine ⟨_, by rw [if_pos rfl, hls]; rfl, ?_⟩
      simp only [hwritten]
      have hall := (hcomment.append hleaves).append hblank
      simp only [List.nil_append, List.append_nil] at hall
      exact hall

theorem blocks_leaves (h : functions.Known) {entries : List (Text × TableSymbol)}
    (hsyms : ∀ e ∈ entries, SymName e.1) :
    ∃ blocks, entries.mapM (fun e => symbolLines functions e.1 e.2) = .ok blocks ∧
      Leaves blocks.flatten (fun defined => writtenFunctions defined entries)
        (fun defined => writtenFunctions defined entries) [] := by
  induction entries with
  | nil => exact ⟨[], rfl, UnitHas.nil.leaves (List.forall_mem_nil _)⟩
  | cons e entries ih =>
      obtain ⟨hsym, hsyms⟩ := List.forall_mem_cons.mp hsyms
      obtain ⟨ls, hls, hleaves⟩ := symbolLines_leaves h hsym e.2
      obtain ⟨blocks, hblocks, hrest⟩ := ih hsyms
      have hcons : ∀ defined, writtenFunctions defined [e] ++ writtenFunctions defined entries =
          writtenFunctions defined (e :: entries) := by
        intro defined
        simp only [writtenFunctions, ← List.map_append, ← List.filter_append]
        rfl
      refine ⟨ls :: blocks, ?_, ?_⟩
      · rw [List.mapM_cons, hls, hblocks]
        rfl
      · have hboth := hleaves.append hrest
        simp only [hcons] at hboth
        exact hboth

theorem wrappersLines_leaves (h : functions.Known) (hsyms : ∀ e ∈ table.entries, SymName e.1) :
    ∃ ls, wrappersLines functions table = .ok ls ∧
      Leaves ls (fun defined => writtenFunctions defined table.entries)
        (fun defined => writtenFunctions defined table.entries ++ substitutions.map Prod.fst)
        substitutions := by
  obtain ⟨blocks, hblocks, hleaves⟩ := blocks_leaves h hsyms
  have hhead := unitHas_head.1.leaves unitHas_head.2
  have hblank : Leaves [[]] (fun _ => []) (fun _ => []) [] :=
    UnitHas.leaves (quiet_of_head? nofun) (List.forall_mem_singleton.mpr ended_nil)
  have hsubstitutions := unitHas_substitutions.1.leaves unitHas_substitutions.2
  have hall := (((hhead.append hleaves).append hblank).append hsubstitutions).append hblank
  refine ⟨_, by rw [wrappersLines, hblocks]; rfl, ?_⟩
  simp only [List.nil_append, List.append_nil] at hall
  exact hall

/-- The macros for functions that are wrapped by hand. -/
def handMacros (hand : List Text) (n : Text) : Bool :=
  (hand.map fun name => "SHIM_WRAPPER_".toList ++ name).contains n

theorem handMacros_eq_true_iff {hand : List Text} :
    handMacros hand ("SHIM_WRAPPER_".toList ++ sym) = true ↔ sym ∈ hand := by
  rw [handMacros, List.contains_iff_mem, List.mem_map]
  constructor
  · rintro ⟨name, hname, heq⟩
    exact List.append_cancel_left heq ▸ hname
  · exact fun hmem => ⟨sym, hmem, rfl⟩

theorem mem_writtenFunctions {hand : List Text} :
    sym ∈ writtenFunctions (handMacros hand) table.entries ↔
      ∃ symbol, table.get? sym = some symbol ∧ isGenerated sym symbol = true ∧
        sym ∉ hand := by
  rw [writtenFunctions, List.mem_map]
  constructor
  · rintro ⟨⟨sym, symbol⟩, he, rfl⟩
    obtain ⟨hmem, hwritten⟩ := List.mem_filter.mp he
    rw [isWritten, Bool.and_eq_true, Bool.not_eq_true'] at hwritten
    refine ⟨symbol, Hash.get?_eq_some_iff.mpr hmem, hwritten.1, fun hhand => ?_⟩
    rw [handMacros_eq_true_iff.mpr hhand] at hwritten
    exact absurd hwritten.2 (by decide)
  · rintro ⟨symbol, hget, hgenerated, hhand⟩
    refine ⟨(sym, symbol), List.mem_filter.mpr ⟨Hash.get?_eq_some_iff.mp hget, ?_⟩, rfl⟩
    rw [isWritten, hgenerated, Bool.true_and, Bool.not_eq_true', ← Bool.not_eq_true,
      handMacros_eq_true_iff]
    exact hhand

theorem isGenerated_iff : isGenerated sym symbol = true ↔ symbol.type = "fun".toList ∧
    sym ∉ substitutions.map Prod.fst ∧ startRegex.search sym = none := by
  have hlookup : (substitutions.lookup sym).isSome = true ↔
      sym ∈ substitutions.map Prod.fst := by
    rw [List.lookup_isSome_iff, List.mem_map]
    exact ⟨fun ⟨e, he, heq⟩ => ⟨e, he, (beq_iff_eq.mp heq).symm⟩,
      fun ⟨e, he, heq⟩ => ⟨e, he, beq_iff_eq.mpr heq.symm⟩⟩
  rw [isGenerated, Bool.and_eq_true, beq_iff_eq, Bool.not_eq_true', Bool.or_eq_false_iff,
    ← Bool.not_eq_true, hlookup, Option.isSome_eq_false_iff, Option.isNone_iff_eq_none]

/-- The targets of the aliases are functions like others. -/
theorem substitutions_generated : ∀ e ∈ substitutions,
    e.2 ∉ substitutions.map Prod.fst ∧ startRegex.search e.2 = none := by
  have hall : substitutions.all fun e => !(substitutions.map Prod.fst).contains e.2 &&
      (startRegex.search e.2).isNone := by decide +kernel
  intro e he
  simpa using List.all_eq_true.mp hall e he

/-- What a unit has and what is wrapped by hand give out each function once. -/
structure ExportedOnce (table : Hash Text TableSymbol) (hand unit : List Text) : Prop where
  exports_nodup : (hand ++ unit.filterMap exportOf).Nodup
  names_nodup :
    (hand ++ (unit.filterMap definitionOf ++ (unit.filterMap aliasOf).map Prod.fst)).Nodup
  exported : ∀ sym symbol, table.get? sym = some symbol → symbol.type = "fun".toList →
    startRegex.search sym = none → sym ∈ hand ++ unit.filterMap exportOf
  named : ∀ sym ∈ unit.filterMap exportOf, sym ∈ unit.filterMap definitionOf ∨
    ∃ subst, (sym, subst) ∈ unit.filterMap aliasOf
  target : ∀ e ∈ unit.filterMap aliasOf, ∀ symbol, table.get? e.2 = some symbol →
    symbol.type = "fun".toList → (e.2 ∈ unit.filterMap definitionOf ↔ e.2 ∉ hand)

theorem UnitHas.exportedOnce {hand unit : List Text} (hhand : hand.Nodup)
    (hapart : ∀ n ∈ hand, n ∉ substitutions.map Prod.fst)
    (h : UnitHas unit (writtenFunctions (handMacros hand) table.entries)
      (writtenFunctions (handMacros hand) table.entries ++ substitutions.map Prod.fst)
      substitutions) : ExportedOnce table hand unit := by
  have hnodup : (hand ++ (writtenFunctions (handMacros hand) table.entries ++
      substitutions.map Prod.fst)).Nodup := by
    refine List.nodup_append.mpr ⟨hhand, List.nodup_append.mpr
      ⟨table.nodup.sublist (List.filter_sublist.map _), by decide +kernel, ?_⟩, ?_⟩
    · rintro a ha b hb rfl
      obtain ⟨symbol, -, hgenerated, -⟩ := mem_writtenFunctions.mp ha
      exact (isGenerated_iff.mp hgenerated).2.1 hb
    · rintro a ha b hb rfl
      rcases List.mem_append.mp hb with hb | hb
      · obtain ⟨symbol, -, -, hnot⟩ := mem_writtenFunctions.mp hb
        exact hnot ha
      · exact hapart a ha hb
  constructor
  · rwa [h.exports_eq]
  · rwa [h.definitions_eq, h.aliases_eq]
  · intro sym symbol hget htype hstart
    rw [h.exports_eq]
    by_cases hmem : sym ∈ hand
    · exact List.mem_append_left _ hmem
    by_cases hsubst : sym ∈ substitutions.map Prod.fst
    · exact List.mem_append_right _ (List.mem_append_right _ hsubst)
    · exact List.mem_append_right _ (List.mem_append_left _ (mem_writtenFunctions.mpr
        ⟨symbol, hget, isGenerated_iff.mpr ⟨htype, hsubst, hstart⟩, hmem⟩))
  · intro sym hsym
    rw [h.exports_eq] at hsym
    rw [h.definitions_eq, h.aliases_eq]
    refine (List.mem_append.mp hsym).imp_right fun hsubst => ?_
    obtain ⟨⟨sym, subst⟩, he, rfl⟩ := List.mem_map.mp hsubst
    exact ⟨subst, he⟩
  · intro e he symbol hget htype
    rw [h.aliases_eq] at he
    rw [h.definitions_eq, mem_writtenFunctions]
    obtain ⟨hsubst, hstart⟩ := substitutions_generated e he
    exact ⟨fun ⟨_, _, _, hnot⟩ => hnot,
      fun hnot => ⟨symbol, hget, isGenerated_iff.mpr ⟨htype, hsubst, hstart⟩, hnot⟩⟩

end File

section Main

variable {calls : List DefineCall} {functions : Functions} {table : Hash Text TableSymbol}

/-- `setenv` and its prototype. -/
def stdlibCall : DefineCall := { headers := ["stdlib.h".toList], prototypes := [setenvPrototype] }

theorem stdlibCall_readable : stdlibCall.Readable where
  headers := List.forall_mem_singleton.mpr (oneLine_of_all rfl)
  prototypes := List.forall_mem_singleton.mpr
    ⟨ended_of_all rfl (by decide +kernel), setenvSignature, setenv_writtenAs⟩

theorem stdlibCall_defined : ∃ functions, defineAll [stdlibCall] = .ok functions := by
  simp only [defineAll, define, stdlibCall, definePrototype, List.foldlM_cons,
    Signature.parsePrototype_eq setenv_writtenAs]
  exact ⟨_, rfl⟩

end Main

end Libc6Shim
