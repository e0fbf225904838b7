import Libc6Shim.SymbolExports
import Libc6Shim.WrapperSignature

/-!
# The macros of the wrappers

`utils/wrappers_h.rb` writes a macro for each function that is wrapped, with
the text of its wrapper (`wrapperMacro`). The wrapper is many lines of C and
the macro must be one, so each line is made to join the next. That works out
only as long as there are no other line ends in the wrapper. There are none:
what is read from a prototype on one line has none in it (`parsePrototype_line`),
and neither has what is written from that (`generateWrapper_line`).
-/

namespace Libc6Shim

open Ruby Regex

/-- The body of the loop over the functions, with the lines of the wrapper. -/
def wrapperMacro (functionName : Text) (wrapper : List Text) : Text :=
  puts ("#define SHIM_WRAPPER_".toList ++ functionName ++ " \\".toList) ++
    ((lines (wrapper.map (· ++ ['\n'])).flatten).map fun line =>
      puts (line.flatMap fun c => if c = '\n' then ['\\', '\n'] else [c])).flatten ++
    puts ("SHIM_EXPORT(".toList ++ functionName ++ ");".toList) ++
    puts []

/-! ## Texts on one line -/

section Lines

variable {s t : Text}

theorem oneLine_within (hs : OneLine s) (h : t <:+: s) : OneLine t :=
  fun hmem => hs (h.subset hmem)

theorem oneLine_strip (hs : OneLine s) : OneLine (strip s) :=
  oneLine_within hs (strip_within s)

theorem oneLine_of_all (h : s.all isDot) : OneLine s := fun hmem =>
  absurd (List.all_eq_true.mp h _ hmem) (by decide)

theorem oneLine_join {sep : Text} {parts : List Text} (hsep : OneLine sep)
    (hparts : ∀ p ∈ parts, OneLine p) : OneLine (join sep parts) := fun hmem =>
  forall_mem_join (P := (· ≠ '\n')) (fun _ hc heq => hsep (heq ▸ hc))
    (fun p hp _ hc heq => hparts p hp (heq ▸ hc)) _ hmem rfl

theorem oneLine_toShimType (hs : OneLine s) : OneLine (toShimType s) := fun hmem =>
  toShimType_forall (P := (· ≠ '\n'))
    (fun _ hc heq => absurd (heq ▸ hc) (by decide))
    (fun _ hc heq => hs (heq ▸ hc)) _ hmem rfl

/-- What is there of a declaration is on one line. -/
structure Decl.Line (d : Decl) : Prop where
  name : ∀ n ∈ d.name, OneLine n
  type : ∀ t ∈ d.type, OneLine t

structure Prototype.Line (function : Prototype) : Prop where
  name : ∀ n ∈ function.name, OneLine n
  type : ∀ t ∈ function.type, OneLine t
  args : ∀ d ∈ function.args, d.Line

end Lines

/-! ## What is read -/

section Read

variable {prototype s : Text} {st st' : SplitState}

/-- So are the parts and what is read of the next. -/
structure SplitState.Line (st : SplitState) : Prop where
  parts : ∀ p ∈ st.parts, OneLine p
  decl : OneLine st.decl

theorem SplitState.Line.put (h : st.Line) (hs : OneLine s) (depth : Int) :
    SplitState.Line { st with decl := st.decl ++ s, depth := depth } :=
  ⟨h.parts, h.decl.append hs⟩

theorem SplitState.Line.part (h : st.Line) {decl : Text} (hdecl : OneLine decl)
    (depth : Int) : SplitState.Line ⟨st.parts ++ [st.decl], depth, decl⟩ := by
  refine ⟨fun p hp => ?_, hdecl⟩
  rcases List.mem_append.mp hp with hp | hp
  · exact h.parts p hp
  · exact List.mem_singleton.mp hp ▸ h.decl

theorem splitChar_line {c : Char} {i : Nat} (hc : c ≠ '\n') (h : st.Line)
    (hstep : splitChar prototype st c i = .ok st') : st'.Line := by
  have hchar : OneLine [c] := fun hmem => hc (List.mem_singleton.mp hmem).symm
  unfold splitChar at hstep
  split at hstep
  · split at hstep <;> cases hstep
    · exact h.part List.not_mem_nil _
    · exact h.put (oneLine_of_all rfl) _
  · split at hstep
    · split at hstep <;> cases hstep
      · exact h.part h.decl _
      · exact h.put (oneLine_of_all rfl) _
    · split at hstep
      · split at hstep <;> cases hstep
        · exact h.part List.not_mem_nil _
        · exact h.put (oneLine_of_all rfl) _
      · split at hstep
        · cases hstep
          exact h.put hchar _
        · split at hstep <;> cases hstep
          exact h.put (oneLine_of_all rfl) _

theorem splitChars_line {i : Nat} (hs : OneLine s) (h : st.Line)
    (hrun : splitChars prototype st i s = .ok st') : st'.Line := by
  induction s generalizing st i with
  | nil =>
      cases hrun
      exact h
  | cons c s ih =>
      unfold OneLine at hs
      rw [List.mem_cons, not_or] at hs
      rw [splitChars] at hrun
      cases hstep : splitChar prototype st c i with
      | error e =>
          rw [hstep] at hrun
          cases hrun
      | ok st₁ =>
          rw [hstep] at hrun
          exact ih hs.2 (splitChar_line (Ne.symm hs.1) h hstep) hrun

theorem commentRegex_nonempty : commentRegex.Nonempty := nonempty_of_takes rfl

theorem splitPrototype_line {parts : List Text} (hline : OneLine prototype)
    (hsplit : splitPrototype prototype = .ok parts) : ∀ p ∈ parts, OneLine p := by
  have hbare : OneLine (commentRegex.gsub (fun _ => []) prototype) := fun hmem =>
    gsub_forall (P := (· ≠ '\n')) commentRegex_nonempty
      (fun _ hc heq => hline (heq ▸ hc))
      (fun _ _ _ _ _ _ hc => absurd hc List.not_mem_nil) _ hmem rfl
  rw [splitPrototype] at hsplit
  cases hrun : splitChars prototype ⟨[], 0, []⟩ 0
      (commentRegex.gsub (fun _ => []) prototype) with
  | error e =>
      rw [hrun] at hsplit
      cases hsplit
  | ok st =>
      rw [hrun] at hsplit
      cases hsplit
      have hnone : SplitState.Line ⟨[], 0, []⟩ := ⟨List.forall_mem_nil _, List.not_mem_nil⟩
      have hst := splitChars_line hbare hnone hrun
      intro p hp
      obtain ⟨q, hq, rfl⟩ := List.mem_map.mp hp
      exact oneLine_strip (hst.parts q hq)

theorem oneLine_argName (i : Nat) : OneLine (argName i) := fun hmem =>
  absurd ((argName_word i).chars _ hmem) (by decide)

theorem oneLine_group {r : Regex} {m : Match} {n : Nat} (hs : OneLine s)
    (hm : r.search s = some m) : ∀ u ∈ m.groups n, OneLine u := by
  intro u hu
  have htext : m.text n = u := by
    rw [Match.text, Option.mem_def.mp hu]
    rfl
  exact oneLine_within hs (htext ▸ search_text_within hm n)

theorem exists_of_bind_ok {α β : Type} {x : Except GenError α} {f : α → Except GenError β}
    {b : β} (h : x >>= f = .ok b) : ∃ a, x = .ok a ∧ f a = .ok b := by
  cases x with
  | error e => cases h
  | ok a => exact ⟨a, rfl, h⟩

theorem unlessNil_eq_ok {α : Type} {o : Option α} {a : α} (h : unlessNil o = .ok a) :
    o = some a := by
  cases o with
  | none => cases h
  | some b =>
      cases h
      rfl

theorem parseDecl_line {i : Nat} {d : Decl} (hs : OneLine s)
    (hparse : parseDecl prototype s i = .ok d) : d.Line := by
  unfold parseDecl at hparse
  split at hparse
  · cases hparse
    exact ⟨by simpa using oneLine_argName i, by simpa using hs⟩
  split at hparse
  · cases hparse
    exact ⟨nofun, by simpa using oneLine_of_all rfl⟩
  split at hparse
  · cases hparse
    exact ⟨by simpa using oneLine_of_all rfl, nofun⟩
  split at hparse
  · cases hparse
    exact ⟨by simpa using oneLine_argName i, by simpa using hs⟩
  split at hparse
  · rename_i m hm
    obtain ⟨result, hresult, hparse⟩ := exists_of_bind_ok hparse
    obtain ⟨params, hparams, hparse⟩ := exists_of_bind_ok hparse
    cases hparse
    refine ⟨oneLine_group hs hm, fun t ht => ?_⟩
    cases ht
    exact ((oneLine_group hs hm _ (unlessNil_eq_ok hresult)).append
      (oneLine_of_all rfl)).append (oneLine_group hs hm _ (unlessNil_eq_ok hparams))
  split at hparse
  · rename_i m hm
    obtain ⟨type, htype, hparse⟩ := exists_of_bind_ok hparse
    cases hparse
    refine ⟨oneLine_group hs hm, fun t ht => ?_⟩
    cases ht
    exact oneLine_strip (oneLine_group hs hm _ (unlessNil_eq_ok htype))
  split at hparse
  · rename_i m hm
    obtain ⟨elem, helem, hparse⟩ := exists_of_bind_ok hparse
    obtain ⟨size, hsize, hparse⟩ := exists_of_bind_ok hparse
    cases hparse
    refine ⟨oneLine_group hs hm, fun t ht => ?_⟩
    cases ht
    exact (oneLine_group hs hm _ (unlessNil_eq_ok helem)).append
      (oneLine_group hs hm _ (unlessNil_eq_ok hsize))
  · cases hparse

theorem parseDecls_line {parts : List Text} {i : Nat} {ds : List Decl}
    (hparts : ∀ p ∈ parts, OneLine p)
    (hparse : parseDecls prototype i parts = .ok ds) : ∀ d ∈ ds, d.Line := by
  induction parts generalizing i ds with
  | nil =>
      cases hparse
      exact List.forall_mem_nil _
  | cons p parts ih =>
      obtain ⟨hp, hparts⟩ := List.forall_mem_cons.mp hparts
      obtain ⟨d, hd, hparse⟩ := exists_of_bind_ok hparse
      obtain ⟨ds', hds', hparse⟩ := exists_of_bind_ok hparse
      cases hparse
      exact List.forall_mem_cons.mpr ⟨parseDecl_line hp hd, ih hparts hds'⟩

/-- What is read from a prototype on one line is on one line. -/
theorem parsePrototype_line {function : Prototype} (hline : OneLine prototype)
    (hparse : parsePrototype prototype = .ok function) : function.Line := by
  obtain ⟨parts, hparts, hparse⟩ := exists_of_bind_ok hparse
  obtain ⟨ds, hds, hparse⟩ := exists_of_bind_ok hparse
  have hlines := parseDecls_line
    (fun p hp => splitPrototype_line hline hparts p (List.mem_filter.mp hp).1) hds
  cases ds with
  | nil => cases hparse
  | cons d ds =>
      cases hparse
      obtain ⟨hd, hds⟩ := List.forall_mem_cons.mp hlines
      exact ⟨hd.name, hd.type, hds⟩

end Read

/-! ## What is written -/

section Written

variable {function : Prototype} {d : Decl}

theorem oneLine_getD {o : Option Text} (h : ∀ u ∈ o, OneLine u) : OneLine (o.getD []) := by
  cases o with
  | none => exact List.not_mem_nil
  | some u => exact h u rfl

theorem toDecl_line {s : Text} (hd : d.Line) (h : toDecl d = .ok s) : OneLine s := by
  have hname := oneLine_getD hd.name
  obtain ⟨name, _ | type⟩ := d
  · cases h
    exact (oneLine_of_all rfl).append hname
  have htype : OneLine type := hd.type type rfl
  simp only [toDecl] at h
  split at h
  · rename_i m hm
    cases h
    exact (((oneLine_within htype (search_text_within hm 1)).append
      (oneLine_of_all rfl)).append hname).append
      (oneLine_within htype (search_text_within hm 2))
  split at h
  · rename_i m hm
    obtain ⟨result, hresult, h⟩ := exists_of_bind_ok h
    cases h
    exact (((((oneLine_toShimType (oneLine_group htype hm _ (unlessNil_eq_ok hresult))).append
      (oneLine_of_all rfl)).append (oneLine_within htype (search_text_within hm 2))).append
      hname).append (oneLine_of_all rfl)).append
      (oneLine_toShimType (oneLine_within htype (search_text_within hm 3)))
  · cases h
    exact ((oneLine_toShimType htype).append (oneLine_of_all rfl)).append hname

theorem mapM_line {α : Type} {f : α → Except GenError Text} {as : List α} {ts : List Text}
    (hf : ∀ a ∈ as, ∀ t, f a = .ok t → OneLine t) (h : as.mapM f = .ok ts) :
    ∀ t ∈ ts, OneLine t := by
  induction as generalizing ts with
  | nil =>
      cases h
      exact List.forall_mem_nil _
  | cons a as ih =>
      obtain ⟨ha, has⟩ := List.forall_mem_cons.mp hf
      rw [List.mapM_cons] at h
      obtain ⟨t, ht, h⟩ := exists_of_bind_ok h
      obtain ⟨ts', hts', h⟩ := exists_of_bind_ok h
      cases h
      exact List.forall_mem_cons.mpr ⟨ha t ht, ih has hts'⟩

theorem wrapperHeader_line {s : Text} (hf : function.Line)
    (h : wrapperHeader function = .ok s) : OneLine s := by
  obtain ⟨type, htype, h⟩ := exists_of_bind_ok h
  obtain ⟨name, hname, h⟩ := exists_of_bind_ok h
  obtain ⟨decls, hdecls, h⟩ := exists_of_bind_ok h
  cases h
  have hdecls' := mapM_line (fun d hd t => toDecl_line (hf.args d hd)) hdecls
  exact (((((oneLine_toShimType (hf.type _ (unlessNil_eq_ok htype))).append
    (oneLine_of_all rfl)).append (hf.name _ (unlessNil_eq_ok hname))).append
    (oneLine_of_all rfl)).append (oneLine_join (oneLine_of_all rfl) hdecls')).append
    (oneLine_of_all rfl)

theorem oneLine_formatSpecifier (name type : Option Text) :
    OneLine (formatSpecifier name type) := by
  unfold formatSpecifier
  split
  · exact oneLine_of_all rfl
  split
  · exact oneLine_of_all rfl
  rename_i type
  split
  · exact oneLine_of_all rfl
  split
  · exact oneLine_of_all rfl
  split
  · exact oneLine_of_all rfl
  split
  · exact oneLine_of_all rfl
  cases hlookup : formatTable.lookup type with
  | none => exact oneLine_of_all rfl
  | some f =>
      have hall : formatTable.all fun e => e.2.all isDot := rfl
      exact oneLine_of_all (List.all_eq_true.mp hall _ (mem_of_lookup hlookup))

theorem oneLine_quoteFormat {f : Text} (hf : OneLine f) : OneLine (quoteFormat f) := by
  unfold quoteFormat
  split
  · exact ((oneLine_of_all rfl).append hf).append (oneLine_of_all rfl)
  · exact hf

theorem oneLine_logArgs {args : List Decl} (hargs : ∀ d ∈ args, d.Line) :
    OneLine (logArgs args) := by
  have hfmt : OneLine (join ", ".toList
      ((args.map fun arg => formatSpecifier arg.name arg.type).map quoteFormat)) := by
    refine oneLine_join (oneLine_of_all rfl) fun q hq => ?_
    obtain ⟨f, hf, rfl⟩ := List.mem_map.mp hq
    obtain ⟨d, -, rfl⟩ := List.mem_map.mp hf
    exact oneLine_quoteFormat (oneLine_formatSpecifier _ _)
  simp only [logArgs]
  split
  · exact oneLine_of_all rfl
  split
  · exact ((oneLine_of_all rfl).append hfmt).append (oneLine_of_all rfl)
  · refine (((((oneLine_of_all rfl).append hfmt).append (oneLine_of_all rfl)).append
      (oneLine_join (oneLine_of_all rfl) fun u hu => ?_)).append (oneLine_of_all rfl))
    obtain ⟨d, hd, rfl⟩ := List.mem_map.mp hu
    exact oneLine_getD (hargs d (List.mem_filter.mp hd).1).name

theorem oneLine_logResult (function : Prototype) : OneLine (logResult function) := by
  simp only [logResult]
  split
  · exact oneLine_of_all rfl
  · refine ((((oneLine_of_all rfl).append
      (oneLine_quoteFormat (oneLine_formatSpecifier _ _))).append
      (oneLine_of_all rfl)).append ?_).append (oneLine_of_all rfl)
    split
    · exact oneLine_of_all rfl
    · exact List.not_mem_nil

theorem Prototype.Line.realArgs (hf : function.Line) :
    ∀ d ∈ function.realArgs, d.Line := by
  unfold Prototype.realArgs
  split
  · exact List.forall_mem_nil _
  · exact hf.args

theorem oneLine_wrapperCall {impl : Option Text} (hf : function.Line)
    (himpl : ∀ f ∈ impl, OneLine f) : OneLine (wrapperCall function impl) := by
  have hargs : OneLine (join ", ".toList (function.realArgs.map callArg)) := by
    refine oneLine_join (oneLine_of_all rfl) fun u hu => ?_
    obtain ⟨d, hd, rfl⟩ := List.mem_map.mp hu
    unfold callArg
    split
    · exact oneLine_of_all rfl
    · exact oneLine_getD (hf.realArgs d hd).name
  unfold wrapperCall
  refine (OneLine.append (OneLine.append ?_ (oneLine_of_all rfl)) hargs).append
    (oneLine_of_all rfl)
  cases impl with
  | some f => exact himpl f rfl
  | none =>
      refine OneLine.append ?_ (oneLine_getD hf.name)
      split <;> exact oneLine_of_all rfl

theorem oneLine_lastNamed (hf : function.Line) : OneLine (lastNamed function) := by
  refine oneLine_getD fun u hu => ?_
  obtain ⟨d, hd, hname⟩ := Option.bind_eq_some_iff.mp hu
  exact (hf.realArgs d (List.dropLast_subset _ (List.mem_of_getLast? hd))).name u hname

/-- So is each of the lines that are written from it. -/
theorem generateWrapper_line {impl : Option Text} {wrapper : List Text}
    (hf : function.Line) (himpl : ∀ f ∈ impl, OneLine f)
    (hgen : generateWrapper function impl = .ok wrapper) : ∀ l ∈ wrapper, OneLine l := by
  obtain ⟨header, hheader, hgen⟩ := exists_of_bind_ok hgen
  obtain ⟨type, htype, hgen⟩ := exists_of_bind_ok hgen
  cases hgen
  have hindent : OneLine "  ".toList := oneLine_of_all rfl
  have hlast := ((oneLine_of_all (s := "  va_start(_args_, ".toList) rfl).append
    (oneLine_lastNamed hf)).append (oneLine_of_all (s := ");".toList) rfl)
  have hret := (hindent.append (oneLine_toShimType (hf.type _ (unlessNil_eq_ok htype)))).append
    (oneLine_of_all (s := " _ret_ = ".toList) rfl)
  simp only [List.forall_mem_append, List.forall_mem_cons]
  refine ⟨⟨⟨⟨⟨⟨⟨⟨(wrapperHeader_line hf hheader).append (oneLine_of_all rfl),
    hindent.append (oneLine_logArgs hf.realArgs), List.forall_mem_nil _⟩, ?_⟩, ?_⟩,
    hindent.append (oneLine_wrapperCall hf himpl), List.forall_mem_nil _⟩, ?_⟩,
    hindent.append (oneLine_logResult function), List.forall_mem_nil _⟩, ?_⟩,
    oneLine_of_all rfl, List.forall_mem_nil _⟩
  · split
    · exact List.forall_mem_cons.mpr ⟨oneLine_of_all rfl,
        List.forall_mem_cons.mpr ⟨hlast, List.forall_mem_nil _⟩⟩
    · exact List.forall_mem_nil _
  · split
    · exact List.forall_mem_nil _
    · exact List.forall_mem_cons.mpr ⟨hret, List.forall_mem_nil _⟩
  · split
    · exact List.forall_mem_cons.mpr ⟨oneLine_of_all rfl, List.forall_mem_nil _⟩
    · exact List.forall_mem_nil _
  · split
    · exact List.forall_mem_nil _
    · exact List.forall_mem_cons.mpr ⟨oneLine_of_all rfl, List.forall_mem_nil _⟩

/-! ## The macro -/

/-- Lines that each join the next. -/
theorem spliceLines_flatten {ls : List Text} (hls : ∀ l ∈ ls, OneLine l) (v : Text) :
    spliceLines ((ls.map (· ++ ['\\', '\n'])).flatten ++ v) =
      ls.flatten ++ spliceLines v := by
  induction ls with
  | nil => rfl
  | cons l ls ih =>
      obtain ⟨hl, hls⟩ := List.forall_mem_cons.mp hls
      have hcons : ((l :: ls).map (· ++ ['\\', '\n'])).flatten ++ v =
          l ++ '\\' :: '\n' :: ((ls.map (· ++ ['\\', '\n'])).flatten ++ v) := by simp
      rw [hcons, spliceLines_joined hl, ih hls, List.flatten_cons, List.append_assoc]

/-- A line that is made to join the next. -/
theorem puts_joined {l : Text} (hl : OneLine l) :
    puts ((l ++ ['\n']).flatMap fun c => if c = '\n' then ['\\', '\n'] else [c]) =
      l ++ ['\\', '\n'] := by
  have hsame : l.flatMap (fun c => if c = '\n' then ['\\', '\n'] else [c]) = l := by
    induction l with
    | nil => rfl
    | cons c l ih =>
        unfold OneLine at hl
        rw [List.mem_cons, not_or] at hl
        rw [List.flatMap_cons, if_neg (Ne.symm hl.1), ih hl.2]
        rfl
  rw [List.flatMap_append, hsame]
  exact if_pos (by simp)

theorem wrapperMacro_spliced {functionName : Text} {wrapper : List Text}
    (hname : OneLine functionName) (hwrapper : ∀ l ∈ wrapper, OneLine l) :
    spliceLines (wrapperMacro functionName wrapper) =
      "#define SHIM_WRAPPER_".toList ++ functionName ++ [' '] ++ wrapper.flatten ++
        "SHIM_EXPORT(".toList ++ functionName ++ ");".toList ++ ['\n', '\n'] := by
  have hlines : ((lines (wrapper.map (· ++ ['\n'])).flatten).map fun line =>
      puts (line.flatMap fun c => if c = '\n' then ['\\', '\n'] else [c])) =
      wrapper.map (· ++ ['\\', '\n']) := by
    rw [lines_flatten hwrapper, List.map_map]
    exact List.map_congr_left fun l hl => puts_joined (hwrapper l hl)
  have hfirst : OneLine ("#define SHIM_WRAPPER_".toList ++ functionName ++ [' ']) :=
    ((oneLine_of_all rfl).append hname).append (oneLine_of_all rfl)
  have hend : OneLine ("SHIM_EXPORT(".toList ++ functionName ++ ");".toList) :=
    ((oneLine_of_all rfl).append hname).append (oneLine_of_all rfl)
  have hsemicolon : ("SHIM_EXPORT(".toList ++ functionName ++ ");".toList).getLast? =
      some ';' := by
    rw [List.getLast?_append_of_ne_nil _ (by simp)]
    simp
  rw [wrapperMacro, hlines,
    puts_of_getLast? (by rw [List.getLast?_append_of_ne_nil _ (by simp)]; simp),
    puts_of_getLast? (by rw [hsemicolon]; decide)]
  have hparts : "#define SHIM_WRAPPER_".toList ++ functionName ++ " \\".toList ++ ['\n'] ++
      (wrapper.map (· ++ ['\\', '\n'])).flatten ++
      ("SHIM_EXPORT(".toList ++ functionName ++ ");".toList ++ ['\n']) ++ puts [] =
      ("#define SHIM_WRAPPER_".toList ++ functionName ++ [' ']) ++ '\\' :: '\n' ::
        ((wrapper.map (· ++ ['\\', '\n'])).flatten ++
          (("SHIM_EXPORT(".toList ++ functionName ++ ");".toList) ++
            '\n' :: ([] ++ '\n' :: []))) := by
    simp [puts]
  rw [hparts, spliceLines_joined hfirst, spliceLines_flatten hwrapper,
    spliceLines_ended hend (by rw [hsemicolon]; decide),
    spliceLines_ended List.not_mem_nil (by simp)]
  simp [spliceLines]

/-- A line that does not run into the one before. -/
def SetOff (l : Text) : Prop := l.head? = some ' ' ∨ l = "\x7d".toList

theorem generateWrapper_setOff {impl : Option Text} {wrapper : List Text}
    (hgen : generateWrapper function impl = .ok wrapper) : ∀ l ∈ wrapper.tail, SetOff l := by
  obtain ⟨header, -, hgen⟩ := exists_of_bind_ok hgen
  obtain ⟨type, -, hgen⟩ := exists_of_bind_ok hgen
  cases hgen
  have hindent : ∀ u v : Text, SetOff (' ' :: ' ' :: u ++ v) := fun _ _ => .inl rfl
  simp only [List.append_assoc, List.cons_append, List.tail_cons, List.forall_mem_cons,
    List.nil_append, List.forall_mem_append]
  refine ⟨hindent [] _, ?_, ?_, hindent [] _, ?_, hindent [] _, ?_, .inr rfl,
    List.forall_mem_nil _⟩
  · split
    · exact List.forall_mem_cons.mpr ⟨.inl rfl,
        List.forall_mem_cons.mpr ⟨.inl rfl, List.forall_mem_nil _⟩⟩
    · exact List.forall_mem_nil _
  · split
    · exact List.forall_mem_nil _
    · exact List.forall_mem_cons.mpr ⟨.inl rfl, List.forall_mem_nil _⟩
  · split
    · exact List.forall_mem_cons.mpr ⟨.inl rfl, List.forall_mem_nil _⟩
    · exact List.forall_mem_nil _
  · split
    · exact List.forall_mem_nil _
    · exact List.forall_mem_cons.mpr ⟨.inl rfl, List.forall_mem_nil _⟩

/-- The macro for a function that is wrapped, from its prototype. -/
def scannedMacro (prototype : Text) : Except GenError Text := do
  let function ← parsePrototype prototype
  let name ← unlessNil function.name
  let wrapper ← generateWrapper function (some ("shim_".toList ++ name ++ "_impl".toList))
  return wrapperMacro name wrapper

theorem scannedMacro_eq {prototype name : Text} {wrapper : List Text}
    (hparse : parsePrototype prototype = .ok function) (hname : function.name = some name)
    (hgen : generateWrapper function
      (some ("shim_".toList ++ name ++ "_impl".toList)) = .ok wrapper) :
    scannedMacro prototype = .ok (wrapperMacro name wrapper) := by
  rw [scannedMacro, hparse]
  show (unlessNil function.name >>= _) = _
  rw [hname]
  show (generateWrapper function _ >>= _) = _
  rw [hgen]
  rfl

/-- The macro of a prototype on one line is one line. It holds the wrapper,
line behind line and none of them running into the next, and the export. -/
theorem scannedMacro_spliced {prototype written : Text} (hline : OneLine prototype)
    (hwritten : scannedMacro prototype = .ok written) :
    ∃ function name wrapper, parsePrototype prototype = .ok function ∧
      function.name = some name ∧ generateWrapper function
        (some ("shim_".toList ++ name ++ "_impl".toList)) = .ok wrapper ∧
      spliceLines written = "#define SHIM_WRAPPER_".toList ++ name ++ [' '] ++
        wrapper.flatten ++ "SHIM_EXPORT(".toList ++ name ++ ");".toList ++
          ['\n', '\n'] ∧
      (∀ l ∈ wrapper, OneLine l) ∧ ∀ l ∈ wrapper.tail, SetOff l := by
  obtain ⟨function, hparse, hwritten⟩ := exists_of_bind_ok hwritten
  obtain ⟨name, hname, hwritten⟩ := exists_of_bind_ok hwritten
  obtain ⟨wrapper, hgen, hwritten⟩ := exists_of_bind_ok hwritten
  cases hwritten
  have hname' := unlessNil_eq_ok hname
  have hfunction := parsePrototype_line hline hparse
  have himpl : ∀ f ∈ some ("shim_".toList ++ name ++ "_impl".toList), OneLine f := by
    rintro f ⟨⟩
    exact ((oneLine_of_all rfl).append (hfunction.name name hname')).append
      (oneLine_of_all rfl)
  have hwrapper := generateWrapper_line hfunction himpl hgen
  exact ⟨function, name, wrapper, hparse, hname', hgen,
    wrapperMacro_spliced (hfunction.name name hname') hwrapper, hwrapper,
    generateWrapper_setOff hgen⟩

theorem scannedMacro_spliced_setenv :
    ∃ written, ∃ wrapper : List Text, scannedMacro setenvPrototype = .ok written ∧
      spliceLines written = "#define SHIM_WRAPPER_setenv ".toList ++ wrapper.flatten ++
        "SHIM_EXPORT(setenv);".toList ++ ['\n', '\n'] := by
  have hparse := Signature.parsePrototype_eq setenv_writtenAs
  obtain ⟨wrapper, hgen, -, -⟩ := setenvSignature.generateWrapper_eq setenvPrototype
    (some ("shim_".toList ++ "setenv".toList ++ "_impl".toList))
  have hwritten : scannedMacro setenvPrototype = .ok (wrapperMacro "setenv".toList wrapper) := by
    exact scannedMacro_eq hparse rfl hgen
  obtain ⟨function, name, wrapper', hparse', hname, hgen', hspliced, -, -⟩ :=
    scannedMacro_spliced (oneLine_of_all rfl) hwritten
  obtain rfl := Except.ok.inj (hparse.symm.trans hparse')
  obtain rfl : "setenv".toList = name := Option.some.inj hname
  obtain rfl := Except.ok.inj (hgen.symm.trans hgen')
  exact ⟨_, wrapper, hwritten, by rw [hspliced]; simp⟩

end Written

end Libc6Shim
