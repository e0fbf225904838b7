import Libc6Shim.RubyTables
import Libc6Shim.ShimTypes

/-!
# What wrappers log

A wrapper logs its arguments with a format that `log_args` puts together from
their types, and its result with one that `log_result` does. `printf` takes an
argument for each conversion it finds in the format. Those it finds are the
ones that were chosen for the arguments that are passed, one for each and in
their order, whatever the prototype (`logArgs_conversions`,
`logResult_conversions`).
-/

namespace Libc6Shim

open Ruby Regex

/-! ## Formats -/

/-- The character ends a conversion. -/
def isConversion (c : Char) : Bool :=
  c ∈ ['d', 'i', 'o', 'u', 'x', 'X', 'e', 'E', 'f', 'F', 'g', 'G', 'a', 'A', 'c', 's',
    'p', 'n', '%']

/-- The conversions that `printf` finds, from where it has read `spec` of one
on. -/
def conversionsFrom : Option Text → Text → List Text
  | _, [] => []
  | none, c :: s =>
      if c = '%' then conversionsFrom (some ['%']) s else conversionsFrom none s
  | some spec, c :: s =>
      if isConversion c then (spec ++ [c]) :: conversionsFrom none s
      else conversionsFrom (some (spec ++ [c])) s

def conversions (fmt : Text) : List Text := conversionsFrom none fmt

/-- What `printf` has read of a conversion at the end of a text. -/
def conversionAfter : Option Text → Text → Option Text
  | spec, [] => spec
  | none, c :: s =>
      if c = '%' then conversionAfter (some ['%']) s else conversionAfter none s
  | some spec, c :: s =>
      if isConversion c then conversionAfter none s
      else conversionAfter (some (spec ++ [c])) s

/-- No conversion is left open. -/
def ClosedFormat (fmt : Text) : Prop := conversionAfter none fmt = none

theorem conversionsFrom_append (spec : Option Text) (u v : Text) :
    conversionsFrom spec (u ++ v) =
      conversionsFrom spec u ++ conversionsFrom (conversionAfter spec u) v := by
  induction u generalizing spec with
  | nil => cases spec <;> rfl
  | cons c u ih =>
      cases spec with
      | none =>
          rw [List.cons_append, conversionsFrom, conversionsFrom, conversionAfter]
          split <;> exact ih _
      | some spec =>
          rw [List.cons_append, conversionsFrom, conversionsFrom, conversionAfter]
          split
          · rw [ih, List.cons_append]
          · exact ih _

theorem conversionAfter_append (spec : Option Text) (u v : Text) :
    conversionAfter spec (u ++ v) = conversionAfter (conversionAfter spec u) v := by
  induction u generalizing spec with
  | nil => cases spec <;> rfl
  | cons c u ih =>
      cases spec with
      | none =>
          rw [List.cons_append, conversionAfter, conversionAfter]
          split <;> exact ih _
      | some spec =>
          rw [List.cons_append, conversionAfter, conversionAfter]
          split <;> exact ih _

variable {u v : Text}

theorem ClosedFormat.conversions_append (hu : ClosedFormat u) (v : Text) :
    conversions (u ++ v) = conversions u ++ conversions v := by
  rw [conversions, conversionsFrom_append, hu]
  rfl

theorem ClosedFormat.append (hu : ClosedFormat u) (hv : ClosedFormat v) :
    ClosedFormat (u ++ v) := by
  rw [ClosedFormat, conversionAfter_append, hu]
  exact hv

/-- Text in which there is no conversion. -/
structure Plain (fmt : Text) : Prop where
  closed : ClosedFormat fmt
  conversions : conversions fmt = []

theorem plain_of_not_mem (h : '%' ∉ u) : Plain u := by
  induction u with
  | nil => exact ⟨rfl, rfl⟩
  | cons c u ih =>
      rw [List.mem_cons, not_or] at h
      have hu := ih h.2
      have hc : c ≠ '%' := Ne.symm h.1
      constructor
      · rw [ClosedFormat, conversionAfter, if_neg hc]
        exact hu.closed
      · rw [conversions, conversionsFrom, if_neg hc]
        exact hu.conversions

/-- The conversions of what is joined by plain text. -/
theorem conversions_join {sep : Text} {parts : List Text} (hsep : Plain sep)
    (hparts : ∀ p ∈ parts, ClosedFormat p) :
    conversions (join sep parts) = parts.flatMap conversions := by
  induction parts with
  | nil => rfl
  | cons p parts ih =>
      obtain ⟨hp, hparts⟩ := List.forall_mem_cons.mp hparts
      cases parts with
      | nil => rw [join, List.intercalate_singleton, List.flatMap_singleton]
      | cons q parts =>
          have hjoin : join sep (p :: q :: parts) = p ++ (sep ++ join sep (q :: parts)) := by
            simp [join, List.intercalate]
          rw [hjoin, hp.conversions_append, hsep.closed.conversions_append, hsep.conversions,
            List.nil_append, ih hparts, List.flatMap_cons (x := p)]

/-! ## The formats that are chosen -/

/-- A format with a conversion for one argument, or with none. -/
structure Fmt (f : Text) : Prop where
  closed : ClosedFormat f
  one : '%' ∈ f → ∃ spec, conversions f = [spec]
  none : '%' ∉ f → conversions f = []

theorem fmt_of_one {f spec : Text} (hclosed : ClosedFormat f) (hmem : '%' ∈ f)
    (h : conversions f = [spec]) : Fmt f :=
  ⟨hclosed, fun _ => ⟨spec, h⟩, fun hn => absurd hmem hn⟩

theorem fmt_of_not_mem (h : '%' ∉ u) : Fmt u :=
  ⟨(plain_of_not_mem h).closed, fun hmem => absurd hmem h,
    fun _ => (plain_of_not_mem h).conversions⟩

theorem fmt_formatSpecifier (name type : Option Text) : Fmt (formatSpecifier name type) := by
  have hp : Fmt "%p".toList := fmt_of_one rfl (by simp) rfl
  unfold formatSpecifier
  split
  · exact fmt_of_not_mem (by simp)
  split
  · exact fmt_of_not_mem (by simp)
  rename_i type
  split
  · have hcallback : conversions "%p [callback]".toList = ["%p".toList] := rfl
    exact fmt_of_one rfl (by simp) hcallback
  split
  · exact hp
  split
  · have hstring : conversions "%.100s".toList = ["%.100s".toList] := rfl
    exact fmt_of_one rfl (by simp) hstring
  split
  · exact hp
  cases hlookup : formatTable.lookup type with
  | none => exact fmt_of_not_mem (by simp)
  | some f =>
      have hall : formatTable.all fun e => conversionAfter none e.2 = none ∧ '%' ∈ e.2 ∧
          (conversions e.2).length = 1 := by decide +kernel
      have hf := List.all_eq_true.mp hall _ (mem_of_lookup hlookup)
      obtain ⟨hclosed, hmem, hlen⟩ := of_decide_eq_true hf
      obtain ⟨spec, hspec⟩ := List.length_eq_one_iff.mp hlen
      exact fmt_of_one hclosed hmem hspec

/-- Quotes change nothing for `printf`. -/
theorem conversions_quoteFormat {f : Text} (hf : ClosedFormat f) :
    ClosedFormat (quoteFormat f) ∧ conversions (quoteFormat f) = conversions f := by
  have hquote : Plain "\\\"".toList := plain_of_not_mem (by simp)
  unfold quoteFormat
  split
  · constructor
    · exact (hquote.closed.append hf).append hquote.closed
    · rw [List.append_assoc, hquote.closed.conversions_append, hquote.conversions,
        hf.conversions_append, hquote.conversions, List.nil_append, List.append_nil]
  · exact ⟨hf, rfl⟩

/-! ## Arguments -/

/-- The format that is chosen for a parameter. -/
def Decl.fmt (arg : Decl) : Text := formatSpecifier arg.name arg.type

/-- The parameters that are passed to the log. -/
def loggedArgs (args : List Decl) : List Decl := args.filter fun arg => arg.fmt.contains '%'

/-- The whole format. -/
def argsFormat (args : List Decl) : Text :=
  join ", ".toList ((args.map Decl.fmt).map quoteFormat)

/-- A list that is put behind others. -/
theorem join_cons_eq (sep : Text) (p : Text) (parts : List Text) :
    join sep (p :: parts) = p ++ (parts.map (sep ++ ·)).flatten := by
  induction parts generalizing p with
  | nil => simp [join]
  | cons q parts ih =>
      have hjoin : join sep (p :: q :: parts) = p ++ (sep ++ join sep (q :: parts)) := by
        simp [join, List.intercalate]
      rw [hjoin, ih, List.map_cons, List.flatten_cons, List.append_assoc]

/-- The call that is written. -/
theorem logArgs_eq (args : List Decl) : logArgs args =
    if args = [] then "LOG_ENTRY();".toList
    else "LOG_ENTRY(\"".toList ++ argsFormat args ++ "\"".toList ++
      ((loggedArgs args).map fun arg => ", ".toList ++ arg.name.getD []).flatten ++
        ");".toList := by
  have hformats : args.map (fun arg => formatSpecifier arg.name arg.type) =
      args.map Decl.fmt := rfl
  have hlogged : args.filter (fun arg => (formatSpecifier arg.name arg.type).contains '%') =
      loggedArgs args := rfl
  rw [logArgs, hformats, hlogged]
  by_cases hargs : args = []
  · rw [if_pos hargs, hargs]
    rfl
  · have hformats : args.map Decl.fmt ≠ [] := fun h => hargs (List.map_eq_nil_iff.mp h)
    rw [if_neg hargs]
    simp only [if_neg hformats]
    cases hnames : loggedArgs args with
    | nil => simp [argsFormat]
    | cons arg logged =>
        simp only [List.map_cons, join_cons_eq, reduceCtorEq, if_false, List.map_map]
        simp [argsFormat, Function.comp_def]

theorem logArgs_conversions (args : List Decl) :
    ∃ fmt specs, (logArgs args = if args = [] then "LOG_ENTRY();".toList
      else "LOG_ENTRY(\"".toList ++ fmt ++ "\"".toList ++
        ((loggedArgs args).map fun arg => ", ".toList ++ arg.name.getD []).flatten ++
          ");".toList) ∧
      conversions fmt = specs ∧
      List.Forall₂ (fun arg spec => conversions arg.fmt = [spec]) (loggedArgs args) specs := by
  refine ⟨argsFormat args, _, logArgs_eq args, rfl, ?_⟩
  have hplain : Plain ", ".toList := plain_of_not_mem (by simp)
  have hfmt : ∀ arg : Decl, Fmt arg.fmt := fun arg => fmt_formatSpecifier _ _
  rw [argsFormat, conversions_join hplain]
  · induction args with
    | nil => exact .nil
    | cons arg args ih =>
        rw [loggedArgs, List.map_cons, List.map_cons, List.flatMap_cons,
          (conversions_quoteFormat (hfmt arg).closed).2]
        by_cases hmem : '%' ∈ arg.fmt
        · obtain ⟨spec, hspec⟩ := (hfmt arg).one hmem
          rw [List.filter_cons_of_pos (by simpa using hmem), hspec]
          exact .cons hspec ih
        · rw [List.filter_cons_of_neg (by simpa using hmem), (hfmt arg).none hmem]
          exact ih
  · intro q hq
    obtain ⟨f, hf, rfl⟩ := List.mem_map.mp hq
    obtain ⟨arg, -, rfl⟩ := List.mem_map.mp hf
    exact (conversions_quoteFormat (hfmt arg).closed).1

/-! ## The result -/

/-- The format that is chosen for the result. -/
def Prototype.fmt (function : Prototype) : Text :=
  formatSpecifier function.name function.type

/-- What is passed to the log for it. -/
def loggedResult (function : Prototype) : List Text :=
  if function.fmt.contains '%' then ["_ret_".toList] else []

theorem passed_result (b : Bool) : (if b then ", _ret_".toList else []) =
    ((if b then ["_ret_".toList] else []).map (", ".toList ++ ·)).flatten := by
  cases b <;> rfl

theorem logResult_conversions (function : Prototype)
    (htype : function.type ≠ some "void".toList) :
    ∃ fmt specs, logResult function = "LOG_EXIT(\"".toList ++ fmt ++ "\"".toList ++
        ((loggedResult function).map (", ".toList ++ ·)).flatten ++ ");".toList ∧
      conversions fmt = specs ∧
      List.Forall₂ (fun _ spec => conversions function.fmt = [spec])
        (loggedResult function) specs := by
  have hf : Fmt function.fmt := fmt_formatSpecifier function.name function.type
  have hquote := conversions_quoteFormat hf.closed
  refine ⟨quoteFormat function.fmt, _, ?_, hquote.2, ?_⟩
  · rw [logResult, if_neg htype, loggedResult, ← passed_result]
    rfl
  · by_cases hmem : '%' ∈ function.fmt
    · obtain ⟨spec, hspec⟩ := hf.one hmem
      rw [loggedResult, if_pos (by simpa using hmem), hspec]
      exact .cons rfl .nil
    · rw [loggedResult, if_neg (by simpa using hmem), hf.none hmem]
      exact .nil

/-- The calls that log the arguments of a function and its result. `printf`
finds for each argument that is passed the one conversion chosen for its type,
in their order, and no other; and the one chosen for the type of the result,
if it is passed, which it is only where there is one. -/
theorem logs_conversions (function : Prototype) :
    (∃ fmt specs, (logArgs function.realArgs = if function.realArgs = [] then
        "LOG_ENTRY();".toList
      else "LOG_ENTRY(\"".toList ++ fmt ++ "\"".toList ++
        ((loggedArgs function.realArgs).map fun arg =>
          ", ".toList ++ arg.name.getD []).flatten ++ ");".toList) ∧
      conversions fmt = specs ∧
      List.Forall₂ (fun arg spec => conversions arg.fmt = [spec])
        (loggedArgs function.realArgs) specs) ∧
    (if function.type = some "void".toList then logResult function = "LOG_EXIT();".toList
    else ∃ fmt specs, logResult function = "LOG_EXIT(\"".toList ++ fmt ++ "\"".toList ++
        ((loggedResult function).map (", ".toList ++ ·)).flatten ++ ");".toList ∧
      conversions fmt = specs ∧
      List.Forall₂ (fun _ spec => conversions function.fmt = [spec])
        (loggedResult function) specs) := by
  refine ⟨logArgs_conversions function.realArgs, ?_⟩
  split
  · rename_i hvoid
    rw [logResult, if_pos hvoid]
  · rename_i hvoid
    exact logResult_conversions function hvoid

end Libc6Shim
