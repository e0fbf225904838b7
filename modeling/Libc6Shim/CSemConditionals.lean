import Mathlib.Data.List.Basic

/-!
# Conditional lines

The lines of a file that a preprocessor leaves, as far as `#ifndef` and
`#endif` decide that (`active`). Lines that are no directives are left all or
none (`active_append`), and between an `#ifndef` and its `#endif` they are left
if the macro is not defined (`active_guarded`).
-/

namespace CSem

inductive Directive where
  | ifndef (macroName : List Char)
  | endif
deriving DecidableEq

/-- What a line directs. Behind an `#endif` there may be more. -/
def directive (l : List Char) : Option Directive :=
  if "#ifndef ".toList.isPrefixOf l then some (.ifndef (l.drop "#ifndef ".toList.length))
  else if "#endif".toList.isPrefixOf l then some .endif
  else none

/-- What is left of the lines. The conditions they are under come first, the
innermost before the others. -/
def active (defined : List Char → Bool) : List Bool → List (List Char) → List (List Char)
  | _, [] => []
  | conds, l :: ls =>
      match directive l with
      | some (.ifndef n) => active defined ((!defined n) :: conds) ls
      | some .endif => active defined conds.tail ls
      | none => if conds.all id then l :: active defined conds ls else active defined conds ls

section Lines

variable {defined : List Char → Bool} {conds : List Bool} {ls ls' : List (List Char)}

/-- A line that begins otherwise is no directive. -/
theorem directive_of_head? {l : List Char} (h : l.head? ≠ some '#') : directive l = none := by
  cases l with
  | nil => rfl
  | cons c l =>
      have hc : ('#' == c) = false := by
        rw [beq_eq_false_iff_ne]
        rintro rfl
        exact h rfl
      simp [directive, List.isPrefixOf, hc]

theorem active_append (h : ∀ l ∈ ls, directive l = none) :
    active defined conds (ls ++ ls') =
      (if conds.all id then ls else []) ++ active defined conds ls' := by
  induction ls with
  | nil => cases conds.all id <;> rfl
  | cons l ls ih =>
      obtain ⟨hl, hls⟩ := List.forall_mem_cons.mp h
      rw [List.cons_append, active, hl]
      cases hconds : conds.all id with
      | false =>
          rw [hconds] at ih
          exact ih hls
      | true =>
          rw [hconds] at ih
          exact congrArg (l :: ·) (ih hls)

theorem active_ifndef (n : List Char) (ls : List (List Char)) :
    active defined conds (("#ifndef ".toList ++ n) :: ls) =
      active defined ((!defined n) :: conds) ls := by
  have hdirective : directive ("#ifndef ".toList ++ n) = some (.ifndef n) := by
    simp [directive, List.isPrefixOf]
  rw [active, hdirective]

theorem active_endif (l : List Char) (ls : List (List Char)) :
    active defined conds (("#endif".toList ++ l) :: ls) = active defined conds.tail ls := by
  have hdirective : directive ("#endif".toList ++ l) = some .endif := by
    simp [directive, List.isPrefixOf]
  rw [active, hdirective]

/-- Lines for where a macro is not defined. -/
theorem active_guarded (h : ∀ l ∈ ls, directive l = none) (n l : List Char) :
    active defined [] (("#ifndef ".toList ++ n) :: (ls ++ ("#endif".toList ++ l) :: ls')) =
      (if defined n then [] else ls) ++ active defined [] ls' := by
  rw [active_ifndef, active_append h, active_endif]
  cases defined n <;> rfl

end Lines

end CSem
