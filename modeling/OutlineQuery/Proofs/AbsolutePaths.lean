import OutlineQuery.Proofs.Composition

/-! Absolute paths start from the root, which is found from every row. So what they select does not
depend on the row from which an expression is seen. -/

namespace OutlineQuery
open Outline

def Location.paths : Location → List Path
  | .path p => [p]
  | .union l m | .except l m | .intersect l m => l.paths ++ m.paths

/-- With one index, the row it is seen from counts only for where a relative path starts. -/
theorem Location.rows_eq_of_absolute (ix : Index) (c c' : RowId) (l : Location)
    (h : ∀ p ∈ l.paths, p.absolute = true) : l.rows ix c = l.rows ix c' := by
  cases l with
  | path p =>
    have hp : p.absolute = true := h p (by simp [paths])
    rw [rows, rows, Path.rows, Path.rows, Path.start, Path.start, hp]
    rfl
  | union l m =>
    obtain ⟨hl, hm⟩ := List.forall_mem_append.mp h
    rw [rows, rows, l.rows_eq_of_absolute ix c c' hl, m.rows_eq_of_absolute ix c c' hm]
  | except l m =>
    obtain ⟨hl, hm⟩ := List.forall_mem_append.mp h
    simp only [rows, l.rows_eq_of_absolute ix c c' hl, m.rows_eq_of_absolute ix c c' hm]
  | intersect l m =>
    obtain ⟨hl, hm⟩ := List.forall_mem_append.mp h
    simp only [rows, l.rows_eq_of_absolute ix c c' hl, m.rows_eq_of_absolute ix c c' hm]

/-- The index of an outline has the same rows in order, with the same positions and ends of
subtrees, whichever row it is made around. A location whose paths are all absolute selects the same
list from every row, or is refused from every row for the same reason. -/
theorem absolute_paths_from_anywhere {o : Outline} (ho : o.Reachable) {c c' : RowId}
    (hc : o.has c = true) (hc' : o.has c' = true) :
    (Index.around o c).items = (Index.around o c').items ∧
    (Index.around o c).position? = (Index.around o c').position? ∧
    (Index.around o c).ends = (Index.around o c').ends ∧
    ∀ l : Location, (∀ p ∈ l.paths, p.absolute = true) →
      (Expression.location l).evaluate o c = (Expression.location l).evaluate o c' := by
  have hindex : Index.around o c = Index.around o c' := ho.isTree.around_eq hc' hc
  refine ⟨congrArg _ hindex, congrArg _ hindex, congrArg _ hindex, fun l habsolute => ?_⟩
  rw [Expression.evaluate, Expression.evaluate, hindex, l.rows_eq_of_absolute _ c c' habsolute]

def youngerSiblings : Location :=
  .except (.path ⟨true, [⟨.descendant, .any, .any, none⟩]⟩)
    (.path ⟨true, [⟨.descendantOrSelf, .any, .any, none⟩, ⟨.child, .any, .any, some (.index 0)⟩]⟩)

/-- Seen from a row that is selected, and from one that is not. -/
theorem youngerSiblings_from_anywhere :
    lateChild.has 2 = true ∧ lateChild.has 4 = true ∧
    (∀ p ∈ youngerSiblings.paths, p.absolute = true) ∧
    (Expression.location youngerSiblings).evaluate lateChild 2 = .ok [2] ∧
    (Expression.location youngerSiblings).evaluate lateChild 4 = .ok [2] := by
  have habsolute : ∀ p ∈ youngerSiblings.paths, p.absolute = true := by
    simp [youngerSiblings, Location.paths]
  have hselected : (Expression.location youngerSiblings).evaluate lateChild 2 = .ok [2] := by cbv
  obtain ⟨-, -, -, hsame⟩ := absolute_paths_from_anywhere lateChild_reachable
    (rfl : lateChild.has 2 = true) (rfl : lateChild.has 4 = true)
  exact ⟨rfl, rfl, habsolute, hselected, (hsame _ habsolute).symm.trans hselected⟩

end OutlineQuery
