import Mathlib.Algebra.Module.Submodule.Lattice
import Mathlib.Data.List.Sort
import OutlineQuery.Proofs.Selection

/-! Evaluation is compositional. What the steps of a path find is found by the first of them and
then from each row that these reach, and the combinations of locations are those of sets of rows.
A list in document order is determined by its rows, so what holds of sets of rows holds of lists. -/

namespace OutlineQuery
namespace Outline.IsTree
variable {o : Outline} {context x y : Nat} {rows rows' : List RowId}

theorem eq_of_mem_iff (h : o.IsTree) (hrows : o.InDocumentOrder rows)
    (hrows' : o.InDocumentOrder rows') (hmem : ∀ id, id ∈ rows ↔ id ∈ rows') : rows = rows' := by
  have hirrefl : Std.Irrefl o.Precedes := ⟨fun _ => h.precedes_irrefl⟩
  have hantisymm : Std.Antisymm o.Precedes :=
    ⟨fun _ _ hxy hyx => absurd (h.precedes_trans hxy hyx) h.precedes_irrefl⟩
  exact hrows.ordered.eq_of_mem_iff hrows'.ordered hmem

/-- An outline has one index, whichever row it is made around. -/
theorem around_eq (h : o.IsTree) (hc : o.has context = true) (hx : o.has x = true) :
    Index.around o x = Index.around o context := by
  rw [Index.around, Index.around, h.top_eq hc, h.top_eq hx]

end Outline.IsTree

open Outline

namespace Step
variable {ix : Index} {s : Step} {steps : List Step} {contexts : List RowId} {y : RowId}

theorem mem_found : y ∈ s.found ix contexts ↔ ∃ x ∈ contexts, y ∈ s.fromRow ix x :=
  List.mem_flatMap

/-- Sorting and merging the rows between two steps loses none of them, and slices are applied
before; so each row comes to the same whether it is followed alone or with others. -/
theorem mem_follow : y ∈ follow ix steps contexts ↔
    ∃ x ∈ contexts, y ∈ follow ix steps [x] := by
  induction steps generalizing contexts with
  | nil => simp [follow]
  | cons s steps ih =>
    have hstep : ∀ rows : List RowId, y ∈ follow ix (s :: steps) rows ↔
        ∃ x ∈ rows, ∃ z ∈ s.fromRow ix x, y ∈ follow ix steps [z] := by
      intro rows
      rw [follow, ih]
      simp only [IsTree.mem_inOrder, mem_found]
      constructor
      · rintro ⟨z, ⟨x, hx, hz⟩, hy⟩
        exact ⟨x, hx, z, hz, hy⟩
      · rintro ⟨x, hx, z, hz, hy⟩
        exact ⟨z, ⟨x, hx, hz⟩, hy⟩
    simp only [hstep, List.mem_singleton, exists_eq_left]

end Step

def Location.Selects (l : Location) (o : Outline) (context : RowId) (rows : List RowId) : Prop :=
  (Expression.location l).evaluate o context = .ok rows

def Location.SelectsSame (l m : Location) (o : Outline) (context : RowId) : Prop :=
  ∃ rows, l.Selects o context rows ∧ m.Selects o context rows

theorem checkSteps_append {first next : List Step} (hfirst : checkSteps first = .ok ())
    (hnext : checkSteps next = .ok ()) : checkSteps (first ++ next) = .ok () := by
  induction first with
  | nil => exact hnext
  | cons s first ih =>
    rw [checkSteps] at hfirst
    rw [List.cons_append, checkSteps]
    cases hs : s.predicate.check with
    | error u =>
      rw [hs] at hfirst
      cases hfirst
    | ok _ =>
      rw [hs] at hfirst
      exact ih hfirst

namespace Location
variable {l m n : Location} {o : Outline} {context : RowId}

theorem selects_rows (h : l.check = .ok ()) :
    l.Selects o context (l.rows (.around o context) context) := by
  rw [Selects, Expression.evaluate, h]
  rfl

theorem check_both (hl : l.check = .ok ()) (hm : m.check = .ok ()) :
    (do l.check; m.check) = .ok () := by
  rw [hl, hm]
  rfl

section
variable {ix : Index} {y : RowId}

theorem mem_union : y ∈ (union l m).rows ix context ↔
    y ∈ l.rows ix context ∨ y ∈ m.rows ix context := by
  rw [rows, IsTree.mem_inOrder, List.mem_append]

theorem mem_except : y ∈ (except l m).rows ix context ↔
    y ∈ l.rows ix context ∧ y ∉ m.rows ix context := by
  simp [rows]

theorem mem_intersect : y ∈ (intersect l m).rows ix context ↔
    y ∈ l.rows ix context ∧ y ∈ m.rows ix context := by
  simp [rows]

end

end Location

namespace Outline.IsTree
variable {o : Outline} {context : Nat} {l m n : Location}

/-- The steps of a relative path, cut in two anywhere. -/
theorem selects_append (h : o.IsTree) (hc : o.has context = true) {first next : List Step}
    (hfirst : checkSteps first = .ok ()) (hnext : checkSteps next = .ok ()) :
    ∃ reached rows, (Location.path ⟨false, first⟩).Selects o context reached ∧
      (Location.path ⟨false, first ++ next⟩).Selects o context rows ∧
      o.InDocumentOrder rows ∧ rows.Nodup ∧ ∀ y, y ∈ rows ↔
        ∃ x ∈ reached, ∃ further, (Location.path ⟨false, next⟩).Selects o x further ∧
          y ∈ further := by
  have hboth := checkSteps_append hfirst hnext
  have horder := h.rows_inDocumentOrder hc (.path ⟨false, first ++ next⟩)
  have hreached := h.rows_inDocumentOrder hc (.path ⟨false, first⟩)
  refine ⟨_, _, Location.selects_rows hfirst, Location.selects_rows hboth, horder,
    h.nodup_of_inDocumentOrder horder, fun y => ?_⟩
  have hsplit : y ∈ (Location.path ⟨false, first ++ next⟩).rows (.around o context) context ↔
      ∃ x ∈ (Location.path ⟨false, first⟩).rows (.around o context) context,
        y ∈ Step.follow (.around o context) next [x] := by
    have hfollow : (Location.path ⟨false, first ++ next⟩).rows (.around o context) context =
        Step.follow (.around o context) next
          ((Location.path ⟨false, first⟩).rows (.around o context) context) :=
      Step.follow_append _ first next [context]
    rw [hfollow]
    exact Step.mem_follow
  have hfurther : ∀ x, o.has x = true → ∀ further,
      (Location.path ⟨false, next⟩).Selects o x further ↔
        Step.follow (.around o context) next [x] = further := by
    intro x hx further
    have hselects : (Location.path ⟨false, next⟩).Selects o x _ := Location.selects_rows hnext
    rw [h.around_eq hc hx] at hselects
    rw [Location.Selects] at hselects ⊢
    rw [hselects]
    exact ⟨Except.ok.inj, congrArg Except.ok⟩
  rw [hsplit]
  constructor
  · rintro ⟨x, hx, hy⟩
    exact ⟨x, hx, _, (hfurther x (hreached.has x hx) _).mpr rfl, hy⟩
  · rintro ⟨x, hx, further, hselects, hy⟩
    obtain rfl := (hfurther x (hreached.has x hx) further).mp hselects
    exact ⟨x, hx, hy⟩

/-- Each combination selects what the combination of sets would hold. -/
theorem selects_sets (hl : l.check = .ok ()) (hm : m.check = .ok ()) :
    ∃ left right united less common, l.Selects o context left ∧ m.Selects o context right ∧
      (l.union m).Selects o context united ∧ (l.except m).Selects o context less ∧
      (l.intersect m).Selects o context common ∧ ∀ y,
        (y ∈ united ↔ y ∈ left ∨ y ∈ right) ∧ (y ∈ less ↔ y ∈ left ∧ y ∉ right) ∧
        (y ∈ common ↔ y ∈ left ∧ y ∈ right) := by
  have hboth := Location.check_both hl hm
  refine ⟨_, _, _, _, _, Location.selects_rows hl, Location.selects_rows hm,
    Location.selects_rows hboth, Location.selects_rows hboth, Location.selects_rows hboth,
    fun y => ⟨?_, ?_, ?_⟩⟩
  · exact Location.mem_union
  · exact Location.mem_except
  · exact Location.mem_intersect

/-- Two locations whose rows are the same as sets select the same list. -/
theorem selectsSame_of_mem_iff (h : o.IsTree) (hc : o.has context = true)
    (hl : l.check = .ok ()) (hm : m.check = .ok ())
    (hmem : ∀ y, y ∈ l.rows (.around o context) context ↔
      y ∈ m.rows (.around o context) context) : l.SelectsSame m o context := by
  have hrows := h.eq_of_mem_iff (h.rows_inDocumentOrder hc l) (h.rows_inDocumentOrder hc m) hmem
  have hright : m.Selects o context _ := Location.selects_rows hm
  rw [← hrows] at hright
  exact ⟨_, Location.selects_rows hl, hright⟩

theorem union_comm (h : o.IsTree) (hc : o.has context = true) (hl : l.check = .ok ())
    (hm : m.check = .ok ()) : (l.union m).SelectsSame (m.union l) o context := by
  refine h.selectsSame_of_mem_iff hc (Location.check_both hl hm) (Location.check_both hm hl) ?_
  intro y
  simp only [Location.mem_union, or_comm]

theorem union_assoc (h : o.IsTree) (hc : o.has context = true) (hl : l.check = .ok ())
    (hm : m.check = .ok ()) (hn : n.check = .ok ()) :
    ((l.union m).union n).SelectsSame (l.union (m.union n)) o context := by
  refine h.selectsSame_of_mem_iff hc (Location.check_both (Location.check_both hl hm) hn)
    (Location.check_both hl (Location.check_both hm hn)) ?_
  intro y
  simp only [Location.mem_union, or_assoc]

theorem union_self (h : o.IsTree) (hc : o.has context = true) (hl : l.check = .ok ()) :
    (l.union l).SelectsSame l o context := by
  refine h.selectsSame_of_mem_iff hc (Location.check_both hl hl) hl ?_
  intro y
  simp only [Location.mem_union, or_self]

theorem intersect_comm (h : o.IsTree) (hc : o.has context = true) (hl : l.check = .ok ())
    (hm : m.check = .ok ()) : (l.intersect m).SelectsSame (m.intersect l) o context := by
  refine h.selectsSame_of_mem_iff hc (Location.check_both hl hm) (Location.check_both hm hl) ?_
  intro y
  simp only [Location.mem_intersect, and_comm]

theorem intersect_assoc (h : o.IsTree) (hc : o.has context = true) (hl : l.check = .ok ())
    (hm : m.check = .ok ()) (hn : n.check = .ok ()) :
    ((l.intersect m).intersect n).SelectsSame (l.intersect (m.intersect n)) o context := by
  refine h.selectsSame_of_mem_iff hc (Location.check_both (Location.check_both hl hm) hn)
    (Location.check_both hl (Location.check_both hm hn)) ?_
  intro y
  simp only [Location.mem_intersect, and_assoc]

theorem intersect_self (h : o.IsTree) (hc : o.has context = true) (hl : l.check = .ok ()) :
    (l.intersect l).SelectsSame l o context := by
  refine h.selectsSame_of_mem_iff hc (Location.check_both hl hl) hl ?_
  intro y
  simp only [Location.mem_intersect, and_self]

theorem intersect_union (h : o.IsTree) (hc : o.has context = true) (hl : l.check = .ok ())
    (hm : m.check = .ok ()) (hn : n.check = .ok ()) :
    (l.intersect (m.union n)).SelectsSame ((l.intersect m).union (l.intersect n)) o context := by
  refine h.selectsSame_of_mem_iff hc (Location.check_both hl (Location.check_both hm hn))
    (Location.check_both (Location.check_both hl hm) (Location.check_both hl hn)) ?_
  intro y
  simp only [Location.mem_intersect, Location.mem_union, and_or_left]

end Outline.IsTree

/-- Evaluation is compositional, in every outline that can be made and seen from each of its rows.
The steps of a path may be cut in two anywhere: the rows are those that the second part selects
from some row that the first selects. Combinations of locations hold the rows that combinations of
sets would, and keep the laws of sets as lists. -/
theorem evaluation_composes {o : Outline} (ho : o.Reachable) {context : RowId}
    (hc : o.has context = true) :
    (∀ first next : List Step, checkSteps first = .ok () → checkSteps next = .ok () →
      ∃ reached rows, (Location.path ⟨false, first⟩).Selects o context reached ∧
        (Location.path ⟨false, first ++ next⟩).Selects o context rows ∧
        o.InDocumentOrder rows ∧ rows.Nodup ∧ ∀ y, y ∈ rows ↔
          ∃ x ∈ reached, ∃ further, (Location.path ⟨false, next⟩).Selects o x further ∧
            y ∈ further) ∧
    (∀ l m : Location, l.check = .ok () → m.check = .ok () →
      ∃ left right united less common, l.Selects o context left ∧ m.Selects o context right ∧
        (l.union m).Selects o context united ∧ (l.except m).Selects o context less ∧
        (l.intersect m).Selects o context common ∧ ∀ y,
          (y ∈ united ↔ y ∈ left ∨ y ∈ right) ∧ (y ∈ less ↔ y ∈ left ∧ y ∉ right) ∧
          (y ∈ common ↔ y ∈ left ∧ y ∈ right)) ∧
    ∀ l m n : Location, l.check = .ok () → m.check = .ok () → n.check = .ok () →
      (l.union m).SelectsSame (m.union l) o context ∧
      ((l.union m).union n).SelectsSame (l.union (m.union n)) o context ∧
      (l.union l).SelectsSame l o context ∧
      (l.intersect m).SelectsSame (m.intersect l) o context ∧
      ((l.intersect m).intersect n).SelectsSame (l.intersect (m.intersect n)) o context ∧
      (l.intersect l).SelectsSame l o context ∧
      (l.intersect (m.union n)).SelectsSame ((l.intersect m).union (l.intersect n)) o context := by
  have h := ho.isTree
  refine ⟨fun first next hfirst hnext => h.selects_append hc hfirst hnext,
    fun l m hl hm => IsTree.selects_sets hl hm, fun l m n hl hm hn => ?_⟩
  exact ⟨h.union_comm hc hl hm, h.union_assoc hc hl hm hn, h.union_self hc hl,
    h.intersect_comm hc hl hm, h.intersect_assoc hc hl hm hn, h.intersect_self hc hl,
    h.intersect_union hc hl hm hn⟩

/-- The first child of each row on the way up: the slice counts from each of them anew. -/
theorem firstChildren_composed :
    (Location.path ⟨false, [⟨.ancestorOrSelf, .any, .any, none⟩]⟩).Selects lateChild 3 [0, 2, 3] ∧
    (Location.path ⟨false, [⟨.ancestorOrSelf, .any, .any, none⟩,
      ⟨.child, .any, .any, some (.index 0)⟩]⟩).Selects lateChild 3 [1, 3] ∧
    ∀ y, y ∈ [1, 3] ↔ ∃ x ∈ [0, 2, 3], ∃ further,
      (Location.path ⟨false, [⟨.child, .any, .any, some (.index 0)⟩]⟩).Selects lateChild x further ∧
        y ∈ further := by
  have hreached : (Location.path ⟨false, [⟨.ancestorOrSelf, .any, .any, none⟩]⟩).Selects
      lateChild 3 [0, 2, 3] := by
    rw [Location.Selects]
    cbv
  have hrows : (Location.path ⟨false, [⟨.ancestorOrSelf, .any, .any, none⟩,
      ⟨.child, .any, .any, some (.index 0)⟩]⟩).Selects lateChild 3 [1, 3] := by
    rw [Location.Selects]
    cbv
  obtain ⟨reached, rows, hreached', hrows', -, -, hmem⟩ :=
    (evaluation_composes lateChild_reachable (rfl : lateChild.has 3 = true)).1
      [⟨.ancestorOrSelf, .any, .any, none⟩] [⟨.child, .any, .any, some (.index 0)⟩] rfl rfl
  obtain rfl := Except.ok.inj (hreached.symm.trans hreached')
  obtain rfl := Except.ok.inj (hrows.symm.trans hrows')
  exact ⟨hreached, hrows, hmem⟩

end OutlineQuery
