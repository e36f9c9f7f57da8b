import Mathlib.Data.List.Permutation
import OutlineQuery.Evaluation.Evaluate
import OutlineQuery.Proofs.Axes

/-! What an expression selects is in document order, and so is every list of rows on the way: the
rows that a step finds from several rows overlap and come in any order, and are put back in order
before the next step. -/

namespace OutlineQuery

theorem Slice.select_sublist {α : Type} (s : Slice) (items : List α) :
    (s.select items).Sublist items := by
  unfold Slice.select
  split
  · exact List.nil_sublist _
  · exact (List.take_sublist _ _).trans (List.drop_sublist _ _)

namespace Outline

section
variable {rows : List RowId} {x : RowId}

theorem withoutRepeats_cons : Index.withoutRepeats (x :: rows) =
    if (Index.withoutRepeats rows).head? = some x then Index.withoutRepeats rows
    else x :: Index.withoutRepeats rows := rfl

theorem mem_withoutRepeats {y : RowId} : y ∈ Index.withoutRepeats rows ↔ y ∈ rows := by
  induction rows with
  | nil => rfl
  | cons x rows ih =>
    rw [withoutRepeats_cons]
    split
    · rename_i hhead
      rw [List.mem_cons, ← ih]
      refine ⟨.inr, ?_⟩
      rintro (rfl | hy)
      · exact List.mem_of_head? hhead
      · exact hy
    · rw [List.mem_cons, List.mem_cons, ih]

/-- The first row that is kept stands for all that are equal to it, so any other one differs. -/
theorem withoutRepeats_pairwise {R : RowId → RowId → Prop}
    (htrans : ∀ {a b c}, R a b → R b c → R a c)
    (h : rows.Pairwise fun a b => a = b ∨ R a b) : (Index.withoutRepeats rows).Pairwise R := by
  induction rows with
  | nil => exact .nil
  | cons x rows ih =>
    obtain ⟨hx, hrows⟩ := List.pairwise_cons.mp h
    have hkept := ih hrows
    have hmem : ∀ y ∈ Index.withoutRepeats rows, y ∈ rows := fun _ => mem_withoutRepeats.mp
    rw [withoutRepeats_cons]
    split
    · exact hkept
    · rename_i hhead
      refine .cons ?_ hkept
      cases hlist : Index.withoutRepeats rows with
      | nil => simp
      | cons first others =>
        rw [hlist] at hhead hkept hmem
        have hne : x ≠ first := by
          rintro rfl
          exact hhead rfl
        have hfirst := (hx first (hmem first (by simp))).resolve_left hne
        intro y hy
        rcases List.mem_cons.mp hy with rfl | hy
        · exact hfirst
        · exact htrans hfirst (List.rel_of_pairwise_cons hkept hy)

theorem sorted_perm (ix : Index) (rows : List RowId) : (ix.sorted rows).Perm rows := by
  have hperm := (List.mergeSort_perm (rows.map fun id => (ix.rank id, id))
    fun a b => decide (a.1 ≤ b.1)).map (·.2)
  simpa [Index.sorted, List.map_map, Function.comp_def] using hperm

theorem sorted_pairwise (ix : Index) (rows : List RowId) :
    (ix.sorted rows).Pairwise fun a b => ix.rank a ≤ ix.rank b := by
  have hsorted : ((rows.map fun id => (ix.rank id, id)).mergeSort
      fun a b => decide (a.1 ≤ b.1)).Pairwise fun a b => decide (a.1 ≤ b.1) = true := by
    apply List.pairwise_mergeSort
    · intro a b c hab hbc
      exact decide_eq_true ((of_decide_eq_true hab).trans (of_decide_eq_true hbc))
    · intro a b
      simpa using Nat.le_total a.1 b.1
  have hrank : ∀ p ∈ (rows.map fun id => (ix.rank id, id)).mergeSort
      (fun a b => decide (a.1 ≤ b.1)), p.1 = ix.rank p.2 := by
    intro p hp
    obtain ⟨id, -, rfl⟩ := List.mem_map.mp (List.mem_mergeSort.mp hp)
    rfl
  refine List.pairwise_map.mpr (hsorted.imp_of_mem ?_)
  intro a b ha hb hle
  rw [← hrank a ha, ← hrank b hb]
  exact of_decide_eq_true hle

end

namespace IsTree
variable {o : Outline} {context x y : Nat} {rows contexts : List RowId}

theorem rank_around (h : o.IsTree) (hc : o.has context = true) (hx : o.has x = true) :
    (Index.around o context).rank x = o.place x := by
  rw [Index.rank, h.position?_around hc hx, Option.getD_some]

theorem mem_inOrder (ix : Index) : y ∈ ix.inOrder rows ↔ y ∈ rows :=
  mem_withoutRepeats.trans (sorted_perm ix rows).mem_iff

theorem inOrder_inDocumentOrder (h : o.IsTree) (hc : o.has context = true)
    (hrows : ∀ id ∈ rows, o.has id = true) :
    o.InDocumentOrder ((Index.around o context).inOrder rows) := by
  refine ⟨fun id hid => hrows id ((mem_inOrder _).mp hid), ?_⟩
  refine withoutRepeats_pairwise h.precedes_trans ?_
  refine (sorted_pairwise (Index.around o context) rows).imp_of_mem ?_
  intro a b ha hb hle
  have ha := hrows a ((sorted_perm _ rows).mem_iff.mp ha)
  have hb := hrows b ((sorted_perm _ rows).mem_iff.mp hb)
  rw [h.rank_around hc ha, h.rank_around hc hb] at hle
  rw [h.precedes_iff_place hb, ← h.place_inj ha]
  exact (Nat.lt_or_eq_of_le hle).symm

theorem has_of_mem_fromRow (h : o.IsTree) (hc : o.has context = true) (hx : o.has x = true)
    (s : Step) (hy : y ∈ s.fromRow (.around o context) x) : o.has y = true := by
  have hfound : y ∈ ((Index.around o context).along s.axis x).filter (s.acceptsAt o) := by
    unfold Step.fromRow at hy
    cases hslice : s.slice with
    | none => rwa [hslice] at hy
    | some slice =>
      rw [hslice] at hy
      exact (slice.select_sublist _).subset hy
  exact (h.along_inDocumentOrder hc hx s.axis).has y (List.mem_of_mem_filter hfound)

theorem has_of_mem_found (h : o.IsTree) (hc : o.has context = true) (s : Step)
    (hcontexts : ∀ id ∈ contexts, o.has id = true)
    (hy : y ∈ s.found (.around o context) contexts) : o.has y = true := by
  obtain ⟨x, hx, hy⟩ := List.mem_flatMap.mp hy
  exact h.has_of_mem_fromRow hc (hcontexts x hx) s hy

/-- A step from rows of the outline puts what it finds in order, whatever the order of the rows. -/
theorem step_inDocumentOrder (h : o.IsTree) (hc : o.has context = true) (s : Step)
    (hcontexts : o.InDocumentOrder contexts) :
    o.InDocumentOrder ((Index.around o context).inOrder (s.found (.around o context) contexts)) :=
  h.inOrder_inDocumentOrder hc fun _ => h.has_of_mem_found hc s hcontexts.has

theorem follow_inDocumentOrder (h : o.IsTree) (hc : o.has context = true) (steps : List Step)
    (hcontexts : o.InDocumentOrder contexts) :
    o.InDocumentOrder (Step.follow (.around o context) steps contexts) := by
  induction steps generalizing contexts with
  | nil => exact hcontexts
  | cons s steps ih => exact ih (h.step_inDocumentOrder hc s hcontexts)

theorem start_inDocumentOrder (h : o.IsTree) (hc : o.has context = true) (p : Path) :
    o.InDocumentOrder (p.start (.around o context) context) := by
  rw [Path.start, h.items_around hc]
  split
  · exact h.inDocumentOrder_of_sublist (List.take_sublist _ _)
  · exact singleton_inDocumentOrder hc

theorem rows_inDocumentOrder (h : o.IsTree) (hc : o.has context = true) (l : Location) :
    o.InDocumentOrder (l.rows (.around o context) context) := by
  cases l with
  | path p => exact h.follow_inDocumentOrder hc p.steps (h.start_inDocumentOrder hc p)
  | union left right =>
    have hl := h.rows_inDocumentOrder hc left
    have hr := h.rows_inDocumentOrder hc right
    refine h.inOrder_inDocumentOrder hc fun id hid => ?_
    exact (List.mem_append.mp hid).elim (hl.has id) (hr.has id)
  | except left right =>
    exact (h.rows_inDocumentOrder hc left).sublist List.filter_sublist
  | intersect left right =>
    exact (h.rows_inDocumentOrder hc left).sublist List.filter_sublist

end IsTree
end Outline

theorem Step.follow_append (ix : Outline.Index) (first next : List Step)
    (contexts : List RowId) :
    follow ix (first ++ next) contexts = follow ix next (follow ix first contexts) := by
  induction first generalizing contexts with
  | nil => rfl
  | cons s first ih => exact ih _

def Path.rowsAfter (p : Path) (ix : Outline.Index) (context : RowId) (n : Nat) : List RowId :=
  Step.follow ix (p.steps.take n) (p.start ix context)

theorem Path.rows_eq_follow (p : Path) (ix : Outline.Index) (context : RowId) (n : Nat) :
    p.rows ix context = Step.follow ix (p.steps.drop n) (p.rowsAfter ix context n) := by
  rw [Path.rowsAfter, ← Step.follow_append, List.take_append_drop, Path.rows]

theorem Expression.evaluate_ok {e : Expression} {o : Outline} {context : RowId}
    {rows : List RowId} (h : e.evaluate o context = .ok rows) :
    ∃ l, e = .location l ∧ rows = l.rows (.around o context) context := by
  cases e with
  | function f => cases h
  | location l =>
    refine ⟨l, rfl, ?_⟩
    rw [Expression.evaluate] at h
    cases hcheck : l.check with
    | error u =>
      rw [hcheck] at h
      cases h
    | ok _ =>
      rw [hcheck] at h
      cases h
      rfl

open Outline

/-- What an expression selects from an outline that can be made is in document order and holds no
row twice. The same goes for the locations that it combines, and for the rows from which each step
of a path starts. -/
theorem evaluate_inDocumentOrder {o : Outline} (ho : o.Reachable) {context : RowId}
    (hc : o.has context = true) :
    (∀ (e : Expression) (rows : List RowId), e.evaluate o context = .ok rows →
      o.InDocumentOrder rows ∧ rows.Nodup) ∧
    (∀ l : Location, o.InDocumentOrder (l.rows (.around o context) context) ∧
      (l.rows (.around o context) context).Nodup) ∧
    ∀ (p : Path) (n : Nat),
      p.rows (.around o context) context = Step.follow (.around o context) (p.steps.drop n)
        (p.rowsAfter (.around o context) context n) ∧
      o.InDocumentOrder (p.rowsAfter (.around o context) context n) ∧
      (p.rowsAfter (.around o context) context n).Nodup := by
  have h := ho.isTree
  have hlocation : ∀ l : Location, o.InDocumentOrder (l.rows (.around o context) context) ∧
      (l.rows (.around o context) context).Nodup := by
    intro l
    have hrows := h.rows_inDocumentOrder hc l
    exact ⟨hrows, h.nodup_of_inDocumentOrder hrows⟩
  refine ⟨?_, hlocation, ?_⟩
  · intro e rows he
    obtain ⟨l, -, rfl⟩ := Expression.evaluate_ok he
    exact hlocation l
  · intro p n
    have hafter := h.follow_inDocumentOrder hc (p.steps.take n) (h.start_inDocumentOrder hc p)
    exact ⟨p.rows_eq_follow _ context n, hafter, h.nodup_of_inDocumentOrder hafter⟩

def belowAncestors : Expression :=
  .location (.union
    (.path ⟨false, [⟨.ancestorOrSelf, .any, .any, none⟩, ⟨.descendant, .any, .any, none⟩]⟩)
    (.path ⟨true, []⟩))

theorem belowAncestors_selected :
    lateChild.has 3 = true ∧ belowAncestors.evaluate lateChild 3 = .ok [0, 1, 4, 2, 3] ∧
      lateChild.InDocumentOrder [0, 1, 4, 2, 3] ∧ [0, 1, 4, 2, 3].Nodup := by
  have hselected : belowAncestors.evaluate lateChild 3 = .ok [0, 1, 4, 2, 3] := by cbv
  exact ⟨rfl, hselected, (evaluate_inDocumentOrder lateChild_reachable
    (rfl : lateChild.has 3 = true)).1 belowAncestors _ hselected⟩

end OutlineQuery
