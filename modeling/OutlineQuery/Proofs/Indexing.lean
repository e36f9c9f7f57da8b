import OutlineQuery.Outline.Index
import OutlineQuery.Proofs.DocumentOrder

/-! The index of an outline, whichever row it is made around, holds all rows in document order, and
for each place the one behind the subtree that starts there. -/

namespace OutlineQuery.Outline
namespace IsTree
variable {o : Outline} {x y c : Nat}

/-- Rows taken from the stack come with all that is below them before the rest of the stack. -/
theorem unfoldStack_eq (h : o.IsTree) {stack : List RowId} (hs : ∀ id ∈ stack, o.has id = true)
    {bound : Nat} (hb : (stack.flatMap o.subtree).length ≤ bound) :
    o.unfoldStack bound stack = stack.flatMap o.subtree := by
  induction bound generalizing stack with
  | zero =>
    rw [unfoldStack]
    exact (List.eq_nil_of_length_eq_zero (Nat.le_zero.mp hb)).symm
  | succ bound ih =>
    cases stack with
    | nil => rfl
    | cons id stack =>
      have hid := hs id (by simp)
      have hnext : ∀ c ∈ o.children id ++ stack, o.has c = true := by
        intro c hc
        rcases List.mem_append.mp hc with hc | hc
        · exact h.has_child hc
        · exact hs c (List.mem_cons_of_mem id hc)
      rw [List.flatMap_cons, h.subtree_eq hid, List.cons_append, ← List.flatMap_append] at hb ⊢
      rw [unfoldStack, ih hnext (by simpa using hb)]

/-- The stack is empty before the bound is met, since no row is taken twice. -/
theorem descendants_eq (h : o.IsTree) (hx : o.has x = true) :
    o.descendants x = (o.children x).flatMap o.subtree := by
  have hlen := (h.subtree_infix_order hx).length_le.trans h.length_order_le
  rw [h.subtree_eq hx, List.length_cons] at hlen
  rw [descendants, h.unfoldStack_eq (fun c hc => h.has_child hc) (Nat.le_of_succ_le hlen)]

theorem subtree_eq_cons (h : o.IsTree) (hx : o.has x = true) :
    o.subtree x = x :: o.descendants x := by
  rw [h.subtree_eq hx, h.descendants_eq hx]

theorem order_eq (h : o.IsTree) : o.order = root :: o.descendants root :=
  h.subtree_eq_cons h.has_root

theorem below_of_mem_ancestorsWithin {bound : Nat} (hy : y ∈ o.ancestorsWithin bound x) :
    o.Below x y := by
  induction bound generalizing x with
  | zero => cases hy
  | succ bound ih =>
    rw [ancestorsWithin] at hy
    cases hp : o.parent? x with
    | none =>
      rw [hp] at hy
      cases hy
    | some p =>
      rw [hp] at hy
      rcases List.mem_cons.mp hy with rfl | hy
      · exact .single hp
      · exact .head hp (ih hy)

/-- A row has fewer rows above it than were made before it. -/
theorem mem_ancestorsWithin (h : o.IsTree) {bound : Nat} (hb : x ≤ bound) (hxy : o.Below x y) :
    y ∈ o.ancestorsWithin bound x := by
  induction bound generalizing x with
  | zero =>
    have hlt := h.lt_of_below hxy
    omega
  | succ bound ih =>
    obtain ⟨p, hp, hpy⟩ := Relation.TransGen.head'_iff.mp hxy
    have hlt := h.parent_lt hp
    rw [ancestorsWithin, hp, List.mem_cons]
    obtain rfl | hpy := atOrBelow_iff.mp hpy
    · exact .inl rfl
    · exact .inr (ih (by omega) hpy)

theorem mem_ancestors (h : o.IsTree) (hx : o.has x = true) :
    y ∈ o.ancestors x ↔ o.Below x y :=
  ⟨below_of_mem_ancestorsWithin, h.mem_ancestorsWithin (has_iff.mp hx).le⟩

theorem ancestors_climb : (o.ancestors x).Pairwise o.Below := by
  unfold ancestors
  generalize o.size = bound
  induction bound generalizing x with
  | zero => exact .nil
  | succ bound ih =>
    rw [ancestorsWithin]
    cases hp : o.parent? x with
    | none => exact .nil
    | some p => exact .cons (fun _ => below_of_mem_ancestorsWithin) ih

theorem top_eq (h : o.IsTree) (hx : o.has x = true) : o.top x = root := by
  have hbound : ∀ bound x : Nat, x ≤ bound → o.has x = true →
      (o.ancestorsWithin bound x).getLast?.getD x = root := by
    intro bound
    induction bound with
    | zero =>
      intro x hle _
      exact Nat.le_zero.mp hle
    | succ bound ih =>
      intro x hle hx
      rw [ancestorsWithin]
      cases hp : o.parent? x with
      | none =>
        by_contra hne
        obtain ⟨p, hp'⟩ := h.exists_parent hx hne
        rw [hp] at hp'
        cases hp'
      | some p =>
        have hlt := h.parent_lt hp
        simpa [List.getLast?_cons] using ih p (by omega) (h.has_parent hp)
  exact hbound o.size x (has_iff.mp hx).le hx

theorem items_around (h : o.IsTree) (hc : o.has c = true) :
    (Index.around o c).items = o.order := by
  rw [h.order_eq, Index.around, h.top_eq hc]

theorem idxOf?_order (h : o.IsTree) (hx : o.has x = true) :
    o.order.idxOf? x = some (o.place x) := by
  cases hidx : o.order.idxOf? x with
  | none => exact absurd (h.mem_order.mpr hx) (List.idxOf?_eq_none_iff.mp hidx)
  | some i => rw [place, List.idxOf_eq_getD_idxOf?, hidx, Option.getD_some]

theorem position?_around (h : o.IsTree) (hc : o.has c = true) (hx : o.has x = true) :
    (Index.around o c).position? x = some (o.place x) := by
  rw [Index.position?, h.items_around hc, h.idxOf?_order hx]

theorem exists_place (h : o.IsTree) {n : Nat} (hn : n < o.order.length) :
    ∃ x, o.has x = true ∧ o.place x = n :=
  ⟨o.order[n], h.mem_order.mp (List.getElem_mem hn), h.nodup_order.idxOf_getElem n hn⟩

theorem place_lt_child (h : o.IsTree) (hc : c ∈ o.children x) : o.place x < o.place c := by
  have hp := h.mem_children.mp hc
  exact ((h.below_iff_place (h.has_parent hp) (h.has_child hc)).mp (.single hp)).1

theorem placeBehind_child_le (h : o.IsTree) (hc : c ∈ o.children x) :
    o.placeBehind c ≤ o.placeBehind x := by
  have hp := h.mem_children.mp hc
  have hx := h.has_parent hp
  have hbelow := (h.below_iff_place hx (h.has_child hc)).mp (.single hp)
  by_contra hlt
  rw [Nat.not_le] at hlt
  -- the row behind all that is below `x` would be below `c`
  obtain ⟨y, hy, hplace⟩ :=
    h.exists_place (hlt.trans_le (h.placeBehind_le_length (h.has_child hc)))
  have hyc := (h.atOrBelow_iff_place (h.has_child hc) hy).mpr (by omega)
  have hyx := (h.atOrBelow_iff_place hx hy).mp (hyc.tail hp)
  omega

/-- A subtree reaches no further than its row and the subtrees of the children do. -/
theorem placeBehind_le (h : o.IsTree) (hx : o.has x = true) {stop : Nat} (hlt : o.place x < stop)
    (hc : ∀ c ∈ o.children x, o.placeBehind c ≤ stop) : o.placeBehind x ≤ stop := by
  by_contra hstop
  rw [Nat.not_le] at hstop
  obtain ⟨y, hy, hplace⟩ := h.exists_place (hstop.trans_le (h.placeBehind_le_length hx))
  have hyx := (h.below_iff_place hx hy).mpr (by omega)
  obtain ⟨c, hyc, hp⟩ := Relation.TransGen.tail'_iff.mp hyx
  have hchild := h.mem_children.mpr hp
  have hin := (h.atOrBelow_iff_place (h.has_child hchild) hy).mp hyc
  have hend := hc c hchild
  omega

end IsTree

/-- The ends when only the subtrees that start at or behind a place have been made as far as their
children: none is too far, and none falls short of such a child. -/
structure EndsFrom (o : Outline) (start : Nat) (ends : Array Nat) : Prop where
  size_eq : ends.size = o.order.length
  lt_end {x : Nat} : o.has x = true → o.place x < ends.getD (o.place x) 0
  end_le {x : Nat} : o.has x = true → ends.getD (o.place x) 0 ≤ o.placeBehind x
  child_le {x c : Nat} : c ∈ o.children x → start ≤ o.place c →
    o.placeBehind c ≤ ends.getD (o.place x) 0

namespace EndsFrom
variable {o : Outline} {ends : Array Nat} {start x : Nat}

/-- Children stand behind their parent, so its end is right before its own turn comes. -/
theorem end_eq (h : o.IsTree) (he : o.EndsFrom start ends) (hx : o.has x = true)
    (hstart : start ≤ o.place x + 1) : ends.getD (o.place x) 0 = o.placeBehind x := by
  refine Nat.le_antisymm (he.end_le hx) (h.placeBehind_le hx (he.lt_end hx) fun c hc => ?_)
  have hlt := h.place_lt_child hc
  exact he.child_le hc (by omega)

theorem getD_modify_max (ends : Array Nat) (i j v : Nat) (hj : j < ends.size) :
    (ends.modify i (max · v)).getD j 0 =
      if i = j then max (ends.getD j 0) v else ends.getD j 0 := by
  simp only [Array.getD_eq_getD_getElem?, Array.getElem?_modify, Array.getElem?_eq_getElem hj]
  split <;> rfl

/-- The turn of a row changes the end of its parent only. -/
theorem getD_modify (h : o.IsTree) {parent y : Nat} (he : o.EndsFrom (o.place x + 1) ends)
    (hp : o.parent? x = some parent) (hy : o.has y = true) :
    (ends.modify (o.place parent) (max · (ends.getD (o.place x) 0))).getD (o.place y) 0 =
      if parent = y then max (ends.getD (o.place y) 0) (o.placeBehind x)
      else ends.getD (o.place y) 0 := by
  have hlt := h.place_lt_length hy
  rw [← he.size_eq] at hlt
  rw [getD_modify_max _ _ _ _ hlt, he.end_eq h (has_of_parent hp) (Nat.le_refl _)]
  simp only [h.place_inj (h.has_parent hp)]

theorem modify (h : o.IsTree) {parent : Nat} (he : o.EndsFrom (o.place x + 1) ends)
    (hp : o.parent? x = some parent) :
    o.EndsFrom (o.place x)
      (ends.modify (o.place parent) (max · (ends.getD (o.place x) 0))) where
  size_eq := by simpa using he.size_eq
  lt_end {y} hy := by
    have hlt := he.lt_end hy
    rw [he.getD_modify h hp hy]
    split <;> omega
  end_le {y} hy := by
    have hle := he.end_le hy
    rw [he.getD_modify h hp hy]
    split
    · rename_i hpy
      subst hpy
      have hchild := h.placeBehind_child_le (h.mem_children.mpr hp)
      omega
    · exact hle
  child_le {y c} hc hstart := by
    have hpc := h.mem_children.mp hc
    rw [he.getD_modify h hp (h.has_parent hpc)]
    by_cases hxc : o.place x = o.place c
    · obtain rfl := (h.place_inj (has_of_parent hp)).mp hxc
      obtain rfl := Option.some.inj (hp.symm.trans hpc)
      rw [if_pos rfl]
      exact Nat.le_max_right _ _
    · have hle := he.child_le hc (by omega)
      split <;> omega

theorem keep (h : o.IsTree) (he : o.EndsFrom (o.place x + 1) ends) (hx : o.has x = true)
    (hp : o.parent? x = none) : o.EndsFrom (o.place x) ends := by
  refine ⟨he.size_eq, he.lt_end, he.end_le, fun {y c} hc hstart => he.child_le hc ?_⟩
  have hpc := h.mem_children.mp hc
  have hne : o.place x ≠ o.place c := by
    rw [Ne, h.place_inj hx]
    rintro rfl
    rw [hp] at hpc
    cases hpc
  omega

/-- One turn of the pass. -/
theorem extendParent (h : o.IsTree) (he : o.EndsFrom (o.place x + 1) ends)
    (hx : o.has x = true) :
    o.EndsFrom (o.place x) (o.extendParent o.order (x, o.place x) ends) := by
  unfold Outline.extendParent
  cases hp : o.parent? x with
  | none => exact he.keep h hx hp
  | some parent =>
    simp only [Option.bind_some, h.idxOf?_order (h.has_parent hp)]
    exact he.modify h hp

theorem initial (h : o.IsTree) :
    o.EndsFrom o.order.length ((Array.range o.order.length).map (· + 1)) := by
  have hget : ∀ {y : Nat}, o.has y = true →
      ((Array.range o.order.length).map (· + 1)).getD (o.place y) 0 = o.place y + 1 := by
    intro y hy
    have hlt := h.place_lt_length hy
    simp [Array.getD_eq_getD_getElem?, hlt]
  refine ⟨by simp, ?_, ?_, ?_⟩
  · intro y hy
    rw [hget hy]
    exact Nat.lt_succ_self _
  · intro y hy
    rw [hget hy]
    exact h.place_lt_placeBehind hy
  · intro y c hc hstart
    have hlt := h.place_lt_length (h.has_child hc)
    omega

end EndsFrom

namespace IsTree
variable {o : Outline} {x c : Nat}

/-- One pass from the last row to the first makes all ends right. -/
theorem endsFrom_subtreeEnds (h : o.IsTree) : o.EndsFrom 0 (o.subtreeEnds o.order) := by
  have hpass : ∀ back front : List RowId, o.order = front ++ back →
      o.EndsFrom front.length ((back.zipIdx front.length).foldr (o.extendParent o.order)
        ((Array.range o.order.length).map (· + 1))) := by
    intro back
    induction back with
    | nil =>
      intro front hsplit
      rw [List.append_nil] at hsplit
      rw [← hsplit]
      exact .initial h
    | cons id back ih =>
      intro front hsplit
      have hid : o.has id = true := h.mem_order.mp (by rw [hsplit]; simp)
      have hplace : o.place id = front.length := by
        have hn := h.nodup_order
        rw [hsplit] at hn
        have hnot : id ∉ front := fun hmem => List.disjoint_of_nodup_append hn hmem (by simp)
        rw [place, hsplit, List.idxOf_append, if_neg hnot]
        simp
      have hback := ih (front ++ [id]) (by simpa using hsplit)
      rw [List.length_append, List.length_singleton, ← hplace] at hback
      rw [List.zipIdx_cons, List.foldr_cons, ← hplace]
      exact hback.extendParent h hid
  exact hpass o.order [] rfl

theorem endOf_around (h : o.IsTree) (hc : o.has c = true) (hx : o.has x = true) :
    (Index.around o c).endOf (o.place x) = o.placeBehind x := by
  have hends : (Index.around o c).ends = o.subtreeEnds o.order := by
    rw [h.order_eq, Index.around, h.top_eq hc]
  rw [Index.endOf, hends]
  exact h.endsFrom_subtreeEnds.end_eq h hx (Nat.zero_le _)

end IsTree
end OutlineQuery.Outline
