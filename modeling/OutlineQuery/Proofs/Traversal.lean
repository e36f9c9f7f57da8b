import OutlineQuery.Proofs.Axes

/-! The rows below a row are found with a stack and no recursion. Each turn takes one of the rows
that recursion would come to next, so the stack gets empty, and the rows come in document order. -/

namespace OutlineQuery.Outline

structure Walk where
  stack : List RowId
  found : List RowId

namespace Walk

def start (o : Outline) (id : RowId) : Walk := ⟨(o.children id).reverse, []⟩

/-- Takes a row from the stack and puts its children there, the first one on top; there is no turn
if the stack is empty. -/
def turn? (o : Outline) (w : Walk) : Option Walk :=
  match w.stack.getLast? with
  | none => none
  | some id => some ⟨w.stack.dropLast ++ (o.children id).reverse, w.found ++ [id]⟩

def after? (o : Outline) : Nat → Walk → Option Walk
  | 0, w => some w
  | turns + 1, w => (w.turn? o).bind (after? o turns)

def ahead (o : Outline) (w : Walk) : List RowId := w.stack.reverse.flatMap o.subtree

end Walk

namespace IsTree
variable {o : Outline} {c x : Nat} {w : Walk}

/-- A turn moves the first of the rows still to come to those found. -/
theorem exists_turn (h : o.IsTree) (hs : ∀ id ∈ w.stack, o.has id = true) (hne : w.stack ≠ []) :
    ∃ id w', w.turn? o = some w' ∧ w'.found = w.found ++ [id] ∧
      w.ahead o = id :: w'.ahead o ∧ ∀ next ∈ w'.stack, o.has next = true := by
  obtain ⟨stack, found⟩ := w
  -- the top of the stack is its last row, so it is the first one still to come
  obtain ⟨others, id, rfl⟩ := (List.eq_nil_or_concat stack).resolve_left hne
  have hid := hs id (by simp)
  refine ⟨id, ⟨others ++ (o.children id).reverse, found ++ [id]⟩, ?_, rfl, ?_, ?_⟩
  · simp [Walk.turn?]
  · simp [Walk.ahead, h.subtree_eq hid]
  · intro next hnext
    rcases List.mem_append.mp hnext with hother | hchild
    · exact hs next (by simp [hother])
    · exact h.has_child (List.mem_reverse.mp hchild)

/-- As many turns as rows are to come find these rows, and nothing is left on the stack. -/
theorem after?_ahead (h : o.IsTree) (hs : ∀ id ∈ w.stack, o.has id = true) {turns : Nat}
    (hturns : (w.ahead o).length = turns) :
    w.after? o turns = some ⟨[], w.found ++ w.ahead o⟩ := by
  induction turns generalizing w with
  | zero =>
    have hempty : w.stack = [] := by
      by_contra hne
      obtain ⟨id, w', -, -, hahead, -⟩ := h.exists_turn hs hne
      rw [hahead] at hturns
      cases hturns
    obtain ⟨stack, found⟩ := w
    obtain rfl : stack = [] := hempty
    simp [Walk.after?, Walk.ahead]
  | succ turns ih =>
    have hne : w.stack ≠ [] := by
      intro hempty
      rw [Walk.ahead, hempty] at hturns
      cases hturns
    obtain ⟨id, w', hturn, hfound, hahead, hs'⟩ := h.exists_turn hs hne
    rw [hahead, List.length_cons, Nat.succ_inj] at hturns
    rw [Walk.after?, hturn, Option.bind_some, ih hs' hturns, hfound, hahead, List.append_assoc]
    rfl

theorem after?_descendants (h : o.IsTree) (hx : o.has x = true) :
    (Walk.start o x).after? o (o.descendants x).length = some ⟨[], o.descendants x⟩ := by
  have hahead : (Walk.start o x).ahead o = o.descendants x := by
    rw [Walk.ahead, Walk.start, List.reverse_reverse, h.descendants_eq hx]
  have hs : ∀ id ∈ (Walk.start o x).stack, o.has id = true := fun _ hid =>
    h.has_child (List.mem_reverse.mp hid)
  rw [h.after?_ahead hs (congrArg List.length hahead), hahead]
  rfl

theorem nodup_descendants (h : o.IsTree) (hx : o.has x = true) : (o.descendants x).Nodup := by
  have hnodup := h.nodup_subtree hx
  rw [h.subtree_eq_cons hx] at hnodup
  exact hnodup.of_cons

theorem mem_descendants (h : o.IsTree) (hx : o.has x = true) {y : Nat} :
    y ∈ o.descendants x ↔ o.Below y x := by
  rw [h.descendants_eq hx, List.mem_flatMap]
  constructor
  · rintro ⟨child, hchild, hy⟩
    exact .tail' ((h.mem_subtree (h.has_child hchild)).mp hy) (h.mem_children.mp hchild)
  · intro hyx
    obtain ⟨child, hy, hp⟩ := Relation.TransGen.tail'_iff.mp hyx
    have hchild := h.mem_children.mpr hp
    exact ⟨child, hchild, (h.mem_subtree (h.has_child hchild)).mpr hy⟩

/-- The rows below a row are the stretch of the order behind it, up to the end of its subtree. -/
theorem stretch_eq_descendants (h : o.IsTree) (hc : o.has c = true) (hx : o.has x = true) :
    (Index.around o c).stretch (o.place x + 1) (o.placeBehind x) = o.descendants x := by
  rw [Index.stretch, h.items_around hc, ← List.drop_drop, h.stretch_eq_subtree hx,
    h.subtree_eq_cons hx]
  rfl

theorem order_perm (h : o.IsTree) : o.order.Perm (List.range o.size) := by
  rw [List.perm_ext_iff_of_nodup h.nodup_order List.nodup_range]
  intro id
  rw [h.mem_order, has_iff, List.mem_range]

theorem descendants_root_perm (h : o.IsTree) :
    (o.descendants root).Perm ((List.range o.size).erase root) := by
  have hall := h.order_perm
  rw [h.order_eq] at hall
  have hroot : root ∈ List.range o.size := List.mem_range.mpr (has_iff.mp h.has_root)
  exact (hall.trans (List.perm_cons_erase hroot)).cons_inv

end IsTree

/-- The walk with a stack ends, and finds the rows below a row in the order in which recursion
over the children comes to them, each once. They are the stretch of the index behind the row, and
below the root they are all rows but the root. -/
theorem descendants_in_preorder {o : Outline} (ho : o.Reachable) :
    (∀ x, o.has x = true →
      o.subtree x = x :: (o.children x).flatMap o.subtree ∧
      o.subtree x = x :: o.descendants x ∧
      (Walk.start o x).after? o (o.descendants x).length = some ⟨[], o.descendants x⟩ ∧
      (o.descendants x).Nodup ∧ (∀ y, y ∈ o.descendants x ↔ o.Below y x) ∧
      ∀ c, o.has c = true → ∃ position, (Index.around o c).position? x = some position ∧
        position + 1 ≤ (Index.around o c).endOf position ∧
        (Index.around o c).endOf position ≤ (Index.around o c).items.length ∧
        (Index.around o c).stretch (position + 1) ((Index.around o c).endOf position) =
          o.descendants x) ∧
    (o.descendants root).Perm ((List.range o.size).erase root) := by
  have h := ho.isTree
  refine ⟨fun x hx => ⟨h.subtree_eq hx, h.subtree_eq_cons hx, h.after?_descendants hx,
    h.nodup_descendants hx, fun _ => h.mem_descendants hx, fun c hc => ?_⟩,
    h.descendants_root_perm⟩
  refine ⟨o.place x, h.position?_around hc hx, ?_⟩
  rw [h.endOf_around hc hx, h.items_around hc]
  exact ⟨h.place_lt_placeBehind hx, h.placeBehind_le_length hx, h.stretch_eq_descendants hc hx⟩

/-- The walk from the root comes to the row made last right behind its parent. -/
theorem lateChild_walked :
    lateChild.has root = true ∧ lateChild.descendants root = [1, 4, 2, 3] ∧
    (Walk.start lateChild root).after? lateChild 4 = some ⟨[], [1, 4, 2, 3]⟩ ∧
    [1, 4, 2, 3].Perm ((List.range 5).erase root) ∧
    ∃ position, (Index.around lateChild 3).position? root = some position ∧
      (Index.around lateChild 3).stretch (position + 1)
        ((Index.around lateChild 3).endOf position) = [1, 4, 2, 3] := by
  have hfound : lateChild.descendants root = [1, 4, 2, 3] := by decide
  obtain ⟨hrows, hperm⟩ := descendants_in_preorder lateChild_reachable
  obtain ⟨-, -, hwalk, -, -, hstretch⟩ := hrows root rfl
  obtain ⟨position, hposition, -, -, heq⟩ := hstretch 3 rfl
  rw [hfound] at hwalk hperm heq
  exact ⟨rfl, hfound, hwalk, hperm, position, hposition, heq⟩

end OutlineQuery.Outline
