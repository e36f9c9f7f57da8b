import Mathlib.Data.List.Flatten
import Mathlib.Data.List.Nodup
import Mathlib.Data.List.Perm.Subperm
import OutlineQuery.Proofs.Ancestry

/-! Document order: a row comes before the rows below it, and what a child leads to before what a
later child of the same parent leads to. Listed in this order the rows of a subtree stand next to
each other, so to be below a row and to come behind it are questions about places. -/

namespace OutlineQuery.Outline

/-- A row stands before those below it, and before those at or below a later sibling of it or of a
row above it. -/
def Precedes (o : Outline) (x y : RowId) : Prop :=
  o.Below y x ∨ ∃ parent left right, [left, right].Sublist (o.children parent) ∧
    o.AtOrBelow x left ∧ o.AtOrBelow y right

structure InDocumentOrder (o : Outline) (rows : List RowId) : Prop where
  has : ∀ id ∈ rows, o.has id = true
  ordered : rows.Pairwise o.Precedes

def subtreeWithin (o : Outline) : Nat → RowId → List RowId
  | 0, _ => []
  | levels + 1, id => id :: (o.children id).flatMap (o.subtreeWithin levels)

def subtree (o : Outline) (id : RowId) : List RowId := o.subtreeWithin o.size id

def order (o : Outline) : List RowId := o.subtree root

def place (o : Outline) (id : RowId) : Nat := o.order.idxOf id

def placeBehind (o : Outline) (id : RowId) : Nat := o.place id + (o.subtree id).length

section
variable {α β : Type}

/-- Of two elements in a list of lists, both come from one list or each from one of two. -/
theorem pair_sublist_flatMap {f : α → List β} {as : List α} {x y : β}
    (h : [x, y].Sublist (as.flatMap f)) : (∃ a ∈ as, [x, y].Sublist (f a)) ∨
      ∃ a b, [a, b].Sublist as ∧ x ∈ f a ∧ y ∈ f b := by
  induction as with
  | nil => cases h
  | cons a as ih =>
    obtain ⟨first, second, hpair, hfirst, hsecond⟩ := List.sublist_append_iff.mp h
    rcases first with _ | ⟨x', _ | ⟨y', first⟩⟩
    · obtain rfl : second = [x, y] := hpair.symm
      rcases ih hsecond with ⟨b, hb, hxy⟩ | ⟨b, c, hbc, hx, hy⟩
      · exact .inl ⟨b, List.mem_cons_of_mem a hb, hxy⟩
      · exact .inr ⟨b, c, hbc.cons a, hx, hy⟩
    · simp only [List.cons_append, List.nil_append, List.cons.injEq] at hpair
      obtain ⟨rfl, rfl⟩ := hpair
      obtain ⟨b, hb, hy⟩ := List.mem_flatMap.mp (List.singleton_sublist.mp hsecond)
      have hab : [a, b].Sublist (a :: as) :=
        List.cons_sublist_cons.mpr (List.singleton_sublist.mpr hb)
      exact .inr ⟨a, b, hab, List.singleton_sublist.mp hfirst, hy⟩
    · simp only [List.cons_append, List.cons.injEq, List.nil_eq, List.append_eq_nil_iff] at hpair
      obtain ⟨rfl, rfl, rfl, -⟩ := hpair
      exact .inl ⟨a, by simp, hfirst⟩

variable [DecidableEq α] {rows : List α} {x y : α}

theorem pair_sublist_iff_idxOf (hn : rows.Nodup) (hy : y ∈ rows) :
    [x, y].Sublist rows ↔ rows.idxOf x < rows.idxOf y := by
  induction rows with
  | nil => cases hy
  | cons a rows ih =>
    obtain ⟨ha, hn⟩ := List.nodup_cons.mp hn
    by_cases hxa : a = x
    · subst hxa
      rw [List.cons_sublist_cons, List.singleton_sublist, List.idxOf_cons_self]
      by_cases hya : y = a
      · subst hya
        simpa using ha
      · rw [List.idxOf_cons_ne rows (Ne.symm hya)]
        simpa [hya] using hy
    · have hcons : [x, y].Sublist (a :: rows) ↔ [x, y].Sublist rows := by
        rw [List.sublist_cons_iff]
        simp [Ne.symm hxa]
      rw [hcons, List.idxOf_cons_ne rows hxa]
      by_cases hya : y = a
      · subst hya
        have hno : ¬[x, y].Sublist rows := fun hxy => ha (hxy.subset (by simp))
        simpa using hno
      · rw [List.idxOf_cons_ne rows (Ne.symm hya), ih hn (List.mem_of_ne_of_mem hya hy)]
        omega

theorem mem_stretch_iff (hn : rows.Nodup) (hx : x ∈ rows) {start stop : Nat} :
    x ∈ (rows.take stop).drop start ↔ start ≤ rows.idxOf x ∧ rows.idxOf x < stop := by
  have hsplit : x ∈ (rows.take stop).take start ∨ x ∈ (rows.take stop).drop start ↔
      x ∈ rows.take stop := by
    rw [← List.mem_append, List.take_append_drop]
  have hdisjoint := List.disjoint_take_drop (hn.sublist (List.take_sublist stop rows))
    (Nat.le_refl start)
  rw [List.take_take, List.mem_take_iff_idxOf_lt hx, List.mem_take_iff_idxOf_lt hx] at hsplit
  have hnot : x ∈ (rows.take stop).drop start → ¬rows.idxOf x < min start stop := by
    intro hdrop hlt
    rw [List.take_take] at hdisjoint
    exact hdisjoint ((List.mem_take_iff_idxOf_lt hx).mpr hlt) hdrop
  constructor
  · intro hdrop
    have hlt := hsplit.mp (.inr hdrop)
    have hge := hnot hdrop
    omega
  · rintro ⟨hle, hlt⟩
    rcases hsplit.mpr hlt with hmin | hdrop
    · omega
    · exact hdrop

end

namespace IsTree
variable {o : Outline} {x y z r : Nat}

/-- What holds of a row if it holds of its children holds of all rows. -/
theorem downward {P : Nat → Prop} (h : o.IsTree)
    (step : ∀ x, o.has x = true → (∀ c ∈ o.children x, P c) → P x) (hx : o.has x = true) :
    P x := by
  have hbound : ∀ n x, o.size ≤ x + n → o.has x = true → P x := by
    intro n
    induction n with
    | zero =>
      intro x hle hx
      exact absurd (has_iff.mp hx) (Nat.not_lt.mpr hle)
    | succ n ih =>
      intro x hle hx
      refine step x hx fun c hc => ih c ?_ (h.has_child hc)
      have hlt := h.parent_lt (h.mem_children.mp hc)
      omega
  exact hbound o.size x (Nat.le_add_left _ _) hx

/-- Levels enough for the rows made after this one are enough for all rows below it. -/
theorem subtreeWithin_eq (h : o.IsTree) (hx : o.has x = true) {m n : Nat} (hm : o.size ≤ x + m)
    (hn : o.size ≤ x + n) : o.subtreeWithin m x = o.subtreeWithin n x := by
  have hlt := has_iff.mp hx
  induction m generalizing x n with
  | zero => omega
  | succ m ih =>
    cases n with
    | zero => omega
    | succ n =>
      rw [subtreeWithin, subtreeWithin]
      congr 1
      refine List.flatMap_congr fun c hc => ?_
      have hxc : x < c := h.parent_lt (h.mem_children.mp hc)
      have hc := h.has_child hc
      exact ih hc (by omega) (by omega) (has_iff.mp hc)

theorem subtree_eq (h : o.IsTree) (hx : o.has x = true) :
    o.subtree x = x :: (o.children x).flatMap o.subtree := by
  have hlt := has_iff.mp hx
  have hstep : o.subtree x = o.subtreeWithin (o.size + 1) x :=
    h.subtreeWithin_eq hx (by omega) (by omega)
  rw [hstep, subtreeWithin]
  rfl

theorem mem_subtree (h : o.IsTree) (hx : o.has x = true) :
    y ∈ o.subtree x ↔ o.AtOrBelow y x := by
  refine h.downward (P := fun x => y ∈ o.subtree x ↔ o.AtOrBelow y x) (fun x hx ih => ?_) hx
  rw [h.subtree_eq hx, List.mem_cons, List.mem_flatMap]
  constructor
  · rintro (rfl | ⟨c, hc, hy⟩)
    · exact .refl
    · exact ((ih c hc).mp hy).tail (h.mem_children.mp hc)
  · intro hyx
    obtain rfl | ⟨c, hyc, hcx⟩ := Relation.ReflTransGen.cases_tail hyx
    · exact .inl rfl
    · have hc := h.mem_children.mpr hcx
      exact .inr ⟨c, hc, (ih c hc).mpr hyc⟩

theorem nodup_subtree (h : o.IsTree) (hx : o.has x = true) : (o.subtree x).Nodup := by
  refine h.downward (P := fun x => (o.subtree x).Nodup) (fun x hx ih => ?_) hx
  rw [h.subtree_eq hx, List.nodup_cons, List.nodup_flatMap]
  refine ⟨?_, ih, ?_⟩
  · intro hmem
    obtain ⟨c, hc, hxc⟩ := List.mem_flatMap.mp hmem
    have hle := h.le_of_atOrBelow ((h.mem_subtree (h.has_child hc)).mp hxc)
    have hlt := h.parent_lt (h.mem_children.mp hc)
    omega
  · refine (h.children_increase x).imp_of_mem ?_
    intro c d hc hd hlt y hyc hyd
    have hcd := h.eq_of_atOrBelow_siblings hc hd ((h.mem_subtree (h.has_child hc)).mp hyc)
      ((h.mem_subtree (h.has_child hd)).mp hyd)
    exact hlt.ne hcd

theorem mem_order (h : o.IsTree) : y ∈ o.order ↔ o.has y = true := by
  rw [order, h.mem_subtree h.has_root]
  exact ⟨has_atOrBelow h.has_root, h.atOrBelow_root⟩

theorem nodup_order (h : o.IsTree) : o.order.Nodup := h.nodup_subtree h.has_root

theorem length_order_le (h : o.IsTree) : o.order.length ≤ o.size := by
  have hsub : o.order ⊆ List.range o.size := fun y hy =>
    List.mem_range.mpr (has_iff.mp (h.mem_order.mp hy))
  simpa using (h.nodup_order.subperm hsub).length_le

/-- The rows of a subtree stand next to each other. -/
theorem subtree_infix_order (h : o.IsTree) (hx : o.has x = true) :
    o.subtree x <:+: o.order := by
  induction x using Nat.strong_induction_on with
  | _ x ih =>
    by_cases hroot : x = root
    · rw [hroot]
      exact List.infix_refl _
    · obtain ⟨p, hp⟩ := h.exists_parent hx hroot
      have hhas := h.has_parent hp
      obtain ⟨elder, younger, hchildren⟩ := List.append_of_mem (h.mem_children.mpr hp)
      refine List.IsInfix.trans ⟨p :: elder.flatMap o.subtree, younger.flatMap o.subtree, ?_⟩
        (ih p (h.parent_lt hp) hhas)
      rw [h.subtree_eq hhas, hchildren]
      simp

theorem order_split (h : o.IsTree) (hx : o.has x = true) : ∃ before behind,
    o.order = before ++ (o.subtree x ++ behind) ∧ before.length = o.place x := by
  obtain ⟨before, behind, hsplit⟩ := h.subtree_infix_order hx
  rw [List.append_assoc] at hsplit
  refine ⟨before, behind, hsplit.symm, ?_⟩
  have hn := h.nodup_order
  rw [← hsplit, h.subtree_eq hx] at hn
  have hnot : x ∉ before := fun hmem => List.disjoint_of_nodup_append hn hmem (by simp)
  rw [place, ← hsplit, h.subtree_eq hx, List.idxOf_append, if_neg hnot]
  simp

theorem place_lt_length (h : o.IsTree) (hx : o.has x = true) : o.place x < o.order.length :=
  List.idxOf_lt_length_iff.mpr (h.mem_order.mpr hx)

theorem place_inj (h : o.IsTree) (hx : o.has x = true) : o.place x = o.place y ↔ x = y :=
  List.idxOf_inj (h.mem_order.mpr hx)

theorem placeBehind_le_length (h : o.IsTree) (hx : o.has x = true) :
    o.placeBehind x ≤ o.order.length := by
  obtain ⟨before, behind, hsplit, hplace⟩ := h.order_split hx
  rw [placeBehind, ← hplace, hsplit]
  simp

theorem stretch_eq_subtree (h : o.IsTree) (hx : o.has x = true) :
    (o.order.take (o.placeBehind x)).drop (o.place x) = o.subtree x := by
  obtain ⟨before, behind, hsplit, hplace⟩ := h.order_split hx
  rw [placeBehind, ← hplace, hsplit, ← List.append_assoc, ← List.length_append,
    List.take_left, List.drop_left]

/-- To be at or below a row is to stand from its place on, before the place behind it. -/
theorem atOrBelow_iff_place (h : o.IsTree) (hx : o.has x = true) (hy : o.has y = true) :
    o.AtOrBelow y x ↔ o.place x ≤ o.place y ∧ o.place y < o.placeBehind x := by
  rw [← h.mem_subtree hx, ← h.stretch_eq_subtree hx,
    mem_stretch_iff h.nodup_order (h.mem_order.mpr hy)]
  rfl

theorem place_lt_placeBehind (h : o.IsTree) (hx : o.has x = true) :
    o.place x < o.placeBehind x :=
  ((h.atOrBelow_iff_place hx hx).mp .refl).2

theorem below_iff_place (h : o.IsTree) (hx : o.has x = true) (hy : o.has y = true) :
    o.Below y x ↔ o.place x < o.place y ∧ o.place y < o.placeBehind x := by
  have hiff := h.atOrBelow_iff_place hx hy
  constructor
  · intro hbelow
    have hne : o.place x ≠ o.place y := by
      rw [Ne, h.place_inj hx]
      exact (h.lt_of_below hbelow).ne
    have hle := hiff.mp hbelow.to_reflTransGen
    omega
  · rintro ⟨hlt, hend⟩
    obtain rfl | hbelow := atOrBelow_iff.mp (hiff.mpr ⟨hlt.le, hend⟩)
    · exact absurd hlt (Nat.lt_irrefl _)
    · exact hbelow

theorem precedes_of_sublist (h : o.IsTree) (hr : o.has r = true)
    (hxy : [x, y].Sublist (o.subtree r)) : o.Precedes x y := by
  refine h.downward (P := fun r => [x, y].Sublist (o.subtree r) → o.Precedes x y) ?_ hr hxy
  intro r hr ih hxy
  rw [h.subtree_eq hr, List.sublist_cons_iff] at hxy
  rcases hxy with hxy | ⟨rest, heq, hrest⟩
  · rcases pair_sublist_flatMap hxy with ⟨c, hc, hxy⟩ | ⟨c, d, hcd, hx, hy⟩
    · exact ih c hc hxy
    · have hc := h.has_child (hcd.subset (by simp : c ∈ [c, d]))
      have hd := h.has_child (hcd.subset (by simp : d ∈ [c, d]))
      exact .inr ⟨r, c, d, hcd, (h.mem_subtree hc).mp hx, (h.mem_subtree hd).mp hy⟩
  · obtain ⟨rfl, rfl⟩ := List.cons.inj heq
    obtain ⟨c, hc, hy⟩ := List.mem_flatMap.mp (List.singleton_sublist.mp hrest)
    exact .inl (.tail' ((h.mem_subtree (h.has_child hc)).mp hy) (h.mem_children.mp hc))

theorem sublist_of_below (h : o.IsTree) (hyx : o.Below y x) : [x, y].Sublist o.order := by
  have hy := has_below hyx
  have hx := h.has_of_atOrBelow hy hyx.to_reflTransGen
  rw [pair_sublist_iff_idxOf h.nodup_order (h.mem_order.mpr hy)]
  exact ((h.below_iff_place hx hy).mp hyx).1

/-- To precede is to be listed before. -/
theorem precedes_iff_sublist (h : o.IsTree) : o.Precedes x y ↔ [x, y].Sublist o.order := by
  constructor
  · rintro (hbelow | ⟨p, left, right, hpair, hxl, hyr⟩)
    · exact h.sublist_of_below hbelow
    · have hl : left ∈ o.children p := hpair.subset (by simp)
      have hr : right ∈ o.children p := hpair.subset (by simp)
      have hp := h.has_parent (h.mem_children.mp hl)
      have hsubtrees : [x, y].Sublist ([left, right].flatMap o.subtree) := by
        have hx := List.singleton_sublist.mpr ((h.mem_subtree (h.has_child hl)).mpr hxl)
        have hy := List.singleton_sublist.mpr ((h.mem_subtree (h.has_child hr)).mpr hyr)
        simpa using hx.append hy
      have hchildren : ((o.children p).flatMap o.subtree).Sublist (o.subtree p) := by
        rw [h.subtree_eq hp]
        exact List.sublist_cons_self _ _
      exact ((hsubtrees.trans (hpair.flatMap _)).trans hchildren).trans
        (h.subtree_infix_order hp).sublist
  · exact h.precedes_of_sublist h.has_root

theorem has_of_precedes (h : o.IsTree) (hxy : o.Precedes x y) :
    o.has x = true ∧ o.has y = true := by
  have hsub := (h.precedes_iff_sublist.mp hxy).subset
  exact ⟨h.mem_order.mp (hsub (by simp)), h.mem_order.mp (hsub (by simp))⟩

theorem precedes_iff_place (h : o.IsTree) (hy : o.has y = true) :
    o.Precedes x y ↔ o.place x < o.place y := by
  rw [h.precedes_iff_sublist]
  exact pair_sublist_iff_idxOf h.nodup_order (h.mem_order.mpr hy)

theorem precedes_irrefl (h : o.IsTree) : ¬o.Precedes x x := by
  intro hxx
  have hlt := (h.precedes_iff_place (h.has_of_precedes hxx).2).mp hxx
  exact Nat.lt_irrefl _ hlt

theorem precedes_trans (h : o.IsTree) (hxy : o.Precedes x y) (hyz : o.Precedes y z) :
    o.Precedes x z := by
  have hz := (h.has_of_precedes hyz).2
  rw [h.precedes_iff_place (h.has_of_precedes hxy).2] at hxy
  rw [h.precedes_iff_place hz] at hyz ⊢
  exact hxy.trans hyz

theorem precedes_trichotomy (h : o.IsTree) (hx : o.has x = true) (hy : o.has y = true) :
    o.Precedes x y ∨ x = y ∨ o.Precedes y x := by
  rw [h.precedes_iff_place hx, h.precedes_iff_place hy, ← h.place_inj hx]
  exact lt_trichotomy _ _

theorem inDocumentOrder_of_sublist (h : o.IsTree) {rows : List RowId}
    (hrows : rows.Sublist o.order) : o.InDocumentOrder rows := by
  refine ⟨fun id hid => h.mem_order.mp (hrows.subset hid), ?_⟩
  exact List.pairwise_of_forall_sublist fun hxy =>
    h.precedes_iff_sublist.mpr (hxy.trans hrows)

theorem nodup_of_inDocumentOrder (h : o.IsTree) {rows : List RowId}
    (hrows : o.InDocumentOrder rows) : rows.Nodup := by
  refine hrows.ordered.imp ?_
  rintro x _ hxx rfl
  exact h.precedes_irrefl hxx

end IsTree

theorem InDocumentOrder.sublist {o : Outline} {rows fewer : List RowId}
    (h : o.InDocumentOrder rows) (hsub : fewer.Sublist rows) : o.InDocumentOrder fewer :=
  ⟨fun id hid => h.has id (hsub.subset hid), h.ordered.sublist hsub⟩

end OutlineQuery.Outline
