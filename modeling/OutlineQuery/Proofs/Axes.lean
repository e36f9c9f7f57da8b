import OutlineQuery.Proofs.Indexing

/-! Every axis lists what the tree says of it: the rows that stand in its relation to a row, in
document order. -/

namespace OutlineQuery.Outline

def OnAxis (o : Outline) (a : Axis) (x y : RowId) : Prop :=
  match a with
  | .child => o.parent? y = some x
  | .parent | .parentShortcut => o.parent? x = some y
  | .self | .selfShortcut => y = x
  | .ancestor => o.Below x y
  | .ancestorOrSelf => o.Below x y ∨ y = x
  | .descendant | .descendantShortcut => o.Below y x
  | .descendantOrSelf | .descendantOrSelfShortcut => o.Below y x ∨ y = x
  | .followingSibling => ∃ parent, o.parent? x = some parent ∧ o.parent? y = some parent ∧
      [x, y].Sublist (o.children parent)
  | .precedingSibling => ∃ parent, o.parent? x = some parent ∧ o.parent? y = some parent ∧
      [y, x].Sublist (o.children parent)
  | .following => o.Precedes x y ∧ ¬o.Below y x
  | .preceding => o.Precedes y x ∧ ¬o.Below x y

namespace IsTree
variable {o : Outline} {c x y parent start stop : Nat}

theorem has_of_below (h : o.IsTree) (hx : o.has x = true) (hxy : o.Below x y) : o.has y = true :=
  h.has_of_atOrBelow hx hxy.to_reflTransGen

theorem children_inDocumentOrder (h : o.IsTree) (parent : Nat) :
    o.InDocumentOrder (o.children parent) := by
  refine ⟨fun _ => h.has_child, List.pairwise_of_forall_sublist fun {a b} hab => ?_⟩
  exact .inr ⟨parent, a, b, hab, .refl, .refl⟩

theorem children_sublist_iff (h : o.IsTree) (hx : x ∈ o.children parent)
    (hy : y ∈ o.children parent) :
    [x, y].Sublist (o.children parent) ↔ o.place x < o.place y := by
  have hn := h.nodup_of_inDocumentOrder (h.children_inDocumentOrder parent)
  have hsub : ∀ {a b : Nat}, [a, b].Sublist (o.children parent) → o.place a < o.place b := by
    intro a b hab
    have hb := h.has_child (hab.subset (by simp : b ∈ [a, b]))
    exact (h.precedes_iff_place hb).mp (.inr ⟨parent, a, b, hab, .refl, .refl⟩)
  refine ⟨hsub, fun hlt => ?_⟩
  rw [pair_sublist_iff_idxOf hn hy]
  by_contra hle
  rcases Nat.lt_or_eq_of_le (Nat.not_lt.mp hle) with hgt | heq
  · have hback := hsub ((pair_sublist_iff_idxOf hn hx).mpr hgt)
    omega
  · obtain rfl := (List.idxOf_inj hy).mp heq
    exact Nat.lt_irrefl _ hlt

theorem mem_siblings (h : o.IsTree) (hc : o.has c = true) {keep : Nat → Bool} :
    y ∈ (Index.around o c).siblings x keep ↔
      ∃ parent, o.parent? x = some parent ∧ o.parent? y = some parent ∧
        keep (o.place y) = true := by
  have houtline : (Index.around o c).outline = o := rfl
  rw [Index.siblings, houtline]
  cases hp : o.parent? x with
  | none => simp
  | some parent =>
    simp only [List.mem_filter, h.mem_children, Option.some.injEq, exists_eq_left']
    refine and_congr_right fun hy => ?_
    rw [h.position?_around hc (has_of_parent hy), Option.any_some]

theorem siblings_inDocumentOrder (h : o.IsTree) {keep : Nat → Bool} :
    o.InDocumentOrder ((Index.around o c).siblings x keep) := by
  rw [Index.siblings]
  split
  · exact ⟨by simp, .nil⟩
  · exact (h.children_inDocumentOrder _).sublist List.filter_sublist

theorem stretch_inDocumentOrder (h : o.IsTree) (hc : o.has c = true) :
    o.InDocumentOrder ((Index.around o c).stretch start stop) := by
  rw [Index.stretch, h.items_around hc]
  exact h.inDocumentOrder_of_sublist ((List.drop_sublist _ _).trans (List.take_sublist _ _))

theorem mem_stretch (h : o.IsTree) (hc : o.has c = true) :
    y ∈ (Index.around o c).stretch start stop ↔
      o.has y = true ∧ start ≤ o.place y ∧ o.place y < stop := by
  rw [Index.stretch, h.items_around hc]
  constructor
  · intro hmem
    have hy := List.mem_of_mem_take (List.mem_of_mem_drop hmem)
    exact ⟨h.mem_order.mp hy, (mem_stretch_iff h.nodup_order hy).mp hmem⟩
  · rintro ⟨hy, hplace⟩
    exact (mem_stretch_iff h.nodup_order (h.mem_order.mpr hy)).mpr hplace

theorem drop_eq_stretch (h : o.IsTree) (hc : o.has c = true) :
    (Index.around o c).items.drop start =
      (Index.around o c).stretch start o.order.length := by
  rw [Index.stretch, h.items_around hc, List.take_length]

theorem endedBefore_inDocumentOrder (h : o.IsTree) (hc : o.has c = true) :
    o.InDocumentOrder ((Index.around o c).endedBefore stop) := by
  have hstretch : o.InDocumentOrder ((Index.around o c).stretch 0 stop) :=
    h.stretch_inDocumentOrder hc
  refine hstretch.sublist ?_
  have hrows : (((Index.around o c).items.take stop).zipIdx).map (·.1) =
      (Index.around o c).stretch 0 stop := by
    simp [Index.stretch]
  rw [← hrows]
  exact List.filter_sublist.map _

theorem mem_endedBefore (h : o.IsTree) (hc : o.has c = true) :
    y ∈ (Index.around o c).endedBefore stop ↔
      o.has y = true ∧ o.place y < stop ∧ o.placeBehind y ≤ stop := by
  have hplace : ∀ {i : Nat}, (o.order.take stop)[i]? = some y ↔
      o.has y = true ∧ i = o.place y ∧ o.place y < stop := by
    intro i
    rw [List.getElem?_take, Option.ite_none_right_eq_some, List.getElem?_eq_some_iff]
    constructor
    · rintro ⟨hlt, hi, rfl⟩
      have hi' := h.nodup_order.idxOf_getElem i hi
      exact ⟨h.mem_order.mp (List.getElem_mem hi), hi'.symm, hi'.trans_lt hlt⟩
    · rintro ⟨hy, rfl, hlt⟩
      exact ⟨hlt, h.place_lt_length hy, List.getElem_idxOf _⟩
  simp only [Index.endedBefore, h.items_around hc, List.mem_map, List.mem_filter,
    List.mem_zipIdx_iff_getElem?, decide_eq_true_eq, Prod.exists]
  constructor
  · rintro ⟨_, i, ⟨hi, hend⟩, rfl⟩
    obtain ⟨hy, rfl, hlt⟩ := hplace.mp hi
    rw [h.endOf_around hc hy] at hend
    exact ⟨hy, hlt, hend⟩
  · rintro ⟨hy, hlt, hend⟩
    refine ⟨y, o.place y, ⟨hplace.mpr ⟨hy, rfl, hlt⟩, ?_⟩, rfl⟩
    rwa [h.endOf_around hc hy]

theorem ancestors_inDocumentOrder (h : o.IsTree) (hx : o.has x = true) :
    o.InDocumentOrder (o.ancestors x).reverse := by
  constructor
  · intro y hy
    exact h.has_of_below hx ((h.mem_ancestors hx).mp (List.mem_reverse.mp hy))
  · exact List.pairwise_reverse.mpr (ancestors_climb.imp .inl)

theorem ancestorsAndSelf_inDocumentOrder (h : o.IsTree) (hx : o.has x = true) :
    o.InDocumentOrder ((o.ancestors x).reverse ++ [x]) := by
  have habove := h.ancestors_inDocumentOrder hx
  constructor
  · intro y hy
    rcases List.mem_append.mp hy with hy | hy
    · exact habove.has y hy
    · rwa [List.mem_singleton.mp hy]
  · refine List.pairwise_append.mpr ⟨habove.ordered, List.pairwise_singleton _ _, ?_⟩
    intro y hy z hz
    rw [List.mem_singleton.mp hz]
    exact .inl ((h.mem_ancestors hx).mp (List.mem_reverse.mp hy))

theorem singleton_inDocumentOrder (hx : o.has x = true) : o.InDocumentOrder [x] :=
  ⟨by simpa using hx, List.pairwise_singleton _ _⟩

theorem along_inDocumentOrder (h : o.IsTree) (hc : o.has c = true) (hx : o.has x = true)
    (a : Axis) : o.InDocumentOrder ((Index.around o c).along a x) := by
  have houtline : (Index.around o c).outline = o := rfl
  simp only [Index.along, h.position?_around hc hx, houtline]
  cases a with
  | child => exact h.children_inDocumentOrder x
  | descendant | descendantShortcut | descendantOrSelf | descendantOrSelfShortcut =>
    exact h.stretch_inDocumentOrder hc
  | parent | parentShortcut =>
    cases hp : o.parent? x with
    | none => exact ⟨by simp, .nil⟩
    | some p => exact singleton_inDocumentOrder (h.has_parent hp)
  | self | selfShortcut => exact singleton_inDocumentOrder hx
  | ancestor => exact h.ancestors_inDocumentOrder hx
  | ancestorOrSelf => exact h.ancestorsAndSelf_inDocumentOrder hx
  | followingSibling | precedingSibling => exact h.siblings_inDocumentOrder
  | following =>
    rw [h.drop_eq_stretch hc]
    exact h.stretch_inDocumentOrder hc
  | preceding => exact h.endedBefore_inDocumentOrder hc

theorem mem_followingSibling (h : o.IsTree) (hc : o.has c = true) :
    y ∈ (Index.around o c).siblings x (o.place x < ·) ↔ o.OnAxis .followingSibling x y := by
  rw [h.mem_siblings hc, OnAxis]
  refine exists_congr fun parent => and_congr_right fun hx => and_congr_right fun hy => ?_
  rw [h.children_sublist_iff (h.mem_children.mpr hx) (h.mem_children.mpr hy), decide_eq_true_eq]

theorem mem_precedingSibling (h : o.IsTree) (hc : o.has c = true) :
    y ∈ (Index.around o c).siblings x (· < o.place x) ↔ o.OnAxis .precedingSibling x y := by
  rw [h.mem_siblings hc, OnAxis]
  refine exists_congr fun parent => and_congr_right fun hx => and_congr_right fun hy => ?_
  rw [h.children_sublist_iff (h.mem_children.mpr hy) (h.mem_children.mpr hx), decide_eq_true_eq]

theorem mem_descendant (h : o.IsTree) (hc : o.has c = true) (hx : o.has x = true) :
    y ∈ (Index.around o c).stretch (o.place x + 1) (o.placeBehind x) ↔ o.Below y x := by
  rw [h.mem_stretch hc]
  constructor
  · rintro ⟨hy, hplace⟩
    exact (h.below_iff_place hx hy).mpr hplace
  · intro hyx
    have hy := has_below hyx
    exact ⟨hy, (h.below_iff_place hx hy).mp hyx⟩

theorem mem_descendantOrSelf (h : o.IsTree) (hc : o.has c = true) (hx : o.has x = true) :
    y ∈ (Index.around o c).stretch (o.place x) (o.placeBehind x) ↔ o.Below y x ∨ y = x := by
  rw [h.mem_stretch hc, or_comm, @eq_comm _ y x, ← atOrBelow_iff]
  constructor
  · rintro ⟨hy, hplace⟩
    exact (h.atOrBelow_iff_place hx hy).mpr hplace
  · intro hyx
    have hy := has_atOrBelow hx hyx
    exact ⟨hy, (h.atOrBelow_iff_place hx hy).mp hyx⟩

theorem mem_following (h : o.IsTree) (hc : o.has c = true) (hx : o.has x = true) :
    y ∈ (Index.around o c).items.drop (o.placeBehind x) ↔
      o.Precedes x y ∧ ¬o.Below y x := by
  rw [h.drop_eq_stretch hc, h.mem_stretch hc]
  have hlt := h.place_lt_placeBehind hx
  constructor
  · rintro ⟨hy, hle, -⟩
    rw [h.precedes_iff_place hy, h.below_iff_place hx hy]
    omega
  · rintro ⟨hxy, hnot⟩
    have hy := (h.has_of_precedes hxy).2
    have hlen := h.place_lt_length hy
    rw [h.precedes_iff_place hy] at hxy
    rw [h.below_iff_place hx hy] at hnot
    exact ⟨hy, by omega, hlen⟩

theorem mem_preceding (h : o.IsTree) (hc : o.has c = true) (hx : o.has x = true) :
    y ∈ (Index.around o c).endedBefore (o.place x) ↔ o.Precedes y x ∧ ¬o.Below x y := by
  rw [h.mem_endedBefore hc, h.precedes_iff_place hx]
  constructor
  · rintro ⟨hy, hlt, hend⟩
    rw [h.below_iff_place hy hx]
    omega
  · rintro ⟨hlt, hnot⟩
    have hy := (h.has_of_precedes ((h.precedes_iff_place hx).mpr hlt)).1
    rw [h.below_iff_place hy hx] at hnot
    exact ⟨hy, hlt, by omega⟩

theorem mem_along (h : o.IsTree) (hc : o.has c = true) (hx : o.has x = true) (a : Axis) :
    y ∈ (Index.around o c).along a x ↔ o.OnAxis a x y := by
  have houtline : (Index.around o c).outline = o := rfl
  simp only [Index.along, h.position?_around hc hx, h.endOf_around hc hx, houtline]
  cases a with
  | child => exact h.mem_children
  | descendant | descendantShortcut => exact h.mem_descendant hc hx
  | descendantOrSelf | descendantOrSelfShortcut => exact h.mem_descendantOrSelf hc hx
  | parent | parentShortcut => exact Option.mem_toList
  | self | selfShortcut => exact List.mem_singleton
  | ancestor => exact List.mem_reverse.trans (h.mem_ancestors hx)
  | ancestorOrSelf =>
    rw [List.mem_append, List.mem_reverse, h.mem_ancestors hx, List.mem_singleton, OnAxis]
  | followingSibling => exact h.mem_followingSibling hc
  | precedingSibling => exact h.mem_precedingSibling hc
  | following => exact h.mem_following hc hx
  | preceding => exact h.mem_preceding hc hx

end IsTree

/-- In every outline that can be made, and for an index made around any row, each axis lists from
every row exactly the rows that the tree has in that direction, once each and in document order. -/
theorem along_lists_axis {o : Outline} (ho : o.Reachable) {context x : RowId}
    (hc : o.has context = true) (hx : o.has x = true) (a : Axis) :
    o.InDocumentOrder ((Index.around o context).along a x) ∧
      ((Index.around o context).along a x).Nodup ∧
      ∀ y, y ∈ (Index.around o context).along a x ↔ o.OnAxis a x y := by
  have h := ho.isTree
  have horder := h.along_inDocumentOrder hc hx a
  exact ⟨horder, h.nodup_of_inDocumentOrder horder, fun _ => h.mem_along hc hx a⟩

def lateChild : Outline :=
  (((Outline.empty.append root "a").appendHeading root "b").append 2 "d").append 1 "c"

theorem lateChild_reachable : lateChild.Reachable :=
  .append "c" (.append "d" (.appendHeading "b" (.append "a" .empty rfl) rfl) rfl) rfl

/-- The rows behind the one made last were all made before it. -/
theorem following_lateChild :
    (lateChild.has 3 = true ∧ lateChild.has 4 = true) ∧
      (Index.around lateChild 3).along .following 4 = [2, 3] ∧
      lateChild.InDocumentOrder ((Index.around lateChild 3).along .following 4) ∧
      ((Index.around lateChild 3).along .following 4).Nodup ∧
      ∀ y, y ∈ (Index.around lateChild 3).along .following 4 ↔
        lateChild.OnAxis .following 4 y :=
  ⟨⟨rfl, rfl⟩, by decide +kernel, along_lists_axis lateChild_reachable
    (rfl : lateChild.has 3 = true) (rfl : lateChild.has 4 = true) .following⟩

end OutlineQuery.Outline
