import OutlineQuery.Proofs.Composition

/-! The numbers of rows say in which order they were made, and evaluation does not depend on it:
where the rows of one tree have other numbers, the same rows are selected under these numbers. -/

namespace OutlineQuery

structure Row.MatchesUnder (f : RowId → RowId) (r r' : Row) : Prop where
  text : r'.text = r.text
  attributes (name : String) : r'.attribute? name = r.attribute? name
  parent : r'.parent = r.parent.map f
  children : r'.children = r.children.map f

structure Outline.Renumbers (f : RowId → RowId) (o o' : Outline) : Prop where
  bijOn : Set.BijOn f {id | o.has id = true} {id | o'.has id = true}
  root : f Outline.root = Outline.root
  row {id : RowId} {r : Row} : o.row? id = some r →
    ∃ r', o'.row? (f id) = some r' ∧ r.MatchesUnder f r'

namespace Row.MatchesUnder
variable {f : RowId → RowId} {r r' : Row}

theorem resolve_eq (h : r.MatchesUnder f r') (v : Value) : v.resolve r' = v.resolve r := by
  cases v with
  | literal _ => rfl
  | «attribute» _ => rw [Value.resolve, Value.resolve, h.text, h.attributes]
  | call _ => rfl

theorem holds_eq (h : r.MatchesUnder f r') (p : Predicate) : p.holds r' = p.holds r := by
  cases p with
  | any => rfl
  | not inner => rw [Predicate.holds, Predicate.holds, h.holds_eq inner]
  | and left right => rw [Predicate.holds, Predicate.holds, h.holds_eq left, h.holds_eq right]
  | or left right => rw [Predicate.holds, Predicate.holds, h.holds_eq left, h.holds_eq right]
  | comparison left relation modifier right => simp only [Predicate.holds, h.resolve_eq]

theorem accepts_eq (h : r.MatchesUnder f r') (s : Step) : s.accepts r' = s.accepts r := by
  have htype : s.type.accepts r' = s.type.accepts r := by
    cases s.type with
    | any => rfl
    | heading => rw [RowType.accepts, RowType.accepts, h.attributes]
  rw [Step.accepts, Step.accepts, htype, h.holds_eq]

end Row.MatchesUnder

theorem Slice.select_map {α β : Type} (s : Slice) (f : α → β) (items : List α) :
    s.select (items.map f) = (s.select items).map f := by
  unfold Slice.select
  rw [List.length_map]
  split
  · rfl
  · rw [List.map_take, List.map_drop]

namespace Outline.Renumbers
variable {f : RowId → RowId} {o o' : Outline} {c x y : Nat}

theorem has (hf : Renumbers f o o') (hx : o.has x = true) : o'.has (f x) = true :=
  hf.bijOn.mapsTo hx

theorem inj (hf : Renumbers f o o') (hx : o.has x = true) (hy : o.has y = true) :
    f x = f y ↔ x = y :=
  hf.bijOn.injOn.eq_iff hx hy

theorem exists_eq (hf : Renumbers f o o') (hy : o'.has y = true) :
    ∃ x, o.has x = true ∧ f x = y :=
  hf.bijOn.surjOn hy

theorem exists_row (hf : Renumbers f o o') (hx : o.has x = true) :
    ∃ r r', o.row? x = some r ∧ o'.row? (f x) = some r' ∧ r.MatchesUnder f r' := by
  obtain ⟨r, hrow⟩ := exists_row? hx
  obtain ⟨r', hrow', hmatch⟩ := hf.row hrow
  exact ⟨r, r', hrow, hrow', hmatch⟩

theorem parent?_eq (hf : Renumbers f o o') (hx : o.has x = true) :
    o'.parent? (f x) = (o.parent? x).map f := by
  obtain ⟨r, r', hrow, hrow', hmatch⟩ := hf.exists_row hx
  rw [parent?, parent?, hrow, hrow', Option.bind_some, Option.bind_some, hmatch.parent]

theorem children_eq (hf : Renumbers f o o') (hx : o.has x = true) :
    o'.children (f x) = (o.children x).map f := by
  obtain ⟨r, r', hrow, hrow', hmatch⟩ := hf.exists_row hx
  rw [children, children, hrow, hrow']
  exact hmatch.children

theorem acceptsAt_eq (hf : Renumbers f o o') (s : Step) (hx : o.has x = true) :
    s.acceptsAt o' (f x) = s.acceptsAt o x := by
  obtain ⟨r, r', hrow, hrow', hmatch⟩ := hf.exists_row hx
  rw [Step.acceptsAt, Step.acceptsAt, hrow, hrow', Option.any_some, Option.any_some,
    hmatch.accepts_eq]

theorem parent?_eq_some (hf : Renumbers f o o') (h : o.IsTree) (hx : o.has x = true)
    (hy : o.has y = true) : o'.parent? (f x) = some (f y) ↔ o.parent? x = some y := by
  rw [hf.parent?_eq hx]
  cases hp : o.parent? x with
  | none => simp
  | some p =>
    simp only [Option.map_some, Option.some.injEq]
    exact hf.inj (h.has_parent hp) hy

theorem below_map (hf : Renumbers f o o') (hxy : o.Below x y) : o'.Below (f x) (f y) := by
  have hstep : ∀ a b, o.parent? a = some b → o'.parent? (f a) = some (f b) := by
    intro a b hab
    rw [hf.parent?_eq (has_of_parent hab), hab]
    rfl
  exact hxy.lift f hstep

/-- The way up from a row of the second outline goes over rows of the first. -/
theorem exists_below (hf : Renumbers f o o') (h : o.IsTree) (hx : o.has x = true)
    (hxy : o'.Below (f x) y) : ∃ z, o.Below x z ∧ f z = y := by
  have hstep : ∀ z parent, o.has z = true → o'.parent? (f z) = some parent →
      ∃ p, o.parent? z = some p ∧ f p = parent := by
    intro z parent hz hparent
    rw [hf.parent?_eq hz] at hparent
    exact Option.map_eq_some_iff.mp hparent
  induction hxy with
  | single hp =>
    obtain ⟨p, hp', rfl⟩ := hstep x _ hx hp
    exact ⟨p, .single hp', rfl⟩
  | tail _ hp ih =>
    obtain ⟨z, hxz, rfl⟩ := ih
    obtain ⟨p, hp', rfl⟩ := hstep z _ (h.has_of_below hx hxz) hp
    exact ⟨p, .tail hxz hp', rfl⟩

theorem below_iff (hf : Renumbers f o o') (h : o.IsTree) (hx : o.has x = true)
    (hy : o.has y = true) : o'.Below (f x) (f y) ↔ o.Below x y := by
  refine ⟨fun hxy => ?_, hf.below_map⟩
  obtain ⟨z, hxz, heq⟩ := hf.exists_below h hx hxy
  obtain rfl := (hf.inj (h.has_of_below hx hxz) hy).mp heq
  exact hxz

theorem atOrBelow_map (hf : Renumbers f o o') (hxy : o.AtOrBelow x y) :
    o'.AtOrBelow (f x) (f y) := by
  obtain rfl | hbelow := atOrBelow_iff.mp hxy
  · exact .refl
  · exact (hf.below_map hbelow).to_reflTransGen

theorem precedes_map (hf : Renumbers f o o') (h : o.IsTree) (hxy : o.Precedes x y) :
    o'.Precedes (f x) (f y) := by
  rcases hxy with hbelow | ⟨parent, left, right, hpair, hx, hy⟩
  · exact .inl (hf.below_map hbelow)
  · have hparent := h.has_parent (h.mem_children.mp (hpair.subset (by simp : left ∈ _)))
    have hchildren : [f left, f right].Sublist (o'.children (f parent)) := by
      rw [hf.children_eq hparent]
      exact hpair.map f
    exact .inr ⟨f parent, f left, f right, hchildren, hf.atOrBelow_map hx, hf.atOrBelow_map hy⟩

/-- Document order is total, so a renumbering that keeps it cannot turn two rows around. -/
theorem precedes_iff (hf : Renumbers f o o') (h : o.IsTree) (h' : o'.IsTree)
    (hx : o.has x = true) (hy : o.has y = true) :
    o'.Precedes (f x) (f y) ↔ o.Precedes x y := by
  refine ⟨fun hxy => ?_, hf.precedes_map h⟩
  rcases h.precedes_trichotomy hx hy with hlt | rfl | hgt
  · exact hlt
  · exact absurd hxy h'.precedes_irrefl
  · exact absurd (h'.precedes_trans hxy (hf.precedes_map h hgt)) h'.precedes_irrefl

theorem inDocumentOrder_map (hf : Renumbers f o o') (h : o.IsTree) {rows : List RowId}
    (hrows : o.InDocumentOrder rows) : o'.InDocumentOrder (rows.map f) := by
  constructor
  · intro id hid
    obtain ⟨x, hx, rfl⟩ := List.mem_map.mp hid
    exact hf.has (hrows.has x hx)
  · exact List.pairwise_map.mpr (hrows.ordered.imp (hf.precedes_map h))

theorem mem_map (hf : Renumbers f o o') {rows : List RowId} (hrows : ∀ id ∈ rows, o.has id = true)
    (hx : o.has x = true) : f x ∈ rows.map f ↔ x ∈ rows := by
  rw [List.mem_map]
  constructor
  · rintro ⟨y, hy, heq⟩
    obtain rfl := (hf.inj (hrows y hy) hx).mp heq
    exact hy
  · exact fun hmem => ⟨x, hmem, rfl⟩

/-- A list in document order is known by the rows of the first outline that are on it. -/
theorem eq_map (hf : Renumbers f o o') (h : o.IsTree) (h' : o'.IsTree) {rows rows' : List RowId}
    (hrows : o.InDocumentOrder rows) (hrows' : o'.InDocumentOrder rows')
    (hmem : ∀ x, o.has x = true → (f x ∈ rows' ↔ x ∈ rows)) : rows' = rows.map f := by
  refine h'.eq_of_mem_iff hrows' (hf.inDocumentOrder_map h hrows) fun id => ?_
  constructor
  · intro hid
    obtain ⟨x, hx, rfl⟩ := hf.exists_eq (hrows'.has id hid)
    exact (hf.mem_map hrows.has hx).mpr ((hmem x hx).mp hid)
  · intro hid
    obtain ⟨x, hx, rfl⟩ := List.mem_map.mp hid
    exact (hmem x (hrows.has x hx)).mpr hx

theorem siblings_iff (hf : Renumbers f o o') (h : o.IsTree) (hx : o.has x = true)
    (hy : o.has y = true) {a b : Nat} (ha : o.has a = true) (hb : o.has b = true) :
    (∃ parent, o'.parent? (f x) = some parent ∧ o'.parent? (f y) = some parent ∧
      [f a, f b].Sublist (o'.children parent)) ↔
    ∃ parent, o.parent? x = some parent ∧ o.parent? y = some parent ∧
      [a, b].Sublist (o.children parent) := by
  constructor
  · rintro ⟨parent', hxp, hyp, hsub⟩
    rw [hf.parent?_eq hx] at hxp
    obtain ⟨parent, hparent, rfl⟩ := Option.map_eq_some_iff.mp hxp
    have hhas := h.has_parent hparent
    refine ⟨parent, hparent, (hf.parent?_eq_some h hy hhas).mp hyp, ?_⟩
    rw [hf.children_eq hhas] at hsub
    obtain ⟨pair, hpair, heq⟩ := List.sublist_map_iff.mp hsub
    obtain ⟨a', _, rfl, haa, heq⟩ := List.map_eq_cons_iff.mp heq.symm
    obtain ⟨b', _, rfl, hbb, heq⟩ := List.map_eq_cons_iff.mp heq
    obtain rfl := List.map_eq_nil_iff.mp heq
    obtain rfl := (hf.inj (h.has_child (hpair.subset (by simp : a' ∈ _))) ha).mp haa
    obtain rfl := (hf.inj (h.has_child (hpair.subset (by simp : b' ∈ _))) hb).mp hbb
    exact hpair
  · rintro ⟨parent, hxp, hyp, hsub⟩
    have hparent := h.has_parent hxp
    refine ⟨f parent, (hf.parent?_eq_some h hx hparent).mpr hxp,
      (hf.parent?_eq_some h hy hparent).mpr hyp, ?_⟩
    rw [hf.children_eq hparent]
    exact hsub.map f

theorem onAxis_iff (hf : Renumbers f o o') (h : o.IsTree) (h' : o'.IsTree)
    (hx : o.has x = true) (hy : o.has y = true) (a : Axis) :
    o'.OnAxis a (f x) (f y) ↔ o.OnAxis a x y := by
  cases a with
  | child => exact hf.parent?_eq_some h hy hx
  | parent | parentShortcut => exact hf.parent?_eq_some h hx hy
  | self | selfShortcut => exact hf.inj hy hx
  | ancestor => exact hf.below_iff h hx hy
  | ancestorOrSelf => exact or_congr (hf.below_iff h hx hy) (hf.inj hy hx)
  | descendant | descendantShortcut => exact hf.below_iff h hy hx
  | descendantOrSelf | descendantOrSelfShortcut =>
    exact or_congr (hf.below_iff h hy hx) (hf.inj hy hx)
  | followingSibling => exact hf.siblings_iff h hx hy hx hy
  | precedingSibling => exact hf.siblings_iff h hx hy hy hx
  | following =>
    exact and_congr (hf.precedes_iff h h' hx hy) (not_congr (hf.below_iff h hy hx))
  | preceding =>
    exact and_congr (hf.precedes_iff h h' hy hx) (not_congr (hf.below_iff h hx hy))

theorem along_map (hf : Renumbers f o o') (h : o.IsTree) (h' : o'.IsTree) (hc : o.has c = true)
    (hx : o.has x = true) (a : Axis) :
    (Index.around o' (f c)).along a (f x) = ((Index.around o c).along a x).map f := by
  have hc' := hf.has hc
  have hx' := hf.has hx
  refine hf.eq_map h h' (h.along_inDocumentOrder hc hx a)
    (h'.along_inDocumentOrder hc' hx' a) fun y hy => ?_
  rw [h'.mem_along hc' hx', h.mem_along hc hx]
  exact hf.onAxis_iff h h' hx hy a

theorem inOrder_map (hf : Renumbers f o o') (h : o.IsTree) (h' : o'.IsTree)
    (hc : o.has c = true) {rows : List RowId} (hrows : ∀ id ∈ rows, o.has id = true) :
    (Index.around o' (f c)).inOrder (rows.map f) = ((Index.around o c).inOrder rows).map f := by
  have hrows' : ∀ id ∈ rows.map f, o'.has id = true := by
    intro id hid
    obtain ⟨x, hx, rfl⟩ := List.mem_map.mp hid
    exact hf.has (hrows x hx)
  refine hf.eq_map h h' (h.inOrder_inDocumentOrder hc hrows)
    (h'.inOrder_inDocumentOrder (hf.has hc) hrows') fun x hx => ?_
  rw [IsTree.mem_inOrder, IsTree.mem_inOrder]
  exact hf.mem_map hrows hx

theorem fromRow_map (hf : Renumbers f o o') (h : o.IsTree) (h' : o'.IsTree)
    (hc : o.has c = true) (hx : o.has x = true) (s : Step) :
    s.fromRow (.around o' (f c)) (f x) = (s.fromRow (.around o c) x).map f := by
  have hfilter : ((Index.around o' (f c)).along s.axis (f x)).filter (s.acceptsAt o') =
      (((Index.around o c).along s.axis x).filter (s.acceptsAt o)).map f := by
    rw [hf.along_map h h' hc hx, List.filter_map]
    congr 1
    refine List.filter_congr fun y hy => ?_
    exact hf.acceptsAt_eq s ((h.along_inDocumentOrder hc hx s.axis).has y hy)
  have houtline : (Index.around o c).outline = o := rfl
  have houtline' : (Index.around o' (f c)).outline = o' := rfl
  simp only [Step.fromRow, houtline, houtline', hfilter]
  cases s.slice with
  | none => rfl
  | some slice => exact slice.select_map f _

theorem found_map (hf : Renumbers f o o') (h : o.IsTree) (h' : o'.IsTree)
    (hc : o.has c = true) (s : Step) {contexts : List RowId}
    (hcontexts : ∀ id ∈ contexts, o.has id = true) :
    s.found (.around o' (f c)) (contexts.map f) = (s.found (.around o c) contexts).map f := by
  rw [Step.found, Step.found, List.flatMap_map, List.map_flatMap]
  exact List.flatMap_congr fun x hx => hf.fromRow_map h h' hc (hcontexts x hx) s

theorem follow_map (hf : Renumbers f o o') (h : o.IsTree) (h' : o'.IsTree)
    (hc : o.has c = true) (steps : List Step) {contexts : List RowId}
    (hcontexts : o.InDocumentOrder contexts) :
    Step.follow (.around o' (f c)) steps (contexts.map f) =
      (Step.follow (.around o c) steps contexts).map f := by
  induction steps generalizing contexts with
  | nil => rfl
  | cons s steps ih =>
    have hfound : ∀ id ∈ s.found (.around o c) contexts, o.has id = true := fun _ =>
      h.has_of_mem_found hc s hcontexts.has
    rw [Step.follow, Step.follow, hf.found_map h h' hc s hcontexts.has,
      hf.inOrder_map h h' hc hfound]
    exact ih (h.step_inDocumentOrder hc s hcontexts)

theorem start_map (hf : Renumbers f o o') (h : o.IsTree) (h' : o'.IsTree) (hc : o.has c = true)
    (p : Path) : p.start (.around o' (f c)) (f c) = (p.start (.around o c) c).map f := by
  rw [Path.start, Path.start, h.items_around hc, h'.items_around (hf.has hc), h.order_eq,
    h'.order_eq]
  split
  · simp [hf.root]
  · rfl

theorem contains_map (hf : Renumbers f o o') {rows : List RowId}
    (hrows : ∀ id ∈ rows, o.has id = true) (hx : o.has x = true) :
    (rows.map f).contains (f x) = rows.contains x := by
  rw [Bool.eq_iff_iff, List.contains_iff_mem, List.contains_iff_mem]
  exact hf.mem_map hrows hx

theorem rows_map (hf : Renumbers f o o') (h : o.IsTree) (h' : o'.IsTree) (hc : o.has c = true)
    (l : Location) : l.rows (.around o' (f c)) (f c) = (l.rows (.around o c) c).map f := by
  cases l with
  | path p =>
    rw [Location.rows, Location.rows, Path.rows, Path.rows, hf.start_map h h' hc p]
    exact hf.follow_map h h' hc p.steps (h.start_inDocumentOrder hc p)
  | union left right =>
    have hl := (h.rows_inDocumentOrder hc left).has
    have hr := (h.rows_inDocumentOrder hc right).has
    rw [Location.rows, Location.rows, hf.rows_map h h' hc left, hf.rows_map h h' hc right,
      ← List.map_append]
    refine hf.inOrder_map h h' hc fun id hid => ?_
    exact (List.mem_append.mp hid).elim (hl id) (hr id)
  | except left right =>
    have hl := (h.rows_inDocumentOrder hc left).has
    have hr := (h.rows_inDocumentOrder hc right).has
    simp only [Location.rows, hf.rows_map h h' hc left, hf.rows_map h h' hc right,
      List.filter_map]
    congr 1
    refine List.filter_congr fun x hx => ?_
    rw [Function.comp_apply, hf.contains_map hr (hl x hx)]
  | intersect left right =>
    have hl := (h.rows_inDocumentOrder hc left).has
    have hr := (h.rows_inDocumentOrder hc right).has
    simp only [Location.rows, hf.rows_map h h' hc left, hf.rows_map h h' hc right,
      List.filter_map]
    congr 1
    refine List.filter_congr fun x hx => ?_
    rw [Function.comp_apply, hf.contains_map hr (hl x hx)]

end Outline.Renumbers

open Outline

/-- The order in which the rows were made is irrelevant: in an outline that holds the same tree
under other numbers, an expression selects the same rows in the same order, or it fails with the
same error. -/
theorem evaluate_renumbered {o o' : Outline} (ho : o.Reachable) (ho' : o'.Reachable)
    {f : RowId → RowId} (hf : Renumbers f o o') {context : RowId} (hc : o.has context = true)
    (e : Expression) :
    e.evaluate o' (f context) = (e.evaluate o context).map (·.map f) := by
  cases e with
  | function fn => rfl
  | location l =>
    have hrows := hf.rows_map ho.isTree ho'.isTree hc l
    rw [Expression.evaluate, Expression.evaluate, hrows]
    cases l.check with
    | error u => rfl
    | ok _ => rfl

def inOrderMade : Outline :=
  (((Outline.empty.append root "a").append 1 "c").appendHeading root "b").append 3 "d"

theorem inOrderMade_reachable : inOrderMade.Reachable :=
  .append "d" (.appendHeading "b" (.append "c" (.append "a" .empty rfl) rfl) rfl) rfl

theorem renumbers_place : Renumbers lateChild.place lateChild inOrderMade := by
  have hrow : ∀ id < 5, ∃ r r', lateChild.row? id = some r ∧
      inOrderMade.row? (lateChild.place id) = some r' ∧ r.MatchesUnder lateChild.place r' := by
    intro id hid
    match id, hid with
    | 0, _ | 1, _ | 2, _ | 3, _ | 4, _ => exact ⟨_, _, rfl, rfl, rfl, fun _ => rfl, rfl, rfl⟩
  have h := lateChild_reachable.isTree
  refine ⟨⟨?_, ?_, ?_⟩, rfl, ?_⟩
  · intro id hid
    exact has_iff.mpr (h.place_lt_length hid)
  · intro id hid other _ heq
    exact (h.place_inj hid).mp heq
  · intro id hid
    obtain ⟨x, hx, heq⟩ := h.exists_place (n := id) (has_iff.mp hid)
    exact ⟨x, hx, heq⟩
  · intro id r hr
    obtain ⟨r₁, r', hr₁, hr', hmatch⟩ := hrow id (Array.getElem?_eq_some_iff.mp hr).1
    obtain rfl := Option.some.inj (hr₁.symm.trans hr)
    exact ⟨r', hr', hmatch⟩

/-- What stands before the last row in document order was made after it in one of the outlines. -/
theorem preceding_renumbered :
    Renumbers lateChild.place lateChild inOrderMade ∧ lateChild.has 3 = true ∧
    (Expression.location (.path ⟨false, [⟨.preceding, .any, .any, none⟩]⟩)).evaluate lateChild 3 =
      .ok [1, 4] ∧
    (Expression.location (.path ⟨false, [⟨.preceding, .any, .any, none⟩]⟩)).evaluate inOrderMade
      (lateChild.place 3) = .ok [1, 2] := by
  have hlate : (Expression.location (.path ⟨false, [⟨.preceding, .any, .any, none⟩]⟩)).evaluate
      lateChild 3 = .ok [1, 4] := by cbv
  refine ⟨renumbers_place, rfl, hlate, ?_⟩
  rw [evaluate_renumbered lateChild_reachable inOrderMade_reachable renumbers_place
    (rfl : lateChild.has 3 = true), hlate]
  rfl

end OutlineQuery
