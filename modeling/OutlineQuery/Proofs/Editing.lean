import OutlineQuery.Proofs.Axes

/-! What each way of changing an outline does to its rows, and that the tree stays one: a new row
goes behind the children of its parent and nowhere else, and an attribute is set in its row only. -/

namespace OutlineQuery

namespace Row

theorem lookup_filter_ne {name other : String} (hne : other ≠ name)
    (attributes : List (String × String)) :
    (attributes.filter (·.1 ≠ name)).lookup other = attributes.lookup other := by
  induction attributes with
  | nil => rfl
  | cons entry attributes ih =>
    obtain ⟨key, value⟩ := entry
    by_cases hkey : key = name
    · subst hkey
      rw [List.filter_cons_of_neg (by simp), ih, List.lookup_cons, beq_false_of_ne hne]
    · rw [List.filter_cons_of_pos (by simpa using hkey), List.lookup_cons, List.lookup_cons, ih]

theorem attribute?_setAttribute (r : Row) (name value other : String) :
    (r.setAttribute name value).attribute? other =
      if other = name then some value else r.attribute? other := by
  rw [attribute?, setAttribute, List.lookup_cons]
  by_cases hname : other = name
  · rw [if_pos hname, beq_iff_eq.mpr hname]
  · rw [if_neg hname, beq_false_of_ne hname]
    exact lookup_filter_ne hname r.attributes

end Row

namespace Outline

structure RowAppended (o : Outline) (parent : RowId) (row : Row) (o' : Outline) : Prop where
  size_eq : o'.size = o.size + 1
  row_new : o'.row? o.size = some row
  row_parent : o'.row? parent =
    (o.row? parent).map fun r => { r with children := r.children ++ [o.size] }
  row_other {id : RowId} : id ≠ o.size → id ≠ parent → o'.row? id = o.row? id

structure AttributeSet (o : Outline) (id : RowId) (name value : String) (o' : Outline) : Prop where
  size_eq : o'.size = o.size
  row_named : ∃ r r', o.row? id = some r ∧ o'.row? id = some r' ∧ r'.text = r.text ∧
    r'.parent = r.parent ∧ r'.children = r.children ∧
    ∀ other, r'.attribute? other = if other = name then some value else r.attribute? other
  row_other {other : RowId} : other ≠ id → o'.row? other = o.row? other

def climb (o : Outline) : Nat → RowId → Option RowId
  | 0, id => some id
  | steps + 1, id => (o.parent? id).bind (o.climb steps)

section
variable {o : Outline} {id parent : Nat}

theorem rowAppended_append (hp : o.has parent = true) (text : String) :
    o.RowAppended parent ⟨text, [], some parent, []⟩ (o.append parent text) where
  size_eq := size_append
  row_new := by
    rw [row?_append, if_pos rfl]
    rfl
  row_parent := by
    have hlt := has_iff.mp hp
    rw [row?_append, if_neg hlt.ne, if_pos rfl]
    rfl
  row_other hnew hne := by rw [row?_append, if_neg hnew, if_neg hne]

theorem attributeSet_setAttribute (hid : o.has id = true) (name value : String) :
    o.AttributeSet id name value (o.setAttribute id name value) where
  size_eq := size_setAttribute
  row_named := by
    obtain ⟨r, hrow⟩ := exists_row? hid
    have hset : (o.setAttribute id name value).row? id = some (r.setAttribute name value) := by
      rw [row?_setAttribute, if_pos rfl, hrow]
      rfl
    exact ⟨r, _, hrow, hset, rfl, rfl, rfl, r.attribute?_setAttribute name value⟩
  row_other hne := by rw [row?_setAttribute, if_neg (Ne.symm hne)]

/-- The attribute goes to the new row, so all others are as after a plain append. -/
theorem rowAppended_appendHeading (hp : o.has parent = true) (text : String) :
    o.RowAppended parent ⟨text, [(typeAttribute, headingType)], some parent, []⟩
      (o.appendHeading parent text) := by
  have happend := rowAppended_append hp text
  have hlt := has_iff.mp hp
  refine ⟨?_, ?_, ?_, fun {other} hnew hne => ?_⟩
  · rw [appendHeading, size_setAttribute, happend.size_eq]
  · rw [appendHeading, row?_setAttribute, if_pos rfl, happend.row_new]
    rfl
  · rw [appendHeading, row?_setAttribute, if_neg hlt.ne', happend.row_parent]
  · rw [appendHeading, row?_setAttribute, if_neg (Ne.symm hnew), happend.row_other hnew hne]

namespace IsTree

/-- The lists of children tell the parents. -/
theorem count_children (h : o.IsTree) : (o.children parent).count id =
    if o.parent? id = some parent then 1 else 0 := by
  have hnodup : (o.children parent).Nodup := (h.children_increase parent).imp Nat.ne_of_lt
  rw [hnodup.count]
  simp only [h.mem_children]

/-- The parent is older than its child, so there are no more steps than rows made before. -/
theorem exists_climb_root (h : o.IsTree) (hid : o.has id = true) :
    ∃ steps ≤ id, o.climb steps id = some root := by
  induction id using Nat.strong_induction_on with
  | _ id ih =>
    by_cases hroot : id = root
    · exact ⟨0, Nat.zero_le id, congrArg some hroot⟩
    · obtain ⟨parent, hp⟩ := h.exists_parent hid hroot
      have hlt := h.parent_lt hp
      obtain ⟨steps, hsteps, hclimb⟩ := ih parent hlt (h.has_parent hp)
      refine ⟨steps + 1, by omega, ?_⟩
      rw [climb, hp, Option.bind_some, hclimb]

end IsTree
end

/-- Whatever rows are appended and whatever attributes are set, an outline is a finite tree in
which parents and lists of children agree. Each change leaves all rows as they are, but for the
new row, which is the last child of its parent, or for the attribute that is set. -/
theorem stays_finite_tree {o : Outline} (ho : o.Reachable) :
    (o.parent? root = none ∧
      (∀ id, o.has id = true → id ≠ root → ∃ parent < id, o.parent? id = some parent ∧
        ∀ p, (o.children p).count id = if p = parent then 1 else 0) ∧
      (∀ p, (o.children p).Pairwise (· < ·) ∧ ∀ id ∈ o.children p, o.parent? id = some p) ∧
      ∀ id, o.has id = true → ∃ steps ≤ id, o.climb steps id = some root) ∧
    (∀ parent text, o.has parent = true →
      o.RowAppended parent ⟨text, [], some parent, []⟩ (o.append parent text) ∧
      o.RowAppended parent ⟨text, [(typeAttribute, headingType)], some parent, []⟩
        (o.appendHeading parent text)) ∧
    ∀ id name value, o.has id = true →
      o.AttributeSet id name value (o.setAttribute id name value) := by
  have h := ho.isTree
  refine ⟨⟨h.parent_root, ?_, ?_, fun id hid => h.exists_climb_root hid⟩, ?_, ?_⟩
  · intro id hid hne
    obtain ⟨parent, hp⟩ := h.exists_parent hid hne
    refine ⟨parent, h.parent_lt hp, hp, fun p => ?_⟩
    rw [h.count_children, hp]
    simp only [Option.some.injEq, @eq_comm _ parent]
  · exact fun p => ⟨h.children_increase p, fun id hid => h.mem_children.mp hid⟩
  · exact fun parent text hp => ⟨rowAppended_append hp text, rowAppended_appendHeading hp text⟩
  · exact fun id name value hid => attributeSet_setAttribute hid name value

/-- The row made last is a child of the one made first. A row goes behind its elder sibling, and a
heading can be turned into something else. -/
theorem lateChild_stays_finite :
    lateChild.has 4 = true ∧ lateChild.parent? 4 = some 1 ∧
    (∀ p, (lateChild.children p).count 4 = if p = 1 then 1 else 0) ∧
    (∃ steps ≤ 4, lateChild.climb steps 4 = some root) ∧
    lateChild.RowAppended 2 ⟨"e", [], some 2, []⟩ (lateChild.append 2 "e") ∧
    lateChild.AttributeSet 2 typeAttribute "task"
      (lateChild.setAttribute 2 typeAttribute "task") := by
  obtain ⟨⟨-, hparents, -, hclimb⟩, happend, hset⟩ := stays_finite_tree lateChild_reachable
  obtain ⟨parent, -, hp, hcount⟩ := hparents 4 rfl (by decide)
  obtain rfl : 1 = parent := Option.some.inj hp
  exact ⟨rfl, hp, hcount, hclimb 4 rfl, (happend 2 "e" rfl).1, hset 2 typeAttribute "task" rfl⟩

end Outline
end OutlineQuery
