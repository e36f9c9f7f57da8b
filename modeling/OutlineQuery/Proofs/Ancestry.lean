import Mathlib.Data.Nat.Basic
import Mathlib.Logic.Relation
import Mathlib.Order.Basic
import OutlineQuery.Outline.Basic

/-! Outlines as they can be made. Every row but the root has a parent, which was made before it and
has it among its children once; so each row is below the root, and the way up ends there. -/

namespace OutlineQuery.Outline

inductive Reachable : Outline → Prop
  | empty : Reachable .empty
  | append {o : Outline} {parent : RowId} (text : String) : Reachable o → o.has parent = true →
      Reachable (o.append parent text)
  | appendHeading {o : Outline} {parent : RowId} (text : String) : Reachable o →
      o.has parent = true → Reachable (o.appendHeading parent text)
  | setAttribute {o : Outline} {id : RowId} (name value : String) : Reachable o →
      o.has id = true → Reachable (o.setAttribute id name value)

structure IsTree (o : Outline) : Prop where
  has_root : o.has root = true
  parent_root : o.parent? root = none
  exists_parent {id : Nat} : o.has id = true → id ≠ root → ∃ parent, o.parent? id = some parent
  parent_lt {id parent : Nat} : o.parent? id = some parent → parent < id
  mem_children {id parent : Nat} : id ∈ o.children parent ↔ o.parent? id = some parent
  children_increase (parent : Nat) : (o.children parent).Pairwise (· < ·)

def Below (o : Outline) : RowId → RowId → Prop :=
  Relation.TransGen fun id parent => o.parent? id = some parent

def AtOrBelow (o : Outline) : RowId → RowId → Prop :=
  Relation.ReflTransGen fun id parent => o.parent? id = some parent

section
variable {o : Outline} {id parent x y : Nat} {text name value : String}

theorem atOrBelow_iff : o.AtOrBelow x y ↔ y = x ∨ o.Below x y :=
  Relation.reflTransGen_iff_eq_or_transGen

theorem has_iff : o.has id = true ↔ id < o.size := by simp [has]

theorem exists_row? (h : o.has id = true) : ∃ row, o.row? id = some row :=
  ⟨_, Array.getElem?_eq_getElem (has_iff.mp h)⟩

theorem has_of_parent (h : o.parent? id = some parent) : o.has id = true := by
  rw [has_iff]
  obtain ⟨row, hrow, -⟩ := Option.bind_eq_some_iff.mp h
  exact (Array.getElem?_eq_some_iff.mp hrow).1

theorem has_below (h : o.Below x y) : o.has x = true := by
  obtain ⟨p, hp, -⟩ := Relation.TransGen.head'_iff.mp h
  exact has_of_parent hp

theorem has_atOrBelow (hy : o.has y = true) (h : o.AtOrBelow x y) : o.has x = true := by
  obtain rfl | hxy := atOrBelow_iff.mp h
  · exact hy
  · exact has_below hxy

theorem size_append : (o.append parent text).size = o.size + 1 := by
  simp [append, size]

theorem row?_append : (o.append parent text).row? id =
    if id = o.size then some (.new (some parent) text)
    else if id = parent then (o.row? id).map (·.addChild o.size) else o.row? id := by
  simp only [append, row?, size, Array.getElem?_push, Array.size_modify, Array.getElem?_modify,
    @eq_comm _ parent]
  rfl

theorem row?_size : o.row? o.size = none := by simp [row?, size]

theorem parent?_append : (o.append parent text).parent? id =
    if id = o.size then some parent else o.parent? id := by
  unfold parent?
  rw [row?_append]
  split
  · rfl
  · split
    · cases o.row? id <;> rfl
    · rfl

theorem children_append (h : o.has parent = true) : (o.append parent text).children id =
    if id = parent then o.children id ++ [o.size] else o.children id := by
  have hlt := has_iff.mp h
  unfold children
  rw [row?_append]
  by_cases hnew : id = o.size
  · subst hnew
    rw [if_pos rfl, if_neg hlt.ne', row?_size]
    rfl
  · rw [if_neg hnew]
    by_cases hp : id = parent
    · subst hp
      obtain ⟨row, hrow⟩ := exists_row? h
      simp [hrow, Row.addChild]
    · simp [hp]

theorem row?_setAttribute : (o.setAttribute id name value).row? parent =
    if id = parent then (o.row? parent).map (·.setAttribute name value) else o.row? parent := by
  simp [setAttribute, row?, Array.getElem?_modify]

theorem size_setAttribute : (o.setAttribute id name value).size = o.size := by
  simp [setAttribute, size]

theorem parent?_setAttribute : (o.setAttribute id name value).parent? = o.parent? := by
  funext other
  unfold parent?
  rw [row?_setAttribute]
  split
  · cases o.row? other <;> rfl
  · rfl

theorem children_setAttribute : (o.setAttribute id name value).children = o.children := by
  funext other
  unfold children
  rw [row?_setAttribute]
  by_cases h : id = other
  · rw [if_pos h]
    cases o.row? other <;> rfl
  · rw [if_neg h]

end

namespace IsTree
variable {o : Outline} {id parent child : Nat}

theorem has_child (h : o.IsTree) (hc : child ∈ o.children parent) : o.has child = true :=
  has_of_parent (h.mem_children.mp hc)

theorem has_parent (h : o.IsTree) (hp : o.parent? id = some parent) : o.has parent = true := by
  have hid := has_iff.mp (has_of_parent hp)
  have hlt := h.parent_lt hp
  exact has_iff.mpr (hlt.trans hid)

theorem empty : Outline.empty.IsTree where
  has_root := rfl
  parent_root := rfl
  exists_parent {id} hid hne := by
    have hlt : id < 1 := has_iff.mp hid
    exact absurd (Nat.lt_one_iff.mp hlt) hne
  parent_lt {id parent} h := by
    have hlt : id < 1 := has_iff.mp (has_of_parent h)
    obtain rfl := Nat.lt_one_iff.mp hlt
    cases h
  mem_children {id parent} := by
    constructor
    · intro h
      match parent with
      | 0 => cases h
      | _ + 1 => cases h
    · intro h
      have hlt : id < 1 := has_iff.mp (has_of_parent h)
      obtain rfl := Nat.lt_one_iff.mp hlt
      cases h
  children_increase
    | 0 => .nil
    | _ + 1 => .nil

/-- The new row is the last child of its parent. -/
theorem mem_children_append (h : o.IsTree) (hp : o.has parent = true) (text : String) {p : Nat} :
    id ∈ (o.append parent text).children p ↔ (o.append parent text).parent? id = some p := by
  rw [children_append hp, parent?_append]
  by_cases hnew : id = o.size
  · have hnone : id ∉ o.children p := by
      intro hmem
      have hid := has_iff.mp (h.has_child hmem)
      omega
    by_cases hpp : p = parent
    · simp [hnew, hpp]
    · rw [if_neg hpp, if_pos hnew]
      exact iff_of_false hnone fun heq => hpp (Option.some.inj heq).symm
  · rw [if_neg hnew, ← h.mem_children]
    by_cases hpp : p = parent
    · simp [hpp, hnew]
    · simp [hpp]

theorem children_append_increase (h : o.IsTree) (hp : o.has parent = true) (text : String)
    (p : Nat) : ((o.append parent text).children p).Pairwise (· < ·) := by
  rw [children_append hp]
  split
  · refine List.pairwise_append.mpr ⟨h.children_increase p, List.pairwise_singleton _ _, ?_⟩
    intro c hc d hd
    have hlt := has_iff.mp (h.has_child hc)
    obtain rfl := List.mem_singleton.mp hd
    exact hlt
  · exact h.children_increase p

theorem append (h : o.IsTree) (hp : o.has parent = true) (text : String) :
    (o.append parent text).IsTree where
  has_root := by
    have hroot := has_iff.mp h.has_root
    rw [has_iff, size_append]
    omega
  parent_root := by
    have hroot := has_iff.mp h.has_root
    rw [parent?_append, if_neg hroot.ne]
    exact h.parent_root
  exists_parent {id} hid hne := by
    rw [has_iff, size_append] at hid
    rw [parent?_append]
    by_cases hnew : id = o.size
    · exact ⟨parent, if_pos hnew⟩
    · rw [if_neg hnew]
      exact h.exists_parent (has_iff.mpr (by omega)) hne
  parent_lt {id p} hparent := by
    have hlt := has_iff.mp hp
    rw [parent?_append] at hparent
    split at hparent
    · cases hparent
      omega
    · exact h.parent_lt hparent
  mem_children := h.mem_children_append hp text
  children_increase := h.children_append_increase hp text

theorem setAttribute (h : o.IsTree) (name value : String) :
    (o.setAttribute id name value).IsTree := by
  refine ⟨?_, ?_, ?_, ?_, ?_, ?_⟩ <;>
    simp only [has_iff, size_setAttribute, parent?_setAttribute, children_setAttribute]
  · exact has_iff.mp h.has_root
  · exact h.parent_root
  · exact fun hid => h.exists_parent (has_iff.mpr hid)
  · exact h.parent_lt
  · exact h.mem_children
  · exact h.children_increase

end IsTree

theorem Reachable.isTree {o : Outline} (h : o.Reachable) : o.IsTree := by
  induction h with
  | empty => exact .empty
  | append text _ hp ih => exact ih.append hp text
  | appendHeading text _ hp ih => exact (ih.append hp text).setAttribute typeAttribute headingType
  | setAttribute name value _ _ ih => exact ih.setAttribute name value

namespace IsTree
variable {o : Outline} {x y parent left right : Nat}

theorem lt_of_below (h : o.IsTree) (hb : o.Below x y) : y < x := by
  induction hb with
  | single hp => exact h.parent_lt hp
  | tail _ hp ih => exact (h.parent_lt hp).trans ih

theorem le_of_atOrBelow (h : o.IsTree) (hb : o.AtOrBelow x y) : y ≤ x := by
  obtain rfl | hb := atOrBelow_iff.mp hb
  · exact Nat.le_refl _
  · exact (h.lt_of_below hb).le

theorem has_of_atOrBelow (h : o.IsTree) (hx : o.has x = true) (hb : o.AtOrBelow x y) :
    o.has y = true :=
  has_iff.mpr ((h.le_of_atOrBelow hb).trans_lt (has_iff.mp hx))

theorem atOrBelow_root (h : o.IsTree) (hx : o.has x = true) : o.AtOrBelow x root := by
  induction x using Nat.strong_induction_on with
  | _ x ih =>
    by_cases hroot : x = root
    · rw [hroot]
      exact .refl
    · obtain ⟨parent, hp⟩ := h.exists_parent hx hroot
      exact .head hp (ih parent (h.parent_lt hp) (h.has_parent hp))

/-- The way up from a row passes one child of each row above it only. -/
theorem eq_of_atOrBelow_siblings (h : o.IsTree) (hl : left ∈ o.children parent)
    (hr : right ∈ o.children parent) (hxl : o.AtOrBelow x left) (hxr : o.AtOrBelow x right) :
    left = right := by
  have hunique : Relator.RightUnique fun id parent => o.parent? id = some parent :=
    fun _ _ _ h₁ h₂ => Option.some.inj (h₁.symm.trans h₂)
  -- a sibling above the other would be above their parent, which is older than both
  have hnot : ∀ {c d : RowId}, c ∈ o.children parent → d ∈ o.children parent →
      ¬o.Below c d := by
    intro c d hc hd hbelow
    obtain ⟨p, hcp, hpd⟩ := Relation.TransGen.head'_iff.mp hbelow
    obtain rfl := hunique hcp (h.mem_children.mp hc)
    have hle := h.le_of_atOrBelow hpd
    have hlt := h.parent_lt (h.mem_children.mp hd)
    omega
  rcases Relation.ReflTransGen.total_of_right_unique hunique hxl hxr with hlr | hrl
  · obtain heq | hlt := atOrBelow_iff.mp hlr
    · exact heq.symm
    · exact absurd hlt (hnot hl hr)
  · obtain heq | hlt := atOrBelow_iff.mp hrl
    · exact heq
    · exact absurd hlt (hnot hr hl)

end IsTree
end OutlineQuery.Outline
