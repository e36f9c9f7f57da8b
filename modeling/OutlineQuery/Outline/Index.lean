import OutlineQuery.Expression.Axis
import OutlineQuery.Outline.Basic

/-!
An outline with its rows in document order. The rows below a row stand right behind it, up to a
position that is looked up, so most axes are stretches of the order.
-/

namespace OutlineQuery.Outline

structure Index where
  outline : Outline
  /-- The rows in document order, the root first. -/
  items : List RowId
  /-- For each position, the first one behind it that is not below its row. -/
  ends : Array Nat

def extendParent (o : Outline) (items : List RowId) (row : RowId × Nat) (ends : Array Nat) :
    Array Nat :=
  match (o.parent? row.1).bind items.idxOf? with
  | some parent => ends.modify parent (max · (ends.getD row.2 0))
  | none => ends

/-- The ends of the subtrees, each made as far as the ends of its children, the last row first. -/
def subtreeEnds (o : Outline) (items : List RowId) : Array Nat :=
  items.zipIdx.foldr (o.extendParent items) ((Array.range items.length).map (· + 1))

namespace Index

def around (o : Outline) (id : RowId) : Index :=
  let items := o.top id :: o.descendants (o.top id)
  ⟨o, items, o.subtreeEnds items⟩

def position? (ix : Index) (id : RowId) : Option Nat := ix.items.idxOf? id

def endOf (ix : Index) (position : Nat) : Nat := ix.ends.getD position 0

def stretch (ix : Index) (start stop : Nat) : List RowId :=
  (ix.items.take stop).drop start

def siblings (ix : Index) (id : RowId) (keep : Nat → Bool) : List RowId :=
  match ix.outline.parent? id with
  | none => []
  | some parent => (ix.outline.children parent).filter fun sibling =>
      (ix.position? sibling).any keep

def endedBefore (ix : Index) (position : Nat) : List RowId :=
  ((ix.items.take position).zipIdx.filter fun (_, other) => ix.endOf other ≤ position).map (·.1)

def along (ix : Index) (a : Axis) (id : RowId) : List RowId :=
  match ix.position? id with
  | none => []
  | some position =>
    match a with
    | .child => ix.outline.children id
    | .descendant | .descendantShortcut => ix.stretch (position + 1) (ix.endOf position)
    | .descendantOrSelf | .descendantOrSelfShortcut => ix.stretch position (ix.endOf position)
    | .parent | .parentShortcut => (ix.outline.parent? id).toList
    | .self | .selfShortcut => [id]
    | .ancestor => (ix.outline.ancestors id).reverse
    | .ancestorOrSelf => (ix.outline.ancestors id).reverse ++ [id]
    | .followingSibling => ix.siblings id (position < ·)
    | .precedingSibling => ix.siblings id (· < position)
    | .following => ix.items.drop (ix.endOf position)
    | .preceding => ix.endedBefore position

def rank (ix : Index) (id : RowId) : Nat := (ix.position? id).getD ix.items.length

def sorted (ix : Index) (rows : List RowId) : List RowId :=
  ((rows.map fun id => (ix.rank id, id)).mergeSort fun a b => a.1 ≤ b.1).map (·.2)

def withoutRepeats (rows : List RowId) : List RowId :=
  rows.foldr (fun id kept => if kept.head? = some id then kept else id :: kept) []

def inOrder (ix : Index) (rows : List RowId) : List RowId := withoutRepeats (ix.sorted rows)

end Index
end OutlineQuery.Outline
