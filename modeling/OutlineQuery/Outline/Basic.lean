/-!
Outlines: rows with a text and attributes in a tree. Row 0 is the root; a new row goes behind the
children that its parent has.
-/

namespace OutlineQuery

abbrev RowId := Nat

structure Row where
  text : String
  attributes : List (String × String)
  parent : Option RowId
  children : List RowId
deriving DecidableEq

namespace Row

def new (parent : Option RowId) (text : String) : Row := ⟨text, [], parent, []⟩

def attribute? (r : Row) (name : String) : Option String := r.attributes.lookup name

def setAttribute (r : Row) (name value : String) : Row :=
  { r with attributes := (name, value) :: r.attributes.filter (·.1 ≠ name) }

def addChild (r : Row) (child : RowId) : Row := { r with children := r.children ++ [child] }

end Row

structure Outline where
  rows : Array Row
deriving DecidableEq

namespace Outline

def root : RowId := 0

def typeAttribute : String := "type"

def headingType : String := "heading"

def empty : Outline := ⟨#[.new none ""]⟩

def size (o : Outline) : Nat := o.rows.size

def isEmpty (o : Outline) : Bool := o.size == 1

def has (o : Outline) (id : RowId) : Bool := id < o.size

def row? (o : Outline) (id : RowId) : Option Row := o.rows[id]?

def parent? (o : Outline) (id : RowId) : Option RowId := (o.row? id).bind (·.parent)

def children (o : Outline) (id : RowId) : List RowId :=
  match o.row? id with
  | some row => row.children
  | none => []

def append (o : Outline) (parent : RowId) (text : String) : Outline :=
  ⟨(o.rows.modify parent (·.addChild o.size)).push (.new (some parent) text)⟩

def setAttribute (o : Outline) (id : RowId) (name value : String) : Outline :=
  ⟨o.rows.modify id (·.setAttribute name value)⟩

def appendHeading (o : Outline) (parent : RowId) (text : String) : Outline :=
  (o.append parent text).setAttribute o.size typeAttribute headingType

def unfoldStack (o : Outline) : Nat → List RowId → List RowId
  | 0, _ => []
  | _, [] => []
  | bound + 1, id :: stack => id :: unfoldStack o bound (o.children id ++ stack)

def descendants (o : Outline) (id : RowId) : List RowId :=
  o.unfoldStack o.size (o.children id)

def ancestorsWithin (o : Outline) : Nat → RowId → List RowId
  | 0, _ => []
  | bound + 1, id =>
    match o.parent? id with
    | none => []
    | some parent => parent :: ancestorsWithin o bound parent

def ancestors (o : Outline) (id : RowId) : List RowId := o.ancestorsWithin o.size id

def top (o : Outline) (id : RowId) : RowId := (o.ancestors id).getLast?.getD id

end Outline
end OutlineQuery
