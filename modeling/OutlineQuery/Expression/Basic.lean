import OutlineQuery.Expression.Axis
import OutlineQuery.Expression.Relation

/-!
Path expressions. A path is a sequence of steps, each a direction with a test for the rows it
reaches; locations combine paths as sets of rows.
-/

namespace OutlineQuery

inductive RowType where
  | any | heading
deriving DecidableEq

def RowType.all : List RowType := [.any, .heading]

def RowType.name : RowType → String
  | .any => "any"
  | .heading => "heading"

def RowType.ofName? (name : String) : Option RowType := all.find? (·.name = name)

theorem RowType.ofName?_name (t : RowType) : ofName? t.name = some t := by cases t <;> decide

/-- A choice of rows by number, `[n]` or `[a:b]`; a negative number counts from the end. -/
structure Slice where
  start : Option Int64
  stop : Option Int64
  range : Bool
deriving DecidableEq

namespace Slice

def index (n : Int64) : Slice := ⟨some n, none, false⟩

def between (start stop : Option Int64) : Slice := ⟨start, stop, true⟩

end Slice

mutual

inductive Value where
  | literal (text : String)
  | attribute (name : String)
  | call (function : Function)

structure Function where
  name : String
  argument : Location

/-- A comparison without relation and right side asks whether the left side is there. -/
inductive Predicate where
  | any
  | not (inner : Predicate)
  | and (left right : Predicate)
  | or (left right : Predicate)
  | comparison (left : Value) (relation : Option Relation) (modifier : Modifier)
      (right : Option Value)

structure Step where
  axis : Axis
  type : RowType
  predicate : Predicate
  slice : Option Slice

structure Path where
  absolute : Bool
  steps : List Step

inductive Location where
  | path (path : Path)
  | union (left right : Location)
  | except (left right : Location)
  | intersect (left right : Location)

end

inductive Expression where
  | function (function : Function)
  | location (location : Location)

def textAttribute : String := "text"

def Value.text : Value := .attribute textAttribute

namespace Predicate

def presence (value : Value) (modifier : Modifier) : Predicate :=
  .comparison value none modifier none

def textContains (value : Value) (modifier : Modifier) : Predicate :=
  .comparison .text (some .contains) modifier (some value)

end Predicate
end OutlineQuery
