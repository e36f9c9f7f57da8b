import OutlineQuery.Evaluation.Check
import OutlineQuery.Evaluation.Predicate
import OutlineQuery.Evaluation.Slice
import OutlineQuery.Event
import OutlineQuery.Outline.Index

/-!
Evaluation of path expressions over an outline. Every list of rows on the way, and the answer, is
in document order and holds no row twice.
-/

namespace OutlineQuery
open Outline

namespace Step

def acceptsAt (s : Step) (o : Outline) (id : RowId) : Bool := (o.row? id).any s.accepts

def fromRow (s : Step) (ix : Index) (id : RowId) : List RowId :=
  let found := (ix.along s.axis id).filter (s.acceptsAt ix.outline)
  match s.slice with
  | some slice => slice.select found
  | none => found

def found (s : Step) (ix : Index) (contexts : List RowId) : List RowId :=
  contexts.flatMap (s.fromRow ix)

def follow (ix : Index) : List Step → List RowId → List RowId
  | [], contexts => contexts
  | s :: steps, contexts => follow ix steps (ix.inOrder (s.found ix contexts))

def followEvents (ix : Index) : List Step → List RowId → List Event
  | [], _ => []
  | s :: steps, contexts =>
    let found := s.found ix contexts
    .stepped s.axis contexts.length found.length :: followEvents ix steps (ix.inOrder found)

end Step

def Path.start (p : Path) (ix : Index) (context : RowId) : List RowId :=
  if p.absolute then ix.items.take 1 else [context]

def Path.rows (p : Path) (ix : Index) (context : RowId) : List RowId :=
  Step.follow ix p.steps (p.start ix context)

def Path.events (p : Path) (ix : Index) (context : RowId) : List Event :=
  Step.followEvents ix p.steps (p.start ix context)

namespace Location

def rows (ix : Index) (context : RowId) : Location → List RowId
  | .path p => p.rows ix context
  | .union left right => ix.inOrder (left.rows ix context ++ right.rows ix context)
  | .except left right =>
    let dropped := right.rows ix context
    (left.rows ix context).filter (!dropped.contains ·)
  | .intersect left right =>
    let kept := right.rows ix context
    (left.rows ix context).filter kept.contains

/-- The steps taken; where the right side says which rows of the left to keep, it comes first. -/
def events (ix : Index) (context : RowId) : Location → List Event
  | .path p => p.events ix context
  | .union left right => left.events ix context ++ right.events ix context
  | .except left right | .intersect left right =>
    right.events ix context ++ left.events ix context

end Location

namespace Expression

def evaluate (e : Expression) (o : Outline) (context : RowId) :
    Except Unsupported (List RowId) :=
  match e with
  | .function f => .error (.function f.name)
  | .location l => do
    l.check
    return l.rows (.around o context) context

def events (e : Expression) (o : Outline) (context : RowId) : List Event :=
  let ix := Index.around o context
  .indexed ix.items.length ::
    match e, e.check with
    | .location l, .ok _ => l.events ix context
    | _, _ => []

end Expression

inductive QueryError where
  | parse (error : ParseError)
  | evaluation (error : Unsupported)

def query (text : String) (o : Outline) (context : RowId) : Except QueryError (List RowId) :=
  match (parse defaultLimit text).result with
  | .error e => .error (.parse e)
  | .ok e =>
    match e.evaluate o context with
    | .error u => .error (.evaluation u)
    | .ok rows => .ok rows

def queryEvents (text : String) (o : Outline) (context : RowId) : List Event :=
  let reading := parse defaultLimit text
  .ofReading text reading ::
    match reading.result with
    | .ok e => e.events o context
    | .error _ => []

end OutlineQuery
