import OutlineQuery.Parse

/-!
What a run reports on the side: each reading of a query, and each step over an outline.
-/

namespace OutlineQuery

inductive Event where
  | parsed (text : String) (tokens : Nat)
  | rejected (text : String) (error : ParseError)
  | indexed (rows : Nat)
  | stepped (axis : Axis) (contexts found : Nat)

namespace Event

def ofReading (text : String) (r : Reading) : Event :=
  match r.result with
  | .ok _ => .parsed text r.tokens.length
  | .error e => .rejected text e

def level : Event → String
  | .parsed .. | .rejected .. => "DEBUG"
  | .indexed .. | .stepped .. => "TRACE"

def message : Event → String
  | .parsed text tokens => "parsed " ++ Text.quoted text ++ " into " ++ toString tokens ++ " tokens"
  | .rejected text e =>
    "failed to parse " ++ Text.quoted text ++ " at " ++ toString e.position.line ++ ":" ++
      toString e.position.column ++ ": " ++ e.message
  | .indexed rows => "indexed outline of " ++ toString rows ++ " items"
  | .stepped axis contexts found =>
    axis.spelling ++ " step over " ++ toString contexts ++ " context items matched " ++
      toString found

end Event
end OutlineQuery
