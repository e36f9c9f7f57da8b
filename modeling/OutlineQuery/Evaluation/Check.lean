import OutlineQuery.Expression.Basic

/-!
The constructs that can be written but not evaluated. They are found from left to right, before
anything is evaluated.
-/

namespace OutlineQuery

inductive Unsupported where
  | function (name : String)
  | relation (relation : Relation)
  | modifier (modifier : Modifier)
deriving DecidableEq

namespace Unsupported

def what : Unsupported → String
  | .function name => "function '" ++ name ++ "'"
  | .relation r => "relation '" ++ r.spelling ++ "'"
  | .modifier m => "modifier '" ++ m.spelling ++ "'"

def message (u : Unsupported) : String := u.what ++ " is not supported"

end Unsupported

def Value.check : Value → Except Unsupported Unit
  | .call f => .error (.function f.name)
  | _ => .ok ()

def Relation.check : Relation → Except Unsupported Unit
  | .beginsWith | .endsWith | .contains | .equal | .notEqual => .ok ()
  | r => .error (.relation r)

def Modifier.check : Modifier → Except Unsupported Unit
  | .caseSensitive | .caseInsensitive => .ok ()
  | m => .error (.modifier m)

/-- A modifier counts only where there is a relation for it. -/
def Predicate.check : Predicate → Except Unsupported Unit
  | .any => .ok ()
  | .not inner => inner.check
  | .and left right => do left.check; right.check
  | .or left right => do left.check; right.check
  | .comparison left relation modifier right => do
    left.check
    match right with
    | some value => value.check
    | none => .ok ()
    match relation with
    | some r => do r.check; modifier.check
    | none => .ok ()

def checkSteps : List Step → Except Unsupported Unit
  | [] => .ok ()
  | s :: steps => do s.predicate.check; checkSteps steps

def Location.check : Location → Except Unsupported Unit
  | .path p => checkSteps p.steps
  | .union left right => do left.check; right.check
  | .except left right => do left.check; right.check
  | .intersect left right => do left.check; right.check

def Expression.check : Expression → Except Unsupported Unit
  | .function f => .error (.function f.name)
  | .location l => l.check

end OutlineQuery
