import OutlineQuery.Expression.Basic
import OutlineQuery.Token

/-! What an expression mentions, read from left to right with each operator between its operands,
and what of it the tokens of a query mention. -/

namespace OutlineQuery

inductive Mention where
  | function (name : String)
  | set (word : String)
  | boolean (word : String)
  | attribute (name : String)
deriving DecidableEq

namespace Mention

def functionName? : Mention → Option String
  | .function name => some name
  | _ => none

def setWord? : Mention → Option String
  | .set word => some word
  | _ => none

def booleanWord? : Mention → Option String
  | .boolean word => some word
  | _ => none

def attributeName? : Mention → Option String
  | .attribute name => some name
  | _ => none

end Mention

/-- What a token says of the expression. A `not` leaves no mention, since two of them cancel out. -/
def Token.mention? (t : Token) : Option Mention :=
  match t.kind with
  | .functionName => some (.function t.text)
  | .set => some (.set t.text)
  | .boolean => if t.text = "and" ∨ t.text = "or" then some (.boolean t.text) else none
  | .attribute => some (.attribute (String.ofList (t.text.toList.drop 1)))
  | _ => none

structure Occurrence where
  mention : Mention
  leftSide : Bool
deriving DecidableEq

mutual

def Value.occurrences (leftSide : Bool) : Value → List Occurrence
  | .literal _ => []
  | .attribute name => [⟨.attribute name, leftSide⟩]
  | .call f => f.occurrences

def Function.occurrences : Function → List Occurrence
  | ⟨name, argument⟩ => ⟨.function name, false⟩ :: argument.occurrences

def Predicate.occurrences : Predicate → List Occurrence
  | .any => []
  | .not p => p.occurrences
  | .and p q => p.occurrences ++ ⟨.boolean "and", false⟩ :: q.occurrences
  | .or p q => p.occurrences ++ ⟨.boolean "or", false⟩ :: q.occurrences
  | .comparison left _ _ none => left.occurrences true
  | .comparison left _ _ (some right) => left.occurrences true ++ right.occurrences false

def Step.occurrences : Step → List Occurrence
  | ⟨_, _, p, _⟩ => p.occurrences

def Path.occurrences : Path → List Occurrence
  | ⟨_, steps⟩ => stepsOccurrences steps

def stepsOccurrences : List Step → List Occurrence
  | [] => []
  | step :: steps => step.occurrences ++ stepsOccurrences steps

def Location.occurrences : Location → List Occurrence
  | .path p => p.occurrences
  | .union l m => l.occurrences ++ ⟨.set "union", false⟩ :: m.occurrences
  | .except l m => l.occurrences ++ ⟨.set "except", false⟩ :: m.occurrences
  | .intersect l m => l.occurrences ++ ⟨.set "intersect", false⟩ :: m.occurrences

end

def Expression.occurrences : Expression → List Occurrence
  | .function f => f.occurrences
  | .location l => l.occurrences

def Expression.functionNames (e : Expression) : List String :=
  e.occurrences.filterMap (·.mention.functionName?)

def Expression.setWords (e : Expression) : List String :=
  e.occurrences.filterMap (·.mention.setWord?)

def Expression.booleanWords (e : Expression) : List String :=
  e.occurrences.filterMap (·.mention.booleanWord?)

def Expression.attributes (e : Expression) : List (String × Bool) :=
  e.occurrences.filterMap fun o => o.mention.attributeName?.map (·, o.leftSide)

inductive TextLeftOut : List (String × Bool) → List String → Prop
  | nil : TextLeftOut [] []
  | kept (name : String) (leftSide : Bool) {all : List (String × Bool)} {names : List String} :
      TextLeftOut all names → TextLeftOut ((name, leftSide) :: all) (name :: names)
  | leftOut {all : List (String × Bool)} {names : List String} :
      TextLeftOut all names → TextLeftOut ((textAttribute, true) :: all) names

inductive Told : List Occurrence → List Mention → Prop
  | nil : Told [] []
  | kept (o : Occurrence) {all : List Occurrence} {told : List Mention} :
      Told all told → Told (o :: all) (o.mention :: told)
  | leftOut {all : List Occurrence} {told : List Mention} :
      Told all told → Told (⟨.attribute textAttribute, true⟩ :: all) told

namespace Told
variable {all more : List Occurrence} {told further : List Mention}

theorem append (h : Told all told) (h' : Told more further) :
    Told (all ++ more) (told ++ further) := by
  induction h with
  | nil => exact h'
  | kept o _ ih => exact ih.kept o
  | leftOut _ ih => exact ih.leftOut

/-- Whatever attributes do not count for is told in full. -/
theorem filterMap_eq {β : Type} {pick : Mention → Option β}
    (hpick : ∀ name, pick (.attribute name) = none) (h : Told all told) :
    told.filterMap pick = all.filterMap (pick ·.mention) := by
  induction h with
  | nil => rfl
  | kept o _ ih => simp only [List.filterMap_cons, ih]
  | leftOut _ ih => simp only [List.filterMap_cons, hpick, ih]

theorem attributes (h : Told all told) :
    TextLeftOut (all.filterMap fun o => o.mention.attributeName?.map (·, o.leftSide))
      (told.filterMap Mention.attributeName?) := by
  induction h with
  | nil => exact .nil
  | kept o _ ih =>
    match o with
    | ⟨.attribute name, leftSide⟩ => exact ih.kept name leftSide
    | ⟨.function _, _⟩ => exact ih
    | ⟨.set _, _⟩ => exact ih
    | ⟨.boolean _, _⟩ => exact ih
  | leftOut _ ih => exact ih.leftOut

end Told
end OutlineQuery
