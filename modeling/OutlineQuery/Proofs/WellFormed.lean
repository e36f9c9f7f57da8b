import OutlineQuery.Expression.Basic
import OutlineQuery.Text.Blank
import OutlineQuery.Text.Identifier

/-! Expressions as a query can say them: with names that are identifiers, trimmed literals, the
operators nested as they bind, and every comparison and every slice complete. -/

namespace OutlineQuery
open Text

def IsIdentifier : List Char → Prop
  | [] => False
  | c :: name => isStart c = true ∧ ∀ d ∈ name, isRest d = true

instance : DecidablePred IsIdentifier
  | [] => inferInstanceAs (Decidable False)
  | c :: name => decidable_of_iff (isStart c = true ∧ name.all isRest = true)
    (and_congr_right fun _ => List.all_eq_true)

def Slice.WellFormed (s : Slice) : Prop :=
  (∃ n, s = .index n) ∨ ∃ start stop, s = .between start stop

def Location.rank : Location → Nat
  | .path _ => 0
  | .intersect _ _ => 1
  | .except _ _ => 2
  | .union _ _ => 3

/-- Whether the axis can stand at the beginning of a relative path, which starts with no slash. -/
def Axis.StartsRelative (a : Axis) : Prop :=
  a ≠ .descendantShortcut ∧ a ≠ .descendantOrSelfShortcut

def Value.IsAttribute : Value → Prop
  | .attribute _ => True
  | _ => False

/-- Whether the value would be read as the word `not` before something in parentheses. -/
def Value.LooksNegated : Value → Prop
  | .call f => f.name = "not"
  | _ => False

mutual

def Value.WellFormed : Value → Prop
  | .literal text => trim text.toList = text.toList
  | .attribute name => IsIdentifier name.toList
  | .call f => f.WellFormed

/-- The blank among the characters that may start an identifier does not start a function. -/
def Function.WellFormed : Function → Prop
  | ⟨name, argument⟩ =>
    IsIdentifier name.toList ∧ name.toList.head?.any isBlank = false ∧ argument.WellFormed

def Predicate.WellFormed : Predicate → Prop
  | .any => True
  | .not p => p.WellFormed
  | .and p q => p.WellFormed ∧ q.WellFormed
  | .or p q => p.WellFormed ∧ q.WellFormed
  | .comparison left none _ none => left.IsAttribute ∧ left.WellFormed
  | .comparison left (some _) _ (some right) =>
    ¬left.LooksNegated ∧ left.WellFormed ∧ right.WellFormed
  | .comparison _ none _ (some _) => False
  | .comparison _ (some _) _ none => False

def Step.WellFormed : Step → Prop
  | ⟨_, _, p, slice⟩ => p.WellFormed ∧ ∀ s ∈ slice, s.WellFormed

def Path.WellFormed : Path → Prop
  | ⟨absolute, steps⟩ =>
    steps ≠ [] ∧ (absolute = false → ∀ s ∈ steps.head?, s.axis.StartsRelative) ∧
      stepsWellFormed steps

def stepsWellFormed : List Step → Prop
  | [] => True
  | step :: steps => step.WellFormed ∧ stepsWellFormed steps

def Location.WellFormed : Location → Prop
  | .path p => p.WellFormed
  | .union l m => l.rank ≤ 2 ∧ l.WellFormed ∧ m.WellFormed
  | .except l m => l.rank ≤ 1 ∧ m.rank ≤ 2 ∧ l.WellFormed ∧ m.WellFormed
  | .intersect l m => l.rank = 0 ∧ m.rank ≤ 1 ∧ l.WellFormed ∧ m.WellFormed

end

def Expression.WellFormed : Expression → Prop
  | .function f => f.WellFormed
  | .location l => l.WellFormed

mutual

def Value.nodes : Value → Nat
  | .literal _ => 1
  | .attribute _ => 1
  | .call f => f.nodes

def Function.nodes : Function → Nat
  | ⟨_, argument⟩ => argument.nodes + 1

def Predicate.nodes : Predicate → Nat
  | .any => 1
  | .not p => p.nodes + 1
  | .and p q => p.nodes + q.nodes + 1
  | .or p q => p.nodes + q.nodes + 1
  | .comparison left _ _ none => left.nodes + 1
  | .comparison left _ _ (some right) => left.nodes + right.nodes + 1

def Step.nodes : Step → Nat
  | ⟨_, _, p, _⟩ => p.nodes + 1

def Path.nodes : Path → Nat
  | ⟨_, steps⟩ => stepsNodes steps + 1

def stepsNodes : List Step → Nat
  | [] => 0
  | step :: steps => step.nodes + stepsNodes steps

def Location.nodes : Location → Nat
  | .path p => p.nodes
  | .union l m => l.nodes + m.nodes + 1
  | .except l m => l.nodes + m.nodes + 1
  | .intersect l m => l.nodes + m.nodes + 1

end

def Expression.nodes : Expression → Nat
  | .function f => f.nodes
  | .location l => l.nodes

end OutlineQuery
