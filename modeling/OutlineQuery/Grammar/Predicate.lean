import OutlineQuery.Grammar.Value

/-!
Predicates: comparisons under `not`, `and` and `or`, the last of which binds least.
-/

namespace OutlineQuery.Grammar
open Production

def spacedRelation : Production Relation := do
  skipBlanks
  relation

def relationBehind : Production Relation := attemptOr .default spacedRelation

def spacedModifier : Production Modifier := do
  skipBlanks
  modifier

def modifierBehind : Production Modifier := attemptOr .default spacedModifier

def fullComparison (inner : Inner) : Production Predicate := do
  let left ← operand inner
  let r ← relationBehind
  let m ← modifierBehind
  skipBlanks
  let right ← operand inner
  return .comparison left (some r) m (some right)

def loneValue : Production Predicate := do
  let v ← value
  let m ← modifierBehind
  match v with
  | .attribute _ => return .presence v m
  | _ => return .textContains v m

def textComparison (inner : Inner) : Production Predicate := do
  let r ← attemptOr .default relation
  skipBlanks
  let m ← attemptOr .default modifier
  skipBlanks
  let right ← operand inner
  return .comparison .text (some r) m (some right)

def starOrComparison (inner : Inner) : Production Predicate := do
  if ← skip "*" then return .any
  else
    match ← firstOf [fullComparison inner, loneValue, textComparison inner] with
    | some p => return p
    | none => fail .comparison

def spacedComparison (inner : Inner) : Production Predicate := do
  skipBlanks
  record .comparison (starOrComparison inner)

/-- A comparison with a token for all of it; where there is none, no blanks are passed either. -/
def comparison (inner : Inner) : Production Predicate := do
  match ← attempt (spacedComparison inner) with
  | some p => return p
  | none => fail .comparison

def term (inner : Inner) : Production Predicate := do
  skipBlanks
  if ← skip "(" then
    let p ← inner.predicate
    skipBlanks
    expect ")"
    return p
  else comparison inner

def nextNot : Production (Option Unit) := do
  skipBlanks
  if ← word "not" .boolean then return some () else return none

def negation (inner : Inner) : Production Predicate := do
  let nots ← many nextNot
  skipBlanks
  let p ← term inner
  return if nots.length % 2 = 1 then .not p else p

def conjunction (inner : Inner) : Production Predicate :=
  chain (negation inner) (word "and" .boolean) .and

def disjunction (inner : Inner) : Production Predicate :=
  chain (conjunction inner) (word "or" .boolean) .or

end OutlineQuery.Grammar
