import OutlineQuery.Expression.Basic
import OutlineQuery.Grammar.Lexical

/-!
The operands of comparisons, relations, modifiers and slices. What may stand between parentheses
is one level of nesting further in; a production is given it as `Inner`.
-/

namespace OutlineQuery.Grammar
open Production Text

structure Inner where
  predicate : Production Predicate
  argument : Production Location

def attributeName : Production (List Char) := do
  expect "@"
  identifier

def attributeValue : Production Value := do
  return .attribute (String.ofList (← record .attribute attributeName))

def piece : Production (List Char) := do
  let gap ← blanks
  return gap ++ (← string)

def nextPiece : Production (Option (List Char)) := attempt piece

def literal : Production Value := do
  let first ← string
  let others ← many nextPiece
  return .literal (String.ofList (trim (first ++ others.flatten)))

def value : Production Value := do
  match ← attempt attributeValue with
  | some v => return v
  | none => literal

def function (inner : Inner) : Production Function := do
  let name ← record .functionName identifier
  expect "("
  let argument ← inner.argument
  expect ")"
  return ⟨String.ofList name, argument⟩

def operand (inner : Inner) : Production Value := do
  match ← attempt (function inner) with
  | some f => return .call f
  | none => value

def wordRelations : List (String × Relation) :=
  [("beginswith", .beginsWith), ("endswith", .endsWith), ("contains", .contains),
    ("matches", .matches)]

def operatorRelations : List (String × Relation) :=
  [("=", .equal), ("!=", .notEqual), ("<=", .lessThanOrEqual), (">=", .greaterThanOrEqual),
    ("<", .lessThan), (">", .greaterThan)]

def relation : Production Relation := do
  match ← firstRead (word ·.1 .relation) wordRelations with
  | some (_, r) => return r
  | none =>
    match ← firstRead (operator ·.1 .relation) operatorRelations with
    | some (_, r) => return r
    | none => fail .relation

def bracketedLetter : Production Modifier := do
  expect "["
  match ← remaining with
  | [] => fail .modifierAtEnd
  | c :: _ =>
    match Modifier.ofLetter? c with
    | none => fail (.modifier c)
    | some m =>
      pass 1
      expect "]"
      return m

def modifier : Production Modifier := record .modifier bracketedLetter

def indexSlice : Production Slice := do
  expect "["
  let n ← integer
  expect "]"
  return .index n

def rangeSlice : Production Slice := do
  expect "["
  let start ← attempt integer
  expect ":"
  let stop ← attempt integer
  expect "]"
  return .between start stop

def slice : Production Slice := do
  match ← attempt indexSlice with
  | some s => return s
  | none => rangeSlice

end OutlineQuery.Grammar
