import OutlineQuery.Grammar.Predicate

/-!
Steps, paths and their combinations. The levels of nesting that are left are counted down: a
predicate in parentheses takes one, a function argument two, and the whole expression one.
-/

namespace OutlineQuery.Grammar
open Production

/-- The spellings of axes in the order in which they are tried; none stands behind one that it
extends. -/
def axisSpellings : List (String × Axis) :=
  [("ancestor-or-self::", .ancestorOrSelf), ("ancestor::", .ancestor), ("child::", .child),
    ("descendant-or-self::", .descendantOrSelf), ("descendant::", .descendant),
    ("following-sibling::", .followingSibling), ("following::", .following),
    ("preceding-sibling::", .precedingSibling), ("preceding::", .preceding),
    ("parent::", .parent), ("self::", .self), ("//", .descendantOrSelfShortcut),
    ("/", .descendantShortcut), ("..", .parentShortcut), (".", .selfShortcut)]

def axis : Production Axis := do
  match ← firstRead (operator ·.1 .axis) axisSpellings with
  | some (_, a) => return a
  | none => fail .axis

def headingType : Production RowType := do
  if ← word "heading" .type then return .heading else fail .stepType

def headingTest (inner : Inner) : Production (RowType × Predicate) := do
  let type ← headingType
  return (type, ← disjunction inner)

def bareHeading : Production (RowType × Predicate) := do
  return (← headingType, .any)

def predicateTest (inner : Inner) : Production (RowType × Predicate) := do
  return (.any, ← disjunction inner)

def stepTest (inner : Inner) : Production (RowType × Predicate) := do
  match ← firstOf [headingTest inner, bareHeading, predicateTest inner] with
  | some test => return test
  | none => fail .stepTest

def step (inner : Inner) : Production Step := do
  let a ← attemptOr Axis.child axis
  let (type, p) ← stepTest inner
  if ['['].isPrefixOf (← remaining) then return ⟨a, type, p, some (← slice)⟩
  else return ⟨a, type, p, none⟩

def nextStep (inner : Inner) : Production (Option Step) := do
  if ← operator "/" .axis then return some (← step inner) else return none

def path (inner : Inner) : Production Path := do
  let absolute ← operator "/" .axis
  let first ← step inner
  let others ← many (nextStep inner)
  return ⟨absolute, first :: others⟩

def pathOperand (inner : Inner) : Production Location := do
  skipBlanks
  return .path (← path inner)

def intersection (inner : Inner) : Production Location :=
  chain (pathOperand inner) (word "intersect" .set) .intersect

def exception (inner : Inner) : Production Location :=
  chain (intersection inner) (word "except" .set) .except

def union (inner : Inner) : Production Location :=
  chain (exception inner) (word "union" .set) .union

mutual

/-- A location, one level further in. The limit is for the whole query; the second number counts
down from it with each level, and so never runs out before the limit is reached. -/
def location (limit : Nat) : Nat → Production Location
  | 0 => fail .tooDeep
  | levels + 1 => fun s => nested limit (do skipBlanks; union (innerAt limit levels)) s

def innerAt (limit : Nat) : Nat → Inner
  | 0 => ⟨fail .tooDeep, fail .tooDeep⟩
  | levels + 1 =>
    ⟨fun s => nested limit (disjunction (innerAt limit levels)) s,
      fun s => nested limit (location limit levels) s⟩

end

theorem location_zero (limit : Nat) : location limit 0 = fail .tooDeep := by
  rw [location]

theorem location_succ (limit levels : Nat) : location limit (levels + 1) =
    nested limit (do skipBlanks; union (innerAt limit levels)) := by
  rw [location]

theorem innerAt_zero (limit : Nat) : innerAt limit 0 = ⟨fail .tooDeep, fail .tooDeep⟩ := by
  rw [innerAt]

theorem innerAt_succ (limit levels : Nat) : innerAt limit (levels + 1) =
    ⟨nested limit (disjunction (innerAt limit levels)), nested limit (location limit levels)⟩ := by
  rw [innerAt]

def expectEnd : Production Unit := do
  skipBlanks
  if ← atEnd then return () else fail .endOfInput

def wholeCall (limit : Nat) : Production Function := do
  skipBlanks
  let f ← function (innerAt limit limit)
  expectEnd
  return f

def wholeLocation (limit : Nat) : Production Location := do
  skipBlanks
  location limit limit

def expression (limit : Nat) : Production Expression := do
  match ← attempt (wholeCall limit) with
  | some f => return .function f
  | none =>
    match ← attempt (wholeLocation limit) with
    | some l =>
      expectEnd
      return .location l
    | none => fail .expression

end OutlineQuery.Grammar
