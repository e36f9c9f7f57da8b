import OutlineQuery.Expression.Basic

/-! A text for every expression. Parentheses go around each part of a predicate, and blanks stand
only where two words would run into one or an axis would become the name of a function. -/

namespace OutlineQuery

def escapedChar (c : Char) : List Char :=
  if c = '"' ∨ c = '\\' then ['\\', c] else [c]

def quotedText (text : List Char) : List Char := '"' :: (text.flatMap escapedChar ++ ['"'])

def integerText (n : Int) : List Char :=
  if n < 0 then '-' :: Nat.toDigits 10 n.natAbs else Nat.toDigits 10 n.natAbs

def boundText : Option Int64 → List Char
  | none => []
  | some n => integerText n.toInt

def Slice.written (s : Slice) : List Char :=
  if s.range then '[' :: (boundText s.start ++ ':' :: (boundText s.stop ++ [']']))
  else '[' :: (boundText s.start ++ [']'])

theorem Slice.written_starts (s : Slice) : ∃ text, s.written = '[' :: text := by
  unfold Slice.written
  split
  · exact ⟨_, rfl⟩
  · exact ⟨_, rfl⟩

def sliceText : Option Slice → List Char
  | none => []
  | some s => s.written

def Modifier.written (m : Modifier) : List Char := ['[', m.letter, ']']

def RowType.written : RowType → List Char
  | .any => []
  | .heading => "heading".toList

mutual

def Value.written : Value → List Char
  | .literal text => quotedText text.toList
  | .attribute name => '@' :: name.toList
  | .call f => f.written

def Function.written : Function → List Char
  | ⟨name, argument⟩ => name.toList ++ '(' :: (argument.written ++ [')'])

def Predicate.written : Predicate → List Char
  | .any => ['*']
  | .not p => "not".toList ++ '(' :: (p.written ++ [')'])
  | .and p q => '(' :: (p.written ++ ')' :: ("and".toList ++ '(' :: (q.written ++ [')'])))
  | .or p q => '(' :: (p.written ++ ')' :: ("or".toList ++ '(' :: (q.written ++ [')'])))
  | .comparison left r m right =>
    left.written ++ (relationText r ++ (m.written ++ operandText right))

def relationText : Option Relation → List Char
  | none => []
  | some r => ' ' :: r.spelling.toList

def operandText : Option Value → List Char
  | none => []
  | some v => v.written

def Step.written : Step → List Char
  | ⟨a, type, p, slice⟩ =>
    a.spelling.toList ++ (type.written ++ ' ' :: '(' :: (p.written ++ ')' :: sliceText slice))

def Path.written : Path → List Char
  | ⟨true, steps⟩ => stepsText steps
  | ⟨false, steps⟩ => (stepsText steps).drop 1

def stepsText : List Step → List Char
  | [] => []
  | step :: steps => '/' :: (step.written ++ stepsText steps)

def Location.written : Location → List Char
  | .path p => p.written
  | .union l m => l.written ++ ("union ".toList ++ m.written)
  | .except l m => l.written ++ ("except ".toList ++ m.written)
  | .intersect l m => l.written ++ ("intersect ".toList ++ m.written)

end

def Expression.written : Expression → List Char
  | .function f => f.written
  | .location l => l.written

end OutlineQuery
