import OutlineQuery.Grammar.Production
import OutlineQuery.Text.Blank
import OutlineQuery.Text.Identifier

/-!
The smallest parts of a query: fixed texts, words, identifiers, strings and integers.
-/

namespace OutlineQuery.Grammar
open Production Text

def skip (text : String) : Production Bool := do
  if text.toList.isPrefixOf (← remaining) then
    pass text.length
    return true
  else return false

def expect (text : String) : Production Unit := do
  if ← skip text then return () else fail (.text text)

def word (text : String) (kind : TokenKind) : Production Bool := do
  let before ← snapshot
  let start ← here
  if ← skip text then
    if (← remaining).head?.any isRest then
      restore before
      return false
    else
      emit kind start
      return true
  else return false

def operator (text : String) (kind : TokenKind) : Production Bool := do
  if text.toList.isPrefixOf (← remaining) then
    record kind (pass text.length)
    return true
  else return false

def blanks : Production (List Char) := do
  let gap := (← remaining).takeWhile isBlank
  pass gap.length
  return gap

def skipBlanks : Production Unit := do
  let _ ← blanks
  return ()

def atEnd : Production Bool := return (← remaining).isEmpty

def nextOperand {α : Type} (operand : Production α) (operator : Production Bool) :
    Production (Option α) := do
  skipBlanks
  if ← operator then
    skipBlanks
    return some (← operand)
  else return none

def chain {α : Type} (operand : Production α) (operator : Production Bool)
    (combine : α → α → α) : Production α := do
  skipBlanks
  let first ← operand
  let others ← many (nextOperand operand operator)
  return groupRight combine first others

def identifier : Production (List Char) := do
  match ← remaining with
  | [] => fail .identifierAtEnd
  | c :: text =>
    if isStart c then
      let name := c :: text.takeWhile isRest
      pass name.length
      return name
    else fail .identifier

def unescape? : Char → Option Char
  | '"' => some '"'
  | '\\' => some '\\'
  | 'n' => some '\n'
  | 'r' => some '\r'
  | 't' => some '\t'
  | _ => none

/-- A string from behind its opening quote: how many characters it takes up, the closing quote
among them, and what it holds. Where it goes wrong, the characters up to there. -/
def quotedBody : List Char → Nat × Except Reason (List Char)
  | [] => (0, .error (.text "\""))
  | c :: text =>
    if c = '"' then (1, .ok [])
    else if c = '\\' then
      match text with
      | [] => (1, .error .escapeAtEnd)
      | e :: text =>
        match unescape? e with
        | none => (2, .error (.escape e))
        | some d =>
          let body := quotedBody text
          (body.1 + 2, body.2.map (d :: ·))
    else
      let body := quotedBody text
      (body.1 + 1, body.2.map (c :: ·))

def quoted : Production (List Char) := do
  expect "\""
  let body := quotedBody (← remaining)
  pass body.1
  match body.2 with
  | .ok text => return text
  | .error reason => fail reason

def symbolOrIdentifier : Production (List Char) := do
  match ← remaining with
  | [] => identifier
  | c :: _ =>
    if isSymbol c then
      pass 1
      return [c]
    else identifier

def unquoted : Production (List Char) := do
  if startsReserved (← remaining) then fail .keyword else symbolOrIdentifier

def string : Production (List Char) := do
  if ['"'].isPrefixOf (← remaining) then record .quotedString quoted
  else record .unquotedString unquoted

def digitsValue (digits : List Char) : Nat :=
  digits.foldl (fun n c => 10 * n + (c.toNat - '0'.toNat)) 0

def integer : Production Int64 := do
  let negative ← skip "-"
  let digits := (← remaining).takeWhile Char.isDigit
  if digits.isEmpty then fail .digit
  else
    pass digits.length
    let n : Int := if negative then -digitsValue digits else digitsValue digits
    if Int64.minValue.toInt ≤ n ∧ n ≤ Int64.maxValue.toInt then return .ofInt n
    else fail .integerRange

end OutlineQuery.Grammar
