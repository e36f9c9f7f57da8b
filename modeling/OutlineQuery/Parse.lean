import OutlineQuery.Grammar.Location
import OutlineQuery.Inspect

/-!
Reading a whole query. Whether or not it can be read, the tokens recorded on the way are kept.
-/

namespace OutlineQuery
open Grammar

structure ParseError where
  reason : Reason
  position : Position
  lineText : String
deriving DecidableEq

namespace ParseError

def ofState (reason : Reason) (s : State) : ParseError :=
  ⟨reason, s.cursor.position, String.ofList s.cursor.lineText⟩

def message (e : ParseError) : String := e.reason.message

def isFatal (e : ParseError) : Bool := e.reason.isFatal

def render (e : ParseError) : String :=
  "\n(input):" ++ toString e.position.line ++ ":" ++ toString e.position.column ++
    ": syntax error: " ++ e.message ++ "\n" ++ e.lineText ++ "\n" ++
    "".pushn ' ' e.position.column ++ "^\n"

def form (e : ParseError) : Form :=
  .record "ParseError" [("message", .text e.message),
    ("line", .word (toString e.position.line)), ("column", .word (toString e.position.column)),
    ("offset", .word (toString e.position.offset)), ("line_text", .text e.lineText),
    ("fatal", .bool e.isFatal)]

end ParseError

structure Reading where
  result : Except ParseError Expression
  tokens : List Token

def defaultLimit : Nat := 32

def parse (limit : Nat) (text : String) : Reading :=
  match expression limit (.start text.toList) with
  | .ok e s => ⟨.ok e, s.tokens.toList⟩
  | .error reason s => ⟨.error (.ofState reason s), s.tokens.toList⟩

def Expression.isLocation (e : Expression) : Bool := e matches .location _

/-- A result that passes a test has been read. -/
theorem exists_read {r : Except ParseError Expression} {q : Expression → Bool}
    (h : r.toOption.any q = true) : ∃ e, r = .ok e ∧ q e = true := by
  cases r with
  | error e => cases h
  | ok e => exact ⟨e, rfl, h⟩

structure Session where
  text : String
  limit : Nat
  tokens : List Token

namespace Session

def start (text : String) : Session := ⟨text, defaultLimit, []⟩

def setLimit (s : Session) (limit : Nat) : Session := { s with limit }

def parse (s : Session) : Except ParseError Expression × Session :=
  let reading := OutlineQuery.parse s.limit s.text
  (reading.result, { s with tokens := reading.tokens })

end Session
end OutlineQuery
