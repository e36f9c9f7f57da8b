import OutlineQuery.Evaluation.Evaluate

/-!
Diagnostics: what is wrong, how bad it is, and the place in the text. Lines and columns of a
diagnostic start at 0 and are shown from 1.
-/

namespace OutlineQuery

inductive Severity where
  | hint | info | warning | error
deriving DecidableEq

namespace Severity

def all : List Severity := [.hint, .info, .warning, .error]

def name : Severity → String
  | .hint => "hint"
  | .info => "info"
  | .warning => "warning"
  | .error => "error"

def ofName? (name : String) : Option Severity := all.find? (·.name = name)

def rank (s : Severity) : Nat := all.idxOf s

def worse (a b : Severity) : Severity := if a.rank < b.rank then b else a

def worst? : List Severity → Option Severity
  | [] => none
  | s :: rest => some (rest.foldl worse s)

end Severity

namespace Diagnostic

inductive Code where
  | syntaxError | nestingTooDeep | unsupported
deriving DecidableEq

namespace Code

def all : List Code := [.syntaxError, .nestingTooDeep, .unsupported]

def name : Code → String
  | .syntaxError => "SyntaxError"
  | .nestingTooDeep => "NestingTooDeep"
  | .unsupported => "Unsupported"

def ofName? (name : String) : Option Code := all.find? (·.name = name)

def number : Code → String
  | .syntaxError => "E001"
  | .nestingTooDeep => "E002"
  | .unsupported => "E100"

def title : Code → String
  | .syntaxError => "syntax error"
  | .nestingTooDeep => "nesting too deep"
  | .unsupported => "unsupported"

end Code

structure Place where
  line : Nat
  column : Nat
deriving DecidableEq

def Place.text (p : Place) : String :=
  toString (p.line + 1) ++ ":" ++ toString (p.column + 1)

structure Span where
  start : Place
  stop : Place
deriving DecidableEq

namespace Span

def point (p : Place) : Span := ⟨p, p⟩

def isEmpty (s : Span) : Bool := s.start = s.stop

def text (s : Span) : String :=
  if s.isEmpty then s.start.text
  else if s.start.line = s.stop.line then s.start.text ++ "-" ++ toString (s.stop.column + 1)
  else s.start.text ++ "-" ++ s.stop.text

end Span

structure Location where
  span : Span
  sourceText : Option String
deriving DecidableEq

def Location.unknown : Location := ⟨.point ⟨0, 0⟩, none⟩

end Diagnostic

structure Diagnostic where
  severity : Severity
  code : Diagnostic.Code
  message : String
  location : Diagnostic.Location
deriving DecidableEq

namespace Diagnostic

def isError (d : Diagnostic) : Bool := d.severity = .error

structure Draft where
  severity : Severity
  code : Code
  message : String
  location : Option Location

namespace Draft

def error (code : Code) : Draft := ⟨.error, code, "", none⟩

def withMessage (d : Draft) (message : String) : Draft := { d with message }

def withSpan (d : Draft) (span : Span) : Draft :=
  { d with location := some ⟨span, d.location.bind (·.sourceText)⟩ }

def withPlaces (d : Draft) (start stop : Place) : Draft := d.withSpan ⟨start, stop⟩

def withSourceText (d : Draft) (text : String) : Draft :=
  { d with location := some ⟨(d.location.getD .unknown).span, some text⟩ }

def syntaxError (message : String) : Draft := (error .syntaxError).withMessage message

def unsupported (what : String) : Draft :=
  (error .unsupported).withMessage (what ++ " is not supported")

def build (d : Draft) : Diagnostic :=
  ⟨d.severity, d.code, d.message, d.location.getD .unknown⟩

end Draft
end Diagnostic

def ParseError.toDiagnostic (e : ParseError) : Diagnostic :=
  let place := ⟨e.position.line - 1, e.position.column⟩
  ((Diagnostic.Draft.error (if e.isFatal then .nestingTooDeep else .syntaxError)).withMessage
    e.message).withPlaces place place |>.withSourceText e.lineText |>.build

def Unsupported.toDiagnostic (u : Unsupported) : Diagnostic :=
  (Diagnostic.Draft.unsupported u.what).build

def QueryError.toDiagnostic : QueryError → Diagnostic
  | .parse e => e.toDiagnostic
  | .evaluation u => u.toDiagnostic

end OutlineQuery
