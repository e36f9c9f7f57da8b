import OutlineQuery.Diagnostic.Json
import OutlineQuery.Json.Pretty

/-!
Diagnostics written for people, with the place underlined, on one line each, or as JSON.
-/

namespace OutlineQuery.Diagnostic

inductive Format where
  | text | json | compact
deriving DecidableEq

def Format.ofName? : String → Option Format
  | "text" => some .text
  | "json" => some .json
  | "compact" => some .compact
  | _ => none

def underlineWidth (span : Span) (line : String) : Nat :=
  let stop := if span.start.line = span.stop.line then span.stop.column else line.length
  max 1 (stop - span.start.column)

def lineNumber (line : Nat) : String :=
  let number := toString (line + 1)
  "".pushn ' ' (4 - number.length) ++ number

def excerpt (span : Span) (line : String) : String :=
  lineNumber span.start.line ++ " | " ++ line ++ "\n     | " ++ "".pushn ' ' span.start.column ++
    "".pushn '^' (underlineWidth span line) ++ "\n"

def formatText (d : Diagnostic) (showCode : Bool) : String :=
  d.severity.name ++ ": " ++ d.message ++
    (if showCode then " [" ++ d.code.number ++ "]" else "") ++
    "\n --> " ++ d.location.span.text ++ "\n" ++
    match d.location.sourceText with
    | some line => excerpt d.location.span line
    | none => ""

def formatCompact (d : Diagnostic) (showCode : Bool) : String :=
  d.location.span.text ++ ": " ++ d.severity.name ++ ": " ++
    (if showCode then "[" ++ d.code.number ++ "] " else "") ++ d.message

def format (d : Diagnostic) (format : Format) (showCode : Bool) : String :=
  match format with
  | .text => d.formatText showCode
  | .json => d.toJson.pretty
  | .compact => d.formatCompact showCode

def formatAll (ds : List Diagnostic) (format : Format) (showCode : Bool) : String :=
  match format with
  | .text => "\n".intercalate (ds.map (·.formatText showCode))
  | .json => (Json.arr (ds.map toJson)).pretty
  | .compact => "\n".intercalate (ds.map (·.formatCompact showCode))

end OutlineQuery.Diagnostic
