import OutlineQuery.Diagnostic.Basic
import OutlineQuery.Json.Read

/-!
Diagnostics as JSON.
-/

namespace OutlineQuery.Diagnostic

def Place.toJson (p : Place) : Json := .obj [("line", .int p.line), ("column", .int p.column)]

def Span.toJson (s : Span) : Json := .obj [("start", s.start.toJson), ("end", s.stop.toJson)]

def Location.toJson (l : Location) : Json :=
  .obj [("span", l.span.toJson), ("source_text", .ofOption .str l.sourceText)]

def toJson (d : Diagnostic) : Json :=
  .obj [("severity", .str d.severity.name), ("code", .str d.code.name),
    ("message", .str d.message), ("location", d.location.toJson)]

def Place.ofJson? (j : Json) : Option Place := do
  match ← j.record? ["line", "column"] with
  | [line, column] =>
    return ⟨← Json.required Json.nat64? line, ← Json.required Json.nat64? column⟩
  | _ => none

def Span.ofJson? (j : Json) : Option Span := do
  match ← j.record? ["start", "end"] with
  | [start, stop] =>
    return ⟨← Json.required Place.ofJson? start, ← Json.required Place.ofJson? stop⟩
  | _ => none

def Location.ofJson? (j : Json) : Option Location := do
  match ← j.record? ["span", "source_text"] with
  | [span, text] =>
    return ⟨← Json.required Span.ofJson? span, ← Json.optional Json.str? text⟩
  | _ => none

def ofJson? (j : Json) : Option Diagnostic := do
  match ← j.record? ["severity", "code", "message", "location"] with
  | [severity, code, message, location] =>
    let severity ← Json.required Json.plainVariant? severity
    let code ← Json.required Json.plainVariant? code
    return ⟨← Severity.ofName? severity, ← Code.ofName? code,
      ← Json.required Json.str? message, ← Json.required Location.ofJson? location⟩
  | _ => none

end OutlineQuery.Diagnostic
