import OutlineQuery.Expression.Basic
import OutlineQuery.Json.Read

/-!
Path expressions as JSON. Every field is written; a field that is optional may be missing when
read. Reading goes down at most as many levels as there are brackets in the JSON.
-/

namespace OutlineQuery

def Slice.toJson (s : Slice) : Json :=
  .obj [("start", .ofOption (fun n => .int n.toInt) s.start),
    ("end", .ofOption (fun n => .int n.toInt) s.stop), ("range", .bool s.range)]

mutual

def Value.toJson : Value → Json
  | .literal text => .obj [("literal", .str text)]
  | .attribute name => .obj [("getAttribute", .str name)]
  | .call function => .obj [("function", function.toJson)]

def Value.optionToJson : Option Value → Json
  | none => .null
  | some value => value.toJson

def Function.toJson : Function → Json
  | ⟨name, argument⟩ => .obj [("name", .str name), ("arg", argument.toJson)]

def Predicate.toJson : Predicate → Json
  | .any => .str "any"
  | .not inner => .obj [("not", inner.toJson)]
  | .and left right => .obj [("and", .arr [left.toJson, right.toJson])]
  | .or left right => .obj [("or", .arr [left.toJson, right.toJson])]
  | .comparison left relation modifier right =>
    .obj [("comparison", .obj [("left", left.toJson),
      ("relation", .ofOption (.str ·.name) relation), ("modifier", .str modifier.name),
      ("right", Value.optionToJson right)])]

def Step.toJson : Step → Json
  | ⟨axis, type, predicate, slice⟩ =>
    .obj [("axis", .str axis.name), ("type", .str type.name), ("predicate", predicate.toJson),
      ("slice", .ofOption Slice.toJson slice)]

def Step.listToJson : List Step → List Json
  | [] => []
  | step :: steps => step.toJson :: Step.listToJson steps

def Path.toJson : Path → Json
  | ⟨absolute, steps⟩ =>
    .obj [("absolute", .bool absolute), ("steps", .arr (Step.listToJson steps))]

def Location.toJson : Location → Json
  | .path path => .obj [("path", path.toJson)]
  | .union left right => .obj [("union", .arr [left.toJson, right.toJson])]
  | .except left right => .obj [("except", .arr [left.toJson, right.toJson])]
  | .intersect left right => .obj [("intersect", .arr [left.toJson, right.toJson])]

end

def Expression.toJson : Expression → Json
  | .function f => .obj [("function", f.toJson)]
  | .location l => .obj [("location", l.toJson)]

def Axis.ofJson? (j : Json) : Option Axis := j.plainVariant?.bind ofName?

def Relation.ofJson? (j : Json) : Option Relation := j.plainVariant?.bind ofName?

def Modifier.ofJson? (j : Json) : Option Modifier := j.plainVariant?.bind ofName?

def RowType.ofJson? (j : Json) : Option RowType := j.plainVariant?.bind ofName?

def Slice.ofJson? (j : Json) : Option Slice := do
  match ← j.record? ["start", "end", "range"] with
  | [start, stop, range] =>
    return ⟨← Json.optional Json.int64? start, ← Json.optional Json.int64? stop,
      ← Json.required Json.bool? range⟩
  | _ => none

mutual

def Value.read : Nat → Json → Option Value
  | 0, _ => none
  | n + 1, j => do
    match ← j.variant? with
    | ("literal", some content) => return .literal (← content.str?)
    | ("getAttribute", some content) => return .attribute (← content.str?)
    | ("function", some content) => return .call (← Function.read n content)
    | _ => none

def Function.read : Nat → Json → Option Function
  | 0, _ => none
  | n + 1, j => do
    match ← j.record? ["name", "arg"] with
    | [name, argument] =>
      return ⟨← Json.required Json.str? name, ← Json.required (Location.read n) argument⟩
    | _ => none

def Predicate.read : Nat → Json → Option Predicate
  | 0, _ => none
  | n + 1, j => do
    match ← j.variant? with
    | ("any", none) => return .any
    | ("any", some .null) => return .any
    | ("not", some content) => return .not (← Predicate.read n content)
    | ("and", some content) =>
      let (left, right) ← content.pair?
      return .and (← Predicate.read n left) (← Predicate.read n right)
    | ("or", some content) =>
      let (left, right) ← content.pair?
      return .or (← Predicate.read n left) (← Predicate.read n right)
    | ("comparison", some (.obj fields)) =>
      let field name := Json.lookup name fields
      return .comparison (← Json.required (Value.read n) (field "left"))
        (← Json.optional Relation.ofJson? (field "relation"))
        (← Json.required Modifier.ofJson? (field "modifier"))
        (← Json.optional (Value.read n) (field "right"))
    | _ => none

def Step.read : Nat → Json → Option Step
  | 0, _ => none
  | n + 1, j => do
    match ← j.record? ["axis", "type", "predicate", "slice"] with
    | [axis, type, predicate, slice] =>
      return ⟨← Json.required Axis.ofJson? axis, ← Json.required RowType.ofJson? type,
        ← Json.required (Predicate.read n) predicate, ← Json.optional Slice.ofJson? slice⟩
    | _ => none

def Path.read : Nat → Json → Option Path
  | 0, _ => none
  | n + 1, j => do
    match ← j.record? ["absolute", "steps"] with
    | [absolute, steps] =>
      let items ← Json.required Json.list? steps
      return ⟨← Json.required Json.bool? absolute, ← items.mapM (Step.read n)⟩
    | _ => none

def Location.read : Nat → Json → Option Location
  | 0, _ => none
  | n + 1, j => do
    match ← j.variant? with
    | ("path", some content) => return .path (← Path.read n content)
    | ("union", some content) =>
      let (left, right) ← content.pair?
      return .union (← Location.read n left) (← Location.read n right)
    | ("except", some content) =>
      let (left, right) ← content.pair?
      return .except (← Location.read n left) (← Location.read n right)
    | ("intersect", some content) =>
      let (left, right) ← content.pair?
      return .intersect (← Location.read n left) (← Location.read n right)
    | _ => none

end

def Expression.ofJson? (j : Json) : Option Expression := do
  let levels := j.depth + 1
  match ← j.variant? with
  | ("function", some content) => return .function (← Function.read levels content)
  | ("location", some content) => return .location (← Location.read levels content)
  | _ => none

end OutlineQuery
