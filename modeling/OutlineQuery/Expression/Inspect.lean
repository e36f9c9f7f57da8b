import OutlineQuery.Expression.Basic
import OutlineQuery.Inspect

/-!
Path expressions shown by their constructors and fields.
-/

namespace OutlineQuery

def Axis.form (a : Axis) : Form :=
  .word (if a = .self then "SelfAxis" else a.name.capitalize)

def Relation.form (r : Relation) : Form := .word r.name.capitalize

def Modifier.form (m : Modifier) : Form := .word m.name.capitalize

def RowType.form (t : RowType) : Form := .word t.name.capitalize

def Slice.form (s : Slice) : Form :=
  .record "Slice" [("start", .option (fun n => .word (toString n.toInt)) s.start),
    ("end", .option (fun n => .word (toString n.toInt)) s.stop), ("range", .bool s.range)]

mutual

def Value.form : Value → Form
  | .literal text => .call "Literal" [.text text]
  | .attribute name => .call "GetAttribute" [.text name]
  | .call function => .call "Function" [function.form]

def Value.optionForm : Option Value → Form
  | none => .word "None"
  | some value => .call "Some" [value.form]

def Function.form : Function → Form
  | ⟨name, argument⟩ => .record "Function" [("name", .text name), ("arg", argument.form)]

def Predicate.form : Predicate → Form
  | .any => .word "Any"
  | .not inner => .call "Not" [inner.form]
  | .and left right => .call "And" [left.form, right.form]
  | .or left right => .call "Or" [left.form, right.form]
  | .comparison left relation modifier right =>
    .record "Comparison" [("left", left.form), ("relation", .option Relation.form relation),
      ("modifier", modifier.form), ("right", Value.optionForm right)]

def Step.form : Step → Form
  | ⟨axis, type, predicate, slice⟩ =>
    .record "Step" [("axis", axis.form), ("node_type", type.form), ("predicate", predicate.form),
      ("slice", .option Slice.form slice)]

def Step.forms : List Step → List Form
  | [] => []
  | step :: steps => step.form :: Step.forms steps

def Path.form : Path → Form
  | ⟨absolute, steps⟩ =>
    .record "Path" [("absolute", .bool absolute), ("steps", .list (Step.forms steps))]

def Location.form : Location → Form
  | .path path => .call "Path" [path.form]
  | .union left right => .call "Union" [left.form, right.form]
  | .except left right => .call "Except" [left.form, right.form]
  | .intersect left right => .call "Intersect" [left.form, right.form]

end

def Expression.form : Expression → Form
  | .function f => .call "Function" [f.form]
  | .location l => .call "Location" [l.form]

end OutlineQuery
