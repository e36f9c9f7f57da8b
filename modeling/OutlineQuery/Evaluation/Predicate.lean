import OutlineQuery.Expression.Basic
import OutlineQuery.Outline.Basic
import OutlineQuery.Text.Lowercase

/-!
Whether a row passes a predicate.
-/

namespace OutlineQuery

def Value.resolve (row : Row) : Value → Option String
  | .literal text => some text
  | .attribute name => if name = textAttribute then some row.text else row.attribute? name
  | .call _ => none

def Text.occurs (pattern : List Char) : List Char → Bool
  | [] => pattern.isEmpty
  | c :: text => pattern.isPrefixOf (c :: text) || occurs pattern text

def Modifier.fold (m : Modifier) (text : String) : List Char :=
  match m with
  | .caseInsensitive => Text.lower text.toList
  | _ => text.toList

def Relation.holds (r : Relation) (left right : List Char) : Bool :=
  match r with
  | .beginsWith => right.isPrefixOf left
  | .endsWith => right.isSuffixOf left
  | .contains => Text.occurs right left
  | .equal => left == right
  | .notEqual => left != right
  | _ => false

def Predicate.holds (row : Row) : Predicate → Bool
  | .any => true
  | .not inner => !inner.holds row
  | .and left right => left.holds row && right.holds row
  | .or left right => left.holds row || right.holds row
  | .comparison left relation modifier right =>
    match left.resolve row with
    | none => false
    | some leftText =>
      match relation, right with
      | some r, some right =>
        match right.resolve row with
        | none => false
        | some rightText => r.holds (modifier.fold leftText) (modifier.fold rightText)
      | _, _ => true

def RowType.accepts (type : RowType) (row : Row) : Bool :=
  match type with
  | .any => true
  | .heading => row.attribute? Outline.typeAttribute == some Outline.headingType

def Step.accepts (s : Step) (row : Row) : Bool :=
  s.type.accepts row && s.predicate.holds row

end OutlineQuery
