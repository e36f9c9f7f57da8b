import OutlineQuery.Json.Basic

/-!
Reading records and variants from JSON. A record is an object, whose further fields are left
aside, or a list with a value for every field. A variant is a bare name, or an object with the
name as its only field.
-/

namespace OutlineQuery.Json

def record? (names : List String) : Json → Option (List (Option Json))
  | .obj fields => some (names.map (lookup · fields))
  | .arr items => if items.length = names.length then some (items.map some) else none
  | _ => none

def variant? : Json → Option (String × Option Json)
  | .str name => some (name, none)
  | .obj [(name, content)] => some (name, some content)
  | _ => none

def plainVariant? (j : Json) : Option String :=
  match j.variant? with
  | some (name, none) => some name
  | some (name, some .null) => some name
  | _ => none

def str? : Json → Option String
  | .str text => some text
  | _ => none

def bool? : Json → Option Bool
  | .bool value => some value
  | _ => none

def list? : Json → Option (List Json)
  | .arr items => some items
  | _ => none

def pair? : Json → Option (Json × Json)
  | .arr [left, right] => some (left, right)
  | _ => none

def int64? : Json → Option Int64
  | .int n => if Int64.minValue.toInt ≤ n ∧ n ≤ Int64.maxValue.toInt then some (.ofInt n) else none
  | _ => none

def nat64? : Json → Option Nat
  | .int n => if 0 ≤ n ∧ n < 0x10000000000000000 then some n.toNat else none
  | _ => none

def required {α : Type} (read : Json → Option α) (field : Option Json) : Option α :=
  field.bind read

def optional {α : Type} (read : Json → Option α) : Option Json → Option (Option α)
  | none => some none
  | some .null => some none
  | some value => (read value).map some

end OutlineQuery.Json
