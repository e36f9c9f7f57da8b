/-!
JSON values with integers for numbers and the fields of an object in order.
-/

namespace OutlineQuery

inductive Json where
  | null
  | bool (value : Bool)
  | int (value : Int)
  | str (text : String)
  | arr (items : List Json)
  | obj (fields : List (String × Json))
deriving Inhabited

namespace Json

def lookup (name : String) : List (String × Json) → Option Json
  | [] => none
  | (key, value) :: fields => if key = name then some value else lookup name fields

def ofOption {α : Type} (write : α → Json) : Option α → Json
  | none => .null
  | some a => write a

mutual

def depth : Json → Nat
  | .arr items => depthItems items + 1
  | .obj fields => depthFields fields + 1
  | _ => 0

def depthItems : List Json → Nat
  | [] => 0
  | item :: items => max item.depth (depthItems items)

def depthFields : List (String × Json) → Nat
  | [] => 0
  | (_, value) :: fields => max value.depth (depthFields fields)

end

end Json
end OutlineQuery
