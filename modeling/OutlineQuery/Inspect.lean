import OutlineQuery.Text.Escaped

/-!
Values shown by their constructors and fields, on one line or with a line for each part.
-/

namespace OutlineQuery

inductive Form where
  | word (text : String)
  | call (name : String) (arguments : List Form)
  | record (name : String) (fields : List (String × Form))
  | list (items : List Form)

namespace Form

def text (s : String) : Form := .word (Text.quoted s)

def bool (b : Bool) : Form := .word (if b then "true" else "false")

def option {α : Type} (form : α → Form) : Option α → Form
  | none => .word "None"
  | some a => .call "Some" [form a]

mutual

def inline : Form → String
  | .word s => s
  | .call name arguments => name ++ "(" ++ inlineItems arguments ++ ")"
  | .record name fields => name ++ " \x7b " ++ inlineFields fields ++ " \x7d"
  | .list items => "[" ++ inlineItems items ++ "]"

def inlineItems : List Form → String
  | [] => ""
  | item :: items => item.inline ++ (if items.isEmpty then "" else ", ") ++ inlineItems items

def inlineFields : List (String × Form) → String
  | [] => ""
  | (name, value) :: fields =>
    name ++ ": " ++ value.inline ++ (if fields.isEmpty then "" else ", ") ++ inlineFields fields

end

def margin (level : Nat) : String := "".pushn ' ' (4 * level)

mutual

def indentedAt (level : Nat) : Form → String
  | .word s => s
  | .call name arguments =>
    name ++ "(\n" ++ indentedItems (level + 1) arguments ++ margin level ++ ")"
  | .record name fields =>
    name ++ " \x7b\n" ++ indentedFields (level + 1) fields ++ margin level ++ "\x7d"
  | .list [] => "[]"
  | .list (item :: items) =>
    "[\n" ++ indentedItems (level + 1) (item :: items) ++ margin level ++ "]"

def indentedItems (level : Nat) : List Form → String
  | [] => ""
  | item :: items => margin level ++ indentedAt level item ++ ",\n" ++ indentedItems level items

def indentedFields (level : Nat) : List (String × Form) → String
  | [] => ""
  | (name, value) :: fields =>
    margin level ++ name ++ ": " ++ indentedAt level value ++ ",\n" ++ indentedFields level fields

end

def indented (form : Form) : String := indentedAt 0 form

end Form
end OutlineQuery
