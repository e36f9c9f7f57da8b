import OutlineQuery.Json.Basic

/-!
JSON laid out over several lines, each level two columns further in.
-/

namespace OutlineQuery.Json

def escapeControl (c : Char) : List Char :=
  ['\\', 'u', '0', '0'] ++ [Nat.digitChar (c.toNat / 16), Nat.digitChar (c.toNat % 16)]

def escapeChar (c : Char) : List Char :=
  if c = '"' || c = '\\' then ['\\', c]
  else if c = '\x08' then ['\\', 'b']
  else if c = '\x0c' then ['\\', 'f']
  else if c = '\n' then ['\\', 'n']
  else if c = '\r' then ['\\', 'r']
  else if c = '\t' then ['\\', 't']
  else if c.toNat < 0x20 then escapeControl c
  else [c]

def quoted (text : String) : String :=
  String.ofList ('"' :: text.toList.flatMap escapeChar ++ ['"'])

def newLine (level : Nat) : String := "\n".pushn ' ' (2 * level)

mutual

def prettyAt (level : Nat) : Json → String
  | .null => "null"
  | .bool value => if value then "true" else "false"
  | .int n => toString n
  | .str text => quoted text
  | .arr [] => "[]"
  | .arr (item :: items) => "[" ++ prettyItems (level + 1) (item :: items) ++ newLine level ++ "]"
  | .obj [] => "\x7b\x7d"
  | .obj (field :: fields) =>
    "\x7b" ++ prettyFields (level + 1) (field :: fields) ++ newLine level ++ "\x7d"

def prettyItems (level : Nat) : List Json → String
  | [] => ""
  | item :: items =>
    newLine level ++ prettyAt level item ++ (if items.isEmpty then "" else ",") ++
      prettyItems level items

def prettyFields (level : Nat) : List (String × Json) → String
  | [] => ""
  | (name, value) :: fields =>
    newLine level ++ quoted name ++ ": " ++ prettyAt level value ++
      (if fields.isEmpty then "" else ",") ++ prettyFields level fields

end

def pretty (j : Json) : String := prettyAt 0 j

end OutlineQuery.Json
