/-!
Relations between the two sides of a comparison, and the modifiers that say how to compare.
-/

namespace OutlineQuery

inductive Relation where
  | beginsWith | contains | endsWith | matches | equal | notEqual
  | lessThanOrEqual | greaterThanOrEqual | lessThan | greaterThan
deriving DecidableEq

namespace Relation

def default : Relation := .contains

def all : List Relation :=
  [.beginsWith, .contains, .endsWith, .matches, .equal, .notEqual, .lessThanOrEqual,
    .greaterThanOrEqual, .lessThan, .greaterThan]

def name : Relation → String
  | .beginsWith => "beginsWith"
  | .contains => "contains"
  | .endsWith => "endsWith"
  | .matches => "matches"
  | .equal => "equal"
  | .notEqual => "notEqual"
  | .lessThanOrEqual => "lessThanOrEqual"
  | .greaterThanOrEqual => "greaterThanOrEqual"
  | .lessThan => "lessThan"
  | .greaterThan => "greaterThan"

def ofName? (name : String) : Option Relation := all.find? (·.name = name)

def spelling : Relation → String
  | .beginsWith => "beginswith"
  | .contains => "contains"
  | .endsWith => "endswith"
  | .matches => "matches"
  | .equal => "="
  | .notEqual => "!="
  | .lessThanOrEqual => "<="
  | .greaterThanOrEqual => ">="
  | .lessThan => "<"
  | .greaterThan => ">"

theorem ofName?_name (r : Relation) : ofName? r.name = some r := by cases r <;> decide

end Relation

inductive Modifier where
  | caseSensitive | caseInsensitive | numericCompare | dateCompare | listCompare
deriving DecidableEq

namespace Modifier

def default : Modifier := .caseInsensitive

def all : List Modifier :=
  [.caseSensitive, .caseInsensitive, .numericCompare, .dateCompare, .listCompare]

def name : Modifier → String
  | .caseSensitive => "caseSensitive"
  | .caseInsensitive => "caseInsensitive"
  | .numericCompare => "numericCompare"
  | .dateCompare => "dateCompare"
  | .listCompare => "listCompare"

def ofName? (name : String) : Option Modifier := all.find? (·.name = name)

def letter : Modifier → Char
  | .caseSensitive => 's'
  | .caseInsensitive => 'i'
  | .numericCompare => 'n'
  | .dateCompare => 'd'
  | .listCompare => 'l'

def ofLetter? (c : Char) : Option Modifier := all.find? (·.letter = c)

def spelling (m : Modifier) : String := "[" ++ m.letter.toString ++ "]"

theorem ofName?_name (m : Modifier) : ofName? m.name = some m := by cases m <;> decide

theorem ofLetter?_letter (m : Modifier) : ofLetter? m.letter = some m := by cases m <;> decide

end Modifier
end OutlineQuery
