/-!
Axes: the directions in which a step leaves a row. Some have a long and a short spelling, which
are kept apart.
-/

namespace OutlineQuery

inductive Axis where
  | ancestor | ancestorOrSelf | parent | parentShortcut | self | selfShortcut | child
  | descendant | descendantShortcut | descendantOrSelf | descendantOrSelfShortcut
  | followingSibling | following | precedingSibling | preceding
deriving DecidableEq

namespace Axis

def all : List Axis :=
  [.ancestor, .ancestorOrSelf, .parent, .parentShortcut, .self, .selfShortcut, .child,
    .descendant, .descendantShortcut, .descendantOrSelf, .descendantOrSelfShortcut,
    .followingSibling, .following, .precedingSibling, .preceding]

def index (a : Axis) : Nat := all.idxOf a

def name : Axis → String
  | .ancestor => "ancestor"
  | .ancestorOrSelf => "ancestorOrSelf"
  | .parent => "parent"
  | .parentShortcut => "parentShortcut"
  | .self => "self"
  | .selfShortcut => "selfShortcut"
  | .child => "child"
  | .descendant => "descendant"
  | .descendantShortcut => "descendantShortcut"
  | .descendantOrSelf => "descendantOrSelf"
  | .descendantOrSelfShortcut => "descendantOrSelfShortcut"
  | .followingSibling => "followingSibling"
  | .following => "following"
  | .precedingSibling => "precedingSibling"
  | .preceding => "preceding"

def ofName? (name : String) : Option Axis := all.find? (·.name = name)

def spelling : Axis → String
  | .ancestor => "ancestor::"
  | .ancestorOrSelf => "ancestor-or-self::"
  | .parent => "parent::"
  | .parentShortcut => ".."
  | .self => "self::"
  | .selfShortcut => "."
  | .child => "child::"
  | .descendant => "descendant::"
  | .descendantShortcut => "/"
  | .descendantOrSelf => "descendant-or-self::"
  | .descendantOrSelfShortcut => "//"
  | .followingSibling => "following-sibling::"
  | .following => "following::"
  | .precedingSibling => "preceding-sibling::"
  | .preceding => "preceding::"

def normalized : Axis → Axis
  | .parentShortcut => .parent
  | .selfShortcut => .self
  | .descendantShortcut => .descendant
  | .descendantOrSelfShortcut => .descendantOrSelf
  | a => a

def inverse : Axis → Axis
  | .ancestor => .descendant
  | .ancestorOrSelf => .descendantOrSelf
  | .parent | .parentShortcut => .child
  | .self | .selfShortcut => .self
  | .child => .parent
  | .descendant | .descendantShortcut => .ancestor
  | .descendantOrSelf | .descendantOrSelfShortcut => .ancestorOrSelf
  | .followingSibling => .precedingSibling
  | .following => .preceding
  | .precedingSibling => .followingSibling
  | .preceding => .following

theorem ofName?_name (a : Axis) : ofName? a.name = some a := by cases a <;> decide

theorem inverse_inverse (a : Axis) : a.inverse.inverse = a.normalized := by cases a <;> rfl

end Axis
end OutlineQuery
