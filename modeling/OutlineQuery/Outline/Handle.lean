import OutlineQuery.Outline.Basic

/-!
Handles name a row of one copy of an outline; equal rows of two copies have different handles.
-/

namespace OutlineQuery.Outline

structure Handle where
  copy : Nat
  row : RowId
deriving DecidableEq

structure MissingRow where
  row : RowId

def MissingRow.message (m : MissingRow) : String :=
  "ItemId(" ++ toString m.row ++ ") is not in this outline"

def handle (o : Outline) (copy : Nat) (row : RowId) : Except MissingRow Handle :=
  if o.has row then .ok ⟨copy, row⟩ else .error ⟨row⟩

end OutlineQuery.Outline
