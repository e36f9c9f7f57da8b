import OutlineQuery.Expression.Basic

/-!
Slices applied to a list. A negative bound counts from the end.
-/

namespace OutlineQuery.Slice

def resolve (length : Int) (bound : Int64) : Int :=
  if bound.toInt < 0 then length + bound.toInt else bound.toInt

def clamp (length n : Int) : Int := max 0 (min n length)

def stretch? (s : Slice) (length : Int) : Option (Int × Int) :=
  if s.range then
    some (clamp length ((s.start.map (resolve length)).getD 0),
      clamp length ((s.stop.map (resolve length)).getD length))
  else
    match s.start.map (resolve length) with
    | none => none
    | some n => if 0 ≤ n ∧ n < length then some (n, n + 1) else none

def select {α : Type} (s : Slice) (items : List α) : List α :=
  match s.stretch? items.length with
  | none => []
  | some (start, stop) => (items.drop start.toNat).take (stop - start).toNat

end OutlineQuery.Slice
