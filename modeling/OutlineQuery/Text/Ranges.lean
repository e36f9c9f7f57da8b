/-!
Character classes given as tables of code point ranges.
`Ranges.covers` decides membership by bisection; it needs the ranges in increasing order.
-/

namespace OutlineQuery.Text

abbrev Ranges := Array (Nat × Nat)

namespace Ranges

/-- Looks for `n` from index `lo` up to index `hi`, which is left out.
The first argument bounds the number of halvings. -/
def search (table : Ranges) (n : Nat) : Nat → Nat → Nat → Bool
  | 0, _, _ => false
  | bound + 1, lo, hi =>
    if lo < hi then
      let mid := (lo + hi) / 2
      match table[mid]? with
      | none => false
      | some (first, last) =>
        if last < n then search table n bound (mid + 1) hi
        else if n < first then search table n bound lo mid
        else true
    else false

def covers (table : Ranges) (n : Nat) : Bool :=
  search table n table.size 0 table.size

end Ranges
end OutlineQuery.Text
