import Mathlib.Data.List.Chain
import OutlineQuery.Text.Blank
import OutlineQuery.Text.CaseClass
import OutlineQuery.Text.Identifier
import OutlineQuery.Text.Printable

/-! Looking up a code point in a table of ranges. The bisection leaves out one side of the middle
range at each step; where the ranges stand in increasing order, the code point is in none of those
that are left out. -/

namespace OutlineQuery.Text
namespace Ranges

structure Increasing (table : Ranges) : Prop where
  filled {r : Nat × Nat} : r ∈ table.toList → r.1 ≤ r.2
  apart : table.toList.IsChain fun r next => r.2 < next.1

instance (table : Ranges) : Decidable table.Increasing :=
  decidable_of_iff ((∀ r ∈ table.toList, r.1 ≤ r.2) ∧
      table.toList.IsChain fun r next => r.2 < next.1)
    ⟨fun h => ⟨h.1 _, h.2⟩, fun h => ⟨fun _ => h.filled, h.apart⟩⟩

def Holds (table : Ranges) (n : Nat) : Prop := ∃ r ∈ table, r.1 ≤ n ∧ n ≤ r.2

instance (table : Ranges) (n : Nat) : Decidable (table.Holds n) :=
  inferInstanceAs (Decidable (∃ r ∈ table, r.1 ≤ n ∧ n ≤ r.2))

def HoldsAt (table : Ranges) (n i : Nat) : Prop := ∃ r, table[i]? = some r ∧ r.1 ≤ n ∧ n ≤ r.2

/-- From one range to the next the bounds rise, and so they do from any to any later one. -/
theorem pairwise_of_apart {ranges : List (Nat × Nat)} (hfilled : ∀ r ∈ ranges, r.1 ≤ r.2)
    (hapart : ranges.IsChain fun r next => r.2 < next.1) :
    ranges.Pairwise fun r later => r.2 < later.1 := by
  induction ranges with
  | nil => exact .nil
  | cons r ranges ih =>
    have hlater := ih (fun a ha => hfilled a (List.mem_cons_of_mem r ha)) hapart.tail
    refine List.pairwise_cons.mpr ⟨fun later hmem => ?_, hlater⟩
    cases ranges with
    | nil => cases hmem
    | cons next ranges =>
      have hnext : r.2 < next.1 := (List.isChain_cons_cons.mp hapart).1
      obtain rfl | hmem := List.mem_cons.mp hmem
      · exact hnext
      · calc r.2 < next.1 := hnext
          _ ≤ next.2 := hfilled next (by simp)
          _ < later.1 := (List.pairwise_cons.mp hlater).1 later hmem

section
variable {table : Ranges} (h : table.Increasing) {n i mid : Nat} {r : Nat × Nat}
include h

theorem Increasing.lt {j : Nat} {later : Nat × Nat} (hr : table[i]? = some r)
    (hlater : table[j]? = some later) (hij : i < j) : r.2 < later.1 := by
  rw [← Array.getElem?_toList] at hr hlater
  obtain ⟨hi, rfl⟩ := List.getElem?_eq_some_iff.mp hr
  obtain ⟨hj, rfl⟩ := List.getElem?_eq_some_iff.mp hlater
  have hpairs := pairwise_of_apart (fun _ => h.filled) h.apart
  exact List.pairwise_iff_getElem.mp hpairs i j hi hj hij

/-- Both bounds rise along the table. -/
theorem Increasing.mono {j : Nat} {later : Nat × Nat} (hr : table[i]? = some r)
    (hlater : table[j]? = some later) (hij : i ≤ j) : r.1 ≤ later.1 ∧ r.2 ≤ later.2 := by
  obtain hlt | rfl := Nat.lt_or_eq_of_le hij
  · have hrise := h.lt hr hlater hlt
    have hfirst := h.filled (Array.mem_toList_iff.mpr (Array.mem_of_getElem? hr))
    have hsecond := h.filled (Array.mem_toList_iff.mpr (Array.mem_of_getElem? hlater))
    omega
  · cases hr.symm.trans hlater
    exact ⟨Nat.le_refl _, Nat.le_refl _⟩

/-- A code point behind a range is in no range up to this one. -/
theorem Increasing.lt_of_behind (hr : table[mid]? = some r) (hn : r.2 < n)
    (hi : table.HoldsAt n i) : mid < i := by
  obtain ⟨a, ha, -, hhi⟩ := hi
  refine Nat.lt_of_not_le fun hle => ?_
  have hrise := (h.mono ha hr hle).2
  omega

/-- A code point before a range is in no range from this one on. -/
theorem Increasing.lt_of_before (hr : table[mid]? = some r) (hn : n < r.1)
    (hi : table.HoldsAt n i) : i < mid := by
  obtain ⟨a, ha, hlo, -⟩ := hi
  refine Nat.lt_of_not_le fun hle => ?_
  have hrise := (h.mono hr ha hle).1
  omega

/-- As many halvings as there are ranges between the two indices are enough. -/
theorem Increasing.search_iff {bound lo hi : Nat} (hhi : hi ≤ table.size)
    (hbound : hi - lo ≤ bound) :
    search table n bound lo hi = true ↔ ∃ i, lo ≤ i ∧ i < hi ∧ table.HoldsAt n i := by
  induction bound generalizing lo hi with
  | zero =>
    rw [search]
    refine iff_of_false Bool.false_ne_true fun ⟨i, hlo, hlt, _⟩ => ?_
    omega
  | succ bound ih =>
    rw [search]
    by_cases hlt : lo < hi
    · have hmid : lo ≤ (lo + hi) / 2 ∧ (lo + hi) / 2 < hi := by omega
      generalize (lo + hi) / 2 = mid at hmid ⊢
      obtain ⟨⟨first, last⟩, hr⟩ : ∃ r, table[mid]? = some r :=
        ⟨table[mid], Array.getElem?_eq_getElem (by omega)⟩
      simp only [if_pos hlt, hr]
      -- The half that is left out holds nothing, so the indices to look at are those of the other.
      by_cases hlast : last < n
      · rw [if_pos hlast, ih hhi (by omega)]
        refine exists_congr fun i => ⟨fun ⟨hlo, hi⟩ => ⟨by omega, hi⟩, fun ⟨_, hi, hheld⟩ => ?_⟩
        exact ⟨h.lt_of_behind hr hlast hheld, hi, hheld⟩
      · by_cases hfirst : n < first
        · rw [if_neg hlast, if_pos hfirst, ih (by omega) (by omega)]
          refine exists_congr fun i =>
            ⟨fun ⟨hlo, hi, hheld⟩ => ⟨hlo, by omega, hheld⟩, fun ⟨hlo, _, hheld⟩ => ?_⟩
          exact ⟨hlo, h.lt_of_before hr hfirst hheld, hheld⟩
        · rw [if_neg hlast, if_neg hfirst]
          exact iff_of_true rfl ⟨mid, hmid.1, hmid.2, _, hr, by omega, by omega⟩
    · rw [if_neg hlt]
      refine iff_of_false Bool.false_ne_true fun ⟨i, hlo, hi, _⟩ => ?_
      omega

theorem Increasing.covers_iff : table.covers n = true ↔ table.Holds n := by
  rw [covers, h.search_iff (Nat.le_refl _) (Nat.sub_le _ _)]
  constructor
  · rintro ⟨i, -, -, r, hr, hheld⟩
    exact ⟨r, Array.mem_of_getElem? hr, hheld⟩
  · rintro ⟨r, hmem, hheld⟩
    obtain ⟨i, hi, rfl⟩ := Array.mem_iff_getElem.mp hmem
    exact ⟨i, Nat.zero_le i, hi, _, Array.getElem?_eq_getElem hi, hheld⟩

end
end Ranges

open Ranges

/-- Every table that characters are looked up in. -/
theorem increasing_tables : ∀ table ∈ [identifierStart, identifierExtra, blankRanges, casedRanges,
    caseIgnorableRanges, combiningRanges, unprintableRanges, defaultIgnorableRanges],
    table.Increasing := by
  decide +kernel

theorem increasing_identifierStart : identifierStart.Increasing := increasing_tables _ (by simp)

theorem increasing_identifierExtra : identifierExtra.Increasing := increasing_tables _ (by simp)

theorem isStart_iff (c : Char) : isStart c = true ↔ identifierStart.Holds c.toNat :=
  increasing_identifierStart.covers_iff

theorem isRest_iff (c : Char) :
    isRest c = true ↔ identifierStart.Holds c.toNat ∨ identifierExtra.Holds c.toNat := by
  rw [isRest, Bool.or_eq_true, isStart_iff, increasing_identifierExtra.covers_iff]

/-- The lookup finds exactly what the ranges hold, in every table in increasing order; both tables
for identifiers are, so these are the characters of identifiers. -/
theorem lookup_exact :
    (∀ {table : Ranges}, table.Increasing → ∀ n, table.covers n = true ↔ table.Holds n) ∧
      (identifierStart.Increasing ∧ identifierExtra.Increasing) ∧
      ∀ c, (isStart c = true ↔ identifierStart.Holds c.toNat) ∧
        (isRest c = true ↔ identifierStart.Holds c.toNat ∨ identifierExtra.Holds c.toNat) := by
  refine ⟨fun h n => h.covers_iff, ⟨increasing_identifierStart, increasing_identifierExtra⟩, ?_⟩
  exact fun c => ⟨isStart_iff c, isRest_iff c⟩

/-- The last letter of a range is found, and the sign in the gap behind it is not. -/
theorem lookup_exact_timesSign : identifierStart.Increasing ∧
    identifierStart.covers 'Ö'.toNat = true ∧ identifierStart.covers '×'.toNat = false := by
  have hincreasing := increasing_identifierStart
  refine ⟨hincreasing, (lookup_exact.1 hincreasing 'Ö'.toNat).mpr (by decide), ?_⟩
  exact Bool.eq_false_iff.mpr fun hfound =>
    absurd ((lookup_exact.1 hincreasing '×'.toNat).mp hfound) (by decide)

end OutlineQuery.Text
