import OutlineQuery.Evaluation.Slice

/-! Slices by the positions that they select. The numbers on the way to them are the same in words
of 64 bits, so nothing overflows, however far beyond the ends of the list a bound is. -/

namespace OutlineQuery.Slice
variable {α : Type}

def itemsBetween (lo hi : Nat) (items : List α) : List α :=
  (items.zipIdx.filter fun item => lo ≤ item.2 ∧ item.2 < hi).map (·.1)

/-- How many of so many items stand before a bound of a range. A negative bound counts from the end,
and no bound is beyond the ends. -/
def cut (length : Nat) (bound : Int64) : Nat :=
  if bound.toInt < 0 then length - bound.toInt.natAbs else min bound.toInt.natAbs length

def position? (length : Nat) (bound : Int64) : Option Nat :=
  if bound.toInt < 0 then
    if bound.toInt.natAbs ≤ length then some (length - bound.toInt.natAbs) else none
  else some bound.toInt.natAbs

theorem filter_zipIdx_eq (lo hi k : Nat) (items : List α) :
    (((items.zipIdx k).filter fun item => lo ≤ item.2 ∧ item.2 < hi).map (·.1)) =
      (items.drop (lo - k)).take (hi - max lo k) := by
  induction items generalizing k with
  | nil => simp
  | cons x items ih =>
    have hnext := ih (k + 1)
    rw [List.zipIdx_cons, List.filter_cons]
    by_cases hlo : lo ≤ k
    · have hfrom : lo - k = 0 ∧ lo - (k + 1) = 0 := by omega
      by_cases hhi : k < hi
      · have hcount : hi - max lo k = hi - max lo (k + 1) + 1 := by omega
        rw [if_pos (by simp [hlo, hhi]), List.map_cons, hnext, hcount, hfrom.1, hfrom.2]
        rfl
      · have hcount : hi - max lo k = 0 ∧ hi - max lo (k + 1) = 0 := by omega
        rw [if_neg (by simp [hhi]), hnext, hcount.1, hcount.2, List.take_zero, List.take_zero]
    · have hfrom : lo - k = lo - (k + 1) + 1 := by omega
      have hmax : max lo k = max lo (k + 1) := by omega
      rw [if_neg (by simp [hlo]), hnext, hfrom, hmax]
      rfl

theorem itemsBetween_eq (lo hi : Nat) (items : List α) :
    itemsBetween lo hi items = (items.drop lo).take (hi - lo) := by
  rw [itemsBetween, filter_zipIdx_eq, Nat.sub_zero, Nat.max_zero]

theorem clamp_resolve (length : Nat) (bound : Int64) :
    clamp length (resolve length bound) = cut length bound := by
  unfold clamp resolve cut
  split <;> omega

theorem clamp_start (length : Nat) (start : Option Int64) :
    clamp length ((start.map (resolve length)).getD 0) =
      ((start.map (cut length)).getD 0 : Nat) := by
  cases start with
  | none =>
    show max 0 (min 0 (length : Int)) = 0
    omega
  | some b => exact clamp_resolve length b

theorem clamp_stop (length : Nat) (stop : Option Int64) :
    clamp length ((stop.map (resolve length)).getD length) =
      ((stop.map (cut length)).getD length : Nat) := by
  cases stop with
  | none => simp [clamp]
  | some b => exact clamp_resolve length b

/-- A range selects the items between its two cuts. -/
theorem select_range {s : Slice} (h : s.range = true) (items : List α) :
    s.select items = itemsBetween ((s.start.map (cut items.length)).getD 0)
      ((s.stop.map (cut items.length)).getD items.length) items := by
  rw [select, stretch?, if_pos h, clamp_start, clamp_stop, itemsBetween_eq]
  simp only [Int.toNat_natCast, Int.toNat_sub]

theorem take_one_drop (n : Nat) (items : List α) : (items.drop n).take 1 = items[n]?.toList := by
  rw [← List.head?_drop, List.take_one]

/-- A row number selects the item at its position, if there is one. -/
theorem select_index {s : Slice} (h : s.range = false) (items : List α) :
    s.select items = (s.start.bind fun b =>
      (position? items.length b).bind fun p => items[p]?).toList := by
  rw [select, stretch?, if_neg (by simp [h])]
  cases s.start with
  | none => rfl
  | some b =>
    simp only [Option.map_some, Option.bind_some]
    by_cases hin : 0 ≤ resolve items.length b ∧ resolve items.length b < items.length
    · have hposition : position? items.length b = some (resolve items.length b).toNat := by
        unfold position? resolve at *
        split <;> grind
      have hcount : (resolve items.length b + 1 - resolve items.length b).toNat = 1 := by omega
      rw [if_pos hin, hposition]
      simp only [hcount, take_one_drop, Option.bind_some]
    · have hnone : (position? items.length b).bind (fun p => items[p]?) = none := by
        unfold position? resolve at *
        split <;> grind
      rw [if_neg hin, hnone]
      rfl

/-- What stands before a cut and what stands behind it is all. -/
theorem select_before_append_behind (k : Int64) (items : List α) :
    (between none (some k)).select items ++ (between (some k) none).select items = items := by
  have hcut : cut items.length k ≤ items.length := by
    unfold cut
    split <;> omega
  rw [select_range rfl, select_range rfl, itemsBetween_eq, itemsBetween_eq]
  have hall : (items.drop (cut items.length k)).take (items.length - cut items.length k) =
      items.drop (cut items.length k) := List.take_of_length_le (by simp)
  show (items.drop 0).take (cut items.length k - 0) ++
    (items.drop (cut items.length k)).take (items.length - cut items.length k) = items
  rw [hall, List.drop_zero, Nat.sub_zero, List.take_append_drop]

def word? (n : Int) : Option Int64 :=
  if Int64.minValue.toInt ≤ n ∧ n ≤ Int64.maxValue.toInt then some (.ofInt n) else none

def add? (a b : Int64) : Option Int64 := word? (a.toInt + b.toInt)

def sub? (a b : Int64) : Option Int64 := word? (a.toInt - b.toInt)

def resolveWord? (length bound : Int64) : Option Int64 :=
  if bound < 0 then add? length bound else some bound

def boundWord? (length default : Int64) : Option Int64 → Option Int64
  | none => some default
  | some b => resolveWord? length b

def clampWord (length n : Int64) : Int64 := if n < 0 then 0 else if length < n then length else n

def takeBetween? (start stop : Int64) (items : List α) : Option (List α) :=
  if stop ≤ start then some []
  else do return (items.drop start.toInt.toNat).take (← sub? stop start).toInt.toNat

def selectInWords? (s : Slice) (items : List α) : Option (List α) :=
  let length := Int64.ofNat items.length
  if s.range then do
    let start ← boundWord? length 0 s.start
    let stop ← boundWord? length length s.stop
    takeBetween? (clampWord length start) (clampWord length stop) items
  else
    match s.start with
    | none => some []
    | some b => do
      let n ← resolveWord? length b
      if 0 ≤ n ∧ n < length then takeBetween? n (← add? n 1) items else some []

theorem exists_word? {n : Int} (h : Int64.minValue.toInt ≤ n ∧ n ≤ Int64.maxValue.toInt) :
    ∃ w, word? n = some w ∧ w.toInt = n := by
  obtain ⟨hmin, hmax⟩ := h
  refine ⟨.ofInt n, if_pos ⟨hmin, hmax⟩, ?_⟩
  rw [Int64.toInt_minValue] at hmin
  rw [Int64.toInt_maxValue] at hmax
  exact Int64.toInt_ofInt_of_le hmin (Int.lt_of_le_sub_one hmax)

theorem toInt_bounds (a : Int64) :
    Int64.minValue.toInt ≤ a.toInt ∧ a.toInt ≤ Int64.maxValue.toInt := by
  rw [Int64.toInt_minValue, Int64.toInt_maxValue]
  exact ⟨Int64.le_toInt a, Int.le_sub_one_of_lt (Int64.toInt_lt a)⟩

theorem toInt_minValue_le_zero : Int64.minValue.toInt ≤ 0 := by decide

section
variable {length : Int64} (hlength : 0 ≤ length.toInt)
include hlength

/-- The length of the list is at least 0 and a bound is added to it only if it is negative. -/
theorem exists_resolveWord? (b : Int64) :
    ∃ w, resolveWord? length b = some w ∧ w.toInt = resolve length.toInt b := by
  have hb := toInt_bounds b
  have hl := toInt_bounds length
  unfold resolveWord? resolve
  simp only [Int64.lt_iff_toInt_lt, Int64.toInt_zero]
  split
  · exact exists_word? (by omega)
  · exact ⟨b, rfl, rfl⟩

theorem exists_boundWord? (default : Int64) (bound : Option Int64) :
    ∃ w, boundWord? length default bound = some w ∧
      w.toInt = (bound.map (resolve length.toInt)).getD default.toInt := by
  cases bound with
  | none => exact ⟨default, rfl, rfl⟩
  | some b => exact exists_resolveWord? hlength b

theorem toInt_clampWord (n : Int64) : (clampWord length n).toInt = clamp length.toInt n.toInt := by
  unfold clampWord clamp
  simp only [Int64.lt_iff_toInt_lt, Int64.toInt_zero]
  split
  · rw [Int64.toInt_zero]
    omega
  · split <;> omega

omit hlength in
/-- The difference is taken only where it is positive, and it is at most the end of the stretch. -/
theorem takeBetween?_eq {start stop : Int64} (hstart : 0 ≤ start.toInt) (items : List α) :
    takeBetween? start stop items =
      some ((items.drop start.toInt.toNat).take (stop.toInt - start.toInt).toNat) := by
  unfold takeBetween?
  simp only [Int64.le_iff_toInt_le]
  split
  · have hnone : (stop.toInt - start.toInt).toNat = 0 := by omega
    rw [hnone, List.take_zero]
  · have hstop := toInt_bounds stop
    have hmin := toInt_minValue_le_zero
    obtain ⟨count, hcount, htoInt⟩ : ∃ w, sub? stop start = some w ∧
        w.toInt = stop.toInt - start.toInt := exists_word? (by omega)
    rw [hcount, ← htoInt]
    rfl

end

/-- With words of 64 bits the same is selected, and nothing overflows on the way. -/
theorem selectInWords?_eq (s : Slice) (items : List α)
    (h : (items.length : Int) ≤ Int64.maxValue.toInt) :
    s.selectInWords? items = some (s.select items) := by
  have hlength : (Int64.ofNat items.length).toInt = items.length := by
    rw [Int64.toInt_maxValue] at h
    exact Int64.toInt_ofNat_of_lt (by omega)
  have hpos : 0 ≤ (Int64.ofNat items.length).toInt := by omega
  unfold selectInWords? select stretch?
  by_cases hrange : s.range = true
  · obtain ⟨start, hstart, hstart'⟩ := exists_boundWord? hpos 0 s.start
    obtain ⟨stop, hstop, hstop'⟩ := exists_boundWord? hpos (.ofNat items.length) s.stop
    have hfrom := toInt_clampWord hpos start
    have hto := toInt_clampWord hpos stop
    have hclamp : 0 ≤ (clampWord (.ofNat items.length) start).toInt := by
      rw [hfrom]
      exact Int.le_max_left _ _
    rw [hlength, Int64.toInt_zero] at hstart'
    rw [hlength] at hfrom hto hstop'
    simp only [if_pos hrange, hstart, hstop, Option.bind_eq_bind, Option.bind_some,
      takeBetween?_eq hclamp, hfrom, hto, hstart', hstop']
  · simp only [if_neg hrange]
    cases s.start with
    | none => rfl
    | some b =>
      obtain ⟨n, hn, hn'⟩ := exists_resolveWord? hpos b
      rw [hlength] at hn'
      simp only [hn, Option.bind_eq_bind, Option.bind_some, Option.map_some,
        Int64.le_iff_toInt_le, Int64.lt_iff_toInt_lt, Int64.toInt_zero, hlength, ← hn']
      split
      · rename_i hin
        have hmin := toInt_minValue_le_zero
        obtain ⟨next, hnext, hnext'⟩ : ∃ w, add? n 1 = some w ∧ w.toInt = n.toInt + 1 :=
          exists_word? (by rw [Int64.toInt_one]; omega)
        rw [hnext, Option.bind_some, takeBetween?_eq hin.1, hnext']
      · rfl

/-- A slice selects exactly the items at the positions that it states, whatever its bounds are, and
no sum or difference on the way to them leaves the 64 bits. So a cut anywhere leaves two parts that
are the whole list again. -/
theorem selects_stated_positions (items : List α)
    (h : (items.length : Int) ≤ Int64.maxValue.toInt) :
    (∀ s : Slice, s.selectInWords? items = some (s.select items) ∧
      (s.range = true → s.select items = itemsBetween ((s.start.map (cut items.length)).getD 0)
        ((s.stop.map (cut items.length)).getD items.length) items) ∧
      (s.range = false → s.select items = (s.start.bind fun b =>
        (position? items.length b).bind fun p => items[p]?).toList)) ∧
    ∀ k, (between none (some k)).select items ++ (between (some k) none).select items = items :=
  ⟨fun s => ⟨selectInWords?_eq s items h, fun hs => select_range hs items,
    fun hs => select_index hs items⟩, fun k => select_before_append_behind k items⟩

/-- The least bound is far before the first item and the greatest far behind the last one. -/
theorem farBounds_selected : (['a', 'b', 'c'].length : Int) ≤ Int64.maxValue.toInt ∧
    (between (some Int64.minValue) (some Int64.maxValue)).selectInWords? ['a', 'b', 'c'] =
      some ['a', 'b', 'c'] ∧
    (between (some (-2)) (some Int64.maxValue)).select ['a', 'b', 'c'] = ['b', 'c'] ∧
    (index Int64.minValue).select ['a', 'b', 'c'] = [] ∧
    (between none (some (-1))).select ['a', 'b', 'c'] ++
      (between (some (-1)) none).select ['a', 'b', 'c'] = ['a', 'b', 'c'] := by
  have h : (['a', 'b', 'c'].length : Int) ≤ Int64.maxValue.toInt := by decide
  obtain ⟨hslice, hcut⟩ := selects_stated_positions ['a', 'b', 'c'] h
  refine ⟨h, (hslice _).1.trans ?_, ((hslice _).2.1 rfl).trans ?_, ((hslice _).2.2 rfl).trans ?_,
    hcut (-1)⟩
  · decide
  · decide
  · decide

end OutlineQuery.Slice
