import Mathlib.Data.Nat.Digits.Defs
import OutlineQuery.Proofs.SingleStep
import OutlineQuery.Proofs.WordsAsNames

/-! The numbers of a slice. Decimal digits, however many, are read as the number they stand for if
it is a word of 64 bits. If it is none the slice cannot be read: where the number is refused neither
the end of the slice nor the colon of a range comes next, so that no bound is left out instead. -/

namespace OutlineQuery
open Grammar

structure Numeral where
  negative : Bool
  digits : List Char
  nonempty : digits ≠ []
  decimal : ∀ c ∈ digits, c.isDigit = true

namespace Numeral

def text (n : Numeral) : List Char := signText n.negative ++ n.digits

def places (n : Numeral) : List Nat := n.digits.reverse.map fun c => c.toNat - '0'.toNat

def magnitude (n : Numeral) : Nat := Nat.ofDigits 10 n.places

def value (n : Numeral) : Int := if n.negative then -n.magnitude else n.magnitude

def Fits (n : Numeral) : Prop := -2 ^ 63 ≤ n.value ∧ n.value < 2 ^ 63

instance (n : Numeral) : Decidable n.Fits :=
  inferInstanceAs (Decidable (_ ∧ _))

end Numeral

inductive NumeralSlice where
  | index (n : Numeral)
  | between (start stop : Option Numeral)

namespace NumeralSlice

def numerals : NumeralSlice → List Numeral
  | .index n => [n]
  | .between start stop => start.toList ++ stop.toList

def text : NumeralSlice → List Char
  | .index n => '[' :: (n.text ++ [']'])
  | .between start stop =>
    '[' :: (start.elim [] Numeral.text ++ ':' :: (stop.elim [] Numeral.text ++ [']']))

def query (w : NumeralSlice) : String := "*" ++ String.ofList w.text

def Denotes : NumeralSlice → Slice → Prop
  | .index n, s => ∃ i : Int64, i.toInt = n.value ∧ s = .index i
  | .between start stop, s => ∃ i j : Option Int64, i.map Int64.toInt = start.map Numeral.value ∧
    j.map Int64.toInt = stop.map Numeral.value ∧ s = .between i j

end NumeralSlice

def Slice.ofAll (s : Slice) : Expression :=
  .location (.path ⟨false, [⟨.child, .any, .any, some s⟩]⟩)

namespace Grammar
open Production Text

/-- Digit by digit from the front, a number comes to the sum of its places. -/
theorem digitsValue_eq_ofDigits (digits : List Char) :
    digitsValue digits = Nat.ofDigits 10 (digits.reverse.map fun c => c.toNat - '0'.toNat) := by
  induction digits using List.reverseRecOn with
  | nil => rfl
  | append_singleton digits c ih =>
    have hlast : digitsValue (digits ++ [c]) = 10 * digitsValue digits + (c.toNat - '0'.toNat) :=
      List.foldl_append
    rw [hlast, ih, List.reverse_append, List.reverse_singleton, List.singleton_append,
      List.map_cons, Nat.ofDigits_cons, Nat.add_comm]

end Grammar

namespace Numeral
open Production Text
variable {n : Numeral} {depth : Nat} {rest : List Char}

theorem value_eq (n : Numeral) : n.value =
    if n.negative then -(digitsValue n.digits : Int) else digitsValue n.digits := by
  rw [value, magnitude, places, digitsValue_eq_ofDigits]

theorem fits_iff :
    n.Fits ↔ Int64.minValue.toInt ≤ n.value ∧ n.value ≤ Int64.maxValue.toInt := by
  rw [Fits, Int64.toInt_minValue, Int64.toInt_maxValue]
  omega

theorem Fits.exists_word (h : n.Fits) : ∃ i : Int64, i.toInt = n.value := by
  obtain ⟨hmin, hmax⟩ := fits_iff.mp h
  exact ⟨.ofInt n.value, Int64.toInt_ofInt_of_le hmin (Int.lt_add_one_of_le hmax)⟩

theorem spells {i : Int64} (h : i.toInt = n.value) : SpellsInteger i n.text :=
  ⟨n.negative, n.digits, rfl, n.nonempty, n.decimal, h.trans n.value_eq⟩

/-- A numeral starts with its sign or a digit. -/
theorem head_ne (n : Numeral) {c : Char} (hsign : c ≠ '-') (hdigit : c.isDigit = false)
    (rest : List Char) : (n.text ++ rest).head? ≠ some c := by
  obtain ⟨negative, digits, hsome, hdigits⟩ := n
  cases negative with
  | true => simpa [text, signText] using hsign.symm
  | false =>
    cases digits with
    | nil => exact absurd rfl hsome
    | cons d digits =>
      have hd : d.isDigit = true := hdigits d List.mem_cons_self
      rintro ⟨⟩
      rw [hdigit] at hd
      cases hd

/-- A number that is no word is refused behind its digits. -/
theorem refuses (h : ¬n.Fits) (hrest : rest.head?.any Char.isDigit = false) :
    Refuses integer depth (n.text ++ rest) := by
  have htake : (n.digits ++ rest).takeWhile Char.isDigit = n.digits :=
    takeWhile_append_stop n.decimal hrest
  have hpass : Reads (pass n.digits.length) depth (n.digits ++ rest) () _ := reads_pass _
  rw [text, List.append_assoc]
  refine .bind_next (reads_sign n.negative n.nonempty n.decimal) (.bind_next reads_remaining ?_)
  simp only [htake, ← n.value_eq]
  rw [if_neg (by simpa using n.nonempty)]
  refine .bind_next hpass ?_
  rw [if_neg (fits_iff.not.mp h)]
  exact refuses_fail rfl

/-- So no number is read where one is not required. -/
theorem reads_none (h : ¬n.Fits) (hrest : rest.head?.any Char.isDigit = false) :
    Reads (attempt integer) depth (n.text ++ rest) none (n.text ++ rest) :=
  (refuses h hrest).attempt (follows_grown_of_silent silent_integer)

end Numeral

namespace NumeralSlice
open Production Text
variable {w : NumeralSlice} {n : Numeral} {s : Slice} {depth : Nat} {rest : List Char}

/-- A bound that is not written, or a word, is the bound of a slice. -/
theorem exists_bound {bound : Option Numeral} (h : ∀ n ∈ bound, n.Fits) :
    ∃ i : Option Int64, i.map Int64.toInt = bound.map Numeral.value ∧
      SpellsBound i (bound.elim [] Numeral.text) := by
  cases bound with
  | none => exact ⟨none, rfl, rfl⟩
  | some n =>
    obtain ⟨i, hi⟩ := (h n rfl).exists_word
    exact ⟨some i, congrArg some hi, Numeral.spells hi⟩

theorem exists_denoted (h : ∀ n ∈ w.numerals, n.Fits) :
    ∃ s, w.Denotes s ∧ SpellsSlice s w.text := by
  cases w with
  | index n =>
    obtain ⟨i, hi⟩ := (h n List.mem_cons_self).exists_word
    exact ⟨.index i, ⟨i, hi, rfl⟩, .index (Numeral.spells hi)⟩
  | between start stop =>
    have hstart : ∀ n ∈ start, n.Fits := fun n hn =>
      h n (List.mem_append_left _ (Option.mem_toList.mpr hn))
    have hstop : ∀ n ∈ stop, n.Fits := fun n hn =>
      h n (List.mem_append_right _ (Option.mem_toList.mpr hn))
    obtain ⟨i, hi, hfirst⟩ := exists_bound hstart
    obtain ⟨j, hj, hlast⟩ := exists_bound hstop
    exact ⟨.between i j, ⟨i, j, hi, hj, rfl⟩, .between hfirst hlast⟩

/-- Behind a number that is refused in a row number, a range has no colon to go on with. -/
theorem refuses_start (h : ¬n.Fits) (hrest : rest.head?.any Char.isDigit = false) :
    Refuses slice depth ('[' :: (n.text ++ rest)) := by
  have hopen : Reads (expect "[") depth ('[' :: (n.text ++ rest)) () (n.text ++ rest) :=
    reads_expect rfl
  have hindex : Refuses indexSlice depth ('[' :: (n.text ++ rest)) :=
    .bind_next hopen (n.refuses h hrest).bind_first
  have hcolon : ":".toList.isPrefixOf (n.text ++ rest) = false :=
    isPrefixOf_cons_false (n.head_ne (by decide) (by decide) rest) []
  have hrange : Refuses rangeSlice depth ('[' :: (n.text ++ rest)) :=
    .bind_next hopen (.bind_next (n.reads_none h hrest) (.bind_first (refuses_expect hcolon)))
  exact .bind_next (hindex.attempt (follows_grown_of_silent silent_indexSlice)) hrange

theorem refuses_stop {i : Option Int64} {first : List Char} (hfirst : SpellsBound i first)
    (h : ¬n.Fits) :
    Refuses slice depth ('[' :: (first ++ ':' :: (n.text ++ ']' :: rest))) := by
  have hopen : Reads (expect "[") depth ('[' :: (first ++ ':' :: (n.text ++ ']' :: rest))) ()
      (first ++ ':' :: (n.text ++ ']' :: rest)) := reads_expect rfl
  have hstart : Reads (attempt integer) depth (first ++ ':' :: (n.text ++ ']' :: rest)) i
      (':' :: (n.text ++ ']' :: rest)) := hfirst.reads (by simp) rfl
  have hcolon : Reads (expect ":") depth (':' :: (n.text ++ ']' :: rest)) ()
      (n.text ++ ']' :: rest) := reads_expect rfl
  have hclose : "]".toList.isPrefixOf (n.text ++ ']' :: rest) = false :=
    isPrefixOf_cons_false (n.head_ne (by decide) (by decide) _) []
  have hrange : Refuses rangeSlice depth ('[' :: (first ++ ':' :: (n.text ++ ']' :: rest))) :=
    .bind_next hopen (.bind_next hstart (.bind_next hcolon
      (.bind_next (n.reads_none h rfl) (.bind_first (refuses_expect hclose)))))
  exact .bind_next (hfirst.refuses_index.attempt (follows_grown_of_silent silent_indexSlice)) hrange

/-- One number that is no word is enough. -/
theorem refuses (hn : n ∈ w.numerals) (h : ¬n.Fits) : Refuses slice depth w.text := by
  cases w with
  | index m =>
    obtain rfl := List.mem_singleton.mp hn
    exact refuses_start h rfl
  | between start stop =>
    by_cases hstart : ∀ m ∈ start, m.Fits
    · obtain ⟨i, -, hfirst⟩ := exists_bound hstart
      obtain hm | hm := List.mem_append.mp hn
      · exact absurd (hstart n (Option.mem_toList.mp hm)) h
      · obtain rfl := Option.mem_toList.mp hm
        exact refuses_stop hfirst h
    · push Not at hstart
      obtain ⟨m, rfl, hm⟩ := hstart
      exact refuses_start hm rfl

end NumeralSlice

namespace Grammar
open Production Text

section
variable {inner : Inner} {depth : Nat} {text rest : List Char}

theorem reads_sliceBehind {s : Slice} (h : Reads slice depth ('[' :: text) s rest) :
    Reads sliceBehind depth ('[' :: text) (some s) rest := by
  have hbracket : ['['].isPrefixOf ('[' :: text) = true := rfl
  refine Reads.remaining_bind ?_
  rw [if_pos hbracket]
  exact h.map

theorem refuses_sliceBehind (h : Refuses slice depth ('[' :: text)) :
    Refuses sliceBehind depth ('[' :: text) := by
  have hbracket : ['['].isPrefixOf ('[' :: text) = true := rfl
  refine Refuses.bind_next reads_remaining ?_
  rw [if_pos hbracket]
  exact h.bind_first

theorem opensStep_star (text : List Char) : OpensStep ('*' :: text) := ⟨rfl, rfl⟩

variable (hi : inner.Follows Grown)
include hi

/-- A star is a test of its own, and a slice may stand behind it. -/
theorem reads_starTest (text : List Char) :
    Reads (stepTest inner) depth ('*' :: '[' :: text) (.any, .any) ('[' :: text) :=
  reads_stepTest_any hi rfl (reads_star hi (startsIn_cons (by decide) text))

theorem reads_starStep {s : Slice} (h : Reads slice depth ('[' :: text) s rest) :
    Reads (step inner) depth ('*' :: '[' :: text) ⟨.child, .any, .any, some s⟩ rest := by
  rw [step_eq]
  exact (reads_noAxis rfl).bind
    ((reads_starTest hi text).bind ((reads_sliceBehind h).bind (.pure _)))

theorem refuses_starStep (h : Refuses slice depth ('[' :: text)) :
    Refuses (step inner) depth ('*' :: '[' :: text) := by
  rw [step_eq]
  exact .bind_next (reads_noAxis rfl)
    (.bind_next (reads_starTest hi text) (refuses_sliceBehind h).bind_first)

end

section
variable {levels : Nat} {query : String} {text : List Char}
  (hquery : query.toList = '*' :: '[' :: text)
include hquery

theorem parse_star_slice {s : Slice} (h : Reads slice 1 ('[' :: text) s []) :
    (parse (levels + 1) query).result = .ok s.ofAll := by
  have hi := (alone_levels (levels + 1) levels).2
  obtain ⟨t, hrun, ht⟩ := reads_starStep hi.follows h _ (at_before 1 ('*' :: '[' :: text))
  obtain ⟨v, hunion, hv⟩ := union_of_step hi.follows (opensStep_star _) hrun
    (endsLocation_of_blanks (by rw [ht.text]; rfl))
  have hread : Reads (union (innerAt (levels + 1) levels)) 1 ('*' :: '[' :: text) _ v.cursor.rest :=
    (alone_union hi).settled.reads_of_run hunion
  have hrest : v.cursor.rest.dropWhile isBlank = [] := by
    rw [hv.rest, ht.text]
    rfl
  exact parse_of_union hquery (refuses_wholeCall_noStart rfl rfl) rfl hread
    (List.dropWhile_eq_nil_iff.mp hrest)

theorem parse_star_refused (h : Refuses slice 1 ('[' :: text)) :
    ∃ e, (parse (levels + 1) query).result = .error e ∧ e.isFatal = false := by
  have hi := (alone_levels (levels + 1) levels).2
  have hunion : Refuses (union (innerAt (levels + 1) levels)) 1 ('*' :: '[' :: text) :=
    (leads_union_step hi).refuses (alone_union hi).settled (opensStep_star _)
      (refuses_starStep hi.follows h)
  exact parse_of_refuses hquery
    (refuses_expression (refuses_wholeCall_noStart rfl rfl) rfl hunion)

end
end Grammar

theorem NumeralSlice.text_starts (w : NumeralSlice) : ∃ text, w.text = '[' :: text := by
  cases w with
  | index n => exact ⟨_, rfl⟩
  | between start stop => exact ⟨_, rfl⟩

/-- Numbers that are words are read as they are written, and no slice with another is read. What is
written for a slice is read back. -/
theorem slice_numbers_exact (limit : Nat) (hlimit : 1 ≤ limit) :
    (∀ w : NumeralSlice, (∀ n ∈ w.numerals, n.Fits) →
      ∃ s, w.Denotes s ∧ (parse limit w.query).result = .ok s.ofAll) ∧
    (∀ w : NumeralSlice, ∀ n ∈ w.numerals, ¬n.Fits →
      ∃ e, (parse limit w.query).result = .error e ∧ e.isFatal = false) ∧
    ∀ s : Slice, s.WellFormed →
      (parse limit ("*" ++ String.ofList s.written)).result = .ok s.ofAll := by
  obtain ⟨levels, rfl⟩ : ∃ levels, limit = levels + 1 := ⟨limit - 1, by omega⟩
  have hquery (text : List Char) : ("*" ++ String.ofList text).toList = '*' :: text := by simp
  have hread {s : Slice} {text : List Char} (h : SpellsSlice s ('[' :: text)) :
      Reads slice 1 ('[' :: text) s [] := by
    have hslice : Reads slice 1 ('[' :: text ++ []) s [] := h.reads
    rwa [List.append_nil] at hslice
  refine ⟨fun w hw => ?_, fun w n hn hfits => ?_, fun s hs => ?_⟩
  · obtain ⟨s, hs, hspells⟩ := NumeralSlice.exists_denoted hw
    obtain ⟨text, htext⟩ := w.text_starts
    rw [htext] at hspells
    refine ⟨s, hs, ?_⟩
    rw [NumeralSlice.query, htext]
    exact parse_star_slice (hquery _) (hread hspells)
  · obtain ⟨text, htext⟩ := w.text_starts
    have hno : Refuses slice 1 w.text := NumeralSlice.refuses hn hfits
    rw [htext] at hno
    rw [NumeralSlice.query, htext]
    exact parse_star_refused (hquery _) hno
  · obtain ⟨text, htext⟩ := s.written_starts
    have hspells := spells_written hs
    rw [htext] at hspells
    rw [htext]
    exact parse_star_slice (hquery _) (hread hspells)

def leastWord : Numeral :=
  ⟨true, "09223372036854775808".toList, by decide, List.all_eq_true.mp (by decide)⟩

def beyondWords : Numeral :=
  ⟨false, "9223372036854775808".toList, by decide, List.all_eq_true.mp (by decide)⟩

/-- The same digits are a word with the sign and none without it. -/
theorem slice_numbers_ends :
    (parse 1 "*[-09223372036854775808:]").result =
      .ok (Slice.between (some Int64.minValue) none).ofAll ∧
    (∃ e, (parse 1 "*[:9223372036854775808]").result = .error e ∧ e.isFatal = false) ∧
    (parse 1 "*[-9223372036854775808]").result = .ok (Slice.index Int64.minValue).ofAll := by
  obtain ⟨hread, hrefused, hwritten⟩ := slice_numbers_exact 1 (Nat.le_refl 1)
  refine ⟨?_, ?_, ?_⟩
  · obtain ⟨s, ⟨i, j, hi, hj, rfl⟩, hparse⟩ := hread (.between (some leastWord) none)
      (List.forall_mem_singleton.mpr (by decide))
    obtain ⟨a, rfl, ha⟩ := Option.map_eq_some_iff.mp hi
    obtain rfl := Option.map_eq_none_iff.mp hj
    have hvalue : leastWord.value = Int64.minValue.toInt := by decide
    obtain rfl := Int64.toInt_inj.mp (ha.trans hvalue)
    exact hparse
  · exact hrefused (.between none (some beyondWords)) beyondWords List.mem_cons_self (by decide)
  · exact hwritten (.index Int64.minValue) (.inl ⟨_, rfl⟩)

end OutlineQuery
