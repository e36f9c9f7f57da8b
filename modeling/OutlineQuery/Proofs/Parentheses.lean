import OutlineQuery.Proofs.Scanning

/-! Which texts close the parentheses that stand open before them. Those in strings between quotes
do not count; a string whose quotes are not closed closes nothing. -/

namespace OutlineQuery.Grammar
open Production Text

def isPlain (c : Char) : Bool := !(['(', ')', '"'].contains c)

/-- So many open parentheses are closed by the text up to where it goes on with `last`, and all
that it opens itself. There the text ends, or the next parenthesis is closed. -/
inductive Closes (last : List Char) : Nat → List Char → Prop
  | stop : (∀ c ∈ last.head?, c = ')') → Closes last 0 last
  | opening {n : Nat} {text : List Char} : Closes last (n + 1) text → Closes last n ('(' :: text)
  | closing {n : Nat} {text : List Char} : Closes last n text → Closes last (n + 1) (')' :: text)
  | quoted {n length : Nat} {text held : List Char} : quotedBody text = (length, .ok held) →
      Closes last n (text.drop length) → Closes last n ('"' :: text)
  | plain {n : Nat} {c : Char} {text : List Char} : isPlain c = true → Closes last n text →
      Closes last n (c :: text)

section
variable {n length : Nat} {c : Char} {last text held rest : List Char}

theorem isPlain_iff : isPlain c = true ↔ c ≠ '(' ∧ c ≠ ')' ∧ c ≠ '"' := by
  simp [isPlain]

/-- To be plain it is enough to have a property that parentheses and quotes lack. -/
theorem isPlain_of {p : Char → Bool} (hp : ['(', ')', '"'].all (!p ·) = true) (hc : p c = true) :
    isPlain c = true := by
  rw [isPlain, Bool.not_eq_true']
  refine Bool.eq_false_iff.mpr fun hmem => ?_
  have hno := List.all_eq_true.mp hp c (List.contains_iff_mem.mp hmem)
  rw [hc] at hno
  cases hno

theorem isPlain_of_isBlank (hc : isBlank c = true) : isPlain c = true :=
  isPlain_of (by decide) hc

theorem isPlain_of_isRest (hc : isRest c = true) : isPlain c = true :=
  isPlain_of (by decide +kernel) hc

theorem isPlain_of_isStart (hc : isStart c = true) : isPlain c = true :=
  isPlain_of (by decide +kernel) hc

theorem isPlain_of_isSymbol (hc : isSymbol c = true) : isPlain c = true :=
  isPlain_of (by decide) hc

theorem isPlain_of_isDigit (hc : c.isDigit = true) : isPlain c = true :=
  isPlain_of (by decide) hc

theorem not_closes_nil : ¬Closes last (n + 1) [] := nofun

theorem closes_opening : Closes last n ('(' :: text) ↔ Closes last (n + 1) text := by
  refine ⟨fun h => ?_, .opening⟩
  cases h with
  | stop h => exact absurd (h _ rfl) (by decide)
  | opening h => exact h
  | plain hc => exact absurd rfl (isPlain_iff.mp hc).1

theorem closes_closing : Closes last (n + 1) (')' :: text) ↔ Closes last n text := by
  refine ⟨fun h => ?_, .closing⟩
  cases h with
  | closing h => exact h
  | plain hc => exact absurd rfl (isPlain_iff.mp hc).2.1

theorem closes_plain (hc : isPlain c = true) : Closes last n (c :: text) ↔ Closes last n text := by
  refine ⟨fun h => ?_, .plain hc⟩
  obtain ⟨hopening, hclosing, hquote⟩ := isPlain_iff.mp hc
  cases h with
  | stop h => exact absurd (h c rfl) hclosing
  | opening => exact absurd rfl hopening
  | closing => exact absurd rfl hclosing
  | quoted => exact absurd rfl hquote
  | plain _ h => exact h

theorem closes_plains (htext : text.all isPlain = true) :
    Closes last n (text ++ rest) ↔ Closes last n rest := by
  induction text with
  | nil => rfl
  | cons c text ih =>
    rw [List.all_cons, Bool.and_eq_true] at htext
    rw [List.cons_append, closes_plain htext.1, ih htext.2]

theorem closes_dropWhile {p : Char → Bool} (hp : ∀ c, p c = true → isPlain c = true) :
    Closes last n text ↔ Closes last n (text.dropWhile p) := by
  have hplain : (text.takeWhile p).all isPlain = true :=
    List.all_eq_true.mpr fun c hc => hp c (List.all_eq_true.mp List.all_takeWhile c hc)
  have hlevel : Closes last n (text.takeWhile p ++ text.dropWhile p) ↔
      Closes last n (text.dropWhile p) := closes_plains hplain
  rwa [List.takeWhile_append_dropWhile] at hlevel

theorem closes_quoted (h : quotedBody text = (length, .ok held)) :
    Closes last n ('"' :: text) ↔ Closes last n (text.drop length) := by
  refine ⟨fun hcloses => ?_, .quoted h⟩
  cases hcloses with
  | stop h => exact absurd (h _ rfl) (by decide)
  | quoted h' hrest =>
    rw [h] at h'
    cases h'
    exact hrest
  | plain hc => exact absurd rfl (isPlain_iff.mp hc).2.2

theorem not_closes_unclosed {reason : Reason} (h : quotedBody text = (length, .error reason)) :
    ¬Closes last n ('"' :: text) := by
  intro hcloses
  cases hcloses with
  | stop h => exact absurd (h _ rfl) (by decide)
  | quoted h' =>
    rw [h] at h'
    cases h'
  | plain hc => exact absurd rfl (isPlain_iff.mp hc).2.2

/-- The parenthesis that the text closes next is at one place only. -/
theorem Closes.unique {last last' : List Char} (h : Closes (')' :: last) n text)
    (h' : Closes (')' :: last') n text) : last' = last := by
  induction h with
  | stop =>
    cases h' with
    | stop => rfl
    | plain hc => exact absurd rfl (isPlain_iff.mp hc).2.1
  | opening _ ih => exact ih (closes_opening.mp h')
  | closing _ ih => exact ih (closes_closing.mp h')
  | quoted hbody _ ih => exact ih ((closes_quoted hbody).mp h')
  | plain hc _ ih => exact ih ((closes_plain hc).mp h')

end
end OutlineQuery.Grammar
