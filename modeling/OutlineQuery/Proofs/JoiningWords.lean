import OutlineQuery.Proofs.Groups

/-! Words between a string and a group. Where `and` or `or` is not the name of a call, it joins the
two; where it is one, the string is compared with the call, as it is behind an operator. -/

namespace OutlineQuery.Grammar
open Production Text

section
variable {inner : Inner} {depth : Nat} {text rest : List Char} {p : Predicate}
  (htext : text.head?.any (fun c => isBlank c || c == '(' || c == '*') = false)
  (hno : startsWithWord "not" text = false)
include htext hno

theorem reads_negation_forms
    (h : Reads (firstOf [fullComparison inner, loneValue, textComparison inner]) depth text (some p)
      rest) : Reads (negation inner) depth text p rest := by
  have hgroup : Reads (skip "(") depth text false text := reads_skip_false (no_group htext)
  have hterm : Reads (term inner) depth text p rest :=
    (reads_noBlanks (no_blank htext)).bind (hgroup.bind (reads_comparison htext h))
  exact reads_negation (no_blank htext) hno hterm

theorem exceeds_negation_forms
    (h : Exceeds (firstOf [fullComparison inner, loneValue, textComparison inner]) depth text) :
    Exceeds (negation inner) depth text := by
  have hblanks : Reads skipBlanks depth text () text := reads_noBlanks (no_blank htext)
  have hstar : Reads (skip "*") depth text false text := reads_skip_false (no_star htext)
  have hgroup : Reads (skip "(") depth text false text := reads_skip_false (no_group htext)
  have hforms : Exceeds (starOrComparison inner) depth text := .bind_next hstar h.bind_first
  have hcomparison : Exceeds (comparison inner) depth text :=
    (Exceeds.bind_next hblanks hforms.record).attempt.bind_first
  have hterm : Exceeds (term inner) depth text := .bind_next hblanks (.bind_next hgroup hcomparison)
  exact .bind_next (reads_noNot (no_blank htext) hno) (.bind_next hblanks hterm.bind_first)

theorem refuses_negation_forms (hg : inner.Follows Grown)
    (h : Reads (firstOf [fullComparison inner, loneValue, textComparison inner]) depth text none
      rest) : Refuses (negation inner) depth text := by
  have hblanks : Reads skipBlanks depth text () text := reads_noBlanks (no_blank htext)
  have hstar : Reads (skip "*") depth text false text := reads_skip_false (no_star htext)
  have hgroup : Reads (skip "(") depth text false text := reads_skip_false (no_group htext)
  have hforms : Refuses (starOrComparison inner) depth text :=
    .bind_next hstar (.bind_next h (refuses_fail rfl))
  have hspaced : Refuses (spacedComparison inner) depth text := .bind_next hblanks hforms.record
  have hcomparison : Refuses (comparison inner) depth text :=
    .bind_next (hspaced.attempt (discipline_grown.follows_spacedComparison hg)) (refuses_fail rfl)
  have hterm : Refuses (term inner) depth text := .bind_next hblanks (.bind_next hgroup hcomparison)
  exact .bind_next (reads_noNot (no_blank htext) hno) (.bind_next hblanks hterm.bind_first)

end

structure EndsComparison (text : List Char) : Prop where
  blank : text.head?.any isBlank = false
  quote : text.head? ≠ some '"'
  atSign : text.head? ≠ some '@'
  reserved : startsReserved text = true
  relation : relationAt? text = none
  modifier : "[".toList.isPrefixOf text = false

def letterAlone : Predicate := .textContains (.literal "x") .default

def letterAgainst (f : Function) : Predicate :=
  .comparison (.literal "x") (some .default) .default (some (.call f))

section
variable {inner : Inner} {depth : Nat} {text rest : List Char} {f : Function}

theorem EndsComparison.blanks (h : EndsComparison text) :
    Reads skipBlanks depth (' ' :: text) () text := by
  have hdrop : (' ' :: text).dropWhile isBlank = text := dropWhile_blank h.blank
  have hread : Reads skipBlanks depth (' ' :: text) () _ := reads_skipBlanks
  rwa [hdrop] at hread

theorem EndsComparison.refuses_string (h : EndsComparison text) : Refuses string depth text :=
  .string h.quote (refuses_reserved h.reserved)

theorem EndsComparison.refuses_value (h : EndsComparison text) : Refuses value depth text :=
  Grammar.refuses_value h.atSign h.refuses_string

theorem EndsComparison.noRelation (h : EndsComparison text) :
    Reads relationBehind depth (' ' :: text) .default (' ' :: text) :=
  Refuses.attemptOr _ (.bind_next h.blanks (refuses_relation h.relation))
    discipline_grown.follows_spacedRelation

theorem EndsComparison.noModifier (h : EndsComparison text) :
    Reads modifierBehind depth (' ' :: text) .default (' ' :: text) :=
  Refuses.attemptOr _ (.bind_next h.blanks (Refuses.bind_first (refuses_expect h.modifier)).record)
    discipline_grown.follows_spacedModifier

theorem reads_letter (h : EndsComparison text) :
    Reads value depth ('x' :: ' ' :: text) (.literal "x") (' ' :: text) := by
  have hname : Reads identifier depth (['x'] ++ ' ' :: text) ['x'] (' ' :: text) :=
    reads_identifier (by decide) rfl
  have hunquoted : Reads unquoted depth ('x' :: ' ' :: text) ['x'] (' ' :: text) :=
    .remaining_bind (.remaining_bind hname)
  have hstring : Reads string depth ('x' :: ' ' :: text) ['x'] (' ' :: text) :=
    .remaining_bind hunquoted.record
  have hpiece : Refuses piece depth (' ' :: text) := by
    have hdrop : (' ' :: text).dropWhile isBlank = text := dropWhile_blank h.blank
    refine refuses_piece ?_
    rw [hdrop]
    exact h.refuses_string
  have hpieces : Reads (many nextPiece) depth (' ' :: text) [] (' ' :: text) :=
    .many_none consumes_nextPiece (hpiece.attempt discipline_grown.follows_piece)
  have hliteral : Reads literal depth ('x' :: ' ' :: text) (.literal "x") (' ' :: text) :=
    hstring.bind (hpieces.bind (.pure _))
  have hnone : Refuses attributeValue depth ('x' :: ' ' :: text) := refuses_attributeValue (by simp)
  exact (hnone.attempt discipline_grown.follows_attributeValue).bind hliteral

theorem reads_letterOperand (hg : inner.Follows Grown) (h : EndsComparison text) :
    Reads (operand inner) depth ('x' :: ' ' :: text) (.literal "x") (' ' :: text) := by
  have hcall : Refuses (function inner) depth (['x'] ++ ' ' :: text) :=
    refuses_function_name (by decide) rfl (by simp)
  exact (hcall.attempt (discipline_grown.follows_function hg)).bind (reads_letter h)

/-- Where the word is the name of a call, the string is compared with the call. -/
theorem reads_letterAgainst (hg : inner.Follows Grown) (h : EndsComparison text)
    (hf : Reads (function inner) depth text f rest) :
    Reads (negation inner) depth ('x' :: ' ' :: text) (letterAgainst f) rest := by
  have hcall : Reads (operand inner) depth text (.call f) rest := hf.attempt.bind (.pure _)
  have hfull : Reads (fullComparison inner) depth ('x' :: ' ' :: text) (letterAgainst f) rest :=
    (reads_letterOperand hg h).bind (h.noRelation.bind (h.noModifier.bind
      (h.blanks.bind (hcall.bind (.pure _)))))
  exact reads_negation_forms rfl rfl hfull.firstOf

/-- Where it is no call, the string stands alone. -/
theorem reads_letterAlone (hg : inner.Follows Grown) (h : EndsComparison text)
    (hf : Refuses (function inner) depth text) :
    Reads (negation inner) depth ('x' :: ' ' :: text) letterAlone (' ' :: text) := by
  have hcall : Refuses (operand inner) depth text := refuses_operand hg hf h.refuses_value
  have hfull : Refuses (fullComparison inner) depth ('x' :: ' ' :: text) :=
    .bind_next (reads_letterOperand hg h) (.bind_next h.noRelation (.bind_next h.noModifier
      (.bind_next h.blanks hcall.bind_first)))
  have hlone : Reads loneValue depth ('x' :: ' ' :: text) letterAlone (' ' :: text) :=
    (reads_letter h).bind (h.noModifier.bind (.pure _))
  have hforms : Reads (firstOf [loneValue, textComparison inner]) depth ('x' :: ' ' :: text)
      (some letterAlone) (' ' :: text) := hlone.firstOf
  exact reads_negation_forms rfl rfl
    (hfull.firstOf (discipline_grown.follows_fullComparison hg) hforms)

theorem exceeds_letter (hg : inner.Follows Grown) (h : EndsComparison text)
    (hf : Exceeds (function inner) depth text) :
    Exceeds (negation inner) depth ('x' :: ' ' :: text) := by
  have hcall : Exceeds (operand inner) depth text := hf.attempt.bind_first
  have hfull : Exceeds (fullComparison inner) depth ('x' :: ' ' :: text) :=
    .bind_next (reads_letterOperand hg h) (.bind_next h.noRelation (.bind_next h.noModifier
      (.bind_next h.blanks hcall.bind_first)))
  exact exceeds_negation_forms rfl rfl hfull.firstOf

def textEquals (f : Function) : Predicate :=
  .comparison .text (some .equal) .default (some (.call f))

theorem refuses_value_equals (text : List Char) : Refuses value depth ('=' :: text) := by
  have hstring : Refuses string depth ('=' :: text) := .string (by simp) (refuses_reserved rfl)
  exact refuses_value (by simp) hstring

/-- What starts with an operator has no left side. -/
theorem refuses_fullComparison_equals (hg : inner.Follows Grown) (text : List Char) :
    Refuses (fullComparison inner) depth ('=' :: text) :=
  (refuses_operand hg (refuses_function rfl) (refuses_value_equals text)).bind_first

theorem refuses_loneValue_equals (text : List Char) : Refuses loneValue depth ('=' :: text) :=
  (refuses_value_equals text).bind_first

theorem reads_equals (text : List Char) :
    Reads (attemptOr Relation.default relation) depth ('=' :: text) .equal text := by
  have hread : Reads relation depth (Relation.equal.spelling.toList ++ text) .equal text :=
    reads_relation rfl
  exact hread.attemptOr

theorem reads_noModifier (h : text.head? ≠ some '[') :
    Reads (attemptOr Modifier.default modifier) depth text .default text := by
  have hno : Refuses bracketedLetter depth text :=
    .bind_first (refuses_expect (isPrefixOf_cons_false h []))
  exact hno.record.attemptOr _ discipline_grown.follows_modifier

section
variable (hg : inner.Follows Grown) (hblank : text.head?.any isBlank = false)
  (hmodifier : text.head? ≠ some '[')
include hg hblank hmodifier

theorem reads_textEquals (hf : Reads (function inner) depth text f rest) :
    Reads (negation inner) depth ('=' :: text) (textEquals f) rest := by
  have hnoFull : Refuses (fullComparison inner) depth ('=' :: text) :=
    refuses_fullComparison_equals hg text
  have hnoLone : Refuses loneValue depth ('=' :: text) := refuses_loneValue_equals text
  have hblanks : Reads skipBlanks depth text () text := reads_noBlanks hblank
  have hcall : Reads (operand inner) depth text (.call f) rest := hf.attempt.bind (.pure _)
  have hcomparison : Reads (textComparison inner) depth ('=' :: text) (textEquals f) rest :=
    (reads_equals text).bind (hblanks.bind ((reads_noModifier hmodifier).bind
      (hblanks.bind (hcall.bind (.pure _)))))
  have hforms : Reads (firstOf [textComparison inner]) depth ('=' :: text) (some (textEquals f))
      rest := hcomparison.firstOf
  exact reads_negation_forms rfl rfl (hnoFull.firstOf (discipline_grown.follows_fullComparison hg)
    (hnoLone.firstOf discipline_grown.follows_loneValue hforms))

theorem exceeds_textEquals (hf : Exceeds (function inner) depth text) :
    Exceeds (negation inner) depth ('=' :: text) := by
  have hnoFull : Refuses (fullComparison inner) depth ('=' :: text) :=
    refuses_fullComparison_equals hg text
  have hnoLone : Refuses loneValue depth ('=' :: text) := refuses_loneValue_equals text
  have hblanks : Reads skipBlanks depth text () text := reads_noBlanks hblank
  have hcall : Exceeds (operand inner) depth text := hf.attempt.bind_first
  have hcomparison : Exceeds (textComparison inner) depth ('=' :: text) :=
    .bind_next (reads_equals text) (.bind_next hblanks (.bind_next (reads_noModifier hmodifier)
      (.bind_next hblanks hcall.bind_first)))
  exact exceeds_negation_forms rfl rfl
    (hnoFull.firstOf_exceeds (discipline_grown.follows_fullComparison hg)
      (hnoLone.firstOf_exceeds discipline_grown.follows_loneValue hcomparison.firstOf))

end
end

theorem opensTest_letter (text : List Char) : OpensTest ('x' :: ' ' :: text) :=
  ⟨⟨rfl, rfl⟩, rfl, rfl⟩

theorem opensTest_equals (text : List Char) : OpensTest ('=' :: text) := ⟨⟨rfl, rfl⟩, rfl, rfl⟩

section
variable {inner : Inner} {depth : Nat} {gap text rest : List Char} {l : Location}

theorem endsComparison_group {word : String} (hword : word ∈ ["and", "or"])
    (hgap : gap = [] ∨ gap = [' ']) (text : List Char) :
    EndsComparison (word.toList ++ (gap ++ '(' :: text)) := by
  simp only [List.mem_cons, List.not_mem_nil, or_false] at hword
  obtain rfl | rfl := hword <;> obtain rfl | rfl := hgap <;>
    exact ⟨rfl, by simp, by simp, rfl, rfl, rfl⟩

/-- Where the word is not the name of a call, it joins the string and the group. -/
theorem reads_group_joined (hi : inner.Alone) {word : String} (hword : word ∈ ["and", "or"])
    (h : Reads (union inner) depth ('(' :: text) l rest) :
    ∃ l', ∀ gap, gap = [] ∨ gap = [' '] →
      Refuses (function inner) depth (word.toList ++ (gap ++ '(' :: text)) →
      Reads (union inner) depth ('x' :: ' ' :: (word.toList ++ (gap ++ '(' :: text))) l' rest := by
  have hends {gap : List Char} (hgap : gap = [] ∨ gap = [' ']) :=
    endsComparison_group hword hgap text
  simp only [List.mem_cons, List.not_mem_nil, or_false] at hword
  obtain rfl | rfl := hword
  · obtain ⟨p, middle, make, hp, -, -, hagain⟩ :=
      ((leads_disjunction hi).trans (leads_union hi)).reads (opensTest_group text) h
    refine ⟨make (.and letterAlone p), fun gap hgap hno => hagain _ _ (opensTest_letter _) ?_⟩
    have hletter := reads_letterAlone hi.follows (hends hgap) hno
    exact hletter.chain_next (discipline_grown.follows_negation hi.follows) (by decide) rfl
      (dropWhile_blank (hends hgap).blank) (gap_noRest hgap text) (hp.chain_gap hgap)
  · obtain ⟨p, middle, make, hp, -, -, hagain⟩ := (leads_union hi).reads (opensTest_group text) h
    refine ⟨make (.or letterAlone p), fun gap hgap hno => hagain _ _ (opensTest_letter _) ?_⟩
    have hdrop : (' ' :: ("or".toList ++ (gap ++ '(' :: text))).dropWhile isBlank =
        "or".toList ++ (gap ++ '(' :: text) := dropWhile_blank (hends hgap).blank
    have hletter := reads_letterAlone hi.follows (hends hgap) hno
    -- The conjunction, which finds no `and`, has passed the blank before the word.
    have hleft : Reads (conjunction inner) depth _ letterAlone _ :=
      hletter.chain_end (discipline_grown.follows_negation hi.follows) (by decide) rfl
        (by rw [hdrop]; rfl)
    rw [hdrop] at hleft
    exact hleft.chain_next (discipline_grown.follows_conjunction hi.follows) (by decide) rfl
      (dropWhile_blank (hends hgap).blank) (gap_noRest hgap text) (hp.chain_gap hgap)

end
end OutlineQuery.Grammar
