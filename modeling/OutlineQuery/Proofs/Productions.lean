import OutlineQuery.Proofs.Lexemes

/-! Every production of the grammar keeps every discipline, if those between parentheses do; and
by the levels of nesting these do too. -/

namespace OutlineQuery.Grammar
open Production Text

namespace Discipline
variable {R : State → State → Prop} {inner : Inner} (hR : Discipline R) (hi : inner.Follows R)
include hR

theorem follows_word {text : String} {kind : TokenKind} (ht : text ≠ "")
    (hk : kind ≠ .comparison) : (word text kind).Follows R := by
  intro s
  by_cases h : startsWithWord text s.cursor.rest = true
  · have hp : text.toList.isPrefixOf s.cursor.rest = true := by
      rw [startsWithWord, Bool.and_eq_true] at h
      exact h.1
    rw [finish, word_run, if_pos h]
    exact hR.lexeme hk (Cursor.offset_lt_advance (length_pos_of_ne_empty ht)
      (rest_ne_nil_of_isPrefixOf ht hp))
  · rw [finish, word_run, if_neg h]
    exact hR.refl s

theorem follows_operator {text : String} {kind : TokenKind} (ht : text ≠ "")
    (hk : kind ≠ .comparison) : (operator text kind).Follows R := by
  intro s
  by_cases h : text.toList.isPrefixOf s.cursor.rest = true
  · rw [finish, operator_run, if_pos h]
    exact hR.lexeme hk (Cursor.offset_lt_advance (length_pos_of_ne_empty ht)
      (rest_ne_nil_of_isPrefixOf ht h))
  · rw [finish, operator_run, if_neg h]
    exact hR.refl s

theorem follows_nextOperand {α : Type} {operand : Production α} {operator : Production Bool}
    (hp : operand.Follows R) (ho : operator.Follows R) :
    (nextOperand operand operator).Follows R := by
  refine hR.bind (hR.silent silent_skipBlanks) fun _ => hR.bind ho fun found => ?_
  cases found with
  | true => exact hR.bind (hR.silent silent_skipBlanks) fun _ => hR.bind hp fun _ => hR.pure _
  | false => exact hR.pure none

theorem follows_chain {α : Type} {operand : Production α} {operator : Production Bool}
    (combine : α → α → α) (hp : operand.Follows R) (ho : operator.Follows R) :
    (chain operand operator combine).Follows R :=
  hR.bind (hR.silent silent_skipBlanks) fun _ => hR.bind hp fun _ =>
    hR.bind (hR.many (hR.follows_nextOperand hp ho)) fun _ => hR.pure _

theorem follows_string : string.Follows R := by
  refine hR.bind hR.remaining fun rest => ?_
  split
  · exact hR.record (by decide) silent_quoted advances_quoted
  · exact hR.record (by decide) silent_unquoted advances_unquoted

theorem follows_attributeValue : attributeValue.Follows R :=
  hR.bind (hR.record (by decide) silent_attributeName advances_attributeName) fun _ => hR.pure _

theorem follows_piece : piece.Follows R :=
  hR.bind (hR.silent silent_blanks) fun _ => hR.bind hR.follows_string fun _ => hR.pure _

theorem follows_nextPiece : nextPiece.Follows R := hR.attempt hR.follows_piece

theorem follows_literal : literal.Follows R :=
  hR.bind hR.follows_string fun _ => hR.bind (hR.many hR.follows_nextPiece) fun _ => hR.pure _

theorem follows_value : value.Follows R := by
  refine hR.bind (hR.attempt hR.follows_attributeValue) fun found => ?_
  cases found with
  | some v => exact hR.pure v
  | none => exact hR.follows_literal

theorem follows_relation : relation.Follows R := by
  intro s
  rw [finish, relation_run]
  cases hr : relationAt? s.cursor.rest with
  | none => exact hR.refl s
  | some r =>
    have hne : s.cursor.rest ≠ [] := by
      intro h
      rw [h] at hr
      cases hr
    have hlen : 0 < r.spelling.length := by cases r <;> decide
    exact hR.lexeme (by decide) (Cursor.offset_lt_advance hlen hne)

theorem follows_modifier : modifier.Follows R :=
  hR.record (by decide) silent_bracketedLetter advances_bracketedLetter

theorem follows_spacedRelation : spacedRelation.Follows R :=
  hR.bind (hR.silent silent_skipBlanks) fun _ => hR.follows_relation

theorem follows_relationBehind : relationBehind.Follows R :=
  hR.attemptOr _ hR.follows_spacedRelation

theorem follows_spacedModifier : spacedModifier.Follows R :=
  hR.bind (hR.silent silent_skipBlanks) fun _ => hR.follows_modifier

theorem follows_modifierBehind : modifierBehind.Follows R :=
  hR.attemptOr _ hR.follows_spacedModifier

theorem follows_rangeSlice : rangeSlice.Follows R :=
  hR.bind (hR.silent (silent_expect _)) fun _ =>
    hR.bind (hR.attempt (hR.silent silent_integer)) fun _ =>
    hR.bind (hR.silent (silent_expect _)) fun _ =>
    hR.bind (hR.attempt (hR.silent silent_integer)) fun _ =>
    hR.bind (hR.silent (silent_expect _)) fun _ => hR.pure _

theorem follows_slice : slice.Follows R := by
  refine hR.bind (hR.attempt (hR.silent silent_indexSlice)) fun found => ?_
  cases found with
  | some s => exact hR.pure s
  | none => exact hR.follows_rangeSlice

theorem follows_loneValue : loneValue.Follows R := by
  refine hR.bind hR.follows_value fun v => hR.bind hR.follows_modifierBehind fun m => ?_
  cases v <;> exact hR.pure _

theorem follows_axis : axis.Follows R := by
  intro s
  rw [finish, axis_run]
  cases ha : axisAt? s.cursor.rest with
  | none => exact hR.refl s
  | some a =>
    have hne : s.cursor.rest ≠ [] := by
      intro h
      rw [h] at ha
      cases ha
    have hlen : 0 < a.spelling.length := by cases a <;> decide
    exact hR.lexeme (by decide) (Cursor.offset_lt_advance hlen hne)

include hi

theorem follows_function : (function inner).Follows R :=
  hR.bind (hR.record (by decide) silent_identifier advances_identifier) fun _ =>
    hR.bind (hR.silent (silent_expect _)) fun _ => hR.bind hi.argument fun _ =>
    hR.bind (hR.silent (silent_expect _)) fun _ => hR.pure _

theorem follows_operand : (operand inner).Follows R := by
  refine hR.bind (hR.attempt (hR.follows_function hi)) fun found => ?_
  cases found with
  | some f => exact hR.pure _
  | none => exact hR.follows_value

theorem follows_fullComparison : (fullComparison inner).Follows R :=
  hR.bind (hR.follows_operand hi) fun _ => hR.bind hR.follows_relationBehind fun _ =>
    hR.bind hR.follows_modifierBehind fun _ => hR.bind (hR.silent silent_skipBlanks) fun _ =>
    hR.bind (hR.follows_operand hi) fun _ => hR.pure _

theorem follows_textComparison : (textComparison inner).Follows R :=
  hR.bind (hR.attemptOr _ hR.follows_relation) fun _ =>
    hR.bind (hR.silent silent_skipBlanks) fun _ =>
    hR.bind (hR.attemptOr _ hR.follows_modifier) fun _ =>
    hR.bind (hR.silent silent_skipBlanks) fun _ =>
    hR.bind (hR.follows_operand hi) fun _ => hR.pure _

end Discipline

section
variable {inner : Inner} (hi : inner.Follows Grown)

theorem follows_grown_pure {α : Type} (a : α) : (pure a : Production α).Follows Grown :=
  discipline_grown.pure a

theorem advances_attributeValue : attributeValue.Advances :=
  (advances_record _ advances_attributeName).bind_first fun _ => follows_grown_pure _

theorem advances_piece : piece.Advances :=
  .bind_next (follows_grown_of_silent silent_blanks) fun _ =>
    advances_string.bind_first fun _ => follows_grown_pure _

theorem advances_literal : literal.Advances :=
  advances_string.bind_first fun _ =>
    discipline_grown.bind (discipline_grown.many discipline_grown.follows_nextPiece) fun _ =>
    follows_grown_pure _

/-- Of two alternatives that take up part of the text the one that is read does. -/
theorem advances_alternative {α β : Type} {p : Production α} {f : Option α → Production β}
    (hp : p.Advances) (hg : p.Follows Grown) (hsome : ∀ a, (f (some a)).Follows Grown)
    (hnone : (f none).Advances) : (attempt p >>= f).Advances := by
  intro s b u h
  obtain ⟨found, t, h₁, h₂⟩ := bind_ok h
  obtain ⟨a, rfl, ha⟩ | ⟨rfl, rfl, -⟩ := attempt_ok (hg s) h₁
  · have hlt := hp s a t ha
    have hle := (hsome a t).offset_le
    rw [finish_of_ok h₂] at hle
    omega
  · exact hnone t b u h₂

theorem advances_value : value.Advances :=
  advances_alternative advances_attributeValue discipline_grown.follows_attributeValue
    (fun _ => follows_grown_pure _) advances_literal

include hi

theorem advances_function : (function inner).Advances :=
  (advances_record _ advances_identifier).bind_first fun _ =>
    discipline_grown.bind (discipline_grown.silent (silent_expect _)) fun _ =>
    discipline_grown.bind hi.argument fun _ =>
    discipline_grown.bind (discipline_grown.silent (silent_expect _)) fun _ =>
    follows_grown_pure _

theorem advances_operand : (operand inner).Advances :=
  advances_alternative (advances_function hi) (discipline_grown.follows_function hi)
    (fun _ => follows_grown_pure _) advances_value

theorem advances_fullComparison : (fullComparison inner).Advances :=
  (advances_operand hi).bind_first fun _ =>
    discipline_grown.bind discipline_grown.follows_relationBehind fun _ =>
    discipline_grown.bind discipline_grown.follows_modifierBehind fun _ =>
    discipline_grown.bind (follows_grown_of_silent silent_skipBlanks) fun _ =>
    discipline_grown.bind (discipline_grown.follows_operand hi) fun _ => follows_grown_pure _

omit hi in
theorem advances_loneValue : loneValue.Advances := by
  refine advances_value.bind_first fun v => ?_
  refine discipline_grown.bind discipline_grown.follows_modifierBehind fun m => ?_
  cases v <;> exact follows_grown_pure _

theorem advances_textComparison : (textComparison inner).Advances :=
  .bind_next (discipline_grown.attemptOr _ discipline_grown.follows_relation) fun _ =>
    .bind_next (follows_grown_of_silent silent_skipBlanks) fun _ =>
    .bind_next (discipline_grown.attemptOr _ discipline_grown.follows_modifier) fun _ =>
    .bind_next (follows_grown_of_silent silent_skipBlanks) fun _ =>
    (advances_operand hi).bind_first fun _ => follows_grown_pure _

theorem follows_comparisonForms : ∀ form ∈ [fullComparison inner, loneValue, textComparison inner],
    form.Follows Grown := by
  simp only [List.mem_cons, List.not_mem_nil, or_false]
  rintro form (rfl | rfl | rfl)
  · exact discipline_grown.follows_fullComparison hi
  · exact discipline_grown.follows_loneValue
  · exact discipline_grown.follows_textComparison hi

theorem advances_comparisonForms : ∀ form ∈ [fullComparison inner, loneValue, textComparison inner],
    form.Advances := by
  simp only [List.mem_cons, List.not_mem_nil, or_false]
  rintro form (rfl | rfl | rfl)
  · exact advances_fullComparison hi
  · exact advances_loneValue
  · exact advances_textComparison hi

theorem advances_starOrComparison : (starOrComparison inner).Advances := by
  intro s p t h
  obtain ⟨star, u, h₁, h₂⟩ := bind_ok h
  cases star with
  | true =>
    cases h₂
    exact offset_lt_of_skip (by decide) h₁
  | false =>
    have hle := (follows_grown_of_silent (silent_skip "*") s).offset_le
    rw [finish_of_ok h₁] at hle
    obtain ⟨found, v, h₃, h₄⟩ := bind_ok h₂
    cases found with
    | none => cases h₄
    | some q =>
      cases h₄
      obtain ⟨form, hform, hrun⟩ := firstOf_some (follows_comparisonForms hi) h₃
      have hlt := advances_comparisonForms hi form hform u p t hrun
      omega

end

namespace Discipline
variable {R : State → State → Prop} {inner : Inner} (hR : Discipline R) (hi : inner.Follows R)
include hR

theorem follows_headingType : headingType.Follows R := by
  refine hR.bind (hR.follows_word (by decide) (by decide)) fun found => ?_
  cases found with
  | true => exact hR.pure _
  | false => exact hR.fail _

theorem follows_nextNot : nextNot.Follows R := by
  refine hR.bind (hR.silent silent_skipBlanks) fun _ =>
    hR.bind (hR.follows_word (by decide) (by decide)) fun found => ?_
  cases found with
  | true => exact hR.pure _
  | false => exact hR.pure _

theorem follows_bareHeading : bareHeading.Follows R :=
  hR.bind hR.follows_headingType fun _ => hR.pure _

include hi

theorem follows_starOrComparison : (starOrComparison inner).Follows R := by
  refine hR.bind (hR.silent (silent_skip "*")) fun star => ?_
  cases star with
  | true => exact hR.pure _
  | false =>
    refine hR.bind (hR.firstOf ?_) fun found => ?_
    · simp only [List.mem_cons, List.not_mem_nil, or_false]
      rintro form (rfl | rfl | rfl)
      · exact hR.follows_fullComparison hi
      · exact hR.follows_loneValue
      · exact hR.follows_textComparison hi
    · cases found with
      | some p => exact hR.pure p
      | none => exact hR.fail _

theorem follows_spacedComparison : (spacedComparison inner).Follows R :=
  hR.bind (hR.silent silent_skipBlanks) fun _ =>
    hR.recordComparison (hR.follows_starOrComparison hi)
      (advances_starOrComparison (hR.inner_grown hi))

theorem follows_comparison : (comparison inner).Follows R := by
  refine hR.bind (hR.attempt (hR.follows_spacedComparison hi)) fun found => ?_
  cases found with
  | some p => exact hR.pure p
  | none => exact hR.fail _

theorem follows_term : (term inner).Follows R := by
  refine hR.bind (hR.silent silent_skipBlanks) fun _ =>
    hR.bind (hR.silent (silent_skip "(")) fun bracketed => ?_
  cases bracketed with
  | true =>
    exact hR.bind hi.predicate fun _ => hR.bind (hR.silent silent_skipBlanks) fun _ =>
      hR.bind (hR.silent (silent_expect _)) fun _ => hR.pure _
  | false => exact hR.follows_comparison hi

theorem follows_negation : (negation inner).Follows R :=
  hR.bind (hR.many hR.follows_nextNot) fun _ => hR.bind (hR.silent silent_skipBlanks) fun _ =>
    hR.bind (hR.follows_term hi) fun _ => hR.pure _

theorem follows_conjunction : (conjunction inner).Follows R :=
  hR.follows_chain _ (hR.follows_negation hi) (hR.follows_word (by decide) (by decide))

theorem follows_disjunction : (disjunction inner).Follows R :=
  hR.follows_chain _ (hR.follows_conjunction hi) (hR.follows_word (by decide) (by decide))

theorem follows_headingTest : (headingTest inner).Follows R :=
  hR.bind hR.follows_headingType fun _ => hR.bind (hR.follows_disjunction hi) fun _ => hR.pure _

theorem follows_predicateTest : (predicateTest inner).Follows R :=
  hR.bind (hR.follows_disjunction hi) fun _ => hR.pure _

theorem follows_stepForms : ∀ form ∈ [headingTest inner, bareHeading, predicateTest inner],
    form.Follows R := by
  simp only [List.mem_cons, List.not_mem_nil, or_false]
  rintro form (rfl | rfl | rfl)
  · exact hR.follows_headingTest hi
  · exact hR.follows_bareHeading
  · exact hR.follows_predicateTest hi

theorem follows_stepTest : (stepTest inner).Follows R := by
  refine hR.bind (hR.firstOf (hR.follows_stepForms hi)) fun found => ?_
  cases found with
  | some test => exact hR.pure test
  | none => exact hR.fail _

theorem follows_step : (step inner).Follows R := by
  refine hR.bind (hR.attemptOr _ hR.follows_axis) fun a =>
    hR.bind (hR.follows_stepTest hi) fun test => hR.bind hR.remaining fun rest => ?_
  split
  · exact hR.bind hR.follows_slice fun _ => hR.pure _
  · exact hR.pure _

theorem follows_nextStep : (nextStep inner).Follows R := by
  refine hR.bind (hR.follows_operator (by decide) (by decide)) fun found => ?_
  cases found with
  | true => exact hR.bind (hR.follows_step hi) fun _ => hR.pure _
  | false => exact hR.pure _

theorem follows_path : (path inner).Follows R :=
  hR.bind (hR.follows_operator (by decide) (by decide)) fun _ =>
    hR.bind (hR.follows_step hi) fun _ => hR.bind (hR.many (hR.follows_nextStep hi)) fun _ =>
    hR.pure _

theorem follows_pathOperand : (pathOperand inner).Follows R :=
  hR.bind (hR.silent silent_skipBlanks) fun _ => hR.bind (hR.follows_path hi) fun _ => hR.pure _

theorem follows_intersection : (intersection inner).Follows R :=
  hR.follows_chain _ (hR.follows_pathOperand hi) (hR.follows_word (by decide) (by decide))

theorem follows_exception : (exception inner).Follows R :=
  hR.follows_chain _ (hR.follows_intersection hi) (hR.follows_word (by decide) (by decide))

theorem follows_union : (union inner).Follows R :=
  hR.follows_chain _ (hR.follows_exception hi) (hR.follows_word (by decide) (by decide))

omit hi

/-- By the levels of nesting that are left. -/
theorem follows_levels (limit levels : Nat) :
    (location limit levels).Follows R ∧ (innerAt limit levels).Follows R := by
  induction levels with
  | zero =>
    rw [location_zero, innerAt_zero]
    exact ⟨hR.fail _, hR.fail _, hR.fail _⟩
  | succ levels ih =>
    rw [location_succ, innerAt_succ]
    refine ⟨hR.nested limit ?_, hR.nested limit ?_, hR.nested limit ih.1⟩
    · exact hR.bind (hR.silent silent_skipBlanks) fun _ => hR.follows_union ih.2
    · exact hR.follows_disjunction ih.2

theorem follows_location (limit levels : Nat) : (location limit levels).Follows R :=
  (hR.follows_levels limit levels).1

theorem follows_innerAt (limit levels : Nat) : (innerAt limit levels).Follows R :=
  (hR.follows_levels limit levels).2

theorem follows_wholeCall (limit : Nat) : (wholeCall limit).Follows R :=
  hR.bind (hR.silent silent_skipBlanks) fun _ =>
    hR.bind (hR.follows_function (hR.follows_innerAt limit limit)) fun _ =>
    hR.bind (hR.silent silent_expectEnd) fun _ => hR.pure _

theorem follows_wholeLocation (limit : Nat) : (wholeLocation limit).Follows R :=
  hR.bind (hR.silent silent_skipBlanks) fun _ => hR.follows_location limit limit

theorem follows_expression (limit : Nat) : (expression limit).Follows R := by
  refine hR.bind (hR.attempt (hR.follows_wholeCall limit)) fun found => ?_
  cases found with
  | some f => exact hR.pure _
  | none =>
    refine hR.bind (hR.attempt (hR.follows_wholeLocation limit)) fun found => ?_
    cases found with
    | some l => exact hR.bind (hR.silent silent_expectEnd) fun _ => hR.pure _
    | none => exact hR.fail _

end Discipline

inductive IsProduction (limit : Nat) : {α : Type} → Production α → Prop
  | expression : IsProduction limit (expression limit)
  | wholeCall : IsProduction limit (wholeCall limit)
  | wholeLocation : IsProduction limit (wholeLocation limit)
  | expectEnd : IsProduction limit expectEnd
  | location (levels : Nat) : IsProduction limit (location limit levels)
  | innerPredicate (levels : Nat) : IsProduction limit (innerAt limit levels).predicate
  | innerArgument (levels : Nat) : IsProduction limit (innerAt limit levels).argument
  | union (levels : Nat) : IsProduction limit (union (innerAt limit levels))
  | exception (levels : Nat) : IsProduction limit (exception (innerAt limit levels))
  | intersection (levels : Nat) : IsProduction limit (intersection (innerAt limit levels))
  | pathOperand (levels : Nat) : IsProduction limit (pathOperand (innerAt limit levels))
  | path (levels : Nat) : IsProduction limit (path (innerAt limit levels))
  | nextStep (levels : Nat) : IsProduction limit (nextStep (innerAt limit levels))
  | step (levels : Nat) : IsProduction limit (step (innerAt limit levels))
  | axis : IsProduction limit axis
  | stepTest (levels : Nat) : IsProduction limit (stepTest (innerAt limit levels))
  | headingTest (levels : Nat) : IsProduction limit (headingTest (innerAt limit levels))
  | bareHeading : IsProduction limit bareHeading
  | predicateTest (levels : Nat) : IsProduction limit (predicateTest (innerAt limit levels))
  | headingType : IsProduction limit headingType
  | disjunction (levels : Nat) : IsProduction limit (disjunction (innerAt limit levels))
  | conjunction (levels : Nat) : IsProduction limit (conjunction (innerAt limit levels))
  | negation (levels : Nat) : IsProduction limit (negation (innerAt limit levels))
  | nextNot : IsProduction limit nextNot
  | term (levels : Nat) : IsProduction limit (term (innerAt limit levels))
  | comparison (levels : Nat) : IsProduction limit (comparison (innerAt limit levels))
  | spacedComparison (levels : Nat) : IsProduction limit (spacedComparison (innerAt limit levels))
  | starOrComparison (levels : Nat) : IsProduction limit (starOrComparison (innerAt limit levels))
  | fullComparison (levels : Nat) : IsProduction limit (fullComparison (innerAt limit levels))
  | loneValue : IsProduction limit loneValue
  | textComparison (levels : Nat) : IsProduction limit (textComparison (innerAt limit levels))
  | relationBehind : IsProduction limit relationBehind
  | spacedRelation : IsProduction limit spacedRelation
  | relation : IsProduction limit relation
  | modifierBehind : IsProduction limit modifierBehind
  | spacedModifier : IsProduction limit spacedModifier
  | modifier : IsProduction limit modifier
  | bracketedLetter : IsProduction limit bracketedLetter
  | operand (levels : Nat) : IsProduction limit (operand (innerAt limit levels))
  | function (levels : Nat) : IsProduction limit (function (innerAt limit levels))
  | value : IsProduction limit value
  | attributeValue : IsProduction limit attributeValue
  | attributeName : IsProduction limit attributeName
  | literal : IsProduction limit literal
  | nextPiece : IsProduction limit nextPiece
  | piece : IsProduction limit piece
  | string : IsProduction limit string
  | quoted : IsProduction limit quoted
  | unquoted : IsProduction limit unquoted
  | symbolOrIdentifier : IsProduction limit symbolOrIdentifier
  | identifier : IsProduction limit identifier
  | slice : IsProduction limit slice
  | indexSlice : IsProduction limit indexSlice
  | rangeSlice : IsProduction limit rangeSlice
  | integer : IsProduction limit integer
  | skipBlanks : IsProduction limit skipBlanks

/-- Every production of the grammar keeps every discipline. -/
theorem Discipline.follows {R : State → State → Prop} (hR : Discipline R) {limit : Nat} {α : Type}
    {p : Production α} (hp : IsProduction limit p) : p.Follows R := by
  have hi := hR.follows_innerAt limit
  cases hp with
  | expression => exact hR.follows_expression limit
  | wholeCall => exact hR.follows_wholeCall limit
  | wholeLocation => exact hR.follows_wholeLocation limit
  | expectEnd => exact hR.silent silent_expectEnd
  | location levels => exact hR.follows_location limit levels
  | innerPredicate levels => exact (hi levels).predicate
  | innerArgument levels => exact (hi levels).argument
  | union levels => exact hR.follows_union (hi levels)
  | exception levels => exact hR.follows_exception (hi levels)
  | intersection levels => exact hR.follows_intersection (hi levels)
  | pathOperand levels => exact hR.follows_pathOperand (hi levels)
  | path levels => exact hR.follows_path (hi levels)
  | nextStep levels => exact hR.follows_nextStep (hi levels)
  | step levels => exact hR.follows_step (hi levels)
  | axis => exact hR.follows_axis
  | stepTest levels => exact hR.follows_stepTest (hi levels)
  | headingTest levels => exact hR.follows_headingTest (hi levels)
  | bareHeading => exact hR.follows_bareHeading
  | predicateTest levels => exact hR.follows_predicateTest (hi levels)
  | headingType => exact hR.follows_headingType
  | disjunction levels => exact hR.follows_disjunction (hi levels)
  | conjunction levels => exact hR.follows_conjunction (hi levels)
  | negation levels => exact hR.follows_negation (hi levels)
  | nextNot => exact hR.follows_nextNot
  | term levels => exact hR.follows_term (hi levels)
  | comparison levels => exact hR.follows_comparison (hi levels)
  | spacedComparison levels => exact hR.follows_spacedComparison (hi levels)
  | starOrComparison levels => exact hR.follows_starOrComparison (hi levels)
  | fullComparison levels => exact hR.follows_fullComparison (hi levels)
  | loneValue => exact hR.follows_loneValue
  | textComparison levels => exact hR.follows_textComparison (hi levels)
  | relationBehind => exact hR.follows_relationBehind
  | spacedRelation => exact hR.follows_spacedRelation
  | relation => exact hR.follows_relation
  | modifierBehind => exact hR.follows_modifierBehind
  | spacedModifier => exact hR.follows_spacedModifier
  | modifier => exact hR.follows_modifier
  | bracketedLetter => exact hR.silent silent_bracketedLetter
  | operand levels => exact hR.follows_operand (hi levels)
  | function levels => exact hR.follows_function (hi levels)
  | value => exact hR.follows_value
  | attributeValue => exact hR.follows_attributeValue
  | attributeName => exact hR.silent silent_attributeName
  | literal => exact hR.follows_literal
  | nextPiece => exact hR.follows_nextPiece
  | piece => exact hR.follows_piece
  | string => exact hR.follows_string
  | quoted => exact hR.silent silent_quoted
  | unquoted => exact hR.silent silent_unquoted
  | symbolOrIdentifier => exact hR.silent silent_symbolOrIdentifier
  | identifier => exact hR.silent silent_identifier
  | slice => exact hR.follows_slice
  | indexSlice => exact hR.silent silent_indexSlice
  | rangeSlice => exact hR.follows_rangeSlice
  | integer => exact hR.silent silent_integer
  | skipBlanks => exact hR.silent silent_skipBlanks

end OutlineQuery.Grammar
