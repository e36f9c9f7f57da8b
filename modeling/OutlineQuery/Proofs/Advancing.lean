import OutlineQuery.Proofs.InContext

/-! Most productions take up part of the text wherever they succeed. Those that need not are what
may be missing in a query: blanks, defaults, and the items of loops. -/

namespace OutlineQuery.Grammar
open Production Text

section
variable {α : Type} {p : Production α} {s t : State}

theorem offset_lt_of_word {text : String} {kind : TokenKind} (ht : text ≠ "")
    (hk : kind ≠ .comparison) (h : word text kind s = .ok true t) :
    s.cursor.offset < t.cursor.offset := by
  have hgrown := discipline_grown.follows_word ht hk s
  rw [finish_of_ok h] at hgrown
  exact hgrown.shorter_iff.mp (word_shortens ht h)

theorem Production.Advances.nested (limit : Nat) (hp : p.Advances) : (nested limit p).Advances := by
  intro s a u h
  obtain ⟨-, t, hrun, rfl⟩ := nested_ok h
  exact hp { s with depth := s.depth + 1 } a t hrun

theorem advances_chain {operator : Production Bool} (combine : α → α → α) (hg : p.Follows Grown)
    (hp : p.Advances) (ho : operator.Follows Grown) : (chain p operator combine).Advances :=
  .bind_next (follows_grown_of_silent silent_skipBlanks) fun _ => hp.bind_first fun _ =>
    discipline_grown.bind (discipline_grown.many (discipline_grown.follows_nextOperand hg ho))
      fun _ => follows_grown_pure _

end

theorem advances_modifier : modifier.Advances := advances_record _ advances_bracketedLetter

theorem advances_axis : axis.Advances := by
  intro s a t h
  rw [axis_run] at h
  cases ha : axisAt? s.cursor.rest with
  | none => rw [ha] at h; cases h
  | some b =>
    rw [ha] at h
    cases h
    have hlength : 0 < a.spelling.length := by cases a <;> decide
    refine Cursor.offset_lt_advance hlength fun hnil => ?_
    rw [hnil] at ha
    cases ha

theorem advances_integer : integer.Advances := by
  refine .bind_next (follows_grown_of_silent (silent_skip _)) fun negative s a t h => ?_
  rw [remaining_bind_run] at h
  dsimp only at h
  split at h
  · cases h
  · rename_i hdigits
    rw [pass_bind_run] at h
    have hsome : s.cursor.rest.takeWhile Char.isDigit ≠ [] := by
      intro hnil
      rw [hnil] at hdigits
      exact hdigits rfl
    have hrest : s.cursor.rest ≠ [] := by
      intro hnil
      rw [hnil] at hsome
      exact hsome rfl
    have hlt : s.cursor.offset <
        (s.pass (s.cursor.rest.takeWhile Char.isDigit).length).cursor.offset :=
      Cursor.offset_lt_advance (List.length_pos_iff.mpr hsome) hrest
    revert h
    generalize (if negative = true then _ else _ : Int) = k
    intro h
    split at h
    · cases h
      exact hlt
    · cases h

theorem advances_slice : slice.Advances := by
  refine advances_alternative ?_ (discipline_grown.silent silent_indexSlice)
    (fun _ => follows_grown_pure _) ?_
  · exact (advances_expect (by decide)).bind_first fun _ => follows_grown_of_silent <|
      silent_integer.bind fun _ => (silent_expect _).bind fun _ => .pure _
  · have hinteger : (attempt integer).Follows Grown :=
      discipline_grown.attempt (discipline_grown.silent silent_integer)
    have hexpect (text : String) : (expect text).Follows Grown :=
      follows_grown_of_silent (silent_expect text)
    exact (advances_expect (by decide)).bind_first fun _ =>
      discipline_grown.bind hinteger fun _ => discipline_grown.bind (hexpect _) fun _ =>
      discipline_grown.bind hinteger fun _ => discipline_grown.bind (hexpect _) fun _ =>
      follows_grown_pure _

theorem advances_headingType : headingType.Advances := by
  intro s a t h
  obtain ⟨found, u, hword, hrest⟩ := bind_ok h
  cases found with
  | true =>
    cases hrest
    exact offset_lt_of_word (by decide) (by decide) hword
  | false => cases hrest

theorem advances_bareHeading : bareHeading.Advances :=
  advances_headingType.bind_first fun _ => follows_grown_pure _

section
variable {inner : Inner} (hi : inner.Follows Grown)
include hi

theorem advances_spacedComparison : (spacedComparison inner).Advances :=
  .bind_next (follows_grown_of_silent silent_skipBlanks) fun _ =>
    advances_record _ (advances_starOrComparison hi)

theorem advances_comparison : (comparison inner).Advances :=
  advances_alternative (advances_spacedComparison hi) (discipline_grown.follows_spacedComparison hi)
    (fun _ => follows_grown_pure _) (.fail _)

theorem advances_term : (term inner).Advances := by
  refine .bind_next (follows_grown_of_silent silent_skipBlanks) fun _ s p t h => ?_
  obtain ⟨bracketed, u, hskip, hrest⟩ := bind_ok h
  cases bracketed with
  | true =>
    have hbehind : (do
        let p ← inner.predicate
        skipBlanks
        expect ")"
        return p : Production Predicate).Follows Grown :=
      discipline_grown.bind hi.predicate fun _ =>
        discipline_grown.bind (follows_grown_of_silent silent_skipBlanks) fun _ =>
        discipline_grown.bind (follows_grown_of_silent (silent_expect _)) fun _ =>
        follows_grown_pure _
    have hlt := offset_lt_of_skip (by decide) hskip
    have hle := (hbehind u).offset_le
    rw [if_pos rfl] at hrest
    rw [finish_of_ok hrest] at hle
    omega
  | false =>
    have hle := (follows_grown_of_silent (silent_skip "(") s).offset_le
    rw [finish_of_ok hskip] at hle
    have hlt := advances_comparison hi u p t hrest
    omega

theorem advances_negation : (negation inner).Advances :=
  .bind_next (discipline_grown.many discipline_grown.follows_nextNot) fun _ =>
    .bind_next (follows_grown_of_silent silent_skipBlanks) fun _ =>
    (advances_term hi).bind_first fun _ => follows_grown_pure _

theorem advances_conjunction : (conjunction inner).Advances :=
  advances_chain _ (discipline_grown.follows_negation hi) (advances_negation hi)
    (discipline_grown.follows_word (by decide) (by decide))

theorem advances_disjunction : (disjunction inner).Advances :=
  advances_chain _ (discipline_grown.follows_conjunction hi) (advances_conjunction hi)
    (discipline_grown.follows_word (by decide) (by decide))

theorem advances_headingTest : (headingTest inner).Advances :=
  advances_headingType.bind_first fun _ =>
    discipline_grown.bind (discipline_grown.follows_disjunction hi) fun _ => follows_grown_pure _

theorem advances_predicateTest : (predicateTest inner).Advances :=
  (advances_disjunction hi).bind_first fun _ => follows_grown_pure _

theorem advances_stepTest : (stepTest inner).Advances := by
  have hadvances : ∀ form ∈ [headingTest inner, bareHeading, predicateTest inner],
      form.Advances := by
    simp only [List.mem_cons, List.not_mem_nil, or_false]
    rintro form (rfl | rfl | rfl)
    · exact advances_headingTest hi
    · exact advances_bareHeading
    · exact advances_predicateTest hi
  intro s test t h
  obtain ⟨found, u, hforms, hrest⟩ := bind_ok h
  cases found with
  | none => cases hrest
  | some test' =>
    cases hrest
    obtain ⟨form, hform, hrun⟩ := firstOf_some (discipline_grown.follows_stepForms hi) hforms
    exact hadvances form hform s test t hrun

theorem advances_step : (step inner).Advances := by
  refine .bind_next (discipline_grown.attemptOr _ discipline_grown.follows_axis) fun a =>
    (advances_stepTest hi).bind_first fun test => discipline_grown.bind discipline_grown.remaining
      fun rest => ?_
  split
  · exact discipline_grown.bind discipline_grown.follows_slice fun _ => follows_grown_pure _
  · exact follows_grown_pure _

theorem advances_path : (path inner).Advances :=
  .bind_next (discipline_grown.follows_operator (by decide) (by decide)) fun _ =>
    (advances_step hi).bind_first fun _ =>
    discipline_grown.bind (discipline_grown.many (discipline_grown.follows_nextStep hi)) fun _ =>
    follows_grown_pure _

theorem advances_pathOperand : (pathOperand inner).Advances :=
  .bind_next (follows_grown_of_silent silent_skipBlanks) fun _ =>
    (advances_path hi).bind_first fun _ => follows_grown_pure _

theorem advances_intersection : (intersection inner).Advances :=
  advances_chain _ (discipline_grown.follows_pathOperand hi) (advances_pathOperand hi)
    (discipline_grown.follows_word (by decide) (by decide))

theorem advances_exception : (exception inner).Advances :=
  advances_chain _ (discipline_grown.follows_intersection hi) (advances_intersection hi)
    (discipline_grown.follows_word (by decide) (by decide))

theorem advances_union : (union inner).Advances :=
  advances_chain _ (discipline_grown.follows_exception hi) (advances_exception hi)
    (discipline_grown.follows_word (by decide) (by decide))

end

/-- By the levels of nesting that are left. -/
theorem advances_levels (limit levels : Nat) : (location limit levels).Advances ∧
    (innerAt limit levels).predicate.Advances ∧ (innerAt limit levels).argument.Advances := by
  induction levels with
  | zero =>
    rw [location_zero, innerAt_zero]
    exact ⟨.fail _, .fail _, .fail _⟩
  | succ levels ih =>
    have hi : (innerAt limit levels).Follows Grown := discipline_grown.follows_innerAt limit levels
    rw [location_succ, innerAt_succ]
    refine ⟨.nested limit ?_, (advances_disjunction hi).nested limit, ih.1.nested limit⟩
    exact .bind_next (follows_grown_of_silent silent_skipBlanks) fun _ => advances_union hi

theorem advances_wholeCall (limit : Nat) : (wholeCall limit).Advances :=
  .bind_next (follows_grown_of_silent silent_skipBlanks) fun _ =>
    (advances_function (discipline_grown.follows_innerAt limit limit)).bind_first fun _ =>
    discipline_grown.bind (follows_grown_of_silent silent_expectEnd) fun _ => follows_grown_pure _

theorem advances_wholeLocation (limit : Nat) : (wholeLocation limit).Advances :=
  .bind_next (follows_grown_of_silent silent_skipBlanks) fun _ => (advances_levels limit limit).1

theorem advances_expression (limit : Nat) : (expression limit).Advances := by
  have hlocation (l : Location) :
      (do expectEnd; return .location l : Production Expression).Follows Grown :=
    discipline_grown.bind (follows_grown_of_silent silent_expectEnd) fun _ => follows_grown_pure _
  refine advances_alternative (advances_wholeCall limit) (discipline_grown.follows_wholeCall limit)
    (fun _ => follows_grown_pure _) ?_
  exact advances_alternative (advances_wholeLocation limit)
    (discipline_grown.follows_wholeLocation limit) hlocation (.fail _)

inductive TakesUp (limit : Nat) : {α : Type} → Production α → Prop
  | expression : TakesUp limit (expression limit)
  | wholeCall : TakesUp limit (wholeCall limit)
  | wholeLocation : TakesUp limit (wholeLocation limit)
  | location (levels : Nat) : TakesUp limit (location limit levels)
  | innerPredicate (levels : Nat) : TakesUp limit (innerAt limit levels).predicate
  | innerArgument (levels : Nat) : TakesUp limit (innerAt limit levels).argument
  | union (levels : Nat) : TakesUp limit (union (innerAt limit levels))
  | exception (levels : Nat) : TakesUp limit (exception (innerAt limit levels))
  | intersection (levels : Nat) : TakesUp limit (intersection (innerAt limit levels))
  | pathOperand (levels : Nat) : TakesUp limit (pathOperand (innerAt limit levels))
  | path (levels : Nat) : TakesUp limit (path (innerAt limit levels))
  | step (levels : Nat) : TakesUp limit (step (innerAt limit levels))
  | axis : TakesUp limit axis
  | stepTest (levels : Nat) : TakesUp limit (stepTest (innerAt limit levels))
  | headingTest (levels : Nat) : TakesUp limit (headingTest (innerAt limit levels))
  | bareHeading : TakesUp limit bareHeading
  | predicateTest (levels : Nat) : TakesUp limit (predicateTest (innerAt limit levels))
  | disjunction (levels : Nat) : TakesUp limit (disjunction (innerAt limit levels))
  | conjunction (levels : Nat) : TakesUp limit (conjunction (innerAt limit levels))
  | negation (levels : Nat) : TakesUp limit (negation (innerAt limit levels))
  | term (levels : Nat) : TakesUp limit (term (innerAt limit levels))
  | comparison (levels : Nat) : TakesUp limit (comparison (innerAt limit levels))
  | starOrComparison (levels : Nat) : TakesUp limit (starOrComparison (innerAt limit levels))
  | fullComparison (levels : Nat) : TakesUp limit (fullComparison (innerAt limit levels))
  | loneValue : TakesUp limit loneValue
  | textComparison (levels : Nat) : TakesUp limit (textComparison (innerAt limit levels))
  | relation : TakesUp limit relation
  | modifier : TakesUp limit modifier
  | operand (levels : Nat) : TakesUp limit (operand (innerAt limit levels))
  | function (levels : Nat) : TakesUp limit (function (innerAt limit levels))
  | value : TakesUp limit value
  | attributeValue : TakesUp limit attributeValue
  | literal : TakesUp limit literal
  | piece : TakesUp limit piece
  | string : TakesUp limit string
  | quoted : TakesUp limit quoted
  | unquoted : TakesUp limit unquoted
  | identifier : TakesUp limit identifier
  | slice : TakesUp limit slice
  | integer : TakesUp limit integer

theorem TakesUp.advances {limit : Nat} {α : Type} {p : Production α} (hp : TakesUp limit p) :
    p.Advances := by
  have hi := discipline_grown.follows_innerAt limit
  cases hp with
  | expression => exact advances_expression limit
  | wholeCall => exact advances_wholeCall limit
  | wholeLocation => exact advances_wholeLocation limit
  | location levels => exact (advances_levels limit levels).1
  | innerPredicate levels => exact (advances_levels limit levels).2.1
  | innerArgument levels => exact (advances_levels limit levels).2.2
  | union levels => exact advances_union (hi levels)
  | exception levels => exact advances_exception (hi levels)
  | intersection levels => exact advances_intersection (hi levels)
  | pathOperand levels => exact advances_pathOperand (hi levels)
  | path levels => exact advances_path (hi levels)
  | step levels => exact advances_step (hi levels)
  | axis => exact advances_axis
  | stepTest levels => exact advances_stepTest (hi levels)
  | headingTest levels => exact advances_headingTest (hi levels)
  | bareHeading => exact advances_bareHeading
  | predicateTest levels => exact advances_predicateTest (hi levels)
  | disjunction levels => exact advances_disjunction (hi levels)
  | conjunction levels => exact advances_conjunction (hi levels)
  | negation levels => exact advances_negation (hi levels)
  | term levels => exact advances_term (hi levels)
  | comparison levels => exact advances_comparison (hi levels)
  | starOrComparison levels => exact advances_starOrComparison (hi levels)
  | fullComparison levels => exact advances_fullComparison (hi levels)
  | loneValue => exact advances_loneValue
  | textComparison levels => exact advances_textComparison (hi levels)
  | relation => exact advances_relation
  | modifier => exact advances_modifier
  | operand levels => exact advances_operand (hi levels)
  | function levels => exact advances_function (hi levels)
  | value => exact advances_value
  | attributeValue => exact advances_attributeValue
  | literal => exact advances_literal
  | piece => exact advances_piece
  | string => exact advances_string
  | quoted => exact advances_quoted
  | unquoted => exact advances_unquoted
  | identifier => exact advances_identifier
  | slice => exact advances_slice
  | integer => exact advances_integer

end OutlineQuery.Grammar
