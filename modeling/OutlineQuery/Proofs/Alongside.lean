import OutlineQuery.Proofs.RoundTrip
import OutlineQuery.Proofs.StringsInContext

/-! Every production of the grammar runs in a longer text as it does in the text alone, if what
stands behind is kept apart. The levels of nesting are counted down as the grammar does it. -/

namespace OutlineQuery
open Grammar Production Text

structure Embedding.Keeps (E : Embedding) (inner : Inner) : Prop where
  predicate : Parallel E true true 1 1 inner.predicate
  argument : Parallel E true true 1 1 inner.argument

theorem Embedding.Keeps.follows {E : Embedding} {inner : Inner} (h : E.Keeps inner) :
    inner.Follows Grown :=
  ⟨h.predicate.grows, h.argument.grows⟩

namespace Parallel
variable {E : Embedding} {i : Nat}

theorem nextOperand {α : Type} {operand : Production α} {operator : Production Bool}
    (hp : Parallel E true true i i operand) (ho : Parallel E true true i i operator) :
    Parallel E true true i i (nextOperand operand operator) := by
  refine skipBlanks.bind fun _ => ho.bind fun found => ?_
  cases found with
  | true => exact skipBlanks.bind fun _ => hp.map some
  | false => exact pure none

theorem chain {α : Type} {operand : Production α} {word : String} {kind : TokenKind}
    {combine : α → α → α} (hw : word ≠ "") (hp : Parallel E true true i i operand)
    (ho : Parallel E true false i i (Grammar.word word kind)) :
    Parallel E true true i i (chain operand (Grammar.word word kind) combine) := by
  refine skipBlanks.bind fun _ => hp.bind fun first => ?_
  exact (many (consumes_nextOperand hw hp.grows) (nextOperand hp ho.relax)).map _

section
variable (hE : E.Apart)
include hE

/-- A word that cannot stand behind the text. -/
theorem listed {word : String} {kind : TokenKind} (hk : kind ≠ .comparison)
    (hmem : word ∈ ["heading", "not", "and", "or", "intersect", "except"]) :
    Parallel E true false i i (Grammar.word word kind) := by
  have hall : ∀ word ∈ ["heading", "not", "and", "or", "intersect", "except"],
      word ≠ "" ∧ word.toList.all (!isEdge ·) = true ∧ word.toList.all isPlain = true := by decide
  obtain ⟨hw, hedge, hplain⟩ := hall word hmem
  exact .word hE hw hk hedge hplain fun _ _ => hE.words word hmem

theorem slash : Parallel E true false i i (operator "/" .axis) :=
  (isLexeme_operator (by decide) (by decide)).plain hE (by decide) (by decide) (by decide) fun _ =>
    hE.unread _ (by decide)

theorem star : Parallel E true false i i (skip "*") :=
  (isLexeme_skip "*").plain hE (by decide) (by decide) (by decide) fun _ => hE.unread _ (by decide)

/-- Behind a parenthesis that is there one more of them stands open. -/
theorem skip_opening {α : Type} {wide lax : Bool} {j : Nat} {f : Bool → Production α}
    (htrue : Parallel E false lax (i + 1) j (f true)) (hfalse : Parallel E wide lax i j (f false)) :
    Parallel E wide lax i j (skip "(" >>= f) := by
  have hrun : skip "(" >>= f = (do
      if "(".toList.isPrefixOf (← remaining) then
        expect "("
        f true
      else f false) := by
    funext s
    rw [remaining_bind_run]
    by_cases hstarts : "(".toList.isPrefixOf s.cursor.rest = true
    · rw [bind_of_ok (skip_run.trans (if_pos hstarts)), if_pos hstarts,
        bind_of_ok (expect_run.trans (if_pos hstarts))]
    · rw [bind_of_ok (skip_run.trans (if_neg hstarts)), if_neg hstarts]
  rw [hrun]
  refine remaining_bind (fun rest => ?_) (fun rest => ?_) fun _ => ?_
  · split
    · cases wide with
      | true => exact (opening hE).bind_behind (advances_expect (by decide)) fun _ => htrue
      | false => exact (opening hE).narrow.bind_behind (advances_expect (by decide)) fun _ => htrue
    · exact hfalse
  · rw [hE.isPrefixOf_behind (by decide)]
  · rw [hE.unread "(" (by decide)]
    rfl

theorem literal : Parallel E true false i i literal :=
  (string hE).bind_firm fun _ => (many consumes_nextPiece (piece hE).attempt).map _

theorem value : Parallel E true false i i value :=
  (attributeValue hE).alternative (fun v => pure v) (literal hE)

theorem relationBehind : Parallel E true false i i relationBehind :=
  (skipBlanks.bind_advances (fun _ => relation hE) fun _ => advances_relation).attemptOr _

theorem modifier : Parallel E true false i i modifier :=
  (bracketedLetter hE).record advances_bracketedLetter

theorem modifierBehind : Parallel E true false i i modifierBehind :=
  (skipBlanks.bind_advances (fun _ => modifier hE) fun _ =>
    advances_record _ advances_bracketedLetter).attemptOr _

theorem loneValue : Parallel E true false i i loneValue := by
  refine (value hE).bind_firm fun v => (modifierBehind hE).bind_firm fun m => ?_
  cases v <;> exact pure _

variable {inner : Inner} (hi : E.Keeps inner)
include hi

theorem function : Parallel E true false i i (function inner) := by
  have hargument : Parallel E true true (i + 1) (i + 1) inner.argument := hi.argument.within i
  have hwithin : Parallel E false false i i (Grammar.function inner) := by
    refine ((identifier hE).record advances_identifier).bind_firm fun name => ?_
    refine (opening hE).narrow.bind_firm fun _ => ?_
    exact hargument.narrow.bind_advances (fun _ => closing.map _) fun _ =>
      (advances_expect (by decide)).bind_first fun _ => follows_grown_pure _
  exact hwithin.of_refuses (fun _ => refuses_function rfl) (hE.function inner)

theorem operand : Parallel E true false i i (operand inner) :=
  (function hE hi).alternative (fun _ => pure _) (value hE)

theorem spacedOperand {α : Type} (g : Value → α) :
    Parallel E true false i i (do Grammar.skipBlanks; return g (← Grammar.operand inner)) :=
  skipBlanks.bind_advances (fun _ => (operand hE hi).map g) fun _ =>
    (advances_operand hi.follows).bind_first fun _ => follows_grown_pure _

theorem fullComparison : Parallel E true false i i (fullComparison inner) :=
  (operand hE hi).bind_firm fun _ => (relationBehind hE).bind_firm fun _ =>
    (modifierBehind hE).bind_firm fun _ => spacedOperand hE hi _

theorem textComparison : Parallel E true false i i (textComparison inner) := by
  refine ((relation hE).attemptOr _).bind_firm fun _ => ?_
  refine skipBlanks.bind_advances (fun _ => ((modifier hE).attemptOr _).bind_firm fun _ =>
    spacedOperand hE hi _) fun _ => ?_
  exact .bind_next (discipline_grown.attemptOr _ discipline_grown.follows_modifier) fun _ =>
    .bind_next (follows_grown_of_silent silent_skipBlanks) fun _ =>
    (advances_operand hi.follows).bind_first fun _ => follows_grown_pure _

theorem starOrComparison : Parallel E true false i i (starOrComparison inner) := by
  refine (star hE).bind_firm fun found => ?_
  cases found with
  | true => exact pure _
  | false =>
    refine (firstOf ?_).bind_firm fun found => ?_
    · simp only [List.mem_cons, List.not_mem_nil, or_false]
      rintro form (rfl | rfl | rfl)
      · exact fullComparison hE hi
      · exact loneValue hE
      · exact textComparison hE hi
    · cases found with
      | some p => exact pure p
      | none => exact fail _

theorem comparison : Parallel E true false i i (comparison inner) := by
  have hadvances : (Grammar.starOrComparison inner).Advances := advances_starOrComparison hi.follows
  have hspaced : Parallel E true false i i (spacedComparison inner) :=
    skipBlanks.bind_advances (fun _ => (starOrComparison hE hi).record hadvances) fun _ =>
      advances_record _ hadvances
  exact hspaced.alternative (fun p => pure p) (fail _)

theorem term : Parallel E true true i i (term inner) := by
  have hpredicate : Parallel E true true (i + 1) (i + 1) inner.predicate := hi.predicate.within i
  refine skipBlanks.bind fun _ => skip_opening hE ?_ (comparison hE hi).relax
  refine hpredicate.narrow.bind fun p => skipBlanks.bind fun _ => ?_
  exact (closing.map _).relax

omit hi in
theorem nextNot : Parallel E true true i i nextNot := by
  refine skipBlanks.bind fun _ => (listed hE (by decide) (by decide)).bind_firm fun found => ?_
  cases found with
  | true => exact pure _
  | false => exact pure _

theorem negation : Parallel E true true i i (negation inner) :=
  (many consumes_nextNot (nextNot hE)).bind fun _ => skipBlanks.bind fun _ => (term hE hi).map _

theorem disjunction : Parallel E true true i i (disjunction inner) :=
  chain (by decide) (chain (by decide) (negation hE hi) (listed hE (by decide) (by decide)))
    (listed hE (by decide) (by decide))

omit hi in
theorem headingType : Parallel E true false i i headingType := by
  refine (listed hE (by decide) (by decide)).bind_firm fun found => ?_
  cases found with
  | true => exact pure _
  | false => exact fail _

theorem stepTest : Parallel E true true i i (stepTest inner) := by
  have hforms : Parallel E true true i i
      (Production.firstOf [headingTest inner, bareHeading, predicateTest inner]) := by
    refine firstOf ?_
    simp only [List.mem_cons, List.not_mem_nil, or_false]
    rintro form (rfl | rfl | rfl)
    · exact (headingType hE).bind_firm fun _ => (disjunction hE hi).map _
    · exact ((headingType hE).map _).relax
    · exact (disjunction hE hi).map _
  refine hforms.bind fun found => ?_
  cases found with
  | some test => exact pure test
  | none => exact fail _

theorem step : Parallel E true true i i (step inner) := by
  refine ((axis hE).attemptOr _).bind_firm fun a => (stepTest hE hi).bind fun test => ?_
  refine remaining_bind (fun rest => ?_) (fun rest => ?_) fun _ => ?_
  · split
    · exact ((slice hE).map _).relax
    · exact pure _
  · rw [hE.isPrefixOf_behind (by decide)]
  · rw [show ['['].isPrefixOf E.next = false from hE.unread "[" (by decide)]
    rfl

theorem nextStep : Parallel E true true i i (nextStep inner) := by
  refine (slash hE).bind_firm fun found => ?_
  cases found with
  | true => exact (step hE hi).map some
  | false => exact pure none

theorem path : Parallel E true true i i (path inner) :=
  (slash hE).bind_firm fun _ => (step hE hi).bind fun _ =>
    (many (consumes_nextStep hi.follows) (nextStep hE hi)).map _

theorem pathOperand : Parallel E true true i i (pathOperand inner) :=
  skipBlanks.bind fun _ => (path hE hi).map _

theorem exception : Parallel E true true i i (exception inner) :=
  chain (by decide) (chain (by decide) (pathOperand hE hi) (listed hE (by decide) (by decide)))
    (listed hE (by decide) (by decide))

/-- Within parentheses, and where nothing follows, all of a union is read in the text. -/
theorem union (hunion : E.Guarded i [] → E.next = []) :
    Parallel E true true i i (union inner) := by
  refine chain (by decide) (exception hE hi) (.word hE ?_ ?_ ?_ ?_ fun _ hg => ?_)
  · decide
  · decide
  · decide
  · decide
  · rw [hunion hg]
    rfl

omit hi in
/-- By the levels of nesting that are left. -/
theorem levels (limit levels : Nat) :
    Parallel E true true 1 1 (location limit levels) ∧ E.Keeps (innerAt limit levels) := by
  induction levels with
  | zero =>
    rw [location_zero, innerAt_zero]
    exact ⟨fail _, fail _, fail _⟩
  | succ levels ih =>
    obtain ⟨hlocation, hinner⟩ := ih
    rw [location_succ, innerAt_succ]
    refine ⟨nested limit ?_, nested limit (disjunction hE hinner), nested limit hlocation⟩
    exact skipBlanks.bind fun _ => union hE hinner fun hg => hg.next_eq_nil Nat.one_ne_zero

end
end Parallel
end OutlineQuery
