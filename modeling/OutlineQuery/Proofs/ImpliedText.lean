import OutlineQuery.Proofs.SingleStep
import OutlineQuery.Proofs.WordsAsNames

/-! A relation without left side. It is read as if `@text` stood before it: the two forms of a
comparison differ in what they read up to the right side only, and come to the same there. -/

namespace OutlineQuery
namespace Grammar
open Production Text

structure LeftSide where
  value : Value
  relation : Relation
  modifier : Modifier

def writtenSide (inner : Inner) : Production LeftSide := do
  let left ← operand inner
  let r ← relationBehind
  let m ← modifierBehind
  skipBlanks
  return ⟨left, r, m⟩

def impliedSide : Production LeftSide := do
  let r ← attemptOr .default relation
  skipBlanks
  let m ← attemptOr .default modifier
  skipBlanks
  return ⟨.text, r, m⟩

def comparisonBehind (inner : Inner) (side : LeftSide) : Production Predicate := do
  let right ← operand inner
  return .comparison side.value (some side.relation) side.modifier (some right)

theorem fullComparison_eq (inner : Inner) :
    fullComparison inner = writtenSide inner >>= comparisonBehind inner := by
  simp only [fullComparison, writtenSide, comparisonBehind, bind_assoc, pure_bind]

theorem textComparison_eq (inner : Inner) :
    textComparison inner = impliedSide >>= comparisonBehind inner := by
  simp only [textComparison, impliedSide, comparisonBehind, bind_assoc, pure_bind]

theorem settled_comparisonBehind {inner : Inner} (hi : inner.Alone) (side : LeftSide) :
    Settled (comparisonBehind inner side) := by
  have hoperand : Alone (operand inner) := fun before shift =>
    (Parallel.operand (apart_alone before shift) (hi.keeps before shift)).relax
  exact hoperand.settled.bind fun _ => .pure _

def impliedForm (r : Relation) (v : List Char) : List Char := r.spelling.toList ++ ' ' :: v

def writtenForm (r : Relation) (v : List Char) : List Char :=
  '@' :: (textAttribute.toList ++ ' ' :: impliedForm r v)

section
variable (r : Relation) (v : List Char)

theorem relationAt?_impliedForm : relationAt? (impliedForm r v) = some r := by
  cases r <;> rfl

theorem startsReserved_impliedForm : startsReserved (impliedForm r v) = true := by
  cases r <;> rfl

theorem noBlank_impliedForm : (impliedForm r v).head?.any isBlank = false := by
  cases r <;> rfl

theorem dropWhile_impliedForm : (' ' :: impliedForm r v).dropWhile isBlank = impliedForm r v :=
  dropWhile_blank (noBlank_impliedForm r v)

theorem impliedForm_head {c : Char} (hc : c ∈ ['"', '@', '[', '/']) :
    (impliedForm r v).head? ≠ some c := by
  have hall : ['"', '@', '[', '/'].all (fun c => r.spelling.toList.head? != some c) = true := by
    cases r <;> decide
  have hhead : r.spelling.toList.head? ≠ some c := bne_iff_ne.mp (List.all_eq_true.mp hall c hc)
  cases r <;> exact hhead

theorem impliedForm_starts :
    (impliedForm r v).head?.any (fun c => isBlank c || c == '(' || c == '*') = false := by
  cases r <;> rfl

theorem opensTest_impliedForm : OpensTest (impliedForm r v) := by
  refine ⟨⟨?_, ?_⟩, ?_, ?_⟩ <;> cases r <;> rfl

theorem endsLocation_impliedForm : EndsLocation (impliedForm r v) := by
  refine ⟨impliedForm_head r v (by decide), impliedForm_head r v (by decide), ?_⟩
  rw [dropWhile_blank (noBlank_impliedForm r v)]
  intro word hword
  simp only [List.mem_cons, List.not_mem_nil, or_false] at hword
  obtain rfl | rfl | rfl := hword <;> cases r <;> rfl

theorem opensTest_writtenForm : OpensTest (writtenForm r v) := ⟨⟨rfl, rfl⟩, rfl, rfl⟩

/-- A relation is a word, or an operator that no identifier starts with. -/
theorem spelling_cases (r : Relation) :
    IsFunctionName r.spelling ∨ (impliedForm r v).head?.any isStart = false := by
  cases r <;> first | exact .inl (by decide) | exact .inr rfl

end

section
variable {inner : Inner} {depth : Nat}

/-- A modifier may be missing, but looking for one never takes a level of nesting. -/
theorem modifier_cases (depth : Nat) (text : List Char) :
    (∃ m rest, Reads modifier depth text m rest) ∨ Refuses modifier depth text := by
  have hsettled : Settled bracketedLetter :=
    Alone.settled fun before shift => (Parallel.bracketedLetter (apart_alone before shift)).relax
  obtain ⟨m, rest, hm⟩ | hno | hno := hsettled depth text
  · exact .inl ⟨m, rest, hm.record⟩
  · exact .inr hno.record
  · obtain ⟨reason, t, hrun, hfatal⟩ := hno _ (at_before depth text)
    rw [Recoverable.bracketedLetter _ reason t hrun] at hfatal
    cases hfatal

/-- It does not matter whether the blanks before a modifier are passed with it or without it. -/
theorem reads_modifier_between (depth : Nat) (text : List Char) : ∃ m middle middle',
    Reads modifierBehind depth text m middle ∧
    Reads (attemptOr .default modifier) depth (text.dropWhile isBlank) m middle' ∧
    middle'.dropWhile isBlank = middle.dropWhile isBlank := by
  obtain ⟨m, rest, hm⟩ | hno := modifier_cases depth (text.dropWhile isBlank)
  · exact ⟨m, rest, rest, (reads_skipBlanks.bind hm).attemptOr, hm.attemptOr, rfl⟩
  · have hbehind : Refuses spacedModifier depth text := .bind_next reads_skipBlanks hno
    exact ⟨.default, text, text.dropWhile isBlank,
      hbehind.attemptOr _ discipline_grown.follows_spacedModifier,
      hno.attemptOr _ discipline_grown.follows_modifier, List.dropWhile_idempotent _ _⟩

variable (r : Relation) (v : List Char)

theorem reads_textValue (rest : List Char) :
    Reads value depth ('@' :: (textAttribute.toList ++ ' ' :: rest)) .text (' ' :: rest) := by
  have hname : Reads attributeValue depth ('@' :: (textAttribute.toList ++ ' ' :: rest)) .text
      (' ' :: rest) := reads_attributeValue (by decide) rfl
  exact hname.attempt.bind (.pure _)

/-- Written out or implied, the left side is read up to the same text. -/
theorem reads_sides (depth : Nat) (hg : inner.Follows Grown) : ∃ m behind,
    Reads (writtenSide inner) depth (writtenForm r v) ⟨.text, r, m⟩ behind ∧
      Reads impliedSide depth (impliedForm r v) ⟨.text, r, m⟩ behind := by
  obtain ⟨m, middle, middle', hbehind, hdirect, hsame⟩ := reads_modifier_between depth (' ' :: v)
  have hrelation : Reads relation depth (impliedForm r v) r (' ' :: v) :=
    reads_relation (relationAt?_impliedForm r v)
  refine ⟨m, middle.dropWhile isBlank, ?_, ?_⟩
  · have hcall : Refuses (function inner) depth (writtenForm r v) := refuses_function rfl
    have hleft : Reads (operand inner) depth (writtenForm r v) .text (' ' :: impliedForm r v) :=
      (hcall.attempt (discipline_grown.follows_function hg)).bind (reads_textValue _)
    have hblanks : Reads skipBlanks depth (' ' :: impliedForm r v) () (impliedForm r v) := by
      have hskip : Reads skipBlanks depth (' ' :: impliedForm r v) () _ := reads_skipBlanks
      rwa [dropWhile_impliedForm] at hskip
    have hspaced : Reads relationBehind depth (' ' :: impliedForm r v) r (' ' :: v) :=
      (hblanks.bind hrelation).attemptOr
    exact hleft.bind (hspaced.bind (hbehind.bind (reads_skipBlanks.bind (.pure _))))
  · have hend : Reads skipBlanks depth middle' () (middle.dropWhile isBlank) :=
      hsame ▸ reads_skipBlanks
    exact hrelation.attemptOr.bind (reads_skipBlanks.bind (hdirect.bind (hend.bind (.pure _))))

/-- Nothing that a relation starts is a value. -/
theorem refuses_relationValue : Refuses value depth (impliedForm r v) := by
  have hstring : Refuses string depth (impliedForm r v) :=
    .string (impliedForm_head r v (by decide)) (refuses_reserved (startsReserved_impliedForm r v))
  exact refuses_value (impliedForm_head r v (by decide)) hstring

theorem refuses_relationOperand (hg : inner.Follows Grown) :
    Refuses (operand inner) depth (impliedForm r v) := by
  have hcall : Refuses (function inner) depth (impliedForm r v) := by
    obtain hname | hstart := spelling_cases v r
    · exact refuses_function_name hname.1 rfl (by simp)
    · exact refuses_function hstart
  exact refuses_operand hg hcall (refuses_relationValue r v)

/-- Where the comparison cannot be read, `@text` stands alone. -/
theorem reads_presence (hg : inner.Follows Grown)
    (hno : Refuses (fullComparison inner) depth (writtenForm r v)) :
    Reads (negation inner) depth (writtenForm r v) (.presence .text .default)
      (' ' :: impliedForm r v) := by
  have hletter : Refuses modifier depth (impliedForm r v) :=
    Refuses.record (.bind_first
      (refuses_expect (isPrefixOf_cons_false (impliedForm_head r v (by decide)) [])))
  have hspaced : Refuses spacedModifier depth (' ' :: impliedForm r v) :=
    .bind_next reads_skipBlanks (by rwa [dropWhile_impliedForm])
  have hlone : Reads loneValue depth (writtenForm r v) (.presence .text .default)
      (' ' :: impliedForm r v) :=
    (reads_textValue _).bind
      ((hspaced.attemptOr _ discipline_grown.follows_spacedModifier).bind (.pure _))
  exact reads_negation_forms rfl rfl
    (hno.firstOf (discipline_grown.follows_fullComparison hg) hlone.firstOf)

variable (hi : inner.Alone)
include hi

/-- Behind their left sides the two forms are the same production before the same text. -/
theorem comparisons_outcome (depth : Nat) :
    (∃ p rest, Reads (fullComparison inner) depth (writtenForm r v) p rest ∧
      Reads (textComparison inner) depth (impliedForm r v) p rest) ∨
    (Refuses (fullComparison inner) depth (writtenForm r v) ∧
      Refuses (textComparison inner) depth (impliedForm r v)) ∨
    (Exceeds (fullComparison inner) depth (writtenForm r v) ∧
      Exceeds (textComparison inner) depth (impliedForm r v)) := by
  obtain ⟨m, behind, hwritten, himplied⟩ := reads_sides r v depth hi.follows
  rw [fullComparison_eq, textComparison_eq]
  obtain ⟨p, rest, hp⟩ | hno | hno := settled_comparisonBehind hi ⟨.text, r, m⟩ depth behind
  · exact .inl ⟨p, rest, hwritten.bind hp, himplied.bind hp⟩
  · exact .inr (.inl ⟨.bind_next hwritten hno, .bind_next himplied hno⟩)
  · exact .inr (.inr ⟨.bind_next hwritten hno, .bind_next himplied hno⟩)

/-- Either both texts are read alike, or no right side can be read: then there is no comparison
without the left side, and with it nothing but the left side is read. -/
theorem negations_outcome (depth : Nat) :
    SameOutcome (negation inner) depth (fun _ => Eq) (impliedForm r v) (writtenForm r v) ∨
      Refuses (negation inner) depth (impliedForm r v) ∧
        Reads (negation inner) depth (writtenForm r v) (.presence .text .default)
          (' ' :: impliedForm r v) := by
  have hno : startsWithWord "not" (impliedForm r v) = false := by cases r <;> rfl
  have hnoFull : Refuses (fullComparison inner) depth (impliedForm r v) :=
    (refuses_relationOperand r v hi.follows).bind_first
  have hnoLone : Refuses loneValue depth (impliedForm r v) :=
    (refuses_relationValue r v).bind_first
  have hgrown := discipline_grown.follows_fullComparison hi.follows
  obtain ⟨p, rest, hfull, htext⟩ | ⟨hfull, htext⟩ | ⟨hfull, htext⟩ :=
    comparisons_outcome r v hi depth
  · have hlast : Reads (firstOf [textComparison inner]) depth (impliedForm r v) (some p) rest :=
      htext.firstOf
    have hforms := hnoFull.firstOf hgrown (hnoLone.firstOf discipline_grown.follows_loneValue hlast)
    exact .inl (.reads (reads_negation_forms (impliedForm_starts r v) hno hforms)
      (reads_negation_forms rfl rfl hfull.firstOf) rfl)
  · have hnone : Reads (firstOf [textComparison inner]) depth (impliedForm r v) none _ :=
      htext.firstOf (discipline_grown.follows_textComparison hi.follows) (.pure none)
    have hforms := hnoFull.firstOf hgrown (hnoLone.firstOf discipline_grown.follows_loneValue hnone)
    exact .inr ⟨refuses_negation_forms (impliedForm_starts r v) hno hi.follows hforms,
      reads_presence r v hi.follows hfull⟩
  · have hlast : Exceeds (firstOf [textComparison inner]) depth (impliedForm r v) :=
      htext.firstOf
    have hforms := hnoFull.firstOf_exceeds hgrown
      (hnoLone.firstOf_exceeds discipline_grown.follows_loneValue hlast)
    exact .inl (.exceeds (exceeds_negation_forms (impliedForm_starts r v) hno hforms)
      (exceeds_negation_forms rfl rfl hfull.firstOf))

/-- The attribute alone is read as a location up to the relation. -/
theorem reads_presenceUnion
    (h : Reads (negation inner) depth (writtenForm r v) (.presence .text .default)
      (' ' :: impliedForm r v)) :
    ∃ rest, Reads (union inner) depth (writtenForm r v) (.children (.presence .text .default))
      rest ∧ rest.dropWhile isBlank = impliedForm r v := by
  have hdrop := dropWhile_impliedForm r v
  have hstay := dropWhile_blank (noBlank_impliedForm r v)
  have hconjunction : Reads (conjunction inner) depth (writtenForm r v)
      (.presence .text .default) ((' ' :: impliedForm r v).dropWhile isBlank) :=
    h.chain_end (discipline_grown.follows_negation hi.follows) (by decide) rfl
      (by rw [hdrop]; cases r <;> rfl)
  rw [hdrop] at hconjunction
  have hdisjunction : Reads (disjunction inner) depth (writtenForm r v)
      (.presence .text .default) ((impliedForm r v).dropWhile isBlank) :=
    hconjunction.chain_end (discipline_grown.follows_conjunction hi.follows) (by decide) rfl
      (by rw [hstay]; cases r <;> rfl)
  rw [hstay] at hdisjunction
  obtain ⟨t, hrun, ht⟩ := hdisjunction _ (at_before depth (writtenForm r v))
  have hend : EndsLocation t.cursor.rest := ht.text ▸ endsLocation_impliedForm r v
  obtain ⟨u, hunion, hpast⟩ :=
    union_of_disjunction hi.follows (opensTest_writtenForm r v) hrun hend
  refine ⟨u.cursor.rest, (alone_union hi).settled.reads_of_run hunion, ?_⟩
  rw [hpast.rest, ht.text, hstay]

end

section
variable {α β γ : Type} {kind : List Char → Prop} {depth : Nat} {p : Production α}
  {q : Production β} {view : α → γ} {view' : β → γ} {text text' : List Char}

/-- Where the first part comes to the same, so does all of it. -/
theorem Leads.same (h : Leads kind depth p q view view') (hq : Settled q) (htext : kind text)
    (htext' : kind text') (hp : SameOutcome p depth (fun _ => Eq) text text') :
    SameOutcome q depth (fun _ => Eq) text text' := by
  cases hp with
  | refuses hno hno' => exact .refuses (h.refuses hq htext hno) (h.refuses hq htext' hno')
  | exceeds hno hno' => exact .exceeds (h.exceeds htext hno) (h.exceeds htext' hno')
  | @reads a rest rest' ha ha' hrest =>
    subst hrest
    obtain ⟨b, last, hb⟩ | hno | hno := hq depth text
    · exact .reads hb (h.reads_again htext htext' ha ha' hb) rfl
    · obtain ⟨b, last, hb⟩ | hno' | hno' := hq depth text'
      · exact absurd hno (h.reads_again htext' htext ha' ha hb).not_refuses
      · exact .refuses hno hno'
      · exact absurd (h.exceeds_again htext' htext ha' ha hno') hno.not_exceeds
    · exact .exceeds hno (h.exceeds_again htext htext' ha ha' hno)

end

section
variable (limit : Nat) (r : Relation) (v : List Char)

theorem refuses_wholeCall_impliedForm : Refuses (wholeCall limit) 0 (impliedForm r v) := by
  obtain hname | hstart := spelling_cases v r
  · exact refuses_wholeCall_blank hname v
  · exact refuses_wholeCall_noStart (noBlank_impliedForm r v) hstart

theorem same_implied : SameOutcome (expression limit) 0 (fun _ => Eq) (impliedForm r v)
    (writtenForm r v) := by
  have hcall := refuses_wholeCall_impliedForm limit r v
  have hcall' : Refuses (wholeCall limit) 0 (writtenForm r v) :=
    refuses_wholeCall_noStart rfl rfl
  have hblank := noBlank_impliedForm r v
  have hblank' : (writtenForm r v).head?.any isBlank = false := rfl
  cases limit with
  | zero =>
    have hdeep (text : List Char) : Exceeds (expression 0) 0 text := fun s _ => by
      obtain ⟨t, hrun⟩ := expression_zero s
      exact ⟨.tooDeep, t, hrun, rfl⟩
    exact .exceeds (hdeep _) (hdeep _)
  | succ levels =>
    have hi := (alone_levels (levels + 1) levels).2
    have hunion := (alone_union hi).settled
    obtain hsame | ⟨hno, hpresence⟩ := negations_outcome r v hi 1
    · exact same_expression hcall hblank hcall' hblank'
        ((leads_negation hi).same hunion (opensTest_impliedForm r v) (opensTest_writtenForm r v)
          hsame)
    · obtain ⟨rest, hread, hrest⟩ := reads_presenceUnion r v hi hpresence
      have hmore : rest.dropWhile isBlank ≠ [] := by
        rw [hrest]
        cases r <;> exact List.cons_ne_nil _ _
      exact .refuses
        (refuses_expression hcall hblank
          ((leads_negation hi).refuses hunion (opensTest_impliedForm r v) hno))
        (refuses_expression_rest hcall' hblank' hread hmore)

end
end Grammar

open Grammar

/-- A relation at the start of a query has the text of the row on its left side, with whatever
follows: whether `@text` is written before it or not, the query is read as the same tree, or not at
all, or is cut off by the limit. -/
theorem implied_text (limit : Nat) (r : Relation) (v : String) :
    (∀ e, (parse limit (r.spelling ++ " " ++ v)).result = .ok e ↔
      (parse limit ("@text " ++ r.spelling ++ " " ++ v)).result = .ok e) ∧
    ((parse limit (r.spelling ++ " " ++ v)).TooDeep ↔
      (parse limit ("@text " ++ r.spelling ++ " " ++ v)).TooDeep) := by
  have himplied : (r.spelling ++ " " ++ v).toList = impliedForm r v.toList := by
    simp [impliedForm]
  have hwritten : ("@text " ++ r.spelling ++ " " ++ v).toList = writtenForm r v.toList := by
    simp [writtenForm, impliedForm, textAttribute]
  have hsame := same_implied limit r v.toList
  rw [← himplied, ← hwritten] at hsame
  exact ⟨fun e => ⟨hsame.parse, hsame.symm.parse⟩, hsame.tooDeep, hsame.symm.tooDeep⟩

end OutlineQuery
