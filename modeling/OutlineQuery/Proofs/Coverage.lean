import OutlineQuery.Proofs.Returning
import OutlineQuery.Proofs.Uncovered

/-! No text of a query is dropped: what its tokens leave uncovered is blank, a parenthesis or the
slice of a step that is in the tree. -/

namespace OutlineQuery

def Location.slices : Location → List Slice
  | .path p => p.steps.filterMap (·.slice)
  | .union l m | .except l m | .intersect l m => l.slices ++ m.slices

def Expression.slices : Expression → List Slice
  | .function f => f.argument.slices
  | .location l => l.slices

namespace Grammar
open Production Text

def SpellsSlices (slices : List Slice) (left : List Char) : Prop :=
  ∃ texts, List.Forall₂ SpellsSlice slices texts ∧ left = texts.flatten

theorem chars_of_spells {slices : List Slice} {texts : List (List Char)}
    (h : List.Forall₂ SpellsSlice slices texts) :
    ∀ text ∈ texts, ∀ c ∈ text, c ∈ ['[', ']', ':', '-'] ∨ c.isDigit = true := by
  induction h with
  | nil => exact nofun
  | cons hs _ ih =>
    intro text htext
    obtain rfl | htext := List.mem_cons.mp htext
    · exact hs.chars
    · exact ih text htext

theorem SpellsSlices.append {slices more : List Slice} {left next : List Char}
    (h : SpellsSlices slices left) (h' : SpellsSlices more next) :
    SpellsSlices (slices ++ more) (left ++ next) := by
  obtain ⟨texts, htexts, rfl⟩ := h
  obtain ⟨others, hothers, rfl⟩ := h'
  exact ⟨texts ++ others, List.rel_append htexts hothers, List.flatten_append.symm⟩

theorem SpellsSlices.steps {steps : List Step} {parts : List (List Char)}
    (h : List.Forall₂ (fun st left => SpellsSlices st.slice.toList left) steps parts) :
    SpellsSlices (steps.filterMap (·.slice)) parts.flatten := by
  induction h with
  | nil => exact ⟨[], .nil, rfl⟩
  | @cons st left steps parts hst _ ih =>
    have hboth := hst.append ih
    rw [List.flatten_cons, List.filterMap_cons]
    cases hslice : st.slice <;> rwa [hslice] at hboth

structure Inner.Leaves (inner : Inner) : Prop where
  records : inner.Follows fun s t => Grown s t ∧ (s.cursor.Coherent → Records s t)
  predicate : Covered inner.predicate
  argument : Yields Grammar.Leaves inner.argument fun l left => SpellsSlices l.slices left

theorem covered_chain {α : Type} {operand : Production α} {text : String} {kind : TokenKind}
    {combine : α → α → α} {told : α → List Char → Prop} (ht : text ≠ "")
    (hk : kind ≠ .comparison) (hp : Yields Leaves operand told)
    (hc : ∀ a b left next, told a left → told b next → told (combine a b) (left ++ next)) :
    Yields Leaves (chain operand (word text kind) combine) told := by
  have hword : Yields Leaves (word text kind) fun found (left : List Char) =>
      left = if found then [] else [] :=
    (covered_word ht hk).mono fun found left h => by rw [h, ite_self]
  exact additive_leaves.chain covered_skipBlanks hp hword hc

theorem covered_headingType : Covered headingType := by
  refine additive_leaves.quiet_bind (covered_word (by decide) (by decide)) fun found => ?_
  cases found with
  | true => exact additive_leaves.pure rfl
  | false => exact .fail _

theorem covered_nextNot : Covered nextNot := by
  have hA := additive_leaves
  refine hA.quiet_bind covered_skipBlanks fun _ =>
    hA.quiet_bind (covered_word (by decide) (by decide)) fun found => ?_
  cases found <;> exact hA.pure rfl

theorem covered_expectEnd : Covered expectEnd := by
  have hA := additive_leaves
  have hatEnd : Covered atEnd := hA.quiet_bind hA.remaining fun _ => hA.pure rfl
  refine hA.quiet_bind covered_skipBlanks fun _ => hA.quiet_bind hatEnd fun finished => ?_
  cases finished with
  | true => exact hA.pure rfl
  | false => exact .fail _

section
variable {inner : Inner} (hi : inner.Leaves)
include hi

theorem leaves_function : Yields Leaves (function inner) fun f left =>
    SpellsSlices f.argument.slices left := by
  have hA := additive_leaves
  have hname : Covered (record .functionName identifier) :=
    covered_record (follows_grown_of_silent silent_identifier)
      (discipline_records.record (by decide) silent_identifier advances_identifier)
  refine hA.quiet_bind hname fun name => hA.quiet_bind (covered_expect (by decide)) fun _ => ?_
  refine hA.bind hi.argument fun argument left hargument => ?_
  refine hA.quiet_bind (covered_expect (by decide)) fun _ => hA.pure ?_
  rw [List.append_nil]
  exact hargument

/-- A comparison has a token around it, and so have the slices in it. -/
theorem covered_comparison : Covered (comparison inner) := by
  have hA := additive_leaves
  have hgrown := discipline_records.inner_grown hi.records
  have hforms : Covered (record .comparison (starOrComparison inner)) :=
    covered_record (discipline_grown.follows_starOrComparison hgrown)
      (discipline_records.recordComparison
        (discipline_records.follows_starOrComparison hi.records) (advances_starOrComparison hgrown))
  have hspaced : Covered (spacedComparison inner) :=
    hA.quiet_bind covered_skipBlanks fun _ => hforms
  refine hA.alternative hspaced (fun p left hleft => ?_) (.fail _)
  subst hleft
  exact hA.pure rfl

theorem covered_term : Covered (term inner) := by
  have hA := additive_leaves
  refine hA.quiet_bind covered_skipBlanks fun _ =>
    hA.quiet_bind (covered_skip (by decide)) fun bracketed => ?_
  cases bracketed with
  | true =>
    exact hA.quiet_bind hi.predicate fun p => hA.quiet_bind covered_skipBlanks fun _ =>
      hA.quiet_bind (covered_expect (by decide)) fun _ => hA.pure rfl
  | false => exact covered_comparison hi

theorem covered_negation : Covered (negation inner) := by
  have hA := additive_leaves
  exact hA.quiet_bind (hA.many_quiet covered_nextNot) fun _ =>
    hA.quiet_bind covered_skipBlanks fun _ => hA.quiet_bind (covered_term hi) fun _ => hA.pure rfl

theorem covered_disjunction : Covered (disjunction inner) := by
  have hjoin : ∀ (left next : List Char), left = [] → next = [] → left ++ next = [] := by
    rintro _ _ rfl rfl
    rfl
  have hconjunction : Covered (conjunction inner) :=
    covered_chain (by decide) (by decide) (covered_negation hi) fun _ _ => hjoin
  exact covered_chain (by decide) (by decide) hconjunction fun _ _ => hjoin

theorem covered_stepTest : Covered (stepTest inner) := by
  have hA := additive_leaves
  have hforms : ∀ form ∈ [headingTest inner, bareHeading, predicateTest inner], Covered form := by
    simp only [List.mem_cons, List.not_mem_nil, or_false]
    rintro form (rfl | rfl | rfl)
    · exact hA.quiet_bind covered_headingType fun _ =>
        hA.quiet_bind (covered_disjunction hi) fun _ => hA.pure rfl
    · exact hA.quiet_bind covered_headingType fun _ => hA.pure rfl
    · exact hA.quiet_bind (covered_disjunction hi) fun _ => hA.pure rfl
  refine hA.bind (hA.firstOf hforms) fun found left hleft => ?_
  cases found with
  | some test =>
    obtain rfl : left = [] := hleft
    exact hA.pure rfl
  | none => exact .fail _

theorem leaves_step : Yields Leaves (step inner) fun st left =>
    SpellsSlices st.slice.toList left := by
  have hA := additive_leaves
  refine hA.quiet_bind (hA.attemptOr _ covered_axis) fun a =>
    hA.quiet_bind (covered_stepTest hi) fun test => hA.quiet_bind hA.remaining fun rest => ?_
  split
  · refine hA.map leaves_slice fun s text hs => ?_
    exact ⟨[text], .cons hs .nil, (List.append_nil _).symm⟩
  · exact hA.pure ⟨[], .nil, rfl⟩

theorem leaves_path : Yields Leaves (path inner) fun p left =>
    SpellsSlices (p.steps.filterMap (·.slice)) left := by
  have hA := additive_leaves
  have hnext : Yields Leaves (nextStep inner)
      (IfFound fun st left => SpellsSlices st.slice.toList left) := by
    refine hA.quiet_bind (covered_operator (by decide) (by decide)) fun found => ?_
    cases found with
    | true => exact hA.map (leaves_step hi) fun _ _ h => h
    | false => exact hA.pure rfl
  refine hA.quiet_bind (covered_operator (by decide) (by decide)) fun absolute => ?_
  refine hA.bind (leaves_step hi) fun first left hfirst => ?_
  refine hA.map (hA.many hnext) fun others next hnext => ?_
  obtain ⟨parts, rfl, hparts⟩ := hnext
  exact SpellsSlices.steps (.cons hfirst hparts)

theorem leaves_union : Yields Leaves (union inner) fun l left =>
    SpellsSlices l.slices left := by
  have hA := additive_leaves
  have hoperand : Yields Leaves (pathOperand inner) fun l left => SpellsSlices l.slices left :=
    hA.quiet_bind covered_skipBlanks fun _ => hA.map (leaves_path hi) fun _ _ h => h
  have hintersection : Yields Leaves (intersection inner) fun l left =>
      SpellsSlices l.slices left :=
    covered_chain (by decide) (by decide) hoperand fun _ _ _ _ => SpellsSlices.append
  have hexception : Yields Leaves (exception inner) fun l left => SpellsSlices l.slices left :=
    covered_chain (by decide) (by decide) hintersection fun _ _ _ _ => SpellsSlices.append
  exact covered_chain (by decide) (by decide) hexception fun _ _ _ _ => SpellsSlices.append

end

/-- By the levels of nesting that are left. -/
theorem leaves_levels (limit levels : Nat) :
    (Yields Leaves (location limit levels) fun l left => SpellsSlices l.slices left) ∧
      (innerAt limit levels).Leaves := by
  have hA := additive_leaves
  have hrecords := discipline_records.follows_innerAt limit
  induction levels with
  | zero =>
    refine ⟨?_, hrecords 0, ?_, ?_⟩
    · rw [location_zero]
      exact .fail _
    · rw [innerAt_zero]
      exact .fail _
    · rw [innerAt_zero]
      exact .fail _
  | succ levels ih =>
    have hunion := leaves_union ih.2
    refine ⟨?_, hrecords (levels + 1), ?_, ?_⟩
    · rw [location_succ]
      exact hA.nested limit (hA.quiet_bind covered_skipBlanks fun _ => hunion)
    · rw [innerAt_succ]
      exact hA.nested limit (covered_disjunction ih.2)
    · rw [innerAt_succ]
      exact hA.nested limit ih.1

theorem leaves_expression (limit : Nat) :
    Yields Leaves (expression limit) fun e left => SpellsSlices e.slices left := by
  have hA := additive_leaves
  have hcall : Yields Leaves (wholeCall limit) fun f left =>
      SpellsSlices f.argument.slices left := by
    refine hA.quiet_bind covered_skipBlanks fun _ => ?_
    refine hA.bind (leaves_function (leaves_levels limit limit).2) fun f left hf => ?_
    refine hA.quiet_bind covered_expectEnd fun _ => hA.pure ?_
    rw [List.append_nil]
    exact hf
  have hlocation : Yields Leaves (wholeLocation limit) fun l left =>
      SpellsSlices l.slices left :=
    hA.quiet_bind covered_skipBlanks fun _ => (leaves_levels limit limit).1
  refine hA.alternative hcall (fun f left hf => hA.pure ?_) ?_
  · rw [List.append_nil]
    exact hf
  · refine hA.alternative hlocation (fun l left hl => ?_) (.fail _)
    refine hA.quiet_bind covered_expectEnd fun _ => hA.pure ?_
    rw [List.append_nil]
    exact hl

theorem returns_expectEnd (text : List Char) : Returns expectEnd text fun _ rest => rest = [] := by
  have hatEnd : ∀ rest, Returns atEnd rest fun finished rest => finished = true → rest = [] :=
    fun rest => .remaining_bind (.pure List.isEmpty_iff.mp)
  refine .bind_any fun _ rest => (hatEnd rest).bind fun finished rest hrest => ?_
  cases finished with
  | true => exact .pure (hrest rfl)
  | false => exact .fail _

/-- Nothing of the text is left behind what is read. -/
theorem returns_nothingLeft (limit : Nat) (text : List Char) :
    Returns (expression limit) text fun _ rest => rest = [] := by
  have hcall : Returns (wholeCall limit) text fun _ rest => rest = [] :=
    .bind_any fun _ _ => .bind_any fun _ rest => (returns_expectEnd rest).map fun _ _ h => h
  refine .alternative (discipline_grown.follows_wholeCall limit) hcall
    (fun f rest hrest => .pure hrest) ?_
  refine .bind_any fun found rest => ?_
  cases found with
  | some l => exact (returns_expectEnd rest).map fun _ _ h => h
  | none => exact .fail _

end Grammar

open Grammar Text

/-- No text of a query is dropped. What remains of a query that can be read when all tokens, blanks
and parentheses are taken away is a text for each slice of the tree, in their order, and as it
stands each of these texts is read as that slice, whatever follows. So every character outside of
the tokens is blank, a parenthesis or part of the text of a slice. -/
theorem uncovered_only_slices (limit : Nat) (text : String) (e : Expression)
    (h : (parse limit text).result = .ok e) :
    ∃ texts : List (List Char),
      (uncovered (parse limit text).tokens 0 text.toList).filter (!isGap ·) = texts.flatten ∧
      List.Forall₂ (fun s spelled => ∀ depth rest, Reads slice depth (spelled ++ rest) s rest)
        e.slices texts ∧
      ∀ c ∈ uncovered (parse limit text).tokens 0 text.toList,
        isBlank c = true ∨ c = '(' ∨ c = ')' ∨
          ∃ spelled ∈ texts, c ∈ spelled ∧ (c ∈ ['[', ']', ':', '-'] ∨ c.isDigit = true) := by
  rw [parse] at h ⊢
  cases hrun : expression limit (.start text.toList) with
  | error reason s => rw [hrun] at h; cases h
  | ok e' s =>
    rw [hrun] at h
    cases h
    obtain ⟨left, hleaves, texts, htexts, rfl⟩ := (leaves_expression limit).yields hrun
    obtain ⟨new, hnew, -, hflat⟩ := hleaves.2 (Cursor.coherent_ofText text.toList)
    have hend : s.cursor.rest = [] :=
      returns_nothingLeft limit text.toList (.start text.toList) e s rfl hrun
    have hsince : (State.start text.toList).cursor.since s.cursor = text.toList := by
      obtain ⟨n, hn⟩ := hleaves.1.cursor
      rw [hn, Cursor.rest_advance] at hend
      rw [hn, Cursor.since_advance]
      exact List.take_of_length_le (List.drop_eq_nil_iff.mp hend)
    have htokens : s.tokens.toList = new := hnew
    have hremains : (uncovered s.tokens.toList 0 text.toList).filter (!isGap ·) =
        texts.flatten := by
      rw [hflat, hsince, htokens]
      rfl
    refine ⟨texts, hremains, htexts.imp fun _ _ hs _ _ => hs.reads, fun c hc => ?_⟩
    cases hgap : isGap c with
    | true =>
      rw [isGap, Bool.or_eq_true, Bool.or_eq_true, beq_iff_eq, beq_iff_eq, or_assoc] at hgap
      exact hgap.imp_right (Or.imp_right .inl)
    | false =>
      have hmem : c ∈ texts.flatten := by
        rw [← hremains]
        exact List.mem_filter.mpr ⟨hc, by rw [hgap]; rfl⟩
      obtain ⟨spelled, hspelled, hcs⟩ := List.mem_flatten.mp hmem
      exact .inr (.inr (.inr ⟨spelled, hspelled, hcs,
        chars_of_spells htexts spelled hspelled c hcs⟩))

/-- The slice in the argument of `f` has the token of the comparison around it. -/
theorem slices_around_call : ∃ e, (parse 32 "(@x=f(a[0]))[-1:]/b [2]").result = .ok e ∧
    e.slices = [.between (some (-1)) none, .index 2] ∧
    (uncovered (parse 32 "(@x=f(a[0]))[-1:]/b [2]").tokens 0
      "(@x=f(a[0]))[-1:]/b [2]".toList).filter (!isGap ·) = "[-1:][2]".toList ∧
    ∃ texts : List (List Char), "[-1:][2]".toList = texts.flatten ∧
      List.Forall₂ (fun s spelled => ∀ depth rest, Reads slice depth (spelled ++ rest) s rest)
        e.slices texts := by
  have hread : (parse 32 "(@x=f(a[0]))[-1:]/b [2]").result.toOption.map Expression.slices =
      some [.between (some (-1)) none, .index 2] := by decide +kernel
  have hleft : (uncovered (parse 32 "(@x=f(a[0]))[-1:]/b [2]").tokens 0
      "(@x=f(a[0]))[-1:]/b [2]".toList).filter (!isGap ·) = "[-1:][2]".toList := by decide +kernel
  cases hresult : (parse 32 "(@x=f(a[0]))[-1:]/b [2]").result with
  | error reason => rw [hresult] at hread; cases hread
  | ok e =>
    rw [hresult] at hread
    obtain ⟨texts, htexts, hslices, -⟩ :=
      uncovered_only_slices 32 "(@x=f(a[0]))[-1:]/b [2]" e hresult
    exact ⟨e, rfl, Option.some.inj hread, hleft, texts, hleft.symm.trans htexts, hslices⟩

end OutlineQuery
