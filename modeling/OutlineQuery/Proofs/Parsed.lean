import OutlineQuery.Parse
import OutlineQuery.Proofs.CallDepth
import OutlineQuery.Proofs.Returning

/-! Whatever is read is well-formed, and its calls are not nested deeper than the levels of nesting
allow: every production returns what fits into the levels left, if those between parentheses do. -/

namespace OutlineQuery.Grammar
open Production Text

structure Inner.Returns (inner : Inner) (levels : Nat) : Prop where
  follows : inner.Follows Grown
  predicate (text : List Char) : Grammar.Returns inner.predicate text fun p _ => p.Fits levels
  argument (text : List Char) : Grammar.Returns inner.argument text
    fun l _ => l.WellFormed ∧ 2 * l.callDepth + 2 ≤ levels

structure Unnegated (text : List Char) : Prop where
  blank : text.head?.any isBlank = false
  word : startsWithWord "not" text = false

section
variable {inner : Inner} {levels : Nat} (text : List Char)

theorem returns_attributeValue (levels : Nat) :
    Returns attributeValue text fun v _ => v.Fits levels ∧ ∃ name, v = .attribute name := by
  have hname : Returns attributeName text fun name _ => IsIdentifier name :=
    Returns.bind_any fun _ rest => (returns_identifier rest).mono fun _ _ h => h.1
  refine hname.record.map fun name _ h => ?_
  have hformed : (Value.attribute (String.ofList name)).WellFormed := by
    rw [Value.WellFormed, String.toList_ofList]
    exact h
  exact ⟨⟨hformed, Nat.zero_le _⟩, _, rfl⟩

theorem returns_literal (levels : Nat) :
    Returns literal text fun v _ => v.Fits levels ∧ ∃ content, v = .literal content := by
  refine Returns.bind_any fun first rest => Returns.bind_any fun others rest => .pure ?_
  have hformed : (Value.literal (String.ofList (trim (first ++ others.flatten)))).WellFormed := by
    rw [Value.WellFormed, String.toList_ofList]
    exact trim_trim _
  exact ⟨⟨hformed, Nat.zero_le _⟩, _, rfl⟩

theorem returns_value (levels : Nat) :
    Returns value text fun v _ => v.Fits levels ∧ ∀ f, v ≠ .call f := by
  refine Returns.alternative discipline_grown.follows_attributeValue
    (returns_attributeValue text levels) (fun v rest h => .pure ?_) ?_
  · obtain ⟨hv, name, rfl⟩ := h
    exact ⟨hv, nofun⟩
  · refine (returns_literal text levels).mono fun v rest h => ?_
    obtain ⟨hv, content, rfl⟩ := h
    exact ⟨hv, nofun⟩

/-- A call that is named like the negation starts with that word. -/
theorem returns_function (hi : inner.Returns levels) (hblank : text.head?.any isBlank = false) :
    Returns (function inner) text fun f _ =>
      f.Fits levels ∧ (f.name = "not" → startsWithWord "not" text = true) := by
  refine (returns_identifier text).record.bind fun name rest hname => ?_
  obtain ⟨hidentifier, rfl, hend⟩ := hname
  have hstart : name.head?.any isBlank = false := by
    cases name with
    | nil => rfl
    | cons c name => exact hblank
  -- the name ends where no identifier goes on, so `not` would be a word here
  have hword : String.ofList name = "not" → startsWithWord "not" (name ++ rest) = true := by
    intro hnot
    have hname : name = "not".toList :=
      String.toList_ofList.symm.trans (congrArg String.toList hnot)
    rw [hname]
    exact startsWithWord_append hend
  refine Returns.bind_any fun _ rest' => (hi.argument rest').bind fun argument _ hl => ?_
  have hformed : (Function.mk (String.ofList name) argument).WellFormed := by
    rw [Function.WellFormed, String.toList_ofList]
    exact ⟨hidentifier, hstart, hl.1⟩
  exact Returns.bind_any fun _ _ => .pure ⟨⟨hformed, hl.2⟩, hword⟩

theorem returns_operand (hi : inner.Returns levels) (hblank : text.head?.any isBlank = false) :
    Returns (operand inner) text fun v _ =>
      v.Fits levels ∧ (v.LooksNegated → startsWithWord "not" text = true) := by
  refine Returns.alternative (discipline_grown.follows_function hi.follows)
    (returns_function text hi hblank) (fun f rest h => .pure h) ?_
  refine (returns_value text levels).mono fun v rest h => ⟨h.1, fun hnot => ?_⟩
  match v with
  | .call f => exact absurd rfl (h.2 f)
  | .literal content => cases hnot
  | .attribute name => cases hnot

/-- An operand behind blanks that were passed. -/
theorem returns_spacedOperand (hi : inner.Returns levels) {β : Type} {f : Value → Production β}
    {good : β → List Char → Prop} (hf : ∀ v rest, v.Fits levels → Returns (f v) rest good) :
    Returns (skipBlanks >>= fun _ => operand inner >>= f) text good := by
  refine (returns_noBlank text).bind fun _ rest hblank => ?_
  exact (returns_operand rest hi hblank).bind fun v rest hv => hf v rest hv.1

theorem returns_fullComparison (hi : inner.Returns levels) (htext : Unnegated text) :
    Returns (fullComparison inner) text fun p _ => p.Fits levels := by
  refine (returns_operand text hi htext.blank).bind fun left rest hleft => ?_
  have hno : ¬left.LooksNegated := by
    intro hnot
    have hword := hleft.2 hnot
    rw [htext.word] at hword
    cases hword
  refine Returns.bind_any fun r rest => Returns.bind_any fun m rest => ?_
  refine returns_spacedOperand rest hi fun right _ hright => .pure ?_
  exact Predicate.fits_comparison hleft.1 hno hright r m

theorem returns_loneValue (levels : Nat) : Returns loneValue text fun p _ => p.Fits levels := by
  refine (returns_value text levels).bind fun v rest hv => Returns.bind_any fun m rest => ?_
  match v with
  | .attribute name => exact .pure (Predicate.fits_presence hv.1 m)
  | .literal content => exact .pure (Predicate.fits_textLeft hv.1 .contains m)
  | .call f => exact absurd rfl (hv.2 f)

theorem returns_textComparison (hi : inner.Returns levels) :
    Returns (textComparison inner) text fun p _ => p.Fits levels := by
  refine Returns.bind_any fun r rest => Returns.bind_any fun _ rest => ?_
  refine Returns.bind_any fun m rest => ?_
  refine returns_spacedOperand rest hi fun right _ hright => .pure ?_
  exact Predicate.fits_textLeft hright r m

theorem returns_starOrComparison (hi : inner.Returns levels) (htext : Unnegated text) :
    Returns (starOrComparison inner) text fun p _ => p.Fits levels := by
  refine (returns_skip text).bind fun star rest hrest => ?_
  cases star with
  | true => exact .pure Predicate.fits_any
  | false =>
    rw [hrest rfl]
    have hforms : ∀ form ∈ [fullComparison inner, loneValue, textComparison inner],
        Returns form text fun p _ => p.Fits levels := by
      simp only [List.mem_cons, List.not_mem_nil, or_false]
      rintro form (rfl | rfl | rfl)
      · exact returns_fullComparison text hi htext
      · exact returns_loneValue text levels
      · exact returns_textComparison text hi
    refine (Returns.firstOf (follows_comparisonForms hi.follows) hforms).bind
      fun found rest hp => ?_
    cases found with
    | some p => exact .pure (hp p rfl)
    | none => exact .fail _

theorem returns_comparison (hi : inner.Returns levels) (htext : Unnegated text) :
    Returns (comparison inner) text fun p _ => p.Fits levels := by
  have hspaced : Returns (spacedComparison inner) text fun p _ => p.Fits levels :=
    .skipBlanks_bind htext.blank (returns_starOrComparison text hi htext).record
  exact Returns.alternative (discipline_grown.follows_spacedComparison hi.follows) hspaced
    (fun p _ hp => .pure hp) (.fail _)

theorem returns_term (hi : inner.Returns levels) (htext : Unnegated text) :
    Returns (term inner) text fun p _ => p.Fits levels := by
  refine .skipBlanks_bind htext.blank ((returns_skip text).bind fun bracketed rest hrest => ?_)
  cases bracketed with
  | true =>
    refine (hi.predicate rest).bind fun p _ hp => ?_
    exact Returns.bind_any fun _ _ => Returns.bind_any fun _ _ => .pure hp
  | false =>
    rw [hrest rfl]
    exact returns_comparison text hi htext

theorem returns_nextNot :
    Returns nextNot text fun found rest => found = none → Unnegated rest := by
  refine (returns_noBlank text).bind fun _ rest hblank => ?_
  refine (returns_word rest).bind fun found rest' hword => ?_
  cases found with
  | true => exact .pure nofun
  | false =>
    obtain ⟨rfl, hno⟩ := hword rfl
    exact .pure fun _ => ⟨hblank, hno⟩

theorem returns_negation (hi : inner.Returns levels) :
    Returns (negation inner) text fun p _ => p.Fits levels := by
  -- all words `not` are passed before the term, so none is left for a call to be named like
  refine (Returns.many_rest consumes_nextNot returns_nextNot text).bind fun nots rest hrest => ?_
  refine .skipBlanks_bind hrest.blank ((returns_term rest hi hrest).map fun p _ hp => ?_)
  split
  · exact hp.not
  · exact hp

theorem returns_conjunction (hi : inner.Returns levels) :
    Returns (conjunction inner) text fun p _ => p.Fits levels :=
  Returns.chain (fun text => returns_negation text hi) (fun _ hp => hp) (fun _ _ hp hq => hp.and hq)
    text

theorem returns_disjunction (hi : inner.Returns levels) :
    Returns (disjunction inner) text fun p _ => p.Fits levels :=
  Returns.chain (fun text => returns_conjunction text hi) (fun _ hp => hp)
    (fun _ _ hp hq => hp.or hq) text

theorem startsRelative_of_axisAt? {a : Axis} (h : axisAt? text = some a)
    (hslash : text.head? ≠ some '/') : a.StartsRelative := by
  have hno := isPrefixOf_cons_false hslash
  rw [axisAt?] at h
  have hstarts := List.find?_some h
  constructor
  · rintro rfl
    exact Bool.false_ne_true ((hno []).symm.trans hstarts)
  · rintro rfl
    exact Bool.false_ne_true ((hno ['/']).symm.trans hstarts)

/-- A step starts with a slash only where one comes next. -/
theorem returns_axis : Returns (attemptOr Axis.child axis) text
    fun a _ => text.head? ≠ some '/' → a.StartsRelative := by
  have haxis : Returns axis text fun a _ => text.head? ≠ some '/' → a.StartsRelative := by
    intro s a t hs hok hslash
    rw [axis_run, hs] at hok
    cases h : axisAt? text with
    | none => rw [h] at hok; cases hok
    | some b =>
      rw [h] at hok
      cases hok
      exact startsRelative_of_axisAt? text h hslash
  exact Returns.alternative discipline_grown.follows_axis haxis (fun a _ ha => .pure ha)
    (.pure fun _ => ⟨nofun, nofun⟩)

theorem returns_slice : Returns slice text fun s _ => s.WellFormed := by
  have hindex : Returns indexSlice text fun s _ => s.WellFormed :=
    Returns.bind_any fun _ _ => Returns.bind_any fun n _ => Returns.bind_any fun _ _ =>
      .pure (.inl ⟨n, rfl⟩)
  refine Returns.alternative (discipline_grown.silent silent_indexSlice) hindex
    (fun s _ hs => .pure hs) ?_
  exact Returns.bind_any fun _ _ => Returns.bind_any fun start _ => Returns.bind_any fun _ _ =>
    Returns.bind_any fun stop _ => Returns.bind_any fun _ _ => .pure (.inr ⟨start, stop, rfl⟩)

theorem returns_stepTest (hi : inner.Returns levels) :
    Returns (stepTest inner) text fun test _ => test.2.Fits levels := by
  have hforms : ∀ form ∈ [headingTest inner, bareHeading, predicateTest inner],
      Returns form text fun test _ => test.2.Fits levels := by
    simp only [List.mem_cons, List.not_mem_nil, or_false]
    rintro form (rfl | rfl | rfl)
    · exact Returns.bind_any fun _ rest => (returns_disjunction rest hi).map fun _ _ hp => hp
    · exact Returns.bind_any fun _ _ => .pure Predicate.fits_any
    · exact (returns_disjunction text hi).map fun _ _ hp => hp
  have hgrows := discipline_grown.follows_stepForms hi.follows
  refine (Returns.firstOf hgrows hforms).bind fun found rest htest => ?_
  cases found with
  | some test => exact .pure (htest test rfl)
  | none => exact .fail _

theorem returns_step (hi : inner.Returns levels) : Returns (step inner) text fun st _ =>
    st.Fits levels ∧ (text.head? ≠ some '/' → st.axis.StartsRelative) := by
  refine (returns_axis text).bind fun a rest ha => ?_
  refine (returns_stepTest rest hi).bind fun test rest htest => Returns.remaining_bind ?_
  split
  · refine (returns_slice rest).map fun s _ hs => ⟨Step.fits_mk htest ?_ a test.1, ha⟩
    intro s' hs'
    cases hs'
    exact hs
  · have hnone : ∀ s ∈ (none : Option Slice), s.WellFormed := nofun
    exact .pure ⟨Step.fits_mk htest hnone a test.1, ha⟩

theorem returns_path (hi : inner.Returns levels) :
    Returns (path inner) text fun p _ => p.Fits levels := by
  have hnext : ∀ text, Returns (nextStep inner) text
      fun found _ => ∀ st ∈ found, st.Fits levels := by
    intro text
    refine Returns.bind_any fun found rest => ?_
    cases found with
    | true =>
      refine (returns_step rest hi).map fun st _ hst st' hst' => ?_
      cases hst'
      exact hst.1
    | false => exact .pure nofun
  refine (returns_operator text).bind fun absolute rest habsolute => ?_
  refine (returns_step rest hi).bind fun first rest' hfirst => ?_
  refine (Returns.many hnext rest').map fun others _ hothers => ?_
  refine Path.fits_mk hfirst.1 (fun h => hfirst.2 ?_) hothers
  obtain ⟨rfl, hslash⟩ := habsolute h
  intro hhead
  cases rest with
  | nil => cases hhead
  | cons c rest =>
    cases hhead
    cases hslash

theorem returns_intersection (hi : inner.Returns levels) :
    Returns (intersection inner) text fun l _ => l.Fits levels ∧ l.rank ≤ 1 := by
  have hoperand : ∀ text, Returns (pathOperand inner) text
      fun l _ => l.Fits levels ∧ l.rank = 0 := fun text =>
    Returns.bind_any fun _ rest => (returns_path rest hi).map fun p _ hp => ⟨hp, rfl⟩
  refine Returns.chain hoperand (fun l hl => ⟨hl.1, ?_⟩) (fun l m hl hm => ⟨?_, ?_⟩) text
  · rw [hl.2]
    exact Nat.zero_le 1
  · exact hl.1.intersect hm.1 hl.2 hm.2
  · exact Nat.le_refl 1

theorem returns_exception (hi : inner.Returns levels) :
    Returns (exception inner) text fun l _ => l.Fits levels ∧ l.rank ≤ 2 := by
  refine Returns.chain (fun text => returns_intersection text hi) (fun l hl => ⟨hl.1, ?_⟩)
    (fun l m hl hm => ⟨?_, ?_⟩) text
  · exact Nat.le_succ_of_le hl.2
  · exact hl.1.except hm.1 hl.2 hm.2
  · exact Nat.le_refl 2

theorem returns_union (hi : inner.Returns levels) :
    Returns (union inner) text fun l _ => l.Fits levels :=
  Returns.chain (fun text => returns_exception text hi) (fun _ hl => hl.1)
    (fun _ _ hl hm => hl.1.union hm hl.2) text

end

/-- By the levels of nesting that are left. -/
theorem returns_levels (limit levels : Nat) :
    (∀ text, Returns (location limit levels) text
      fun l _ => l.WellFormed ∧ 2 * l.callDepth + 1 ≤ levels) ∧
      (innerAt limit levels).Returns levels := by
  induction levels with
  | zero =>
    rw [location_zero, innerAt_zero]
    exact ⟨fun _ => .fail _, ⟨discipline_grown.fail _, discipline_grown.fail _⟩, fun _ => .fail _,
      fun _ => .fail _⟩
  | succ levels ih =>
    obtain ⟨hlocation, hinner⟩ := ih
    refine ⟨fun text => ?_, discipline_grown.follows_innerAt limit (levels + 1), fun text => ?_,
      fun text => ?_⟩
    · rw [location_succ]
      refine .nested limit (Returns.bind_any fun _ rest => (returns_union rest hinner).mono ?_)
      exact fun l _ hl => ⟨hl.1, Nat.succ_le_succ hl.2⟩
    · rw [innerAt_succ]
      refine .nested limit ((returns_disjunction text hinner).mono ?_)
      exact fun p _ hp => hp.mono (Nat.le_succ levels)
    · rw [innerAt_succ]
      refine .nested limit ((hlocation text).mono ?_)
      exact fun l _ hl => ⟨hl.1, Nat.succ_le_succ hl.2⟩

theorem returns_wholeCall (limit : Nat) (text : List Char) :
    Returns (wholeCall limit) text fun f _ => f.Fits limit := by
  refine (returns_noBlank text).bind fun _ rest hblank => ?_
  refine (returns_function rest (returns_levels limit limit).2 hblank).bind fun f _ hf => ?_
  exact Returns.bind_any fun _ _ => .pure hf.1

theorem returns_expression (limit : Nat) (text : List Char) :
    Returns (expression limit) text fun e _ => e.WellFormed ∧ e.callLevels ≤ limit := by
  have hwhole : Returns (wholeLocation limit) text
      fun l _ => l.WellFormed ∧ 2 * l.callDepth + 1 ≤ limit :=
    Returns.bind_any fun _ rest => (returns_levels limit limit).1 rest
  refine Returns.alternative (discipline_grown.follows_wholeCall limit)
    (returns_wholeCall limit text) (fun f _ hf => .pure hf) ?_
  exact Returns.alternative (discipline_grown.follows_wholeLocation limit) hwhole
    (fun l _ hl => Returns.bind_any fun _ _ => .pure hl) (.fail _)

end OutlineQuery.Grammar

namespace OutlineQuery
open Grammar

theorem parse_returns {limit : Nat} {text : String} {e : Expression}
    (h : (parse limit text).result = .ok e) : e.WellFormed ∧ e.callLevels ≤ limit := by
  rw [parse] at h
  cases hrun : expression limit (.start text.toList) with
  | ok e' s =>
    rw [hrun] at h
    cases h
    exact returns_expression limit text.toList _ e s rfl hrun
  | error reason s => rw [hrun] at h; cases h

/-- Whatever is read, down to the arguments of its functions, is what a query can say. -/
theorem parse_wellFormed (limit : Nat) (text : String) (e : Expression)
    (h : (parse limit text).result = .ok e) : e.WellFormed :=
  (parse_returns h).1

/-- The argument of the function is a union and stands in the right operand of an exception. -/
theorem exceptOfCall_wellFormed : ∃ e, (parse 32 "//a[0] except f(b union c)=d").result = .ok e ∧
    e.WellFormed := by
  have hread : (parse 32 "//a[0] except f(b union c)=d").result.isOk = true := by decide +kernel
  cases hresult : (parse 32 "//a[0] except f(b union c)=d").result with
  | error reason => rw [hresult] at hread; cases hread
  | ok e => exact ⟨e, rfl, parse_wellFormed 32 "//a[0] except f(b union c)=d" e hresult⟩

end OutlineQuery
