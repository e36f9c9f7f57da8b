import OutlineQuery.Proofs.Telling

/-! The tokens of a query that can be read tell the same as the expression: functions, sets and
booleans in full, attributes but for the text of the row where a comparison leaves it out. -/

namespace OutlineQuery.Grammar
open Production Text

def TellsValue (v : Value) (new : List Mention) : Prop :=
  ∀ leftSide, Told (v.occurrences leftSide) new

structure Inner.Tells (inner : Inner) : Prop where
  predicate : Grammar.Tells inner.predicate fun p new => Told p.occurrences new
  argument : Grammar.Tells inner.argument fun l new => Told l.occurrences new

section
variable {inner : Inner}

theorem quiet_skipBlanks : Quiet skipBlanks := .of_silent silent_skipBlanks

theorem quiet_string : Quiet string := by
  refine Tells.quiet_bind (.of_silent silent_remaining) fun rest => ?_
  split
  · exact tells_record (.of_silent silent_quoted) fun _ _ _ => rfl
  · exact tells_record (.of_silent silent_unquoted) fun _ _ _ => rfl

theorem quiet_piece : Quiet piece :=
  Tells.quiet_bind (.of_silent silent_blanks) fun _ => quiet_string.map fun _ _ h => h

theorem quiet_relation : Quiet relation := by
  refine ⟨discipline_grown.follows_relation, fun {s r t} hok => ?_⟩
  rw [relation_run] at hok
  cases hr : relationAt? s.cursor.rest with
  | none => rw [hr] at hok; cases hok
  | some r =>
    rw [hr] at hok
    cases hok
    exact ⟨[], mentions_emit .relation s.cursor, rfl⟩

theorem quiet_modifier : Quiet modifier :=
  tells_record (.of_silent silent_bracketedLetter) fun _ _ _ => rfl

theorem quiet_relationBehind : Quiet relationBehind :=
  .attemptOr _ (quiet_skipBlanks.quiet_bind fun _ => quiet_relation)

theorem quiet_modifierBehind : Quiet modifierBehind :=
  .attemptOr _ (quiet_skipBlanks.quiet_bind fun _ => quiet_modifier)

theorem attributeName_ok {s t : State} {name : List Char} (h : attributeName s = .ok name t) :
    s.cursor.rest.take (name.length + 1) = '@' :: name ∧ t = s.pass (name.length + 1) := by
  obtain ⟨_, u, h₁, h₂⟩ := bind_ok h
  obtain ⟨hat, rfl⟩ := expect_ok h₁
  obtain ⟨hname, rfl⟩ := identifier_ok h₂
  rw [rest_pass] at hname
  refine ⟨?_, ?_⟩
  · have hsplit : s.cursor.rest.take (1 + name.length) =
        s.cursor.rest.take 1 ++ (s.cursor.rest.drop 1).take name.length := List.take_add
    rw [Nat.add_comm, hsplit]
    exact congrArg₂ (· ++ ·) hat hname
  · rw [pass_pass, Nat.add_comm]
    rfl

theorem tells_attributeValue : Tells attributeValue TellsValue := by
  refine (tells_recordText .attribute ('@' :: ·) silent_attributeName
    fun _ _ _ h => attributeName_ok h).map fun name new hnew leftSide => ?_
  have hmention : new = [.attribute (String.ofList name)] := by
    rw [hnew]
    simp [Token.mention?]
  rw [hmention]
  exact Told.nil.kept ⟨.attribute (String.ofList name), leftSide⟩

theorem tells_literal : Tells literal TellsValue := by
  have hpieces : Quiet nextPiece :=
    quiet_piece.attempt.mono fun found new h => by cases found <;> exact h
  refine quiet_string.quiet_bind fun first => ?_
  refine (Tells.many_quiet hpieces).map fun others new hnew leftSide => ?_
  rw [hnew]
  exact .nil

theorem tells_value : Tells value TellsValue := by
  refine tells_attributeValue.alternative (fun v new hv => .pure ?_) tells_literal
  rw [List.append_nil]
  exact hv

theorem tells_function (hi : inner.Tells) :
    Tells (function inner) fun f new => Told f.occurrences new := by
  refine (tells_recordText .functionName id silent_identifier
    fun _ _ _ h => identifier_ok h).bind fun name new hnew => ?_
  refine Tells.quiet_bind (.of_silent (silent_expect _)) fun _ => ?_
  refine hi.argument.bind fun argument more hmore => ?_
  refine Tells.quiet_bind (.of_silent (silent_expect _)) fun _ => .pure ?_
  rw [List.append_nil, hnew]
  exact hmore.kept ⟨.function (String.ofList name), false⟩

theorem tells_operand (hi : inner.Tells) : Tells (operand inner) TellsValue := by
  refine (tells_function hi).alternative (fun f new hf => .pure fun _ => ?_) tells_value
  rw [List.append_nil]
  exact hf

theorem tells_fullComparison (hi : inner.Tells) :
    Tells (fullComparison inner) fun p new => Told p.occurrences new := by
  refine (tells_operand hi).bind fun left new hleft => ?_
  refine quiet_relationBehind.quiet_bind fun r => ?_
  refine quiet_modifierBehind.quiet_bind fun m => ?_
  refine quiet_skipBlanks.quiet_bind fun _ => ?_
  refine (tells_operand hi).map fun right more hright => ?_
  exact (hleft true).append (hright false)

/-- The text of the row is the left side that a comparison does not write. -/
theorem told_textComparison {r : Relation} {m : Modifier} {v : Value} {new : List Mention}
    (hv : TellsValue v new) :
    Told (Predicate.comparison .text (some r) m (some v)).occurrences new :=
  (hv false).leftOut

theorem tells_loneValue : Tells loneValue fun p new => Told p.occurrences new := by
  refine tells_value.bind fun v new hv => ?_
  refine quiet_modifierBehind.quiet_bind fun m => ?_
  match v with
  | .attribute name =>
    refine .pure ?_
    rw [List.append_nil]
    exact hv true
  | .literal text =>
    refine .pure ?_
    rw [List.append_nil]
    exact told_textComparison hv
  | .call f =>
    refine .pure ?_
    rw [List.append_nil]
    exact told_textComparison hv

theorem tells_textComparison (hi : inner.Tells) :
    Tells (textComparison inner) fun p new => Told p.occurrences new := by
  refine (Tells.attemptOr _ quiet_relation).quiet_bind fun r => ?_
  refine quiet_skipBlanks.quiet_bind fun _ => ?_
  refine (Tells.attemptOr _ quiet_modifier).quiet_bind fun m => ?_
  refine quiet_skipBlanks.quiet_bind fun _ => ?_
  exact (tells_operand hi).map fun right new hright => told_textComparison hright

theorem tells_starOrComparison (hi : inner.Tells) :
    Tells (starOrComparison inner) fun p new => Told p.occurrences new := by
  refine Tells.quiet_bind (.of_silent (silent_skip "*")) fun star => ?_
  cases star with
  | true => exact .pure .nil
  | false =>
    have hforms : ∀ form ∈ [fullComparison inner, loneValue, textComparison inner],
        Tells form fun p new => Told p.occurrences new := by
      simp only [List.mem_cons, List.not_mem_nil, or_false]
      rintro form (rfl | rfl | rfl)
      · exact tells_fullComparison hi
      · exact tells_loneValue
      · exact tells_textComparison hi
    refine (Tells.firstOf hforms).bind fun found new hnew => ?_
    cases found with
    | some p =>
      refine .pure ?_
      rw [List.append_nil]
      exact hnew
    | none => exact .fail _

theorem tells_comparison (hi : inner.Tells) :
    Tells (comparison inner) fun p new => Told p.occurrences new := by
  have hspaced : Tells (spacedComparison inner) fun p new => Told p.occurrences new :=
    quiet_skipBlanks.quiet_bind fun _ =>
      tells_record (tells_starOrComparison hi) fun _ _ _ => rfl
  refine hspaced.alternative (fun p new hp => .pure ?_) (.fail _)
  rw [List.append_nil]
  exact hp

theorem tells_term (hi : inner.Tells) :
    Tells (term inner) fun p new => Told p.occurrences new := by
  refine quiet_skipBlanks.quiet_bind fun _ => ?_
  refine Tells.quiet_bind (.of_silent (silent_skip "(")) fun bracketed => ?_
  cases bracketed with
  | true =>
    refine hi.predicate.bind fun p new hp => ?_
    refine quiet_skipBlanks.quiet_bind fun _ => ?_
    refine Tells.quiet_bind (.of_silent (silent_expect _)) fun _ => .pure ?_
    rw [List.append_nil]
    exact hp
  | false => exact tells_comparison hi

theorem quiet_nextNot : Quiet nextNot := by
  refine quiet_skipBlanks.quiet_bind fun _ => ?_
  refine (tells_word (by decide) (by decide)).bind fun found new hnew => ?_
  cases found with
  | true =>
    refine .pure ?_
    rw [hnew]
    rfl
  | false =>
    refine .pure ?_
    rw [hnew]
    rfl

theorem tells_negation (hi : inner.Tells) :
    Tells (negation inner) fun p new => Told p.occurrences new := by
  refine (Tells.many_quiet quiet_nextNot).quiet_bind fun nots => ?_
  refine quiet_skipBlanks.quiet_bind fun _ => ?_
  refine (tells_term hi).map fun p new hp => ?_
  split
  · exact hp
  · exact hp

theorem tells_conjunction (hi : inner.Tells) :
    Tells (conjunction inner) fun p new => Told p.occurrences new := by
  refine (tells_negation hi).chain (tells_word (by decide) (by decide)) ?_
  intro p q new more hp hq
  exact hp.append (hq.kept ⟨.boolean "and", false⟩)

theorem tells_disjunction (hi : inner.Tells) :
    Tells (disjunction inner) fun p new => Told p.occurrences new := by
  refine (tells_conjunction hi).chain (tells_word (by decide) (by decide)) ?_
  intro p q new more hp hq
  exact hp.append (hq.kept ⟨.boolean "or", false⟩)

theorem quiet_axis : Quiet axis := by
  refine ⟨discipline_grown.follows_axis, fun {s a t} hok => ?_⟩
  rw [axis_run] at hok
  cases ha : axisAt? s.cursor.rest with
  | none => rw [ha] at hok; cases hok
  | some a =>
    rw [ha] at hok
    cases hok
    exact ⟨[], mentions_emit .axis s.cursor, rfl⟩

theorem quiet_operator (text : String) (ht : text ≠ "") : Quiet (operator text .axis) := by
  refine ⟨discipline_grown.follows_operator ht (by decide), fun {s found t} hok => ?_⟩
  rw [operator_run] at hok
  split at hok
  · cases hok
    exact ⟨[], mentions_emit .axis s.cursor, rfl⟩
  · cases hok
    exact ⟨[], (List.append_nil _).symm, rfl⟩

theorem quiet_headingType : Quiet headingType := by
  refine (tells_word (by decide) (by decide)).bind fun found new hnew => ?_
  cases found with
  | true =>
    refine .pure ?_
    rw [hnew]
    rfl
  | false => exact .fail _

theorem quiet_slice : Quiet slice := by
  have hindex : Quiet indexSlice := .of_silent silent_indexSlice
  refine hindex.alternative (fun _ _ h => .pure ?_) ?_
  · rw [List.append_nil]
    exact h
  have hbound : Quiet (attempt integer) :=
    (Tells.of_silent silent_integer).attempt.mono fun found _ h => by cases found <;> exact h
  refine Tells.quiet_bind (.of_silent (silent_expect _)) fun _ => hbound.quiet_bind fun _ => ?_
  refine Tells.quiet_bind (.of_silent (silent_expect _)) fun _ => hbound.quiet_bind fun _ => ?_
  exact Tells.quiet_bind (.of_silent (silent_expect _)) fun _ => .pure rfl

theorem tells_stepTest (hi : inner.Tells) :
    Tells (stepTest inner) fun test new => Told test.2.occurrences new := by
  have hforms : ∀ form ∈ [headingTest inner, bareHeading, predicateTest inner],
      Tells form fun test new => Told test.2.occurrences new := by
    simp only [List.mem_cons, List.not_mem_nil, or_false]
    rintro form (rfl | rfl | rfl)
    · exact quiet_headingType.quiet_bind fun _ => (tells_disjunction hi).map fun _ _ h => h
    · exact quiet_headingType.quiet_bind fun _ => .pure .nil
    · exact (tells_disjunction hi).map fun _ _ h => h
  refine (Tells.firstOf hforms).bind fun found new hnew => ?_
  cases found with
  | some test =>
    refine .pure ?_
    rw [List.append_nil]
    exact hnew
  | none => exact .fail _

theorem tells_step (hi : inner.Tells) :
    Tells (step inner) fun st new => Told st.occurrences new := by
  refine (Tells.attemptOr _ quiet_axis).quiet_bind fun a => ?_
  refine (tells_stepTest hi).bind fun test new htest => ?_
  refine Tells.quiet_bind (.of_silent silent_remaining) fun rest => ?_
  split
  · refine quiet_slice.quiet_bind fun s => .pure ?_
    rw [List.append_nil]
    exact htest
  · refine .pure ?_
    rw [List.append_nil]
    exact htest

theorem tells_path (hi : inner.Tells) :
    Tells (path inner) fun p new => Told p.occurrences new := by
  have hnext : Tells (nextStep inner) (ToldIfFound fun st new => Told st.occurrences new) := by
    refine (quiet_operator "/" (by decide)).quiet_bind fun found => ?_
    cases found with
    | true => exact (tells_step hi).map fun _ _ h => h
    | false => exact .pure rfl
  refine (quiet_operator "/" (by decide)).quiet_bind fun absolute => ?_
  refine (tells_step hi).bind fun first new hfirst => ?_
  refine (Tells.many hnext).map fun others more hmore => ?_
  obtain ⟨parts, rfl, hparts⟩ := hmore
  have hothers : Told (stepsOccurrences others) parts.flatten := by
    induction hparts with
    | nil => exact .nil
    | cons hstep _ ih => exact hstep.append ih
  exact hfirst.append hothers

theorem tells_intersection (hi : inner.Tells) :
    Tells (intersection inner) fun l new => Told l.occurrences new := by
  have hoperand : Tells (pathOperand inner) fun l new => Told l.occurrences new :=
    quiet_skipBlanks.quiet_bind fun _ => (tells_path hi).map fun _ _ h => h
  refine hoperand.chain (tells_word (by decide) (by decide)) ?_
  intro l m new more hl hm
  exact hl.append (hm.kept ⟨.set "intersect", false⟩)

theorem tells_exception (hi : inner.Tells) :
    Tells (exception inner) fun l new => Told l.occurrences new := by
  refine (tells_intersection hi).chain (tells_word (by decide) (by decide)) ?_
  intro l m new more hl hm
  exact hl.append (hm.kept ⟨.set "except", false⟩)

theorem tells_union (hi : inner.Tells) :
    Tells (union inner) fun l new => Told l.occurrences new := by
  refine (tells_exception hi).chain (tells_word (by decide) (by decide)) ?_
  intro l m new more hl hm
  exact hl.append (hm.kept ⟨.set "union", false⟩)

end

/-- By the levels of nesting that are left. -/
theorem tells_levels (limit levels : Nat) :
    (Tells (location limit levels) fun l new => Told l.occurrences new) ∧
      (innerAt limit levels).Tells := by
  induction levels with
  | zero =>
    rw [location_zero, innerAt_zero]
    exact ⟨.fail _, .fail _, .fail _⟩
  | succ levels ih =>
    rw [location_succ, innerAt_succ]
    refine ⟨.nested limit ?_, .nested limit ?_, .nested limit ih.1⟩
    · exact quiet_skipBlanks.quiet_bind fun _ => tells_union ih.2
    · exact tells_disjunction ih.2

theorem tells_expression (limit : Nat) :
    Tells (expression limit) fun e new => Told e.occurrences new := by
  have hend : Quiet expectEnd := .of_silent silent_expectEnd
  have hcall : Tells (wholeCall limit) fun f new => Told f.occurrences new := by
    refine quiet_skipBlanks.quiet_bind fun _ => ?_
    refine (tells_function (tells_levels limit limit).2).bind fun f new hf => ?_
    refine hend.quiet_bind fun _ => .pure ?_
    rw [List.append_nil]
    exact hf
  have hlocation : Tells (wholeLocation limit) fun l new => Told l.occurrences new :=
    quiet_skipBlanks.quiet_bind fun _ => (tells_levels limit limit).1
  refine hcall.alternative (fun f new hf => .pure ?_) ?_
  · rw [List.append_nil]
    exact hf
  · refine hlocation.alternative (fun l new hl => ?_) (.fail _)
    refine hend.quiet_bind fun _ => .pure ?_
    rw [List.append_nil]
    exact hl

end OutlineQuery.Grammar

namespace OutlineQuery
open Grammar

def calledFunctions (tokens : List Token) : List String :=
  (tokens.filter (·.kind = .functionName)).map (·.text)

def setTokenWords (tokens : List Token) : List String :=
  (tokens.filter (·.kind = .set)).map (·.text)

def booleanTokenWords (tokens : List Token) : List String :=
  ((tokens.filter (·.kind = .boolean)).map (·.text)).filter fun word => word = "and" ∨ word = "or"

def readAttributes (tokens : List Token) : List String :=
  (tokens.filter (·.kind = .attribute)).map fun t => String.ofList (t.text.toList.drop 1)

section
variable (tokens : List Token)

/-- Choosing tokens and reading them off is one pass over what they mention. -/
theorem map_filter_eq_mentions {wanted : Token → Bool} {read : Token → String}
    {part : Mention → Option String}
    (h : ∀ t, t.mention?.bind part = if wanted t then some (read t) else none) :
    (tokens.filter wanted).map read = (tokens.filterMap Token.mention?).filterMap part := by
  rw [List.filterMap_filterMap]
  induction tokens with
  | nil => rfl
  | cons t tokens ih =>
    rw [List.filterMap_cons, h t]
    by_cases hw : wanted t
    · rw [if_pos hw, List.filter_cons_of_pos hw, List.map_cons, ih]
    · rw [if_neg hw, List.filter_cons_of_neg hw, ih]

theorem calledFunctions_eq : calledFunctions tokens =
    (tokens.filterMap Token.mention?).filterMap Mention.functionName? := by
  apply map_filter_eq_mentions
  rintro ⟨kind, start, stop, text⟩
  by_cases hword : text = "and" ∨ text = "or" <;> cases kind <;>
    simp [Token.mention?, Mention.functionName?, hword]

theorem setTokenWords_eq : setTokenWords tokens =
    (tokens.filterMap Token.mention?).filterMap Mention.setWord? := by
  apply map_filter_eq_mentions
  rintro ⟨kind, start, stop, text⟩
  by_cases hword : text = "and" ∨ text = "or" <;> cases kind <;>
    simp [Token.mention?, Mention.setWord?, hword]

theorem booleanTokenWords_eq : booleanTokenWords tokens =
    (tokens.filterMap Token.mention?).filterMap Mention.booleanWord? := by
  rw [booleanTokenWords, List.filter_map, List.filter_filter]
  apply map_filter_eq_mentions
  rintro ⟨kind, start, stop, text⟩
  by_cases hword : text = "and" ∨ text = "or" <;> cases kind <;>
    simp [Token.mention?, Mention.booleanWord?, hword]

theorem readAttributes_eq : readAttributes tokens =
    (tokens.filterMap Token.mention?).filterMap Mention.attributeName? := by
  apply map_filter_eq_mentions
  rintro ⟨kind, start, stop, text⟩
  by_cases hword : text = "and" ∨ text = "or" <;> cases kind <;>
    simp [Token.mention?, Mention.attributeName?, hword]

end

/-- The tokens of a query that can be read tell the same story as the expression: its functions,
its combinations of locations and its conjunctions and disjunctions in their order, and of its
attributes all but some that are the text of the row on the left side of a comparison. -/
theorem tokens_tell_expression (limit : Nat) (text : String) (e : Expression)
    (h : (parse limit text).result = .ok e) :
    calledFunctions (parse limit text).tokens = e.functionNames ∧
      setTokenWords (parse limit text).tokens = e.setWords ∧
      booleanTokenWords (parse limit text).tokens = e.booleanWords ∧
      TextLeftOut e.attributes (readAttributes (parse limit text).tokens) := by
  have htold : Told e.occurrences ((parse limit text).tokens.filterMap Token.mention?) := by
    rw [parse] at h ⊢
    cases hrun : expression limit (.start text.toList) with
    | error reason s => rw [hrun] at h; cases h
    | ok e' s =>
      rw [hrun] at h
      cases h
      obtain ⟨new, hnew, he⟩ := (tells_expression limit).tells hrun
      rw [show s.tokens.toList.filterMap Token.mention? = new from hnew]
      exact he
  rw [calledFunctions_eq, setTokenWords_eq, booleanTokenWords_eq, readAttributes_eq]
  exact ⟨htold.filterMap_eq fun _ => rfl, htold.filterMap_eq fun _ => rfl,
    htold.filterMap_eq fun _ => rfl, htold.attributes⟩

/-- The name on the right is tried as a function and withdrawn again. -/
theorem comparison_of_call_told : ∃ e, (parse 32 "f(@a)=b union c").result = .ok e ∧
    calledFunctions (parse 32 "f(@a)=b union c").tokens = e.functionNames ∧
      setTokenWords (parse 32 "f(@a)=b union c").tokens = e.setWords ∧
      booleanTokenWords (parse 32 "f(@a)=b union c").tokens = e.booleanWords ∧
      TextLeftOut e.attributes (readAttributes (parse 32 "f(@a)=b union c").tokens) := by
  have hread : (parse 32 "f(@a)=b union c").result.isOk = true := by decide +kernel
  cases hresult : (parse 32 "f(@a)=b union c").result with
  | error reason => rw [hresult] at hread; cases hread
  | ok e => exact ⟨e, rfl, tokens_tell_expression 32 "f(@a)=b union c" e hresult⟩

end OutlineQuery
