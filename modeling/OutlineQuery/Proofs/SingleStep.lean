import OutlineQuery.Proofs.Advancing
import OutlineQuery.Proofs.Groups
import OutlineQuery.Proofs.OperatorChains

/-! A query of a single step. Where nothing is said about the axis, the type and a slice, the step
is a predicate, and nothing but blanks stands around it. -/

namespace OutlineQuery

def Location.children (p : Predicate) : Location := .path ⟨false, [⟨.child, .any, p, none⟩]⟩

def AxesInComparisons (tokens : List Token) : Prop :=
  ∀ a ∈ tokens, a.kind = .axis →
    ∃ c ∈ tokens, c.kind = .comparison ∧ c.start ≤ a.start ∧ a.stop ≤ c.stop

instance (tokens : List Token) : Decidable (AxesInComparisons tokens) :=
  inferInstanceAs (Decidable (∀ a ∈ tokens, a.kind = .axis →
    ∃ c ∈ tokens, c.kind = .comparison ∧ c.start ≤ a.start ∧ a.stop ≤ c.stop))

namespace Grammar
open Production Text

def PastBlanks (s t : State) : Prop :=
  ∃ gap, (∀ c ∈ gap, isBlank c = true) ∧ s.cursor.rest = gap ++ t.cursor.rest ∧
    t = s.pass gap.length

namespace PastBlanks
variable {s t u : State}

theorem refl (s : State) : PastBlanks s s := ⟨[], nofun, rfl, (pass_zero s).symm⟩

theorem trans (h : PastBlanks s t) (h' : PastBlanks t u) : PastBlanks s u := by
  obtain ⟨left, hleft, hs, rfl⟩ := h
  obtain ⟨right, hright, ht, rfl⟩ := h'
  refine ⟨left ++ right, fun c hc => (List.mem_append.mp hc).elim (hleft c) (hright c), ?_, ?_⟩
  · rw [List.append_assoc, ← ht, ← hs]
  · rw [pass_pass, List.length_append]

theorem tokens (h : PastBlanks s t) : t.tokens = s.tokens := by
  obtain ⟨gap, -, -, rfl⟩ := h
  rfl

theorem rest (h : PastBlanks s t) :
    t.cursor.rest.dropWhile isBlank = s.cursor.rest.dropWhile isBlank := by
  obtain ⟨gap, hgap, hs, -⟩ := h
  rw [hs, List.dropWhile_append_of_pos hgap]

theorem of_skipBlanks (h : skipBlanks s = .ok () t) : PastBlanks s t := by
  rw [skipBlanks_run] at h
  cases h
  refine ⟨_, List.all_eq_true.mp List.all_takeWhile, ?_, rfl⟩
  rw [rest_pass, drop_takeWhile, List.takeWhile_append_dropWhile]

/-- It does not matter to a chain which of the blanks before it have been passed. -/
theorem chain_run {α : Type} {operand : Production α} {operator : Production Bool}
    {combine : α → α → α} (h : PastBlanks s t) :
    chain operand operator combine s = chain operand operator combine t := by
  obtain ⟨gap, hgap, hs, rfl⟩ := h
  exact chain_run_blanks hs hgap

end PastBlanks

theorem skipBlanks_noBlanks {s : State} (h : s.cursor.rest.head?.any isBlank = false) :
    skipBlanks s = .ok () s := by
  have hnone : s.cursor.rest.takeWhile isBlank = [] :=
    takeWhile_append_stop (List.forall_mem_nil _) h
  rw [skipBlanks_run, hnone, List.length_nil, pass_zero]

section
variable {α : Type} {operand : Production α} {word : String} {kind : TokenKind}
  {combine : α → α → α} {s t v : State} {a : α} (hw : word ≠ "") (hp : operand.Follows Grown)
include hw hp

/-- A chain that has combined nothing is its operand between blanks. -/
theorem chain_single (h : chain operand (Grammar.word word kind) combine s = .ok a v)
    (ha : ∀ b c, combine b c ≠ a) :
    ∃ s' t, PastBlanks s s' ∧ operand s' = .ok a t ∧ PastBlanks t v := by
  rw [chain_eq_rightRecursive hw hp] at h
  obtain ⟨b, t, hoperand, ⟨hoperator, rfl⟩ | ⟨_, c, -, -, hcombined⟩⟩ := rightRecursive_ok h
  · obtain ⟨_, s', hbefore, hrun⟩ := bind_ok hoperand
    obtain ⟨_, t', hbehind, hword⟩ := bind_ok hoperator
    rw [word_run] at hword
    split at hword
    · cases hword
    · cases hword
      exact ⟨s', t, .of_skipBlanks hbefore, hrun, .of_skipBlanks hbehind⟩
  · exact absurd hcombined.symm (ha b c)

/-- An operand that no operator follows is a chain. -/
theorem chain_of_single (hs : s.cursor.rest.head?.any isBlank = false) (h : operand s = .ok a t)
    (hno : startsWithWord word (t.cursor.rest.dropWhile isBlank) = false) :
    ∃ v, chain operand (Grammar.word word kind) combine s = .ok a v ∧ PastBlanks t v := by
  obtain ⟨v, hskip⟩ : ∃ v, skipBlanks t = .ok () v := ⟨_, skipBlanks_run⟩
  have hbehind : PastBlanks t v := .of_skipBlanks hskip
  have hoperand : (do skipBlanks; operand) s = .ok a t :=
    (bind_of_ok (skipBlanks_noBlanks hs)).trans h
  have hrest : v.cursor.rest = t.cursor.rest.dropWhile isBlank := by
    rw [skipBlanks_run] at hskip
    cases hskip
    rw [rest_pass, drop_takeWhile]
  have hoperator : (do skipBlanks; Grammar.word word kind) t = .ok false v := by
    rw [bind_of_ok hskip, word_run, hrest, if_neg (Bool.eq_false_iff.mp hno)]
  refine ⟨v, ?_, hbehind⟩
  rw [chain_eq_rightRecursive hw hp, rightRecursive_of_ok hoperand hoperator]
  rfl

end

section
variable {inner : Inner} {s t : State} {p : Predicate}
  (hs : s.cursor.rest.head?.any isBlank = false)
include hs

/-- A predicate that no `not` stands before. -/
theorem negation_of_term (hno : startsWithWord "not" s.cursor.rest = false)
    (h : term inner s = .ok p t) : negation inner s = .ok p t := by
  have hblanks : skipBlanks s = .ok () s := skipBlanks_noBlanks hs
  have hnot : nextNot s = .ok none s := by
    rw [nextNot, bind_of_ok hblanks, bind_of_ok (word_run.trans (if_neg (by simp [hno])))]
    rfl
  have hnots : many nextNot s = .ok [] s := many_of_none consumes_nextNot hnot
  rw [negation, bind_of_ok hnots, bind_of_ok hblanks, bind_of_ok h]
  rfl

/-- A predicate that nothing joins with another one. -/
theorem disjunction_of_negation (hi : inner.Follows Grown) (h : negation inner s = .ok p t)
    (hno : ∀ word ∈ ["and", "or"],
      startsWithWord word (t.cursor.rest.dropWhile isBlank) = false) :
    ∃ v, disjunction inner s = .ok p v ∧ PastBlanks t v := by
  obtain ⟨u, hconjunction, hu⟩ : ∃ u, conjunction inner s = .ok p u ∧ PastBlanks t u :=
    chain_of_single (by decide) (discipline_grown.follows_negation hi) hs h (hno _ (by decide))
  have hor : startsWithWord "or" (u.cursor.rest.dropWhile isBlank) = false := by
    rw [hu.rest]
    exact hno _ (by decide)
  obtain ⟨v, hdisjunction, hv⟩ : ∃ v, disjunction inner s = .ok p v ∧ PastBlanks u v :=
    chain_of_single (by decide) (discipline_grown.follows_conjunction hi) hs hconjunction hor
  exact ⟨v, hdisjunction, hu.trans hv⟩

end

section
variable {inner : Inner} {s t v : State} {p : Predicate}

theorem sliceBehind_none (h : sliceBehind s = .ok none t) : t = s := by
  rw [sliceBehind, remaining_bind_run] at h
  split at h
  · obtain ⟨_, u, -, ⟨⟩⟩ := bind_ok h
  · cases h
    rfl

variable (hi : inner.Follows Grown)
include hi

/-- Only a test that is no type and has none has a predicate for rows of any type. -/
theorem stepTest_any (h : stepTest inner s = .ok (.any, p) t) : disjunction inner s = .ok p t := by
  have hheading : ∀ {u : State} {type : RowType}, headingType s = .ok type u → type = .heading := by
    intro u type hrun
    obtain ⟨found, w, -, hfound⟩ := bind_ok hrun
    cases found with
    | true => cases hfound; rfl
    | false => cases hfound
  obtain ⟨found, u, hfirst, hfound⟩ := bind_ok h
  cases found with
  | none => cases hfound
  | some test =>
    cases hfound
    obtain ⟨form, hmem, hrun⟩ := firstOf_some (discipline_grown.follows_stepForms hi) hfirst
    simp only [List.mem_cons, List.not_mem_nil, or_false] at hmem
    obtain rfl | rfl | rfl := hmem
    · obtain ⟨type, w, htype, hrun⟩ := bind_ok hrun
      obtain ⟨q, x, -, ⟨⟩⟩ := bind_ok hrun
      cases hheading htype
    · obtain ⟨type, w, htype, ⟨⟩⟩ := bind_ok hrun
      cases hheading htype
    · obtain ⟨q, w, hpredicate, ⟨⟩⟩ := bind_ok hrun
      exact hpredicate

/-- A step with the default axis and type and without slice is a predicate behind the axis. -/
theorem step_plain (h : step inner s = .ok ⟨.child, .any, p, none⟩ t) :
    ∃ u, attemptOr Axis.child axis s = .ok .child u ∧ disjunction inner u = .ok p t := by
  rw [step_eq] at h
  obtain ⟨a, u, haxis, h⟩ := bind_ok h
  obtain ⟨⟨type, q⟩, w, htest, h⟩ := bind_ok h
  obtain ⟨slice, x, hslice, ⟨⟩⟩ := bind_ok h
  obtain rfl := sliceBehind_none hslice
  exact ⟨u, haxis, stepTest_any hi htest⟩

theorem path_single (h : path inner s = .ok ⟨false, [⟨.child, .any, p, none⟩]⟩ t) :
    step inner s = .ok ⟨.child, .any, p, none⟩ t := by
  have hno : ∀ {u w : State}, operator "/" .axis u = .ok false w → w = u := by
    intro u w hrun
    rw [operator_run] at hrun
    split at hrun
    · cases hrun
    · cases hrun
      rfl
  obtain ⟨absolute, u, hslash, h⟩ := bind_ok h
  obtain ⟨first, w, hstep, h⟩ := bind_ok h
  obtain ⟨others, x, hothers, ⟨⟩⟩ := bind_ok h
  obtain rfl := hno hslash
  obtain ⟨-, hnext⟩ | ⟨_, _, _, ⟨⟩, -⟩ := many_ok (consumes_nextStep hi) hothers
  obtain ⟨slash, z, hslash', hnext⟩ := bind_ok hnext
  cases slash with
  | true => obtain ⟨_, z', -, ⟨⟩⟩ := bind_ok hnext
  | false =>
    cases hnext
    obtain rfl := hno hslash'
    exact hstep

/-- Around the predicate there are blanks and an axis. -/
theorem union_children (h : union inner s = .ok (.children p) v) : ∃ s' u t, PastBlanks s s' ∧
    attemptOr Axis.child axis s' = .ok .child u ∧ disjunction inner u = .ok p t ∧
    PastBlanks t v := by
  obtain ⟨s₁, t₁, hs₁, hexception, ht₁⟩ :=
    chain_single (by decide) (discipline_grown.follows_exception hi) h nofun
  obtain ⟨s₂, t₂, hs₂, hintersection, ht₂⟩ :=
    chain_single (by decide) (discipline_grown.follows_intersection hi) hexception nofun
  obtain ⟨s₃, t₃, hs₃, hoperand, ht₃⟩ :=
    chain_single (by decide) (discipline_grown.follows_pathOperand hi) hintersection nofun
  obtain ⟨_, s₄, hskip, hpath⟩ := bind_ok hoperand
  obtain ⟨q, t, hpath, ⟨⟩⟩ := bind_ok hpath
  obtain ⟨u, haxis, hp⟩ := step_plain hi (path_single hi hpath)
  exact ⟨s₄, u, t₃, hs₁.trans (hs₂.trans (hs₃.trans (.of_skipBlanks hskip))), haxis, hp,
    ht₃.trans (ht₂.trans ht₁)⟩

end

theorem axis_ok {s t : State} {a : Axis} (h : axis s = .ok a t) :
    ∃ n, t = (s.pass n).emit .axis s.cursor := by
  rw [axis_run] at h
  split at h
  · cases h
    exact ⟨_, rfl⟩
  · cases h

/-- Before the predicate no axis has been read, or its token would lie in a comparison that starts
behind it. -/
theorem noAxis_of_tokens {limit levels : Nat} {s u t : State} {p : Predicate}
    (hs : s.cursor.Coherent) (hempty : s.tokens.toList = [])
    (haxis : attemptOr Axis.child axis s = .ok .child u)
    (hp : disjunction (innerAt limit levels) u = .ok p t)
    (htokens : AxesInComparisons t.tokens.toList) : u = s := by
  obtain ⟨found, w, hattempt, hfound⟩ := bind_ok haxis
  obtain rfl : w = u := (EStateM.Result.ok.inj hfound).2
  obtain ⟨a, -, hrun⟩ | ⟨-, hsame, -⟩ := attempt_ok (discipline_grown.follows_axis s) hattempt
  · have hlt := advances_axis s a w hrun
    have hrecords := discipline_records.follows_disjunction
      (discipline_records.follows_innerAt limit levels) w
    rw [finish_of_ok hp] at hrecords
    obtain ⟨n, rfl⟩ := axis_ok hrun
    obtain ⟨new, htold, hnew⟩ := hrecords.2 (hs.advance n)
    have hbefore : (s.pass n).tokens.toList = [] := hempty
    rw [State.emit, TokenLog.toList_push, hbefore, List.nil_append] at htold
    rw [htold] at htokens
    obtain ⟨c, hc, hkind, hstart, -⟩ :=
      htokens _ (List.mem_append_left new List.mem_cons_self) rfl
    obtain hc | hc := List.mem_append.mp hc
    · rw [List.mem_singleton.mp hc] at hkind
      cases hkind
    · have hbounds := hnew.bounds c hc
      exact absurd (Nat.lt_of_lt_of_le hlt hbounds.1) (Nat.not_lt_of_le hstart)
  · exact hsame

/-- A query of a single step without an axis starts with its predicate. -/
theorem disjunction_of_children {limit levels : Nat} {text : List Char} {p : Predicate} {v : State}
    (h : union (innerAt limit levels) (inside text) = .ok (.children p) v)
    (htokens : AxesInComparisons v.tokens.toList) :
    ∃ t, disjunction (innerAt limit levels) (inside text) = .ok p t ∧ PastBlanks t v := by
  obtain ⟨s, u, t, hs, haxis, hp, ht⟩ :=
    union_children (discipline_grown.follows_innerAt limit levels) h
  have hcoherent : s.cursor.Coherent := by
    obtain ⟨gap, -, -, rfl⟩ := hs
    exact (Cursor.coherent_ofText text).advance _
  have hempty : s.tokens.toList = [] := congrArg TokenLog.toList hs.tokens
  rw [ht.tokens] at htokens
  obtain rfl := noAxis_of_tokens hcoherent hempty haxis hp htokens
  exact ⟨t, hs.chain_run.trans hp, ht⟩

structure EndsLocation (text : List Char) : Prop where
  bracket : text.head? ≠ some '['
  slash : text.head? ≠ some '/'
  words : ∀ word ∈ ["intersect", "except", "union"],
    startsWithWord word (text.dropWhile isBlank) = false

theorem endsLocation_of_blanks {text : List Char} (h : text.dropWhile isBlank = []) :
    EndsLocation text := by
  have hnot : ∀ c, isBlank c = false → text.head? ≠ some c := by
    intro c hc hhead
    have hblank := List.dropWhile_eq_nil_iff.mp h c (List.mem_of_mem_head? hhead)
    rw [hc] at hblank
    cases hblank
  refine ⟨hnot '[' rfl, hnot '/' rfl, ?_⟩
  rw [h]
  decide

/-- A step that nothing goes on behind is a location of its own. -/
theorem union_of_step {inner : Inner} {s t : State} {st : Step} (hi : inner.Follows Grown)
    (hs : OpensStep s.cursor.rest) (h : step inner s = .ok st t)
    (hend : EndsLocation t.cursor.rest) :
    ∃ v, union inner s = .ok (.path ⟨false, [st]⟩) v ∧ PastBlanks t v := by
  have hslash : operator "/" .axis s = .ok false s := by
    rw [operator_run, if_neg (Bool.eq_false_iff.mp hs.slash)]
  have hlast : nextStep inner t = .ok none t := by
    have hno : "/".toList.isPrefixOf t.cursor.rest = false :=
      isPrefixOf_cons_false hend.slash []
    rw [nextStep, bind_of_ok (operator_run.trans (if_neg (Bool.eq_false_iff.mp hno)))]
    rfl
  have hothers : many (nextStep inner) t = .ok [] t := many_of_none (consumes_nextStep hi) hlast
  have hpath : path inner s = .ok ⟨false, [st]⟩ t := by
    rw [path, bind_of_ok hslash, bind_of_ok h, bind_of_ok hothers]
    rfl
  have hoperand : pathOperand inner s = .ok (.path ⟨false, [st]⟩) t := by
    rw [pathOperand, bind_of_ok (skipBlanks_noBlanks hs.blank), bind_of_ok hpath]
    rfl
  have hno {u : State} (hu : PastBlanks t u) {word : String}
      (hword : word ∈ ["intersect", "except", "union"]) :
      startsWithWord word (u.cursor.rest.dropWhile isBlank) = false := by
    rw [hu.rest]
    exact hend.words word hword
  obtain ⟨t₁, hintersection, ht₁⟩ : ∃ v, intersection inner s = .ok (.path ⟨false, [st]⟩) v ∧
      PastBlanks t v :=
    chain_of_single (by decide) (discipline_grown.follows_pathOperand hi) hs.blank hoperand
      (hno (.refl t) (by decide))
  obtain ⟨t₂, hexception, ht₂⟩ : ∃ v, exception inner s = .ok (.path ⟨false, [st]⟩) v ∧
      PastBlanks t₁ v :=
    chain_of_single (by decide) (discipline_grown.follows_intersection hi) hs.blank hintersection
      (hno ht₁ (by decide))
  obtain ⟨v, hunion, hv⟩ : ∃ v, union inner s = .ok (.path ⟨false, [st]⟩) v ∧
      PastBlanks t₂ v :=
    chain_of_single (by decide) (discipline_grown.follows_exception hi) hs.blank hexception
      (hno (ht₁.trans ht₂) (by decide))
  exact ⟨v, hunion, ht₁.trans (ht₂.trans hv)⟩

section
variable {inner : Inner} {s t : State} {p : Predicate} (hi : inner.Follows Grown)
  (hs : OpensTest s.cursor.rest) (h : disjunction inner s = .ok p t)
include hi hs h

theorem stepTest_of_disjunction : stepTest inner s = .ok (.any, p) t := by
  have hno : Refuses headingType s.depth s.cursor.rest := refuses_headingType hs.heading
  have hheading : attempt (headingTest inner) s = .ok none s :=
    hno.bind_first.attempt_run (discipline_grown.follows_headingTest hi) ⟨rfl, rfl⟩
  have hbare : attempt bareHeading s = .ok none s :=
    hno.bind_first.attempt_run discipline_grown.follows_bareHeading ⟨rfl, rfl⟩
  have hpredicate : predicateTest inner s = .ok (.any, p) t := bind_of_ok h
  have hfirst : firstOf [headingTest inner, bareHeading, predicateTest inner] s =
      .ok (some (.any, p)) t :=
    (bind_of_ok hheading).trans ((bind_of_ok hbare).trans (bind_of_ok (attempt_of_ok hpredicate)))
  exact bind_of_ok hfirst

theorem step_of_disjunction (hend : t.cursor.rest.head? ≠ some '[') :
    step inner s = .ok ⟨.child, .any, p, none⟩ t := by
  have haxis : Refuses axis s.depth s.cursor.rest := refuses_axis hs.axis
  have hdefault : attemptOr Axis.child axis s = .ok .child s :=
    bind_of_ok (haxis.attempt_run discipline_grown.follows_axis ⟨rfl, rfl⟩)
  have hslice : sliceBehind t = .ok none t := by
    have hno : ['['].isPrefixOf t.cursor.rest = false := isPrefixOf_cons_false hend []
    rw [sliceBehind, remaining_bind_run, hno]
    rfl
  rw [step_eq, bind_of_ok hdefault, stepBehind, bind_of_ok (stepTest_of_disjunction hi hs h),
    bind_of_ok hslice]
  rfl

/-- A predicate that nothing goes on behind is a query of a single step. -/
theorem union_of_disjunction (hend : EndsLocation t.cursor.rest) :
    ∃ v, union inner s = .ok (.children p) v ∧ PastBlanks t v :=
  union_of_step hi hs.toOpensStep (step_of_disjunction hi hs h hend.bracket) hend

end
end Grammar
end OutlineQuery
