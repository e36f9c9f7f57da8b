import OutlineQuery.Proofs.Leading

/-! Groups and calls from behind their parentheses. Behind `not` and behind an axis a group is read
as if it stood alone, and a call ends where the group would. -/

namespace OutlineQuery.Grammar
open Production Text

/-- What is read behind a fixed text. -/
theorem reads_behind_expect {β : Type} {f : Unit → Production β} {word : String} {b : β}
    {depth : Nat} {text rest : List Char} (hf : Settled (f ()))
    (h : Reads (expect word >>= f) depth text b rest) :
    ∃ more, text = word.toList ++ more ∧ Reads (f ()) depth more b rest := by
  cases hstarts : word.toList.isPrefixOf text with
  | false => exact absurd (refuses_expect hstarts).bind_first h.not_refuses
  | true =>
    obtain ⟨more, rfl⟩ := List.isPrefixOf_iff_prefix.mp hstarts
    exact ⟨more, rfl, h.behind (reads_expect rfl) hf⟩

def named (p : Production Location) : Production Function := do
  let name ← record .functionName identifier
  return ⟨String.ofList name, ← p⟩

def callBehind (inner : Inner) : Production Location := do
  expect "("
  let argument ← inner.argument
  expect ")"
  return argument

theorem function_eq (inner : Inner) : function inner = named (callBehind inner) := by
  simp only [function, named, callBehind, bind_assoc, pure_bind]

section
variable {p : Production Location} {l : Location} {depth : Nat} {name text rest : List Char}

theorem reads_functionName (hname : IsIdentifier name) (htext : text.head?.any isRest = false) :
    Reads (record .functionName identifier) depth (name ++ text) name text :=
  (reads_identifier hname htext).record

theorem Reads.named (hname : IsIdentifier name) (htext : text.head?.any isRest = false)
    (hp : Reads p depth text l rest) :
    Reads (named p) depth (name ++ text) ⟨String.ofList name, l⟩ rest :=
  (reads_functionName hname htext).bind hp.map

theorem Refuses.named (hname : IsIdentifier name) (htext : text.head?.any isRest = false)
    (hp : Refuses p depth text) : Refuses (named p) depth (name ++ text) :=
  .bind_next (reads_functionName hname htext) hp.bind_first

theorem Exceeds.named (hname : IsIdentifier name) (htext : text.head?.any isRest = false)
    (hp : Exceeds p depth text) : Exceeds (named p) depth (name ++ text) :=
  .bind_next (reads_functionName hname htext) hp.bind_first

end

section
variable {inner : Inner} {depth : Nat} {text rest : List Char}

/-- A name with something else than a parenthesis behind it is no call. -/
theorem refuses_function_name {name : List Char} (hname : IsIdentifier name)
    (htext : text.head?.any isRest = false) (hno : text.head? ≠ some '(') :
    Refuses (function inner) depth (name ++ text) := by
  rw [function_eq]
  exact .named hname htext (.bind_first (refuses_expect (isPrefixOf_cons_false hno [])))

section
variable {name : String} {q : Location} (hname : IsIdentifier name.toList)
include hname

theorem reads_function_of_callBehind (h : Reads (callBehind inner) depth ('(' :: text) q rest) :
    Reads (function inner) depth (name.toList ++ '(' :: text) ⟨name, q⟩ rest := by
  have hnamed := h.named hname rfl
  rwa [← function_eq, String.ofList_toList] at hnamed

theorem refuses_function_of_callBehind (h : Refuses (callBehind inner) depth ('(' :: text)) :
    Refuses (function inner) depth (name.toList ++ '(' :: text) := by
  rw [function_eq]
  exact h.named hname rfl

theorem exceeds_function_of_callBehind (h : Exceeds (callBehind inner) depth ('(' :: text)) :
    Exceeds (function inner) depth (name.toList ++ '(' :: text) := by
  rw [function_eq]
  exact h.named hname rfl

end

variable (hi : inner.Alone)
include hi

theorem settled_callBehind : Settled (callBehind inner) :=
  (Settled.expect "(").bind fun _ => hi.argument.settled.bind fun _ =>
    (Settled.expect ")").bind fun _ => .pure _

/-- The parenthesis that the text closes is the last one of the call. -/
theorem closes_callBehind {argument : Location}
    (h : Reads (callBehind inner) depth ('(' :: text) argument rest) :
    Closes (')' :: rest) 0 text := by
  have hclose (l : Location) : Settled (expect ")" >>= fun _ => Pure.pure l) :=
    (Settled.expect ")").bind fun _ => .pure l
  have hinside : Settled (inner.argument >>= fun l => expect ")" >>= fun _ => Pure.pure l) :=
    hi.argument.settled.bind hclose
  obtain ⟨more, htext, hmore⟩ := reads_behind_expect hinside h
  obtain rfl : text = more := (List.cons.inj htext).2
  obtain ⟨l, middle, hl, hmiddle⟩ := hi.argument.settled.reads_bind hclose hmore
  obtain ⟨last, rfl, hlast⟩ := reads_behind_expect (.pure l) hmiddle
  obtain ⟨-, rfl⟩ := hlast.unique (.pure l)
  exact (hi.argument.closes hl _ 0).mpr (.stop fun c hc => by cases hc; rfl)

end

def groupBehind (inner : Inner) : Production Predicate := do
  let p ← inner.predicate
  skipBlanks
  expect ")"
  return p

section
variable {inner : Inner} {depth : Nat} {gap text rest : List Char} {p : Predicate}

theorem reads_term_group (h : Reads (groupBehind inner) depth text p rest) :
    Reads (term inner) depth ('(' :: text) p rest := by
  have hopen : Reads (skip "(") depth ('(' :: text) true text := reads_skip rfl
  exact (reads_noBlanks rfl).bind (hopen.bind h)

theorem settled_groupEnd (p : Predicate) :
    Settled (skipBlanks >>= fun _ => expect ")" >>= fun _ => Pure.pure p) :=
  Settled.skipBlanks.bind fun _ => (Settled.expect ")").bind fun _ => .pure p

section
variable (hi : inner.Alone)
include hi

theorem settled_groupBehind : Settled (groupBehind inner) :=
  hi.predicate.settled.bind settled_groupEnd

theorem closes_groupBehind (h : Reads (groupBehind inner) depth text p rest) :
    Closes (')' :: rest) 0 text := by
  obtain ⟨q, middle, hq, hmiddle⟩ := hi.predicate.settled.reads_bind settled_groupEnd h
  have hend : Settled (expect ")" >>= fun _ => Pure.pure q) :=
    (Settled.expect ")").bind fun _ => .pure q
  obtain ⟨last, hclose, hlast⟩ :=
    reads_behind_expect (.pure q) (hmiddle.behind reads_skipBlanks hend)
  obtain ⟨-, rfl⟩ := hlast.unique (.pure q)
  refine (hi.predicate.closes hq _ 0).mpr ((closes_dropWhile fun _ => isPlain_of_isBlank).mpr ?_)
  rw [hclose]
  exact .stop fun c hc => by cases hc; rfl

omit hi in
theorem refuses_negation_group (h : Refuses (groupBehind inner) depth text) :
    Refuses (negation inner) depth ('(' :: text) := by
  have hnots : Reads (many nextNot) depth ('(' :: text) [] ('(' :: text) := reads_noNot rfl rfl
  have hopen : Reads (skip "(") depth ('(' :: text) true text := reads_skip rfl
  have hblanks : Reads skipBlanks depth ('(' :: text) () ('(' :: text) := reads_noBlanks rfl
  have hterm : Refuses (term inner) depth ('(' :: text) := .bind_next hblanks (.bind_next hopen h)
  exact .bind_next hnots (.bind_next hblanks hterm.bind_first)

omit hi in
theorem exceeds_negation_group (h : Exceeds (groupBehind inner) depth text) :
    Exceeds (negation inner) depth ('(' :: text) := by
  have hnots : Reads (many nextNot) depth ('(' :: text) [] ('(' :: text) := reads_noNot rfl rfl
  have hopen : Reads (skip "(") depth ('(' :: text) true text := reads_skip rfl
  have hblanks : Reads skipBlanks depth ('(' :: text) () ('(' :: text) := reads_noBlanks rfl
  have hterm : Exceeds (term inner) depth ('(' :: text) := .bind_next hblanks (.bind_next hopen h)
  exact .bind_next hnots (.bind_next hblanks hterm.bind_first)

/-- A predicate that starts with a parenthesis is the group up to the other one. -/
theorem reads_groupBehind (h : Reads (negation inner) depth ('(' :: text) p rest) :
    Reads (groupBehind inner) depth text p rest := by
  obtain ⟨q, rest', hq⟩ | hno | hno := settled_groupBehind hi depth text
  · obtain ⟨rfl, rfl⟩ := h.unique (reads_negation rfl rfl (reads_term_group hq))
    exact hq
  · exact absurd (refuses_negation_group hno) h.not_refuses
  · exact absurd (exceeds_negation_group hno) h.not_exceeds

end

section
variable (hgap : gap = [] ∨ gap = [' '])
include hgap

theorem gap_noRest (text : List Char) : (gap ++ '(' :: text).head?.any isRest = false := by
  obtain rfl | rfl := hgap <;> rfl

theorem reads_gap : Reads skipBlanks depth (gap ++ '(' :: text) () ('(' :: text) := by
  have hdrop : (gap ++ '(' :: text).dropWhile isBlank = '(' :: text := by
    obtain rfl | rfl := hgap <;> rfl
  have hread : Reads skipBlanks depth (gap ++ '(' :: text) () _ := reads_skipBlanks
  rwa [hdrop] at hread

theorem Reads.chain_gap {α : Type} {operand : Production α} {operator : Production Bool}
    {combine : α → α → α} {a : α}
    (h : Reads (chain operand operator combine) depth ('(' :: text) a rest) :
    Reads (chain operand operator combine) depth (gap ++ '(' :: text) a rest := by
  obtain rfl | rfl := hgap
  · exact h
  · exact h.chain_blank

/-- Behind `not` a group is read as without it. -/
theorem reads_not_group (h : Reads (groupBehind inner) depth text p rest) :
    Reads (negation inner) depth ("not".toList ++ (gap ++ '(' :: text)) (.not p) rest := by
  have hword : Reads (word "not" .boolean) depth ("not".toList ++ (gap ++ '(' :: text)) true
      (gap ++ '(' :: text) := reads_word rfl (gap_noRest hgap text)
  have hfirst : Reads nextNot depth ("not".toList ++ (gap ++ '(' :: text)) (some ())
      (gap ++ '(' :: text) := (reads_noBlanks rfl).bind (hword.bind (.pure _))
  have hno : Reads (word "not" .boolean) depth ('(' :: text) false ('(' :: text) :=
    reads_word_false rfl
  have hlast : Reads nextNot depth (gap ++ '(' :: text) none ('(' :: text) :=
    (reads_gap hgap).bind (hno.bind (.pure none))
  have hnots : Reads (many nextNot) depth ("not".toList ++ (gap ++ '(' :: text)) [()]
      ('(' :: text) :=
    .many_some consumes_nextNot hfirst (.many_none consumes_nextNot hlast)
  exact hnots.bind ((reads_noBlanks rfl).bind
    ((reads_term_group h).bind (.pure (Predicate.not p))))

theorem axisAt?_group (a : Axis) (text : List Char) :
    axisAt? (a.spelling.toList ++ (gap ++ '(' :: text)) = some a := by
  obtain rfl | rfl := hgap
  · cases a <;> rfl
  · exact (axisAt?_spelling a _).1

/-- Behind an axis a group is read as without it. -/
theorem reads_axis_group (hi : inner.Alone) (a : Axis) {s : Step}
    (h : Reads (step inner) depth ('(' :: text) s rest) :
    Reads (step inner) depth (a.spelling.toList ++ (gap ++ '(' :: text)) { s with axis := a }
      rest := by
  have hbehind (test : RowType × Predicate) :
      Settled (sliceBehind >>= fun slice => Pure.pure (Step.mk .child test.1 test.2 slice)) :=
    settled_sliceBehind.bind fun _ => .pure _
  have hstep : Settled (stepBehind inner .child) := (alone_stepTest hi).settled.bind hbehind
  rw [step_eq] at h
  obtain ⟨test, middle, htest, hmiddle⟩ := (alone_stepTest hi).settled.reads_bind hbehind
    (h.behind (reads_noAxis rfl) hstep)
  obtain ⟨slice, last, hslice, hlast⟩ := settled_sliceBehind.reads_bind (fun _ => .pure _) hmiddle
  obtain ⟨rfl, rfl⟩ := hlast.unique (.pure _)
  obtain ⟨q, rest', make, hq, rfl, -, hagain⟩ := (leads_stepTest hi).reads rfl htest
  have hhead : startsWithWord "heading" (gap ++ '(' :: text) = false := by
    obtain rfl | rfl := hgap <;> rfl
  have htest' := hagain _ q hhead (hq.chain_gap hgap)
  have haxis : Reads (attemptOr Axis.child axis) depth (a.spelling.toList ++ (gap ++ '(' :: text))
      a (gap ++ '(' :: text) := (reads_axis (axisAt?_group hgap a text)).attemptOr
  rw [step_eq]
  exact haxis.bind (htest'.bind (hslice.bind (.pure _)))

end
end

def groupWords : List String :=
  "not" :: (Axis.all.filter fun a => a.normalized = a).map Axis.spelling

example : groupWords = ["not", "ancestor::", "ancestor-or-self::", "parent::", "self::", "child::",
    "descendant::", "descendant-or-self::", "following-sibling::", "following::",
    "preceding-sibling::", "preceding::"] := rfl

section
variable {inner : Inner} (hi : inner.Alone) {depth : Nat} {gap text rest : List Char} {l : Location}
include hi

theorem leads_negation : Leads OpensTest depth (negation inner) (union inner)
    (fun p => some p.first) Location.first :=
  (leads_conjunction hi).trans ((leads_disjunction hi).trans (leads_union hi))

omit hi in
theorem opensTest_group (text : List Char) : OpensTest ('(' :: text) := ⟨⟨rfl, rfl⟩, rfl, rfl⟩

/-- With a blank or without one, a group is read alike behind such a word. -/
theorem reads_group_behind {word : String} (hword : word ∈ groupWords)
    (h : Reads (union inner) depth ('(' :: text) l rest) :
    ∃ l', ∀ gap, gap = [] ∨ gap = [' '] →
      Reads (union inner) depth (word.toList ++ (gap ++ '(' :: text)) l' rest := by
  obtain rfl | hspelling := List.mem_cons.mp hword
  · obtain ⟨p, middle, make, hp, -, -, hagain⟩ := (leads_negation hi).reads (opensTest_group text) h
    have hgroup := reads_groupBehind hi hp
    have hopens (gap : List Char) : OpensTest ("not".toList ++ (gap ++ '(' :: text)) :=
      ⟨⟨rfl, rfl⟩, rfl, rfl⟩
    exact ⟨make (.not p), fun gap hgap => hagain _ _ (hopens gap) (reads_not_group hgap hgroup)⟩
  · obtain ⟨a, ha, rfl⟩ := List.mem_map.mp hspelling
    have hlong : a.normalized = a := by simpa using (List.mem_filter.mp ha).2
    obtain ⟨s, middle, make, hs, -, -, hagain⟩ :=
      (leads_union_step hi).reads (opensTest_group text).toOpensStep h
    have hopens (gap : List Char) : OpensStep (a.spelling.toList ++ (gap ++ '(' :: text)) := by
      cases a <;> first | exact ⟨rfl, rfl⟩ | cases hlong
    exact ⟨make { s with axis := a }, fun gap hgap =>
      hagain _ _ (hopens gap) (reads_axis_group hgap hi a hs)⟩

/-- A call ends where the group would, so what is read up to there can stand for the group. -/
theorem reads_group_replaced {q : Location} {last : List Char}
    (h : Reads (union inner) depth ('(' :: text) l rest)
    (hq : Reads (callBehind inner) depth ('(' :: text) q last) :
    ∃ make : Predicate → Location, (∀ p, (make p).first = some p.first) ∧
      ∀ text' p, OpensTest text' → Reads (negation inner) depth text' p last →
        Reads (union inner) depth text' (make p) rest := by
  obtain ⟨p, middle, make, hp, -, hview, hagain⟩ :=
    (leads_negation hi).reads (opensTest_group text) h
  obtain rfl : last = middle :=
    (closes_groupBehind hi (reads_groupBehind hi hp)).unique (closes_callBehind hi hq)
  exact ⟨make, hview, hagain⟩

end

end OutlineQuery.Grammar
