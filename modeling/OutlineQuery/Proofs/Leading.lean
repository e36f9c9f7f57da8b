import OutlineQuery.Proofs.Outcomes

/-! What stands first in a query. Where another operand is read at its start that leaves the same
text, the rest of the query is read around it as it was around the first one. -/

namespace OutlineQuery

def Predicate.first : Predicate → Predicate
  | .and left _ | .or left _ => left.first
  | p => p

def Location.first : Location → Option Predicate
  | .path p => p.steps.head?.map (·.predicate.first)
  | .union left _ | .except left _ | .intersect left _ => left.first

namespace Grammar
open Production Text

/-- Before a text of this kind the second production starts with the first one, and what it reads
behind that does not depend on it. What is seen first stays in sight. -/
structure Leads {α β γ : Type} (kind : List Char → Prop) (depth : Nat) (p : Production α)
    (q : Production β) (view : α → γ) (view' : β → γ) : Prop where
  exceeds {text : List Char} : kind text → Exceeds p depth text → Exceeds q depth text
  reads {text rest : List Char} {b : β} : kind text → Reads q depth text b rest →
    ∃ a middle, ∃ make : α → β, Reads p depth text a middle ∧ b = make a ∧
      (∀ a, view' (make a) = view a) ∧ ∀ text' a', kind text' →
        Reads p depth text' a' middle → Reads q depth text' (make a') rest
  exceeded {text : List Char} : kind text → Exceeds q depth text → Exceeds p depth text ∨
    ∃ a middle, Reads p depth text a middle ∧ ∀ text' a', kind text' →
      Reads p depth text' a' middle → Exceeds q depth text'

/-- What is read behind the first part. -/
theorem Reads.behind {α β : Type} {pre : Production α} {f : α → Production β} {a : α} {b : β}
    {depth : Nat} {text middle rest : List Char} (h : Reads (pre >>= f) depth text b rest)
    (hpre : Reads pre depth text a middle) (hf : Settled (f a)) :
    Reads (f a) depth middle b rest := by
  obtain ⟨b', rest', hb⟩ | hno | hno := hf depth middle
  · obtain ⟨rfl, rfl⟩ := h.unique (hpre.bind hb)
    exact hb
  · exact absurd (Refuses.bind_next hpre hno) h.not_refuses
  · exact absurd (Exceeds.bind_next hpre hno) h.not_exceeds

theorem Exceeds.behind {α β : Type} {pre : Production α} {f : α → Production β} {a : α}
    {depth : Nat} {text middle : List Char} (h : Exceeds (pre >>= f) depth text)
    (hpre : Reads pre depth text a middle) (hf : Settled (f a)) : Exceeds (f a) depth middle := by
  obtain ⟨b, rest, hb⟩ | hno | hno := hf depth middle
  · exact absurd h (hpre.bind hb).not_exceeds
  · exact absurd h (Refuses.bind_next hpre hno).not_exceeds
  · exact hno

namespace Leads
variable {α β γ δ ε : Type} {kind kind' : List Char → Prop} {depth : Nat} {p : Production α}
  {q : Production β} {r : Production δ} {view : α → γ} {view' : β → γ} {view'' : δ → γ}

theorem narrow (h : Leads kind depth p q view view') (hkind : ∀ text, kind' text → kind text) :
    Leads kind' depth p q view view' := by
  refine ⟨fun htext => h.exceeds (hkind _ htext), fun htext hq => ?_, fun htext hq => ?_⟩
  · obtain ⟨a, middle, make, hp, rfl, hview, hagain⟩ := h.reads (hkind _ htext) hq
    exact ⟨a, middle, make, hp, rfl, hview, fun text' a' h' => hagain text' a' (hkind _ h')⟩
  · obtain hno | ⟨a, middle, hp, hagain⟩ := h.exceeded (hkind _ htext) hq
    · exact .inl hno
    · exact .inr ⟨a, middle, hp, fun text' a' h' => hagain text' a' (hkind _ h')⟩

theorem trans (h : Leads kind depth p q view view') (h' : Leads kind depth q r view' view'') :
    Leads kind depth p r view view'' := by
  refine ⟨fun htext hno => h'.exceeds htext (h.exceeds htext hno), fun htext hr => ?_,
    fun htext hr => ?_⟩
  · obtain ⟨b, middle', make', hq, rfl, hview', hagain'⟩ := h'.reads htext hr
    obtain ⟨a, middle, make, hp, rfl, hview, hagain⟩ := h.reads htext hq
    refine ⟨a, middle, make' ∘ make, hp, rfl, fun a => (hview' _).trans (hview a), ?_⟩
    exact fun text' a' h' ha' => hagain' text' _ h' (hagain text' a' h' ha')
  · obtain hq | ⟨b, middle', hq, hagain'⟩ := h'.exceeded htext hr
    · obtain hno | ⟨a, middle, hp, hagain⟩ := h.exceeded htext hq
      · exact .inl hno
      · exact .inr ⟨a, middle, hp, fun text' a' h₁ ha' => h'.exceeds h₁ (hagain text' a' h₁ ha')⟩
    · obtain ⟨a, middle, make, hp, -, -, hagain⟩ := h.reads htext hq
      refine .inr ⟨a, middle, hp, fun text' a' h₁ ha' => ?_⟩
      exact hagain' text' _ h₁ (hagain text' a' h₁ ha')

theorem refuses (h : Leads kind depth p q view view') (hq : Settled q) {text : List Char}
    (htext : kind text) (hp : Refuses p depth text) : Refuses q depth text := by
  obtain ⟨b, rest, hread⟩ | hno | hexceeds := hq depth text
  · obtain ⟨a, middle, make, ha, -⟩ := h.reads htext hread
    exact absurd hp ha.not_refuses
  · exact hno
  · obtain hno | ⟨a, middle, ha, -⟩ := h.exceeded htext hexceeds
    · exact absurd hno hp.not_exceeds
    · exact absurd hp ha.not_refuses

section
variable {text text' middle rest : List Char} {a : α} {b : β} (htext : kind text)
  (htext' : kind text') (ha : Reads p depth text a middle) (ha' : Reads p depth text' a middle)
include htext htext' ha ha'

theorem reads_again (h : Leads kind depth p q view view') (hb : Reads q depth text b rest) :
    Reads q depth text' b rest := by
  obtain ⟨a₁, middle₁, make, ha₁, rfl, -, hagain⟩ := h.reads htext hb
  obtain ⟨rfl, rfl⟩ := ha.unique ha₁
  exact hagain text' _ htext' ha'

theorem exceeds_again (h : Leads kind depth p q view view') (hno : Exceeds q depth text) :
    Exceeds q depth text' := by
  obtain hdeep | ⟨a₁, middle₁, ha₁, hagain⟩ := h.exceeded htext hno
  · exact absurd hdeep ha.not_exceeds
  · obtain ⟨rfl, rfl⟩ := ha.unique ha₁
    exact hagain text' _ htext' ha'

end

/-- A part before it that passes nothing, and a part behind it. -/
theorem of_parts {pre : Production ε} {c : ε} {f : ε → Production β} {ζ : Type}
    {behind : Production ζ} {make : α → ζ → β}
    (hpre : ∀ text, kind text → Reads pre depth text c text)
    (hf : f c = p >>= fun a => behind >>= fun z => pure (make a z)) (hp : Settled p)
    (hbehind : Settled behind) (hview : ∀ a z, view' (make a z) = view a) :
    Leads kind depth p (pre >>= f) view view' := by
  have hmake (a : α) : Settled (behind >>= fun z => Pure.pure (make a z)) :=
    hbehind.bind fun z => .pure _
  have hsettled : Settled (f c) := by
    rw [hf]
    exact hp.bind hmake
  refine ⟨fun {text} htext hno => ?_, fun {text rest b} htext hq => ?_, fun {text} htext hq => ?_⟩
  · refine .bind_next (hpre text htext) ?_
    rw [hf]
    exact hno.bind_first
  · have hread := hq.behind (hpre text htext) hsettled
    rw [hf] at hread
    obtain ⟨a, middle, ha, hread⟩ := hp.reads_bind hmake hread
    obtain ⟨z, last, hz, hread⟩ := hbehind.reads_bind (fun z => .pure (make a z)) hread
    obtain ⟨rfl, rfl⟩ := hread.unique (.pure (make a z))
    refine ⟨a, middle, fun a => make a z, ha, rfl, fun a => hview a z, ?_⟩
    intro text' a' htext' ha'
    refine (hpre text' htext').bind ?_
    rw [hf]
    exact ha'.bind (hz.bind (.pure _))
  · have hexceeds := hq.behind (hpre text htext) hsettled
    rw [hf] at hexceeds
    obtain hno | ⟨a, middle, ha, hexceeds⟩ := hp.exceeds_bind hmake hexceeds
    · exact .inl hno
    obtain hno | ⟨z, last, -, hpure⟩ := hbehind.exceeds_bind (fun z => .pure (make a z)) hexceeds
    · refine .inr ⟨a, middle, ha, fun text' a' htext' ha' => ?_⟩
      refine .bind_next (hpre text' htext') ?_
      rw [hf]
      exact .bind_next ha' hno.bind_first
    · exact absurd hpure (Reads.pure _).not_exceeds

theorem chain {operator : Production Bool} {combine : α → α → α} {view : α → γ}
    (hkind : ∀ text, kind text → text.head?.any isBlank = false) (hp : Settled p)
    (hothers : Settled (many (nextOperand p operator)))
    (hview : ∀ a b, view (combine a b) = view a) :
    Leads kind depth p (Grammar.chain p operator combine) view view := by
  refine of_parts (fun text htext => reads_noBlanks (hkind text htext)) rfl hp hothers ?_
  intro a others
  cases others with
  | nil => rfl
  | cons b others =>
    rw [groupRight_cons]
    exact hview a _

end Leads

structure OpensStep (text : List Char) : Prop where
  blank : text.head?.any isBlank = false
  slash : "/".toList.isPrefixOf text = false

structure OpensTest (text : List Char) : Prop extends OpensStep text where
  axis : axisAt? text = none
  heading : startsWithWord "heading" text = false

def sliceBehind : Production (Option Slice) := do
  if ['['].isPrefixOf (← remaining) then return some (← slice) else return none

def stepBehind (inner : Inner) (a : Axis) : Production Step := do
  let test ← stepTest inner
  let s ← sliceBehind
  return ⟨a, test.1, test.2, s⟩

theorem step_eq (inner : Inner) : step inner = attemptOr Axis.child axis >>= stepBehind inner := by
  refine bind_congr fun a => bind_congr fun test => ?_
  rw [sliceBehind, bind_assoc]
  refine bind_congr fun rest => ?_
  split <;> simp

theorem refuses_axis {depth : Nat} {text : List Char} (h : axisAt? text = none) :
    Refuses axis depth text := by
  rw [axis_eq]
  refine Refuses.bind_next reads_remaining ?_
  rw [h]
  exact refuses_fail rfl

section
variable {α : Type} {operand : Production α} {word : String} {kind : TokenKind}
  {combine : α → α → α}

theorem parallel_operator (hword : word ∈ ["and", "or", "intersect", "except", "union"])
    (hkind : kind ≠ .comparison) (before : List Token) (shift : Nat) :
    Parallel (.mk before shift []) true false 0 0 (Grammar.word word kind) := by
  have hall : ∀ word ∈ ["and", "or", "intersect", "except", "union"], word ≠ "" ∧
      word.toList.all (!isEdge ·) = true ∧ word.toList.all isPlain = true := by decide
  obtain ⟨hw, hedge, hplain⟩ := hall word hword
  exact .word (apart_alone before shift) hw hkind hedge hplain fun _ _ => startsWithWord_nil hw

section
variable (hword : word ∈ ["and", "or", "intersect", "except", "union"]) (hkind : kind ≠ .comparison)
  (hp : Alone operand)
include hword hkind hp

theorem alone_chain : Alone (chain operand (Grammar.word word kind) combine) := by
  have hw : word ≠ "" := by rintro rfl; simp at hword
  exact fun before shift =>
    .chain hw (hp before shift) (parallel_operator hword hkind before shift)

theorem leads_chain {γ : Type} {kind' : List Char → Prop} {view : α → γ} {depth : Nat}
    (hkind' : ∀ text, kind' text → OpensStep text) (hview : ∀ a b, view (combine a b) = view a) :
    Leads kind' depth operand (chain operand (Grammar.word word kind) combine) view view := by
  have hw : word ≠ "" := by rintro rfl; simp at hword
  refine .chain (fun text htext => (hkind' text htext).blank) hp.settled ?_ hview
  exact settled_of_parallel fun before shift =>
    .many (consumes_nextOperand hw (hp before shift).grows) (.nextOperand (hp before shift)
      (parallel_operator hword hkind before shift).relax)

end
end

section
variable {inner : Inner} (hi : inner.Alone) {depth : Nat}
include hi

theorem alone_negation : Alone (negation inner) := fun before shift =>
  .negation (apart_alone before shift) (hi.keeps before shift)

theorem alone_conjunction : Alone (conjunction inner) :=
  alone_chain (by decide) (by decide) (alone_negation hi)

theorem alone_disjunction : Alone (disjunction inner) :=
  alone_chain (by decide) (by decide) (alone_conjunction hi)

theorem alone_stepTest : Alone (stepTest inner) := fun before shift =>
  .stepTest (apart_alone before shift) (hi.keeps before shift)

theorem alone_step : Alone (step inner) := fun before shift =>
  .step (apart_alone before shift) (hi.keeps before shift)

theorem alone_pathOperand : Alone (pathOperand inner) := fun before shift =>
  .pathOperand (apart_alone before shift) (hi.keeps before shift)

theorem alone_intersection : Alone (intersection inner) :=
  alone_chain (by decide) (by decide) (alone_pathOperand hi)

theorem alone_exception : Alone (exception inner) :=
  alone_chain (by decide) (by decide) (alone_intersection hi)

theorem alone_union : Alone (union inner) :=
  alone_chain (by decide) (by decide) (alone_exception hi)

omit hi in
theorem settled_sliceBehind : Settled sliceBehind := by
  refine settled_of_parallel (i := 0) (j := 0) fun before shift => ?_
  refine .remaining_bind (fun rest => ?_) (fun rest => by rw [List.append_nil]) fun _ => rfl
  split
  · exact ((Parallel.slice (apart_alone before shift)).map some).relax
  · exact .pure none

theorem leads_conjunction : Leads OpensTest depth (negation inner) (conjunction inner)
    (fun p => some p.first) (fun p => some p.first) :=
  leads_chain (by decide) (by decide) (alone_negation hi) (fun _ h => h.toOpensStep) fun _ _ => rfl

theorem leads_disjunction : Leads OpensTest depth (conjunction inner) (disjunction inner)
    (fun p => some p.first) (fun p => some p.first) :=
  leads_chain (by decide) (by decide) (alone_conjunction hi) (fun _ h => h.toOpensStep)
    fun _ _ => rfl

theorem Inner.Alone.follows : inner.Follows Grown :=
  (hi.keeps [] 0).follows

theorem leads_stepTest : Leads (fun text => startsWithWord "heading" text = false) depth
    (disjunction inner) (stepTest inner) (fun p => some p.first)
    (fun test => some test.2.first) := by
  have hforms {text : List Char} (htext : startsWithWord "heading" text = false) :
      Refuses (headingTest inner) depth text ∧ Refuses bareHeading depth text :=
    ⟨(refuses_headingType htext).bind_first, (refuses_headingType htext).bind_first⟩
  have hexceeds {text : List Char} (htext : startsWithWord "heading" text = false)
      (hno : Exceeds (disjunction inner) depth text) : Exceeds (stepTest inner) depth text := by
    have hlast : Exceeds (predicateTest inner) depth text := hno.bind_first
    exact ((hforms htext).1.firstOf_exceeds (discipline_grown.follows_headingTest hi.follows)
      ((hforms htext).2.firstOf_exceeds discipline_grown.follows_bareHeading
        hlast.firstOf)).bind_first
  have hrefuses {text : List Char} (htext : startsWithWord "heading" text = false)
      (hno : Refuses (disjunction inner) depth text) : Refuses (stepTest inner) depth text := by
    have hlast : Refuses (predicateTest inner) depth text := hno.bind_first
    have hnone : Reads (firstOf [headingTest inner, bareHeading, predicateTest inner]) depth text
        none text :=
      (hforms htext).1.firstOf (discipline_grown.follows_headingTest hi.follows)
        ((hforms htext).2.firstOf discipline_grown.follows_bareHeading
          (hlast.firstOf (discipline_grown.follows_predicateTest hi.follows) (.pure none)))
    exact .bind_next hnone (refuses_fail rfl)
  refine ⟨hexceeds, fun {text rest test} htext htest => ?_, fun {text} htext htest => ?_⟩
  · obtain ⟨p, rest', hp⟩ | hno | hno := (alone_disjunction hi).settled depth text
    · obtain ⟨rfl, rfl⟩ := htest.unique (reads_stepTest_any hi.follows htext hp)
      exact ⟨p, _, fun p => (.any, p), hp, rfl, fun _ => rfl,
        fun text' p' htext' => reads_stepTest_any hi.follows htext'⟩
    · exact absurd (hrefuses htext hno) htest.not_refuses
    · exact absurd (hexceeds htext hno) htest.not_exceeds
  · obtain ⟨p, rest, hp⟩ | hno | hno := (alone_disjunction hi).settled depth text
    · exact absurd htest (reads_stepTest_any hi.follows htext hp).not_exceeds
    · exact absurd htest (hrefuses htext hno).not_exceeds
    · exact .inl hno

omit hi in
theorem reads_noAxis {text : List Char} (h : axisAt? text = none) :
    Reads (attemptOr Axis.child axis) depth text .child text :=
  (refuses_axis h).attemptOr _ discipline_grown.follows_axis

theorem leads_step : Leads OpensTest depth (stepTest inner) (step inner)
    (fun test => some test.2.first) (fun s => some s.predicate.first) := by
  rw [step_eq]
  exact .of_parts (fun text htext => reads_noAxis htext.axis) rfl (alone_stepTest hi).settled
    settled_sliceBehind fun _ _ => rfl

theorem leads_path : Leads OpensStep depth (step inner) (path inner)
    (fun s => some s.predicate.first) (fun p => p.steps.head?.map (·.predicate.first)) := by
  have hothers : Alone (many (nextStep inner)) := fun before shift =>
    .many (consumes_nextStep hi.follows)
      (.nextStep (apart_alone before shift) (hi.keeps before shift))
  exact .of_parts (fun text htext => reads_operator_false htext.slash) rfl (alone_step hi).settled
    hothers.settled fun _ _ => rfl

theorem leads_pathOperand : Leads OpensStep depth (path inner) (pathOperand inner)
    (fun p => p.steps.head?.map (·.predicate.first)) Location.first := by
  have hpath : Alone (path inner) := fun before shift =>
    .path (apart_alone before shift) (hi.keeps before shift)
  have hbehind : (do return Location.path (← path inner)) =
      path inner >>= fun p => Pure.pure () >>= fun _ => Pure.pure (Location.path p) := rfl
  exact .of_parts (fun text htext => reads_noBlanks htext.blank) hbehind hpath.settled (.pure ())
    fun _ _ => rfl

theorem leads_union_step : Leads OpensStep depth (step inner) (union inner)
    (fun s => some s.predicate.first) Location.first := by
  have hfirst : Leads OpensStep depth (step inner) (pathOperand inner)
      (fun s => some s.predicate.first) Location.first :=
    (leads_path hi).trans (leads_pathOperand hi)
  have hintersect : Leads OpensStep depth (pathOperand inner) (intersection inner)
      Location.first Location.first :=
    leads_chain (by decide) (by decide) (alone_pathOperand hi) (fun _ h => h) fun _ _ => rfl
  have hexcept : Leads OpensStep depth (intersection inner) (exception inner)
      Location.first Location.first :=
    leads_chain (by decide) (by decide) (alone_intersection hi) (fun _ h => h) fun _ _ => rfl
  have hunion : Leads OpensStep depth (exception inner) (union inner)
      Location.first Location.first :=
    leads_chain (by decide) (by decide) (alone_exception hi) (fun _ h => h) fun _ _ => rfl
  exact hfirst.trans (hintersect.trans (hexcept.trans hunion))

theorem leads_union : Leads OpensTest depth (disjunction inner) (union inner)
    (fun p => some p.first) Location.first :=
  ((leads_stepTest hi).narrow fun _ h => h.heading).trans ((leads_step hi).trans
    ((leads_union_step hi).narrow fun _ h => h.toOpensStep))

end
end Grammar
end OutlineQuery
