import Mathlib.Data.List.Forall2
import OutlineQuery.Proofs.Productions

/-! Two productions that do the same, the second of them so many levels of nesting further in. Every
part of the grammar does the same with two productions between its parentheses that do; and these
run only where something has been read in front of them, so it does not matter what they would do
elsewhere. -/

namespace OutlineQuery.Grammar
open Production Text

def State.deeper (s : State) (n : Nat) : State := { s with depth := s.depth + n }

def deeperResult {α : Type} (n : Nat) :
    EStateM.Result Reason State α → EStateM.Result Reason State α
  | .ok a s => .ok a (s.deeper n)
  | .error reason s => .error reason (s.deeper n)

structure Zone where
  Holds : State → Prop
  grown {s t : State} : Holds s → Grown s t → Holds t

namespace Zone

def everywhere : Zone := ⟨fun _ => True, fun _ _ => trivial⟩

def atDepth (depth : Nat) : Zone := ⟨(·.depth = depth), fun hs h => h.depth.trans hs⟩

def reached (s : State) : Zone := ⟨Grown s, Grown.trans⟩

def beyond (s : State) : Zone where
  Holds t := Grown s t ∧ s.cursor.offset < t.cursor.offset
  grown h h' := ⟨h.1.trans h', Nat.lt_of_lt_of_le h.2 h'.offset_le⟩

def Before (Z W : Zone) : Prop :=
  ∀ {s t : State}, Z.Holds s → Grown s t → s.cursor.offset < t.cursor.offset → W.Holds t

theorem before_self (Z : Zone) : Z.Before Z := fun hs h _ => Z.grown hs h

theorem reached_before_beyond (s : State) : (reached s).Before (beyond s) :=
  fun hs h hlt => ⟨hs.trans h, Nat.lt_of_le_of_lt hs.offset_le hlt⟩

end Zone

/-- In the zone the second production, so many levels further in, comes to the same as the first; or
the first one is cut off for being too deep, if that is allowed for. -/
structure Tracks {α : Type} (n : Nat) (cut : Prop) (Z : Zone) (p q : Production α) : Prop where
  grows : p.Follows Grown
  run {s : State} : Z.Holds s →
    (cut ∧ ∃ t, p s = .error .tooDeep t) ∨ q (s.deeper n) = deeperResult n (p s)

structure Inner.Tracks (n : Nat) (cut : Prop) (Z : Zone) (inner inner' : Inner) : Prop where
  predicate : Grammar.Tracks n cut Z inner.predicate inner'.predicate
  argument : Grammar.Tracks n cut Z inner.argument inner'.argument

namespace Tracks
variable {α β : Type} {n : Nat} {cut : Prop} {Z W : Zone} {p q : Production α}
  {f g : α → Production β}

theorem narrow (hp : Tracks n cut W p q) (h : ∀ {s : State}, Z.Holds s → W.Holds s) :
    Tracks n cut Z p q :=
  ⟨hp.grows, fun hs => hp.run (h hs)⟩

theorem deeperResult_zero (r : EStateM.Result Reason State α) : deeperResult 0 r = r := by
  cases r <;> rfl

/-- At the same depth to do the same is to be equal in the zone. -/
theorem of_eq (hg : p.Follows Grown) (h : ∀ {s : State}, Z.Holds s → q s = p s) :
    Tracks 0 cut Z p q :=
  ⟨hg, fun hs => .inr ((h hs).trans (deeperResult_zero _).symm)⟩

theorem run_eq (hp : Tracks 0 False Z p q) {s : State} (hs : Z.Holds s) : q s = p s :=
  ((hp.run hs).resolve_left And.left).trans (deeperResult_zero _)

theorem pure (a : α) : Tracks n cut Z (Pure.pure a : Production α) (Pure.pure a) :=
  ⟨discipline_grown.pure a, fun _ => .inr rfl⟩

theorem fail (reason : Reason) :
    Tracks n cut Z (Production.fail reason : Production α) (Production.fail reason) :=
  ⟨discipline_grown.fail reason, fun _ => .inr rfl⟩

theorem tooDeep (hcut : cut) : Tracks n cut Z (Production.fail .tooDeep) q :=
  ⟨discipline_grown.fail .tooDeep, fun _ => .inl ⟨hcut, _, rfl⟩⟩

theorem remaining : Tracks n cut Z remaining remaining :=
  ⟨discipline_grown.remaining, fun _ => .inr rfl⟩

theorem pass (k : Nat) : Tracks n cut Z (pass k) (pass k) :=
  ⟨discipline_grown.silent (silent_pass k), fun _ => .inr rfl⟩

/-- The second parts need to do the same only where the first one may have come to. -/
theorem bind_within (hp : Tracks n cut Z p q) (hf : ∀ a, ∃ W : Zone,
      (∀ {s t : State}, Z.Holds s → p s = .ok a t → W.Holds t) ∧ Tracks n cut W (f a) (g a)) :
    Tracks n cut Z (p >>= f) (q >>= g) := by
  have hgrows (a : α) : (f a).Follows Grown :=
    let ⟨_, _, h⟩ := hf a
    h.grows
  refine ⟨discipline_grown.bind hp.grows hgrows, fun {s} hs => ?_⟩
  obtain ⟨hcut, t, hdeep⟩ | hsame := hp.run hs
  · exact .inl ⟨hcut, t, bind_of_error hdeep⟩
  · cases hrun : p s with
    | error reason t =>
      rw [hrun] at hsame
      rw [bind_of_error hrun, bind_of_error hsame]
      exact .inr rfl
    | ok a t =>
      rw [hrun] at hsame
      rw [bind_of_ok hrun, bind_of_ok hsame]
      obtain ⟨W, hreach, h⟩ := hf a
      exact h.run (hreach hs hrun)

theorem bind (hp : Tracks n cut Z p q) (hf : ∀ a, Tracks n cut Z (f a) (g a)) :
    Tracks n cut Z (p >>= f) (q >>= g) := by
  refine hp.bind_within fun a => ⟨Z, fun {s t} hs hrun => ?_, hf a⟩
  have hgrown := hp.grows s
  rw [finish_of_ok hrun] at hgrown
  exact Z.grown hs hgrown

/-- Behind what takes up part of the text the second zone begins. -/
theorem bind_beyond (hZ : Z.Before W) (hp : Tracks n cut Z p q) (ha : p.Advances)
    (hf : ∀ a, Tracks n cut W (f a) (g a)) : Tracks n cut Z (p >>= f) (q >>= g) := by
  refine hp.bind_within fun a => ⟨W, fun {s t} hs hrun => ?_, hf a⟩
  have hgrown := hp.grows s
  rw [finish_of_ok hrun] at hgrown
  exact hZ hs hgrown (ha s a t hrun)

theorem map (hp : Tracks n cut Z p q) (g : α → β) :
    Tracks n cut Z (do return g (← p)) (do return g (← q)) :=
  hp.bind fun a => pure (g a)

theorem attempt (hp : Tracks n cut Z p q) : Tracks n cut Z (attempt p) (attempt q) := by
  refine ⟨discipline_grown.attempt hp.grows, fun {s} hs => ?_⟩
  obtain ⟨hcut, t, hdeep⟩ | hsame := hp.run hs
  · exact .inl ⟨hcut, t, attempt_of_fatal hdeep rfl⟩
  · right
    rw [Production.attempt, Production.attempt, hsame]
    cases p s with
    | ok a t => rfl
    | error reason t =>
      cases hr : reason.isFatal with
      | true =>
        simp only [deeperResult, hr]
        rfl
      | false =>
        simp only [deeperResult, hr]
        rfl

theorem attemptOr (default : α) (hp : Tracks n cut Z p q) :
    Tracks n cut Z (attemptOr default p) (attemptOr default q) :=
  hp.attempt.map _

/-- One alternative or the other, whichever can be read. -/
theorem alternative {f g : Option α → Production β} (hp : Tracks n cut Z p q)
    (hsome : ∀ a, Tracks n cut Z (f (some a)) (g (some a)))
    (hnone : Tracks n cut Z (f none) (g none)) :
    Tracks n cut Z (Production.attempt p >>= f) (Production.attempt q >>= g) := by
  refine hp.attempt.bind fun found => ?_
  cases found with
  | some a => exact hsome a
  | none => exact hnone

theorem firstOf {ps qs : List (Production α)} (h : List.Forall₂ (Tracks n cut Z) ps qs) :
    Tracks n cut Z (firstOf ps) (firstOf qs) := by
  induction h with
  | nil => exact pure none
  | cons hp _ ih => exact hp.alternative (fun a => pure (some a)) ih

theorem record (kind : TokenKind) (hp : Tracks n cut Z p q) :
    Tracks n cut Z (record kind p) (record kind q) := by
  refine ⟨follows_grown_record kind hp.grows, fun {s} hs => ?_⟩
  obtain ⟨hcut, t, hdeep⟩ | hsame := hp.run hs
  · exact .inl ⟨hcut, t, record_of_error hdeep⟩
  · right
    cases hrun : p s with
    | ok a t =>
      rw [hrun] at hsame
      rw [record_of_ok hrun, record_of_ok hsame]
      rfl
    | error reason t =>
      rw [hrun] at hsame
      rw [record_of_error hrun, record_of_error hsame]
      rfl

theorem manyWithin {item item' : Production (Option α)} (hp : Tracks n cut Z item item')
    (bound : List Char) : Tracks n cut Z (manyWithin item bound) (manyWithin item' bound) := by
  induction bound with
  | nil => exact pure []
  | cons c bound ih =>
    refine hp.bind fun found => ?_
    cases found with
    | some a => exact ih.map _
    | none => exact pure []

theorem many {item item' : Production (Option α)} (hp : Tracks n cut Z item item') :
    Tracks n cut Z (many item) (many item') :=
  remaining.bind fun bound => hp.manyWithin bound

/-- The limits have to leave a level more at the same places. -/
theorem nested {limit limit' : Nat}
    (hlimit : ∀ {s : State}, Z.Holds s → (s.depth < limit ↔ s.depth + n < limit'))
    (hW : ∀ {s : State}, Z.Holds s → W.Holds { s with depth := s.depth + 1 })
    (hp : Tracks n cut W p q) : Tracks n cut Z (nested limit p) (nested limit' q) := by
  refine ⟨discipline_grown.nested limit hp.grows, fun {s} hs => ?_⟩
  by_cases hd : s.depth < limit
  · have hd' : (s.deeper n).depth < limit' := (hlimit hs).mp hd
    have hdeeper : { s.deeper n with depth := (s.deeper n).depth + 1 } =
        { s with depth := s.depth + 1 }.deeper n := by
      rw [State.deeper, State.deeper, Nat.add_right_comm]
    rw [Production.nested, Production.nested, if_pos hd, if_pos hd', hdeeper]
    obtain ⟨hcut, t, hdeep⟩ | hsame := hp.run (hW hs)
    · rw [hdeep]
      exact .inl ⟨hcut, _, rfl⟩
    · -- the level that is left again was entered, so there is one to count back
      have hback : ∀ {t : State}, t.depth = s.depth + 1 →
          { t.deeper n with depth := (t.deeper n).depth - 1 } =
            { t with depth := t.depth - 1 }.deeper n := by
        intro t ht
        rw [State.deeper, State.deeper, ht, Nat.add_right_comm]
        rfl
      have hdepth := (hp.grows { s with depth := s.depth + 1 }).depth
      right
      rw [hsame]
      cases hrun : p { s with depth := s.depth + 1 } with
      | ok a t =>
        rw [finish_of_ok hrun] at hdepth
        exact congrArg (EStateM.Result.ok a) (hback hdepth)
      | error reason t =>
        rw [finish_of_error hrun] at hdepth
        exact congrArg (EStateM.Result.error reason) (hback hdepth)
  · have hd' : ¬(s.deeper n).depth < limit' := fun h => hd ((hlimit hs).mpr h)
    rw [Production.nested, Production.nested, if_neg hd, if_neg hd']
    exact .inr rfl

theorem skip (text : String) : Tracks n cut Z (skip text) (skip text) := by
  refine remaining.bind fun rest => ?_
  split
  · exact (pass _).map _
  · exact pure false

theorem expect (text : String) : Tracks n cut Z (expect text) (expect text) := by
  refine (skip text).bind fun found => ?_
  cases found with
  | true => exact pure ()
  | false => exact fail _

theorem word (text : String) (kind : TokenKind) :
    Tracks n cut Z (word text kind) (word text kind) := by
  rw [word_eq]
  refine remaining.bind fun rest => ?_
  split
  · exact ((pass _).record kind).map _
  · exact pure false

theorem operator (text : String) (kind : TokenKind) :
    Tracks n cut Z (operator text kind) (operator text kind) := by
  refine remaining.bind fun rest => ?_
  split
  · exact ((pass _).record kind).map _
  · exact pure false

theorem blanks : Tracks n cut Z blanks blanks := remaining.bind fun _ => (pass _).map _

theorem skipBlanks : Tracks n cut Z skipBlanks skipBlanks := blanks.map _

theorem expectEnd : Tracks n cut Z expectEnd expectEnd := by
  refine skipBlanks.bind fun _ => (remaining.map _).bind fun finished => ?_
  cases finished with
  | true => exact pure ()
  | false => exact fail _

theorem identifier : Tracks n cut Z identifier identifier := by
  refine remaining.bind fun rest => ?_
  cases rest with
  | nil => exact fail _
  | cons c text =>
    dsimp only
    split
    · exact (pass _).map _
    · exact fail _

theorem quoted : Tracks n cut Z quoted quoted := by
  refine (expect "\"").bind fun _ => remaining.bind fun rest => (pass _).bind fun _ => ?_
  cases (quotedBody rest).2 with
  | ok text => exact pure text
  | error reason => exact fail reason

theorem symbolOrIdentifier : Tracks n cut Z symbolOrIdentifier symbolOrIdentifier := by
  refine remaining.bind fun rest => ?_
  cases rest with
  | nil => exact identifier
  | cons c text =>
    dsimp only
    split
    · exact (pass 1).map _
    · exact identifier

theorem string : Tracks n cut Z string string := by
  refine remaining.bind fun rest => ?_
  split
  · exact quoted.record _
  · refine Tracks.record _ (remaining.bind fun rest => ?_)
    split
    · exact fail _
    · exact symbolOrIdentifier

theorem integer : Tracks n cut Z integer integer := by
  refine (skip "-").bind fun negative => remaining.bind fun rest => ?_
  dsimp only
  split
  · exact fail _
  · refine (pass _).bind fun _ => ?_
    generalize (if negative = true then _ else _ : Int) = k
    split
    · exact pure _
    · exact fail _

theorem axis : Tracks n cut Z axis axis := by
  rw [axis_eq]
  refine remaining.bind fun rest => ?_
  cases axisAt? rest with
  | some a => exact ((pass _).record _).map _
  | none => exact fail _

theorem chain {text : String} {kind : TokenKind} (combine : α → α → α) (hp : Tracks n cut Z p q) :
    Tracks n cut Z (chain p (Grammar.word text kind) combine)
      (chain q (Grammar.word text kind) combine) := by
  have hnext : Tracks n cut Z (nextOperand p (Grammar.word text kind))
      (nextOperand q (Grammar.word text kind)) := by
    refine skipBlanks.bind fun _ => (word text kind).bind fun found => ?_
    cases found with
    | true => exact skipBlanks.bind fun _ => hp.map _
    | false => exact pure none
  exact skipBlanks.bind fun _ => hp.bind fun _ => hnext.many.map _

theorem relation : Tracks n cut Z relation relation := by
  rw [relation_eq]
  refine remaining.bind fun rest => ?_
  cases relationAt? rest with
  | some r => exact ((pass _).record _).map _
  | none => exact fail _

theorem modifier : Tracks n cut Z modifier modifier := by
  refine Tracks.record _ ((expect "[").bind fun _ => remaining.bind fun rest => ?_)
  cases rest with
  | nil => exact fail _
  | cons c text =>
    dsimp only
    cases Modifier.ofLetter? c with
    | none => exact fail _
    | some m => exact (pass 1).bind fun _ => (expect "]").map _

theorem relationBehind : Tracks n cut Z relationBehind relationBehind :=
  (skipBlanks.bind fun _ => relation).attemptOr _

theorem modifierBehind : Tracks n cut Z modifierBehind modifierBehind :=
  (skipBlanks.bind fun _ => modifier).attemptOr _

theorem slice : Tracks n cut Z slice slice :=
  ((expect "[").bind fun _ => integer.bind fun _ => (expect "]").map _).alternative pure
    ((expect "[").bind fun _ => integer.attempt.bind fun _ => (expect ":").bind fun _ =>
      integer.attempt.bind fun _ => (expect "]").map _)

theorem value : Tracks n cut Z value value := by
  have hattribute : Tracks n cut Z attributeValue attributeValue :=
    (((expect "@").bind fun _ => identifier).record _).map _
  have hpiece : Tracks n cut Z piece piece := blanks.bind fun gap => string.map _
  exact hattribute.alternative pure (string.bind fun _ => hpiece.attempt.many.map _)

theorem loneValue : Tracks n cut Z loneValue loneValue := by
  refine value.bind fun v => modifierBehind.bind fun m => ?_
  cases v <;> exact pure _

section
variable {inner inner' : Inner} (hZ : Z.Before W) (hi : inner.Tracks n cut W inner')
include hZ hi

/-- The name stands in front of the argument. -/
theorem function : Tracks n cut Z (function inner) (function inner') :=
  (identifier.record _).bind_beyond hZ (advances_record _ advances_identifier) fun _ =>
    (expect "(").bind fun _ => hi.argument.bind fun _ => (expect ")").map _

theorem operand : Tracks n cut Z (operand inner) (operand inner') :=
  (function hZ hi).alternative (fun _ => pure _) value

theorem fullComparison : Tracks n cut Z (fullComparison inner) (fullComparison inner') :=
  (operand hZ hi).bind fun _ => relationBehind.bind fun _ => modifierBehind.bind fun _ =>
    skipBlanks.bind fun _ => (operand hZ hi).map _

theorem textComparison : Tracks n cut Z (textComparison inner) (textComparison inner') :=
  (relation.attemptOr _).bind fun _ => skipBlanks.bind fun _ => (modifier.attemptOr _).bind fun _ =>
    skipBlanks.bind fun _ => (operand hZ hi).map _

theorem starOrComparison :
    Tracks n cut Z (starOrComparison inner) (starOrComparison inner') := by
  refine (skip "*").bind fun star => ?_
  cases star with
  | true => exact pure _
  | false =>
    have hforms := firstOf (.cons (fullComparison hZ hi)
      (.cons loneValue (.cons (textComparison hZ hi) .nil)))
    refine hforms.bind fun found => ?_
    cases found with
    | some p => exact pure p
    | none => exact fail _

theorem comparison : Tracks n cut Z (comparison inner) (comparison inner') :=
  Tracks.alternative (skipBlanks.bind fun _ => (starOrComparison hZ hi).record _) pure (fail _)

/-- The parenthesis stands in front of the predicate. -/
theorem term : Tracks n cut Z (term inner) (term inner') := by
  refine skipBlanks.bind fun _ => (skip "(").bind_within fun bracketed => ?_
  cases bracketed with
  | true =>
    refine ⟨W, fun {s t} hs hrun => ?_, hi.predicate.bind fun p => skipBlanks.bind fun _ =>
      (expect ")").map _⟩
    have hgrown := follows_grown_of_silent (silent_skip "(") s
    rw [finish_of_ok hrun] at hgrown
    exact hZ hs hgrown (offset_lt_of_skip (by decide) hrun)
  | false =>
    refine ⟨Z, fun {s t} hs hrun => ?_, comparison hZ hi⟩
    have hgrown := follows_grown_of_silent (silent_skip "(") s
    rw [finish_of_ok hrun] at hgrown
    exact Z.grown hs hgrown

theorem negation : Tracks n cut Z (negation inner) (negation inner') := by
  have hnot : Tracks n cut Z nextNot nextNot := by
    refine skipBlanks.bind fun _ => (word _ _).bind fun found => ?_
    cases found with
    | true => exact pure _
    | false => exact pure none
  exact hnot.many.bind fun _ => skipBlanks.bind fun _ => (term hZ hi).map _

theorem conjunction : Tracks n cut Z (conjunction inner) (conjunction inner') :=
  (negation hZ hi).chain _

theorem disjunction : Tracks n cut Z (disjunction inner) (disjunction inner') :=
  (conjunction hZ hi).chain _

theorem stepTest : Tracks n cut Z (stepTest inner) (stepTest inner') := by
  have htype : Tracks n cut Z headingType headingType := by
    refine (word _ _).bind fun found => ?_
    cases found with
    | true => exact pure _
    | false => exact fail _
  have hheading : Tracks n cut Z (headingTest inner) (headingTest inner') :=
    htype.bind fun _ => (disjunction hZ hi).map _
  have hpredicate : Tracks n cut Z (predicateTest inner) (predicateTest inner') :=
    (disjunction hZ hi).map _
  have hbare : Tracks n cut Z bareHeading bareHeading := htype.map _
  have hforms := firstOf (.cons hheading (.cons hbare (.cons hpredicate .nil)))
  refine hforms.bind fun found => ?_
  cases found with
  | some test => exact pure test
  | none => exact fail _

theorem step : Tracks n cut Z (step inner) (step inner') := by
  refine (axis.attemptOr _).bind fun a => (stepTest hZ hi).bind fun test =>
    remaining.bind fun rest => ?_
  split
  · exact slice.map _
  · exact pure _

theorem path : Tracks n cut Z (path inner) (path inner') := by
  have hnext : Tracks n cut Z (nextStep inner) (nextStep inner') := by
    refine (operator _ _).bind fun found => ?_
    cases found with
    | true => exact (step hZ hi).map _
    | false => exact pure none
  exact (operator _ _).bind fun _ => (step hZ hi).bind fun _ => hnext.many.map _

theorem union : Tracks n cut Z (union inner) (union inner') := by
  have hoperand : Tracks n cut Z (pathOperand inner) (pathOperand inner') :=
    skipBlanks.bind fun _ => (path hZ hi).map _
  exact ((hoperand.chain _).chain _).chain _

end
end Tracks
end OutlineQuery.Grammar
