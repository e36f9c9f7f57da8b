import OutlineQuery.Proofs.Growth

/-! Which relations between the states before and after a run every production keeps. It is enough
that a relation allows for what is done to a state in four places: characters are passed, a token is
recorded for characters just passed, a comparison is recorded around what was read of it, and a
level of nesting is entered and left. -/

namespace OutlineQuery.Grammar
open Production Text

structure Discipline (R : State → State → Prop) : Prop where
  refl (s : State) : R s s
  trans {s t u : State} : R s t → R t u → R s u
  grown {s t : State} : R s t → Grown s t
  deeper {s t : State} : R { s with depth := s.depth + 1 } t → R s { t with depth := t.depth - 1 }
  pass (s : State) (n : Nat) : R s (s.pass n)
  lexeme {s : State} {n : Nat} {kind : TokenKind} : kind ≠ .comparison →
    s.cursor.offset < (s.pass n).cursor.offset → R s ((s.pass n).emit kind s.cursor)
  enclosing {s t : State} : R s t → s.cursor.offset < t.cursor.offset →
    R s (t.emit .comparison s.cursor)

/-- Growth is the loosest discipline. -/
theorem discipline_grown : Discipline Grown where
  refl := Grown.refl
  trans := Grown.trans
  grown h := h
  deeper := Grown.deeper
  pass := Grown.pass
  lexeme _ _ := (Grown.pass _ _).emit _ _
  enclosing h _ := h.emit _ _

theorem follows_grown_record {α : Type} {p : Production α} (kind : TokenKind)
    (hp : p.Follows Grown) :
    (record kind p).Follows Grown := by
  intro s
  have hs := hp s
  cases h : p s with
  | ok a t =>
    rw [finish_of_ok h] at hs
    rw [finish_of_ok (record_of_ok h)]
    exact hs.emit kind s.cursor
  | error reason t =>
    rw [finish_of_error h] at hs
    rw [finish_of_error (record_of_error h)]
    exact hs

structure Inner.Follows (R : State → State → Prop) (inner : Inner) : Prop where
  predicate : inner.predicate.Follows R
  argument : inner.argument.Follows R

namespace Discipline
variable {R : State → State → Prop} {α β : Type} {p : Production α} {f : α → Production β}
  {inner : Inner}

theorem inner_grown (hR : Discipline R) (hi : inner.Follows R) : inner.Follows Grown :=
  ⟨fun s => hR.grown (hi.predicate s), fun s => hR.grown (hi.argument s)⟩

theorem silent (hR : Discipline R) (hp : p.Silent) : p.Follows R := by
  intro s
  obtain ⟨n, hn⟩ := hp s
  rw [hn]
  exact hR.pass s n

theorem pure (hR : Discipline R) (a : α) : (Pure.pure a : Production α).Follows R :=
  hR.silent (.pure a)

theorem fail (hR : Discipline R) (reason : Reason) :
    (Production.fail reason : Production α).Follows R :=
  hR.silent (.fail reason)

theorem remaining (hR : Discipline R) : Production.remaining.Follows R :=
  hR.silent silent_remaining

theorem bind (hR : Discipline R) (hp : p.Follows R) (hf : ∀ a, (f a).Follows R) :
    (p >>= f).Follows R := by
  intro s
  have h₁ := hp s
  cases h : p s with
  | ok a t =>
    have h₂ := hf a t
    rw [finish_of_ok h] at h₁
    rw [finish, bind_of_ok h]
    exact hR.trans h₁ h₂
  | error reason t =>
    rw [finish_of_error h] at h₁
    rw [finish_of_error (bind_of_error h)]
    exact h₁

theorem attempt (hR : Discipline R) (hp : p.Follows R) : (attempt p).Follows R := by
  intro s
  have h₁ := hp s
  cases h : p s with
  | ok a t =>
    rw [finish_of_ok h] at h₁
    rw [finish_of_ok (attempt_of_ok h)]
    exact h₁
  | error reason t =>
    cases hr : reason.isFatal with
    | true =>
      rw [finish_of_error h] at h₁
      rw [finish_of_error (attempt_of_fatal h hr)]
      exact h₁
    | false =>
      rw [finish_of_ok (attempt_of_error (hR.grown h₁) h hr)]
      exact hR.refl s

theorem attemptOr (hR : Discipline R) (default : α) (hp : p.Follows R) :
    (attemptOr default p).Follows R :=
  hR.bind (hR.attempt hp) fun _ => hR.pure _

theorem firstOf (hR : Discipline R) {alternatives : List (Production α)}
    (h : ∀ p ∈ alternatives, p.Follows R) : (firstOf alternatives).Follows R := by
  induction alternatives with
  | nil => exact hR.pure none
  | cons p alternatives ih =>
    refine hR.bind (hR.attempt (h p (by simp))) fun found => ?_
    cases found with
    | some a => exact hR.pure (some a)
    | none => exact ih fun q hq => h q (List.mem_cons_of_mem p hq)

theorem manyWithin (hR : Discipline R) {item : Production (Option α)} (hp : item.Follows R)
    (bound : List Char) : (manyWithin item bound).Follows R := by
  induction bound with
  | nil => exact hR.pure []
  | cons c bound ih =>
    refine hR.bind hp fun found => ?_
    cases found with
    | some a => exact hR.bind ih fun _ => hR.pure _
    | none => exact hR.pure []

theorem many (hR : Discipline R) {item : Production (Option α)} (hp : item.Follows R) :
    (many item).Follows R :=
  hR.bind hR.remaining fun bound => hR.manyWithin hp bound

theorem nested (hR : Discipline R) (limit : Nat) (hp : p.Follows R) :
    (nested limit p).Follows R := by
  intro s
  have h₁ := hR.deeper (hp { s with depth := s.depth + 1 })
  unfold finish Production.nested at *
  by_cases hd : s.depth < limit
  · rw [if_pos hd]
    cases h : p { s with depth := s.depth + 1 } <;> simpa [h] using h₁
  · rw [if_neg hd]
    exact hR.refl s

/-- A token for what is passed by a production that records nothing itself. -/
theorem record (hR : Discipline R) {kind : TokenKind} (hk : kind ≠ .comparison)
    (hs : p.Silent) (ha : p.Advances) : (record kind p).Follows R := by
  intro s
  obtain ⟨n, hn⟩ := hs s
  cases h : p s with
  | ok a t =>
    have hlt := ha s a t h
    rw [finish_of_ok h] at hn
    subst hn
    rw [finish_of_ok (record_of_ok h)]
    exact hR.lexeme hk hlt
  | error reason t =>
    rw [finish_of_error h] at hn
    rw [finish_of_error (record_of_error h), hn]
    exact hR.pass s n

/-- The token of a comparison stands behind those for the parts of it. -/
theorem recordComparison (hR : Discipline R) (hp : p.Follows R) (ha : p.Advances) :
    (Production.record .comparison p).Follows R := by
  intro s
  have h₁ := hp s
  cases h : p s with
  | ok a t =>
    rw [finish_of_ok h] at h₁
    rw [finish_of_ok (record_of_ok h)]
    exact hR.enclosing h₁ (ha s a t h)
  | error reason t =>
    rw [finish_of_error h] at h₁
    rw [finish_of_error (record_of_error h)]
    exact h₁

end Discipline
end OutlineQuery.Grammar
