import OutlineQuery.Grammar.Location
import OutlineQuery.Proofs.Coherence

/-! A run of a production only ever adds to the state: the cursor goes forward, tokens come behind
those recorded, and the depth is the old one again. That makes the way back out of a failed
attempt exact. -/

namespace OutlineQuery.Grammar
open Production Text

structure Grown (s t : State) : Prop where
  cursor : ∃ n, t.cursor = s.cursor.advance n
  tokens : s.tokens.toList <+: t.tokens.toList
  depth : t.depth = s.depth

namespace Grown
variable {s t u : State}

theorem refl (s : State) : Grown s s := ⟨⟨0, rfl⟩, List.prefix_rfl, rfl⟩

theorem trans (h : Grown s t) (h' : Grown t u) : Grown s u := by
  obtain ⟨m, hm⟩ := h.cursor
  obtain ⟨n, hn⟩ := h'.cursor
  refine ⟨⟨m + n, ?_⟩, h.tokens.trans h'.tokens, h'.depth.trans h.depth⟩
  rw [hn, hm, Cursor.advance_advance]

theorem pass (s : State) (n : Nat) : Grown s (s.pass n) := ⟨⟨n, rfl⟩, List.prefix_rfl, rfl⟩

theorem emit (h : Grown s t) (kind : TokenKind) (start : Cursor) :
    Grown s (t.emit kind start) := by
  refine ⟨h.cursor, h.tokens.trans ?_, h.depth⟩
  simp [State.emit]

theorem deeper (h : Grown { s with depth := s.depth + 1 } t) :
    Grown s { t with depth := t.depth - 1 } := by
  refine ⟨h.cursor, h.tokens, ?_⟩
  simp [h.depth]

theorem offset_le (h : Grown s t) : s.cursor.offset ≤ t.cursor.offset := by
  obtain ⟨n, hn⟩ := h.cursor
  rw [hn]
  exact Cursor.offset_le_advance n s.cursor

/-- Less of the text is left where more of it has been read. -/
theorem shorter_iff (h : Grown s t) :
    t.cursor.rest.length < s.cursor.rest.length ↔ s.cursor.offset < t.cursor.offset := by
  obtain ⟨n, hn⟩ := h.cursor
  constructor
  · intro hlt
    rw [hn, Cursor.rest_advance, List.length_drop] at hlt
    rw [hn]
    refine Cursor.offset_lt_advance (by omega) fun hnil => ?_
    rw [hnil] at hlt
    exact Nat.not_lt_zero _ hlt
  · intro hlt
    rw [hn, Cursor.offset_advance] at hlt
    have hsome : s.cursor.rest.take n ≠ [] := by
      intro hnil
      rw [hnil] at hlt
      exact Nat.lt_irrefl _ hlt
    have hpos := List.length_pos_iff.mpr hsome
    rw [List.length_take] at hpos
    rw [hn, Cursor.rest_advance, List.length_drop]
    omega

/-- What has been read since a snapshot is all undone by going back to it. -/
theorem restore (h : Grown s t) : t.restore s.snapshot = s := by
  obtain ⟨n, hn⟩ := h.cursor
  have hc : t.cursor.seek s.cursor.position = s.cursor := by
    rw [hn]
    exact Cursor.seek_advance n s.cursor
  have ht := TokenLog.truncate_size h.tokens
  simp only [State.restore, State.snapshot, hc, ht, h.depth]

end Grown

namespace Production
variable {α β : Type} {p : Production α} {f : α → Production β} {s t : State}

def finish (p : Production α) (s : State) : State :=
  match p s with
  | .ok _ t => t
  | .error _ t => t

theorem finish_of_ok {a : α} (h : p s = .ok a t) : p.finish s = t := by
  simp [finish, h]

theorem finish_of_error {reason : Reason} (h : p s = .error reason t) : p.finish s = t := by
  simp [finish, h]

theorem bind_of_ok {a : α} (h : p s = .ok a t) : (p >>= f) s = f a t := by
  simp [bind, EStateM.bind, h]

theorem bind_of_error {reason : Reason} (h : p s = .error reason t) :
    (p >>= f) s = .error reason t := by
  simp [bind, EStateM.bind, h]

/-- The last step of every run that succeeds with a bind. -/
theorem bind_ok {b : β} {u : State} (h : (p >>= f) s = .ok b u) :
    ∃ a t, p s = .ok a t ∧ f a t = .ok b u := by
  cases hp : p s with
  | ok a t => exact ⟨a, t, rfl, (bind_of_ok hp).symm.trans h⟩
  | error reason t => rw [bind_of_error hp] at h; cases h

theorem attempt_of_ok {a : α} (h : p s = .ok a t) : attempt p s = .ok (some a) t := by
  simp [attempt, h]

theorem attempt_of_fatal {reason : Reason} (h : p s = .error reason t)
    (hr : reason.isFatal = true) : attempt p s = .error reason t := by
  simp [attempt, h, hr]

/-- An attempt that fails is as if it had not been made. -/
theorem attempt_of_error {reason : Reason} (hp : Grown s (p.finish s))
    (h : p s = .error reason t) (hr : reason.isFatal = false) : attempt p s = .ok none s := by
  rw [finish_of_error h] at hp
  simp [attempt, h, hr, hp.restore]

/-- What an attempt comes to when nothing fatal happens in it. -/
theorem attempt_ok {found : Option α} (hp : Grown s (p.finish s))
    (h : attempt p s = .ok found t) :
    (∃ a, found = some a ∧ p s = .ok a t) ∨
      found = none ∧ t = s ∧ ∃ reason u, p s = .error reason u ∧ reason.isFatal = false := by
  cases hs : p s with
  | ok a u =>
    rw [attempt_of_ok hs] at h
    cases h
    exact .inl ⟨a, rfl, rfl⟩
  | error reason u =>
    cases hr : reason.isFatal with
    | true => rw [attempt_of_fatal hs hr] at h; cases h
    | false =>
      rw [attempt_of_error hp hs hr] at h
      cases h
      exact .inr ⟨rfl, rfl, reason, u, rfl, hr⟩

theorem nested_of_ok {limit : Nat} {a : α}
    (hd : s.depth < limit) (h : p { s with depth := s.depth + 1 } = .ok a t) :
    nested limit p s = .ok a { t with depth := t.depth - 1 } := by
  rw [nested, if_pos hd, h]

theorem nested_of_error {limit : Nat} {reason : Reason}
    (hd : s.depth < limit) (h : p { s with depth := s.depth + 1 } = .error reason t) :
    nested limit p s = .error reason { t with depth := t.depth - 1 } := by
  rw [nested, if_pos hd, h]

/-- A run one level deeper, with the level counted back behind it. -/
theorem nested_ok {limit : Nat} {u : State} {a : α}
    (h : nested limit p s = .ok a u) : s.depth < limit ∧
      ∃ t, p { s with depth := s.depth + 1 } = .ok a t ∧ u = { t with depth := t.depth - 1 } := by
  by_cases hd : s.depth < limit
  · rw [nested, if_pos hd] at h
    cases hp : p { s with depth := s.depth + 1 } with
    | error reason t => rw [hp] at h; cases h
    | ok b t =>
      rw [hp] at h
      cases h
      exact ⟨hd, t, rfl, rfl⟩
  · rw [nested, if_neg hd] at h
    cases h

theorem record_of_ok {kind : TokenKind} {a : α} (h : p s = .ok a t) :
    record kind p s = .ok a (t.emit kind s.cursor) := by
  simp [record, here, emit, bind, EStateM.bind, h]

theorem record_of_error {kind : TokenKind} {reason : Reason} (h : p s = .error reason t) :
    record kind p s = .error reason t := by
  simp [record, here, bind, EStateM.bind, h]

theorem record_ok {kind : TokenKind} {a : α} {u : State} (h : record kind p s = .ok a u) :
    ∃ t, p s = .ok a t ∧ u = t.emit kind s.cursor := by
  cases hp : p s with
  | ok b t =>
    rw [record_of_ok hp] at h
    cases h
    exact ⟨t, rfl, rfl⟩
  | error reason t => rw [record_of_error hp] at h; cases h

def Follows (R : State → State → Prop) (p : Production α) : Prop := ∀ s, R s (p.finish s)

def Silent (p : Production α) : Prop := ∀ s, ∃ n, p.finish s = s.pass n

def Advances (p : Production α) : Prop :=
  ∀ s a t, p s = .ok a t → s.cursor.offset < t.cursor.offset

/-- The alternative that is read runs from where the first of them was tried. -/
theorem firstOf_some {alternatives : List (Production α)}
    (hg : ∀ p ∈ alternatives, p.Follows Grown) {a : α}
    (h : firstOf alternatives s = .ok (some a) t) : ∃ p ∈ alternatives, p s = .ok a t := by
  induction alternatives with
  | nil => cases h
  | cons p alternatives ih =>
    obtain ⟨found, u, h₁, h₂⟩ := bind_ok h
    obtain ⟨b, rfl, hb⟩ | ⟨rfl, rfl, -⟩ := attempt_ok (hg p (by simp) s) h₁
    · cases h₂
      exact ⟨p, by simp, hb⟩
    · obtain ⟨q, hq, hrun⟩ := ih (fun q hq => hg q (List.mem_cons_of_mem p hq)) h₂
      exact ⟨q, List.mem_cons_of_mem p hq, hrun⟩

theorem Advances.bind_first (hp : p.Advances) (hf : ∀ a, (f a).Follows Grown) :
    (p >>= f).Advances := by
  intro s b u h
  obtain ⟨a, t, h₁, h₂⟩ := bind_ok h
  have hlt := hp s a t h₁
  have hle := (hf a t).offset_le
  rw [finish_of_ok h₂] at hle
  omega

theorem Advances.bind_next (hp : p.Follows Grown) (hf : ∀ a, (f a).Advances) :
    (p >>= f).Advances := by
  intro s b u h
  obtain ⟨a, t, h₁, h₂⟩ := bind_ok h
  have hle := (hp s).offset_le
  have hlt := hf a t b u h₂
  rw [finish_of_ok h₁] at hle
  omega

theorem Advances.fail (reason : Reason) : (Production.fail reason : Production α).Advances := by
  intro s a t h
  cases h

theorem Silent.bind (hp : p.Silent) (hf : ∀ a, (f a).Silent) : (p >>= f).Silent := by
  intro s
  obtain ⟨m, hm⟩ := hp s
  cases h : p s with
  | ok a t =>
    obtain ⟨n, hn⟩ := hf a t
    rw [finish_of_ok h] at hm
    refine ⟨m + n, ?_⟩
    rw [finish, bind_of_ok h, ← finish, hn, hm]
    simp [State.pass, Cursor.advance_advance]
  | error reason t =>
    rw [finish_of_error h] at hm
    exact ⟨m, by rw [finish_of_error (bind_of_error h), hm]⟩

theorem Silent.pure (a : α) : (Pure.pure a : Production α).Silent := fun _ => ⟨0, rfl⟩

theorem Silent.fail (reason : Reason) : (Production.fail reason : Production α).Silent :=
  fun _ => ⟨0, rfl⟩

theorem silent_remaining : remaining.Silent := fun _ => ⟨0, rfl⟩

theorem silent_pass (n : Nat) : (pass n).Silent := fun _ => ⟨n, rfl⟩

end Production
end OutlineQuery.Grammar
