import OutlineQuery.Proofs.Joining

/-! What a production comes to is settled by the text that comes next and by the depth: it reads
some of the text, or refuses it, or runs out of levels. So a single run tells what all others come
to, and the first part of a production can be exchanged for another that leaves the same text. -/

namespace OutlineQuery.Grammar
open Production Text

def Exceeds {α : Type} (p : Production α) (depth : Nat) (text : List Char) : Prop :=
  ∀ s : State, s.At depth text → ∃ reason t, p s = .error reason t ∧ reason.isFatal = true

def Settled {α : Type} (p : Production α) : Prop := ∀ depth text,
  (∃ a rest, Reads p depth text a rest) ∨ Refuses p depth text ∨ Exceeds p depth text

section
variable {α β : Type} {p : Production α} {f : α → Production β} {a : α} {depth : Nat}
  {text middle : List Char}

theorem Exceeds.bind_first (hp : Exceeds p depth text) : Exceeds (p >>= f) depth text := by
  intro s hs
  obtain ⟨reason, t, hpt, hr⟩ := hp s hs
  exact ⟨reason, t, bind_of_error hpt, hr⟩

theorem Exceeds.bind_next (hp : Reads p depth text a middle) (hf : Exceeds (f a) depth middle) :
    Exceeds (p >>= f) depth text := by
  intro s hs
  obtain ⟨t, hpt, ht⟩ := hp s hs
  obtain ⟨reason, u, hfu, hr⟩ := hf t ht
  exact ⟨reason, u, (bind_of_ok hpt).trans hfu, hr⟩

theorem Exceeds.record {kind : TokenKind} (hp : Exceeds p depth text) :
    Exceeds (record kind p) depth text := by
  intro s hs
  obtain ⟨reason, t, hpt, hr⟩ := hp s hs
  exact ⟨reason, t, record_of_error hpt, hr⟩

theorem Exceeds.attempt (hp : Exceeds p depth text) : Exceeds (attempt p) depth text := by
  intro s hs
  obtain ⟨reason, t, hpt, hr⟩ := hp s hs
  exact ⟨reason, t, attempt_of_fatal hpt hr, hr⟩

theorem Exceeds.firstOf {alternatives : List (Production α)} (hp : Exceeds p depth text) :
    Exceeds (firstOf (p :: alternatives)) depth text :=
  hp.attempt.bind_first

theorem Refuses.firstOf_exceeds {alternatives : List (Production α)} (hp : Refuses p depth text)
    (hg : p.Follows Grown) (h : Exceeds (Production.firstOf alternatives) depth text) :
    Exceeds (Production.firstOf (p :: alternatives)) depth text :=
  .bind_next (hp.attempt hg) h

theorem Exceeds.nested {limit : Nat} (hd : depth < limit) (hp : Exceeds p (depth + 1) text) :
    Exceeds (nested limit p) depth text := by
  intro s hs
  obtain ⟨reason, t, hpt, hr⟩ := hp _ hs.deeper
  have hlimit : s.depth < limit := by rwa [hs.depth]
  exact ⟨reason, _, nested_of_error hlimit hpt, hr⟩

end

def State.before (depth : Nat) (text : List Char) : State := { State.start text with depth }

section
variable {α β : Type} {p : Production α} {f : α → Production β} {a a' : α} {b : β} {depth : Nat}
  {text middle rest rest' : List Char}

theorem at_before (depth : Nat) (text : List Char) : (State.before depth text).At depth text :=
  ⟨rfl, rfl⟩

theorem Reads.unique (h : Reads p depth text a rest) (h' : Reads p depth text a' rest') :
    a' = a ∧ rest' = rest := by
  obtain ⟨t, hrun, ht⟩ := h _ (at_before depth text)
  obtain ⟨t', hrun', ht'⟩ := h' _ (at_before depth text)
  rw [hrun] at hrun'
  cases hrun'
  exact ⟨rfl, ht'.text.symm.trans ht.text⟩

theorem Reads.not_refuses (h : Reads p depth text a rest) : ¬Refuses p depth text := by
  intro hno
  obtain ⟨t, hrun, -⟩ := h _ (at_before depth text)
  obtain ⟨reason, u, hrun', -⟩ := hno _ (at_before depth text)
  rw [hrun] at hrun'
  cases hrun'

theorem Reads.not_exceeds (h : Reads p depth text a rest) : ¬Exceeds p depth text := by
  intro hno
  obtain ⟨t, hrun, -⟩ := h _ (at_before depth text)
  obtain ⟨reason, u, hrun', -⟩ := hno _ (at_before depth text)
  rw [hrun] at hrun'
  cases hrun'

theorem Refuses.not_exceeds (h : Refuses p depth text) : ¬Exceeds p depth text := by
  intro hno
  obtain ⟨reason, t, hrun, hr⟩ := h _ (at_before depth text)
  obtain ⟨reason', u, hrun', hr'⟩ := hno _ (at_before depth text)
  rw [hrun] at hrun'
  cases hrun'
  rw [hr] at hr'
  cases hr'

end

namespace Settled
variable {α β : Type} {p : Production α} {f : α → Production β} {a : α} {b : β} {depth : Nat}
  {text rest : List Char}

theorem pure (a : α) : Settled (Pure.pure a : Production α) :=
  fun _ text => .inl ⟨a, text, .pure a⟩

theorem bind (hp : Settled p) (hf : ∀ a, Settled (f a)) : Settled (p >>= f) := by
  intro depth text
  obtain ⟨a, middle, ha⟩ | hno | hno := hp depth text
  · obtain ⟨b, rest, hb⟩ | hno | hno := hf a depth middle
    · exact .inl ⟨b, rest, ha.bind hb⟩
    · exact .inr (.inl (.bind_next ha hno))
    · exact .inr (.inr (.bind_next ha hno))
  · exact .inr (.inl hno.bind_first)
  · exact .inr (.inr hno.bind_first)

/-- What is read by two parts is read by the one and then by the other. -/
theorem reads_bind (hp : Settled p) (hf : ∀ a, Settled (f a))
    (h : Reads (p >>= f) depth text b rest) :
    ∃ a middle, Reads p depth text a middle ∧ Reads (f a) depth middle b rest := by
  obtain ⟨a, middle, ha⟩ | hno | hno := hp depth text
  · obtain ⟨b', rest', hb⟩ | hno | hno := hf a depth middle
    · obtain ⟨rfl, rfl⟩ := h.unique (ha.bind hb)
      exact ⟨a, middle, ha, hb⟩
    · exact absurd (Refuses.bind_next ha hno) h.not_refuses
    · exact absurd (Exceeds.bind_next ha hno) h.not_exceeds
  · exact absurd hno.bind_first h.not_refuses
  · exact absurd hno.bind_first h.not_exceeds

/-- Where two parts run out of levels, the one does, or the other behind it. -/
theorem exceeds_bind (hp : Settled p) (hf : ∀ a, Settled (f a))
    (h : Exceeds (p >>= f) depth text) : Exceeds p depth text ∨
      ∃ a middle, Reads p depth text a middle ∧ Exceeds (f a) depth middle := by
  obtain ⟨a, middle, ha⟩ | hno | hno := hp depth text
  · obtain ⟨b, rest, hb⟩ | hno | hno := hf a depth middle
    · exact absurd h (ha.bind hb).not_exceeds
    · exact absurd h (Refuses.bind_next ha hno).not_exceeds
    · exact .inr ⟨a, middle, ha, hno⟩
  · exact absurd h hno.bind_first.not_exceeds
  · exact .inl hno

theorem expect (word : String) : Settled (expect word) := by
  intro depth text
  cases h : word.toList.isPrefixOf text with
  | true =>
    obtain ⟨rest, rfl⟩ := List.isPrefixOf_iff_prefix.mp h
    exact .inl ⟨(), rest, reads_expect rfl⟩
  | false => exact .inr (.inl (refuses_expect h))

theorem skipBlanks : Settled skipBlanks :=
  fun _ text => .inl ⟨(), text.dropWhile isBlank, reads_skipBlanks⟩

/-- One run tells what all runs read from the same text. -/
theorem reads_of_run (hp : Settled p) {s t : State} (h : p s = .ok a t) :
    Reads p s.depth s.cursor.rest a t.cursor.rest := by
  have hs : s.At s.depth s.cursor.rest := ⟨rfl, rfl⟩
  obtain ⟨b, rest, hb⟩ | hno | hno := hp s.depth s.cursor.rest
  · obtain ⟨t', hrun, ht⟩ := hb s hs
    rw [h] at hrun
    cases hrun
    rwa [ht.text]
  · obtain ⟨reason, u, hrun, -⟩ := hno s hs
    rw [h] at hrun
    cases hrun
  · obtain ⟨reason, u, hrun, -⟩ := hno s hs
    rw [h] at hrun
    cases hrun

end Settled

def Alone {α : Type} (p : Production α) : Prop :=
  ∀ before shift, Parallel (.mk before shift []) true true 0 0 p

section
variable {α : Type} {p : Production α} {i j : Nat} {depth : Nat} {text rest : List Char} {a : α}

theorem settled_of_parallel (hp : ∀ before shift, Parallel (.mk before shift []) true true i j p) :
    Settled p := by
  intro depth text
  have hmatches : ∀ s : State, s.At depth text → ∃ E : Embedding, E.behind = [] ∧
      E.Matches (E.Ends true false) (p (.before depth text)) (p s) := by
    intro s hs
    have hbeside : (Embedding.mk s.tokens.toList s.cursor.offset []).Beside false
        (.before depth text) s := by
      refine ⟨(List.append_nil _).symm, hs.depth, ?_, (Nat.zero_add _).symm⟩
      rw [hs.text]
      exact (List.append_nil _).symm
    exact ⟨_, rfl, (hp _ _).runs nofun hbeside (.inl rfl)⟩
  cases hrun : p (.before depth text) with
  | ok a t =>
    refine .inl ⟨a, t.cursor.rest, fun s hs => ?_⟩
    obtain ⟨E, hE, hsame⟩ := hmatches s hs
    obtain ⟨t', hrun', hends⟩ := hsame.of_ok hrun
    have hgrown := (hp [] 0).grows (.before depth text)
    rw [finish_of_ok hrun] at hgrown
    refine ⟨t', hrun', ?_, ?_⟩
    · exact (hends.elim (·.depth) (·.2.depth)).trans hgrown.depth
    · obtain hbeside | ⟨-, hbeside⟩ := hends
      · rw [hbeside.place.1, hE, List.append_nil]
      · rw [hbeside.place.2.1, hbeside.place.1, Embedding.next, hE]
        rfl
  | error reason t =>
    have hfailed : ∀ s : State, s.At depth text → ∃ reason' t', p s = .error reason' t' ∧
        reason'.isFatal = reason.isFatal := by
      intro s hs
      obtain ⟨E, -, hsame⟩ := hmatches s hs
      obtain ⟨a, u, u', hok, -⟩ | ⟨reason₀, u, reason', u', h, h', hfatal, -⟩ := hsame.cases
      · rw [hrun] at hok
        cases hok
      · rw [hrun] at h
        cases h
        exact ⟨reason', u', h', hfatal⟩
    cases hfatal : reason.isFatal with
    | false =>
      rw [hfatal] at hfailed
      exact .inr (.inl hfailed)
    | true =>
      rw [hfatal] at hfailed
      exact .inr (.inr hfailed)

theorem Alone.settled (hp : Alone p) : Settled p := settled_of_parallel hp

/-- All parentheses are closed that are opened in what is read. -/
theorem Alone.closes (hp : Alone p) (h : Reads p depth text a rest) (last : List Char) (n : Nat) :
    Closes last n text ↔ Closes last n rest := by
  obtain ⟨t, hrun, ht⟩ := h _ (at_before depth text)
  have hlevel := (hp [] 0).level hrun last n
  rwa [ht.text] at hlevel

end

structure Inner.Alone (inner : Inner) : Prop where
  predicate : Grammar.Alone inner.predicate
  argument : Grammar.Alone inner.argument

theorem Inner.Alone.keeps {inner : Inner} (hi : inner.Alone) (before : List Token) (shift : Nat) :
    (Embedding.mk before shift []).Keeps inner :=
  ⟨(hi.predicate before shift).within 1, (hi.argument before shift).within 1⟩

theorem apart_alone (before : List Token) (shift : Nat) :
    (Embedding.mk before shift []).Apart :=
  Embedding.apart_of_nothing rfl

/-- By the levels of nesting that are left. -/
theorem alone_levels (limit levels : Nat) :
    Alone (location limit levels) ∧ (innerAt limit levels).Alone := by
  induction levels with
  | zero =>
    rw [location_zero, innerAt_zero]
    exact ⟨fun _ _ => .fail _, fun _ _ => .fail _, fun _ _ => .fail _⟩
  | succ levels ih =>
    obtain ⟨hlocation, hinner⟩ := ih
    rw [location_eq_union, innerAt_succ]
    refine ⟨fun before shift => ?_, fun before shift => ?_, fun before shift => ?_⟩
    · exact .nested limit
        (.union (apart_alone before shift) (hinner.keeps before shift) fun _ => rfl)
    · exact .nested limit (.disjunction (apart_alone before shift) (hinner.keeps before shift))
    · exact .nested limit (hlocation before shift)

end OutlineQuery.Grammar
