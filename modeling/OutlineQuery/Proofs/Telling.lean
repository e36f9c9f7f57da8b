import OutlineQuery.Parse
import OutlineQuery.Proofs.Mentions
import OutlineQuery.Proofs.Yielding

/-! The tokens that a production records mention what the tree that it returns mentions. An
alternative that is given up takes its tokens back with it, so none of them is told twice. -/

namespace OutlineQuery.Grammar
open Production Text

def State.mentions (s : State) : List Mention := s.tokens.toList.filterMap Token.mention?

structure Tells {α : Type} (p : Production α) (told : α → List Mention → Prop) : Prop where
  grows : p.Follows Grown
  tells {s : State} {a : α} {t : State} : p s = .ok a t →
    ∃ new, t.mentions = s.mentions ++ new ∧ told a new

def ToldIfFound {α : Type} (told : α → List Mention → Prop) : Option α → List Mention → Prop
  | some a, new => told a new
  | none, new => new = []

abbrev Quiet {α : Type} (p : Production α) : Prop := Tells p fun _ new => new = []

theorem additive_mentions :
    Additive fun s t (new : List Mention) => t.mentions = s.mentions ++ new where
  refl s := (List.append_nil s.mentions).symm
  trans h h' := by rw [h', h, List.append_assoc]
  deeper h := h

/-- To be told is to be added to what is mentioned. -/
theorem tells_iff {α : Type} {p : Production α} {told : α → List Mention → Prop} :
    Tells p told ↔ Yields (fun s t new => t.mentions = s.mentions ++ new) p told :=
  ⟨fun h => ⟨h.grows, h.tells⟩, fun h => ⟨h.grows, h.yields⟩⟩

theorem toldIfFound_eq {α : Type} (told : α → List Mention → Prop) :
    ToldIfFound told = IfFound told := by
  funext found new
  cases found <;> rfl

namespace Tells
variable {α β : Type} {p : Production α} {f : α → Production β}
  {told : α → List Mention → Prop} {told' : β → List Mention → Prop}

theorem mono {less : α → List Mention → Prop} (hp : Tells p told)
    (h : ∀ a new, told a new → less a new) : Tells p less :=
  tells_iff.mpr ((tells_iff.mp hp).mono h)

theorem of_silent (hp : p.Silent) : Quiet p := by
  refine ⟨follows_grown_of_silent hp, fun {s a t} hok => ⟨[], ?_, rfl⟩⟩
  obtain ⟨n, hn⟩ := hp s
  rw [finish_of_ok hok] at hn
  rw [hn, List.append_nil]
  rfl

theorem pure {a : α} (h : told a []) : Tells (Pure.pure a : Production α) told :=
  tells_iff.mpr (additive_mentions.pure h)

theorem fail (reason : Reason) : Tells (Production.fail reason : Production α) told :=
  tells_iff.mpr (.fail reason)

/-- The second production goes on with what the first has told. -/
theorem bind (hp : Tells p told)
    (hf : ∀ a new, told a new → Tells (f a) fun b more => told' b (new ++ more)) :
    Tells (p >>= f) told' :=
  tells_iff.mpr (additive_mentions.bind (tells_iff.mp hp)
    fun a new ha => tells_iff.mp (hf a new ha))

theorem quiet_bind (hp : Quiet p) (hf : ∀ a, Tells (f a) told') : Tells (p >>= f) told' :=
  tells_iff.mpr (additive_mentions.quiet_bind (tells_iff.mp hp) fun a => tells_iff.mp (hf a))

/-- A tree made of the one that was read. -/
theorem map (hp : Tells p told) {g : α → β} (h : ∀ a new, told a new → told' (g a) new) :
    Tells (p >>= fun a => Pure.pure (g a)) told' :=
  tells_iff.mpr (additive_mentions.map (tells_iff.mp hp) h)

theorem attempt (hp : Tells p told) : Tells (attempt p) (ToldIfFound told) := by
  rw [toldIfFound_eq]
  exact tells_iff.mpr (additive_mentions.attempt (tells_iff.mp hp))

theorem attemptOr (default : α) (hp : Quiet p) : Quiet (attemptOr default p) :=
  tells_iff.mpr (additive_mentions.attemptOr default (tells_iff.mp hp))

/-- One alternative or the other, whichever can be read. -/
theorem alternative {f : Option α → Production β} (hp : Tells p told)
    (hsome : ∀ a new, told a new → Tells (f (some a)) fun b more => told' b (new ++ more))
    (hnone : Tells (f none) told') : Tells (Production.attempt p >>= f) told' :=
  tells_iff.mpr (additive_mentions.alternative (tells_iff.mp hp)
    (fun a new ha => tells_iff.mp (hsome a new ha)) (tells_iff.mp hnone))

theorem firstOf {alternatives : List (Production α)} (h : ∀ p ∈ alternatives, Tells p told) :
    Tells (firstOf alternatives) (ToldIfFound told) := by
  rw [toldIfFound_eq]
  exact tells_iff.mpr (additive_mentions.firstOf fun p hp => tells_iff.mp (h p hp))

theorem nested (limit : Nat) (hp : Tells p told) : Tells (nested limit p) told :=
  tells_iff.mpr (additive_mentions.nested limit (tells_iff.mp hp))

/-- Items one after another, each of which tells what it is. -/
theorem many {item : Production (Option α)} (hp : Tells item (ToldIfFound told)) :
    Tells (many item) fun as new =>
      ∃ parts, new = parts.flatten ∧ List.Forall₂ told as parts := by
  rw [toldIfFound_eq] at hp
  exact tells_iff.mpr (additive_mentions.many (tells_iff.mp hp))

theorem many_quiet {item : Production (Option α)} (hp : Quiet item) :
    Quiet (Production.many item) :=
  tells_iff.mpr (additive_mentions.many_quiet (tells_iff.mp hp))

/-- Operands are told in the order of the text, with the operator between each two; that is the
order in which the tree holds them, whichever way it leans. -/
theorem chain {operand : Production α} {operator : Production Bool} {combine : α → α → α}
    {mention : Mention} (hp : Tells operand told)
    (ho : Tells operator fun found new => new = if found then [mention] else [])
    (hc : ∀ a b new more, told a new → told b more →
      told (combine a b) (new ++ mention :: more)) :
    Tells (chain operand operator combine) told :=
  tells_iff.mpr (additive_mentions.chain (tells_iff.mp (of_silent silent_skipBlanks))
    (tells_iff.mp hp) (tells_iff.mp ho) hc)

end Tells

section
variable {α : Type} {p : Production α} {told : α → List Mention → Prop} {s t : State}

theorem mentions_emit (kind : TokenKind) (start : Cursor) : (t.emit kind start).mentions =
    t.mentions ++ (Token.mention? ⟨kind, start.offset, t.cursor.offset,
      String.ofList (start.since t.cursor)⟩).toList := by
  rw [State.mentions, State.emit, TokenLog.toList_push, List.filterMap_append]
  rfl

/-- A token that mentions nothing. -/
theorem tells_record {kind : TokenKind} (hp : Tells p told)
    (hk : ∀ start stop text, Token.mention? ⟨kind, start, stop, text⟩ = none) :
    Tells (record kind p) told := by
  refine ⟨follows_grown_record kind hp.grows, fun {s a t} hok => ?_⟩
  obtain ⟨u, hu, rfl⟩ := record_ok hok
  obtain ⟨new, hnew, ha⟩ := hp.tells hu
  refine ⟨new, ?_, ha⟩
  rw [mentions_emit, hk, hnew]
  simp

/-- A token for the characters that a production passes. -/
theorem tells_recordText (kind : TokenKind) (text : α → List Char) (hp : p.Silent)
    (htext : ∀ s a t, p s = .ok a t →
      s.cursor.rest.take (text a).length = text a ∧ t = s.pass (text a).length) :
    Tells (record kind p) fun a new =>
      new = (Token.mention? ⟨kind, 0, 0, String.ofList (text a)⟩).toList := by
  refine ⟨follows_grown_record kind (follows_grown_of_silent hp), fun {s a t} hok => ?_⟩
  obtain ⟨u, hu, rfl⟩ := record_ok hok
  obtain ⟨htake, rfl⟩ := htext s a u hu
  refine ⟨_, mentions_emit kind s.cursor, ?_⟩
  have hsince : s.cursor.since (s.pass (text a).length).cursor = text a :=
    (Cursor.since_advance (text a).length s.cursor).trans htake
  rw [hsince]
  rfl

theorem tells_word {text : String} {kind : TokenKind} (ht : text ≠ "") (hk : kind ≠ .comparison) :
    Tells (word text kind) fun found new =>
      new = if found then (Token.mention? ⟨kind, 0, 0, text⟩).toList else [] := by
  refine ⟨discipline_grown.follows_word ht hk, fun {s found t} hok => ?_⟩
  rw [word_run] at hok
  split at hok
  · rename_i h
    cases hok
    refine ⟨_, mentions_emit kind s.cursor, ?_⟩
    have hp : text.toList.isPrefixOf s.cursor.rest = true := by
      rw [startsWithWord, Bool.and_eq_true] at h
      exact h.1
    have htake := List.prefix_iff_eq_take.mp (List.isPrefixOf_iff_prefix.mp hp)
    have hsince : s.cursor.since (s.pass text.length).cursor = text.toList := by
      rw [htake, String.length_toList]
      exact Cursor.since_advance text.length s.cursor
    rw [hsince, String.ofList_toList]
    rfl
  · cases hok
    exact ⟨[], (List.append_nil _).symm, rfl⟩

end

end OutlineQuery.Grammar
