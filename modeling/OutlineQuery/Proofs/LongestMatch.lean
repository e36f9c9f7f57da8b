import Mathlib.Data.List.Find
import OutlineQuery.Proofs.Lexemes

/-! How axes and relations are told by their spellings. The tables that are gone through have
strings of their own, which are these spellings; and where several of them stand at the front of the
text, the longest is read, although the search ends with the first that fits. -/

namespace OutlineQuery
open Text

def Axis.Opens (a : Axis) (text : List Char) : Prop := a.spelling.toList <+: text

instance (a : Axis) (text : List Char) : Decidable (a.Opens text) :=
  decidable_of_iff _ List.isPrefixOf_iff_prefix

def Relation.IsWord (r : Relation) : Prop := ∀ c ∈ r.spelling.toList, c.isAlpha = true

instance (r : Relation) : Decidable r.IsWord :=
  decidable_of_iff (r.spelling.toList.all Char.isAlpha = true) List.all_eq_true

def Relation.Opens (r : Relation) (text : List Char) : Prop :=
  ∃ behind, text = r.spelling.toList ++ behind ∧ (r.IsWord → ∀ c ∈ behind.head?, isRest c = false)

theorem Text.startsWithWord_iff {word : String} {text : List Char} :
    startsWithWord word text = true ↔
      ∃ behind, text = word.toList ++ behind ∧ ∀ c ∈ behind.head?, isRest c = false := by
  rw [startsWithWord, Bool.and_eq_true, List.isPrefixOf_iff_prefix, Bool.not_eq_true',
    ← String.length_toList]
  constructor
  · rintro ⟨⟨behind, rfl⟩, hstop⟩
    rw [List.drop_left, Option.any_eq_false] at hstop
    exact ⟨behind, rfl, hstop⟩
  · rintro ⟨behind, rfl, hstop⟩
    rw [List.drop_left, Option.any_eq_false]
    exact ⟨List.prefix_append _ _, hstop⟩

namespace Relation
variable {r : Relation} {text : List Char}

theorem opens_word (h : r.IsWord) : r.Opens text ↔ startsWithWord r.spelling text = true := by
  rw [startsWithWord_iff]
  exact exists_congr fun behind => and_congr_right fun _ => forall_prop_of_true h

theorem opens_operator (h : ¬r.IsWord) :
    r.Opens text ↔ r.spelling.toList.isPrefixOf text = true := by
  rw [List.isPrefixOf_iff_prefix]
  constructor
  · rintro ⟨behind, rfl, -⟩
    exact List.prefix_append _ _
  · rintro ⟨behind, rfl⟩
    exact ⟨behind, rfl, fun hword => absurd hword h⟩

instance (r : Relation) (text : List Char) : Decidable (r.Opens text) :=
  if h : r.IsWord then decidable_of_iff _ (opens_word h).symm
  else decidable_of_iff _ (opens_operator h).symm

end Relation

namespace Grammar
open Production

section
variable {α : Type} (spelling : α → String) (Opens : α → List Char → Prop)

structure Longest (text : List Char) (a : α) : Prop where
  opens : Opens a text
  shorter {b : α} : Opens b text → b ≠ a → (spelling b).length < (spelling a).length

structure Takes (kind : TokenKind) (word : String) (s t : State) : Prop where
  text : s.cursor.rest = word.toList ++ t.cursor.rest
  cursor : t.cursor = s.cursor.advance word.length
  tokens : t.tokens.toList = s.tokens.toList ++ [⟨kind, s.cursor.offset, t.cursor.offset, word⟩]
  depth : t.depth = s.depth

/-- Where an item opens the text, the one with the longest spelling is read, and its spelling is
taken; elsewhere nothing happens. -/
structure TakesLongest (kind : TokenKind) (p : Production α) : Prop where
  ok_iff {s : State} : (∃ a t, p s = .ok a t) ↔ ∃ a, Opens a s.cursor.rest
  ok {s t : State} {a : α} : p s = .ok a t →
    Longest spelling Opens s.cursor.rest a ∧ Takes kind (spelling a) s t
  error {s t : State} {reason : Reason} : p s = .error reason t → t = s

/-- All items, in an order in which the spelling of none is continued by that of a later one. -/
structure Table (items : List α) : Prop where
  all (a : α) : a ∈ items
  spelled {a : α} {text : List Char} : Opens a text → (spelling a).toList <+: text
  ordered : items.Pairwise fun a b => ¬(spelling a).toList <+: (spelling b).toList

variable {spelling Opens} [∀ a text, Decidable (Opens a text)] {items : List α} {a : α}

/-- The first item that fits is the longest. -/
theorem Table.longest (h : Table spelling Opens items) {text : List Char}
    (hfind : items.find? (Opens · text) = some a) : Longest spelling Opens text a := by
  obtain ⟨ha, before, behind, rfl, hbefore⟩ := List.find?_eq_some_iff_append.mp hfind
  have hopens : Opens a text := of_decide_eq_true ha
  refine ⟨hopens, fun {b} hb hne => ?_⟩
  obtain hearlier | hlater : b ∈ before ∨ b ∈ behind := by simpa [hne] using h.all b
  · simpa [hb] using hbefore b hearlier
  · have hno : ¬(spelling a).toList <+: (spelling b).toList :=
      List.rel_of_pairwise_cons (List.pairwise_append.mp h.ordered).2.1 hlater
    -- two spellings at the front of one text, of which the longer one continues the other
    refine Nat.lt_of_not_le fun hle => hno ?_
    rw [← String.length_toList, ← String.length_toList] at hle
    exact List.prefix_of_prefix_length_le (h.spelled hopens) (h.spelled hb) hle

theorem takes_of_prefix {kind : TokenKind} {word : String} {s : State}
    (h : word.toList <+: s.cursor.rest) :
    Takes kind word s ((s.pass word.length).emit kind s.cursor) := by
  have htake : s.cursor.rest.take word.length = word.toList := by
    rw [← String.length_toList]
    exact (List.prefix_iff_eq_take.mp h).symm
  refine ⟨?_, rfl, ?_, rfl⟩
  · calc s.cursor.rest
        = s.cursor.rest.take word.length ++ s.cursor.rest.drop word.length :=
          (List.take_append_drop _ _).symm
      _ = word.toList ++ (s.pass word.length).cursor.rest := by rw [htake, rest_pass]
  · have hsince : String.ofList (s.cursor.since (s.pass word.length).cursor) = word := by
      rw [State.pass, Cursor.since_advance, htake, String.ofList_toList]
    rw [State.emit, hsince, TokenLog.toList_push]
    rfl

/-- To go through a table up to the first item that fits is to take the longest. -/
theorem Table.takesLongest (h : Table spelling Opens items) {p : Production α} {kind : TokenKind}
    (reason : Reason)
    (hsome : ∀ {s : State} {a : α}, items.find? (Opens · s.cursor.rest) = some a →
      p s = .ok a ((s.pass (spelling a).length).emit kind s.cursor))
    (hnone : ∀ {s : State}, items.find? (Opens · s.cursor.rest) = none →
      p s = .error reason s) : TakesLongest spelling Opens kind p := by
  have hcases (s : State) : (∃ a, Longest spelling Opens s.cursor.rest a ∧
        p s = .ok a ((s.pass (spelling a).length).emit kind s.cursor)) ∨
      (¬∃ a, Opens a s.cursor.rest) ∧ p s = .error reason s := by
    cases hfind : items.find? (Opens · s.cursor.rest) with
    | some a => exact .inl ⟨a, h.longest hfind, hsome hfind⟩
    | none =>
      refine .inr ⟨fun ⟨a, ha⟩ => ?_, hnone hfind⟩
      simpa [ha] using List.find?_eq_none.mp hfind a (h.all a)
  refine ⟨fun {s} => ?_, fun {s t a} hok => ?_, fun {s t reason'} herror => ?_⟩
  · obtain ⟨a, ha, hs⟩ | ⟨hno, hs⟩ := hcases s
    · exact iff_of_true ⟨a, _, hs⟩ ⟨a, ha.opens⟩
    · refine iff_of_false (fun ⟨a, t, hok⟩ => ?_) hno
      cases hs.symm.trans hok
  · obtain ⟨b, hb, hs⟩ | ⟨-, hs⟩ := hcases s
    · cases hs.symm.trans hok
      exact ⟨hb, takes_of_prefix (h.spelled hb.opens)⟩
    · cases hs.symm.trans hok
  · obtain ⟨b, -, hs⟩ | ⟨-, hs⟩ := hcases s
    · cases hs.symm.trans herror
    · cases hs.symm.trans herror
      rfl

end

theorem table_axes : Table Axis.spelling Axis.Opens (axisSpellings.map (·.2)) where
  all a := by cases a <;> decide
  spelled h := h
  ordered := by decide +kernel

theorem table_relations :
    Table Relation.spelling Relation.Opens ((wordRelations ++ operatorRelations).map (·.2)) where
  all r := by cases r <;> decide
  spelled := by
    rintro r text ⟨behind, rfl, -⟩
    exact List.prefix_append _ _
  ordered := by decide +kernel

theorem axisAt?_eq (text : List Char) :
    axisAt? text = (axisSpellings.map (·.2)).find? (·.Opens text) := by
  refine List.find?_congr fun a _ => ?_
  rw [Bool.eq_iff_iff, decide_eq_true_iff]
  exact List.isPrefixOf_iff_prefix

theorem relationAt?_eq (text : List Char) :
    relationAt? text = ((wordRelations ++ operatorRelations).map (·.2)).find? (·.Opens text) := by
  have hwords : ∀ r ∈ wordRelations.map (·.2), r.IsWord := by decide
  have hoperators : ∀ r ∈ operatorRelations.map (·.2), ¬r.IsWord := by decide
  have hfirst : (wordRelations.map (·.2)).find? (startsWithWord ·.spelling text) =
      (wordRelations.map (·.2)).find? (·.Opens text) := by
    refine List.find?_congr fun r hr => ?_
    rw [Bool.eq_iff_iff, decide_eq_true_iff, Relation.opens_word (hwords r hr)]
  have hsecond : (operatorRelations.map (·.2)).find? (·.spelling.toList.isPrefixOf text) =
      (operatorRelations.map (·.2)).find? (·.Opens text) := by
    refine List.find?_congr fun r hr => ?_
    rw [Bool.eq_iff_iff, decide_eq_true_iff, Relation.opens_operator (hoperators r hr)]
  rw [relationAt?, hfirst, hsecond, List.map_append, List.find?_append, Option.or_eq_orElse]
  rfl

/-- Axes and relations are read by their longest spelling, with one token for it; where none is
spelled, nothing is passed and nothing recorded. -/
theorem longest_spelling_taken :
    TakesLongest Axis.spelling Axis.Opens .axis axis ∧
      TakesLongest Relation.spelling Relation.Opens .relation relation := by
  constructor
  · refine table_axes.takesLongest .axis (fun hsome => ?_) (fun hnone => ?_)
    · rw [axis_run, axisAt?_eq, hsome]
    · rw [axis_run, axisAt?_eq, hnone]
  · refine table_relations.takesLongest .relation (fun hsome => ?_) (fun hnone => ?_)
    · rw [relation_run, relationAt?_eq, hsome]
    · rw [relation_run, relationAt?_eq, hnone]

end Grammar
end OutlineQuery
