import OutlineQuery.Proofs.Embedding
import OutlineQuery.Proofs.Returning

/-! The smallest parts of a query side by side with themselves in a longer text: what they read does
not depend on a text that starts with a blank or closes a parenthesis and stands behind. -/

namespace OutlineQuery
open Grammar Production Text

def isEdge (c : Char) : Bool := isBlank c || c == ')'

theorem isEdge_of_isBlank {c : Char} (h : isBlank c = true) : isEdge c = true := by
  rw [isEdge, h, Bool.true_or]

theorem isEdge_eq_false {c : Char} (hplain : isPlain c = true) (hblank : isBlank c = false) :
    isEdge c = false := by
  rw [isEdge, hblank, Bool.false_or]
  exact beq_eq_false_iff_ne.mpr (isPlain_iff.mp hplain).2.1

/-- What stands behind the text cannot be taken for a part of it: it starts with a blank or a
parenthesis that no identifier goes on with, and behind the blanks there is nothing that a
production reads. -/
structure Embedding.Apart (E : Embedding) : Prop where
  edge : ∀ c ∈ E.behind.head?, isEdge c = true ∧ isRest c = false
  string (depth : Nat) : Refuses string depth E.next
  function (inner : Inner) (depth : Nat) : Refuses (function inner) depth E.next
  unread : ∀ text ∈ ["(", "*", "@", "[", "/"], text.toList.isPrefixOf E.next = false
  words : ∀ word ∈ ["heading", "not", "and", "or", "intersect", "except"],
    startsWithWord word E.next = false
  relation : relationAt? E.next = none
  axis : axisAt? E.next = none

namespace Embedding.Apart
variable {E : Embedding} (hE : E.Apart)
include hE

theorem not_head {p : Char → Bool} (hp : ∀ c, isEdge c = true → isRest c = false → p c = false) :
    E.behind.head?.any p = false := by
  cases h : E.behind.head? with
  | none => rfl
  | some c =>
    obtain ⟨hedge, hrest⟩ := hE.edge c h
    exact hp c hedge hrest

theorem takeWhile_behind {p : Char → Bool}
    (hp : ∀ c, isEdge c = true → isRest c = false → p c = false) (text : List Char) :
    (text ++ E.behind).takeWhile p = text.takeWhile p := by
  induction text with
  | nil => exact takeWhile_append_stop (List.forall_mem_nil _) (hE.not_head hp)
  | cons c text ih => rw [List.cons_append, List.takeWhile_cons, List.takeWhile_cons, ih]

theorem isPrefixOf_behind {word : List Char} (hword : word.all (!isEdge ·) = true)
    (text : List Char) : word.isPrefixOf (text ++ E.behind) = word.isPrefixOf text := by
  induction word generalizing text with
  | nil => rw [List.isPrefixOf, List.isPrefixOf]
  | cons c word ih =>
    rw [List.all_cons, Bool.and_eq_true] at hword
    cases text with
    | cons d text => rw [List.cons_append, List.isPrefixOf, List.isPrefixOf, ih hword.2]
    | nil =>
      refine isPrefixOf_cons_false (fun hhead => ?_) word
      have hedge := (hE.edge c hhead).1
      rw [hedge] at hword
      exact absurd hword.1 Bool.false_ne_true

theorem startsWithWord_behind {word : String} (hword : word.toList.all (!isEdge ·) = true)
    (text : List Char) : startsWithWord word (text ++ E.behind) = startsWithWord word text := by
  rw [startsWithWord, startsWithWord, hE.isPrefixOf_behind hword]
  cases hstarts : word.toList.isPrefixOf text with
  | false => rfl
  | true =>
    obtain ⟨rest, rfl⟩ := List.isPrefixOf_iff_prefix.mp hstarts
    rw [List.append_assoc, drop_text, drop_text]
    cases rest with
    | nil => rw [List.nil_append, hE.not_head fun _ _ h => h]; rfl
    | cons c rest => rfl

theorem startsReserved_behind (text : List Char) :
    startsReserved (text ++ E.behind) = startsReserved text := by
  have hoperators : ∀ word ∈ reservedOperators, word.toList.all (!isEdge ·) = true := by decide
  have hwords : ∀ word ∈ reservedWords, word.toList.all (!isEdge ·) = true := by decide
  rw [Bool.eq_iff_iff]
  simp only [startsReserved, Bool.or_eq_true, List.any_eq_true]
  refine or_congr (exists_congr fun word => and_congr_right fun hmem => ?_)
    (exists_congr fun word => and_congr_right fun hmem => ?_)
  · rw [hE.isPrefixOf_behind (hoperators word hmem)]
  · rw [hE.startsWithWord_behind (hwords word hmem)]

theorem relationAt?_behind (text : List Char) :
    relationAt? (text ++ E.behind) = relationAt? text := by
  have hword (r : Relation) : r.spelling.toList.all (!isEdge ·) = true := by
    cases r <;> decide
  simp only [relationAt?, fun r => hE.startsWithWord_behind (hword r) text,
    fun r => hE.isPrefixOf_behind (hword r) text]

theorem axisAt?_behind (text : List Char) : axisAt? (text ++ E.behind) = axisAt? text := by
  have hword (a : Axis) : a.spelling.toList.all (!isEdge ·) = true := by
    cases a <;> decide
  simp only [axisAt?, fun a => hE.isPrefixOf_behind (hword a) text]

end Embedding.Apart

theorem Grammar.offset_passBlanks (s : State) :
    (s.pass (s.cursor.rest.takeWhile isBlank).length).cursor.offset =
      s.cursor.offset + byteSize (s.cursor.rest.takeWhile isBlank) := by
  have htake : s.cursor.rest.take (s.cursor.rest.takeWhile isBlank).length =
      s.cursor.rest.takeWhile isBlank :=
    (List.prefix_iff_eq_take.mp (List.takeWhile_prefix isBlank)).symm
  rw [State.pass, Cursor.offset_advance, htake]

namespace Embedding
variable {E : Embedding} {crossed : Bool} {s s' : State}

theorem takeWhile_next (E : Embedding) : E.next.takeWhile isBlank = [] :=
  takeWhile_append_stop (List.forall_mem_nil _) (head_dropWhile E.behind isBlank)

/-- At the end of the text the blanks behind it are crossed. -/
theorem Beside.cross (h : E.Beside crossed s s') (hblank : ∀ c ∈ s.cursor.rest, isBlank c = true) :
    E.Beside true (s.pass (s.cursor.rest.takeWhile isBlank).length)
      (s'.pass (s'.cursor.rest.takeWhile isBlank).length) := by
  have hall : s.cursor.rest.takeWhile isBlank = s.cursor.rest :=
    List.takeWhile_eq_self_iff.mpr hblank
  refine ⟨h.tokens, h.depth, ?_, ?_, ?_⟩
  · rw [rest_pass, hall, List.drop_length]
  · rw [rest_pass, drop_takeWhile]
    cases crossed with
    | false =>
      rw [h.place.1, List.dropWhile_append_of_pos hblank]
      rfl
    | true => rw [h.place.2.1, next, dropWhile_blank (head_dropWhile E.behind isBlank)]
  · rw [offset_passBlanks, offset_passBlanks, hall]
    cases crossed with
    | false =>
      obtain ⟨hrest, hoffset⟩ := h.place
      rw [hrest, List.takeWhile_append_of_pos hblank, byteSize_append, hoffset, ← Nat.add_assoc,
        Nat.add_right_comm s.cursor.offset]
      rfl
    | true =>
      obtain ⟨hend, hnext, hoffset⟩ := h.place
      rw [hnext, takeWhile_next, hend, hoffset]
      rfl

/-- Before its end both runs pass the same blanks of the text. -/
theorem Beside.passBlanks (h : E.Beside crossed s s')
    (hblank : ¬∀ c ∈ s.cursor.rest, isBlank c = true) : crossed = false ∧
      s'.cursor.rest.takeWhile isBlank = s.cursor.rest.takeWhile isBlank ∧ E.Beside false
        (s.pass (s.cursor.rest.takeWhile isBlank).length)
        (s'.pass (s.cursor.rest.takeWhile isBlank).length) := by
  cases crossed with
  | true =>
    rw [h.place.1] at hblank
    exact absurd (List.forall_mem_nil _) hblank
  | false =>
    have hstarts : s.cursor.rest.takeWhile isBlank <+: s.cursor.rest :=
      List.takeWhile_prefix isBlank
    have hshort : (s.cursor.rest.takeWhile isBlank).length ≠ s.cursor.rest.length :=
      fun heq => hblank (List.takeWhile_eq_self_iff.mp (hstarts.eq_of_length heq))
    refine ⟨rfl, ?_, h.pass hstarts.length_le⟩
    rw [h.place.1, List.takeWhile_append, if_neg hshort]

end Embedding

theorem Parallel.skipBlanks {E : Embedding} {i : Nat} : Parallel E true true i i skipBlanks := by
  refine ⟨follows_grown_of_silent silent_skipBlanks, fun {s a t} hok last n => ?_,
    fun {crossed s s'} _ hs _ => ?_⟩
  · rw [skipBlanks_run] at hok
    cases hok
    rw [rest_pass, drop_takeWhile]
    exact closes_dropWhile fun _ => isPlain_of_isBlank
  · rw [skipBlanks_run, skipBlanks_run]
    by_cases hblank : ∀ c ∈ s.cursor.rest, isBlank c = true
    · exact ⟨rfl, .inr ⟨rfl, hs.cross hblank⟩⟩
    · obtain ⟨rfl, hsame, hpassed⟩ := hs.passBlanks hblank
      rw [hsame]
      exact ⟨rfl, hpassed.ends⟩

def readIf {α : Type} (test : List Char → Bool) (a : α) (n : Nat) (rest : List Char) :
    Option (α × Nat) :=
  if test rest then some (a, n) else none

section
variable {α : Type} {test : List Char → Bool} {text : String} {kind : TokenKind} {a b : α}
  {m n : Nat} {rest : List Char}

theorem readIf_some (h : readIf test a n rest = some (b, m)) :
    test rest = true ∧ a = b ∧ n = m := by
  cases htest : test rest with
  | true =>
    rw [readIf, if_pos htest] at h
    cases h
    exact ⟨rfl, rfl, rfl⟩
  | false =>
    rw [readIf, if_neg (Bool.eq_false_iff.mp htest)] at h
    cases h

theorem readIf_none : readIf test a n rest = none ↔ ¬test rest = true := by
  rw [readIf]
  split <;> simp [*]

theorem isLexeme_skip (text : String) :
    IsLexeme (skip text) none (readIf text.toList.isPrefixOf true text.length) (some false) where
  grows := follows_grown_of_silent (silent_skip text)
  found h := by
    obtain ⟨hstarts, rfl, rfl⟩ := readIf_some h
    exact skip_run.trans (if_pos hstarts)
  missing h := skip_run.trans (if_neg (readIf_none.mp h))

theorem isLexeme_expect (text : String) :
    IsLexeme (expect text) none (readIf text.toList.isPrefixOf () text.length) none where
  grows := follows_grown_of_silent (silent_expect text)
  found h := by
    obtain ⟨hstarts, rfl, rfl⟩ := readIf_some h
    exact expect_run.trans (if_pos hstarts)
  missing h := ⟨_, _, expect_run.trans (if_neg (readIf_none.mp h)), rfl⟩

theorem isLexeme_operator (ht : text ≠ "") (hk : kind ≠ .comparison) :
    IsLexeme (operator text kind) (some kind)
      (readIf text.toList.isPrefixOf true text.length) (some false) where
  grows := discipline_grown.follows_operator ht hk
  found h := by
    obtain ⟨hstarts, rfl, rfl⟩ := readIf_some h
    exact operator_run.trans (if_pos hstarts)
  missing h := operator_run.trans (if_neg (readIf_none.mp h))

theorem isLexeme_word (ht : text ≠ "") (hk : kind ≠ .comparison) :
    IsLexeme (word text kind) (some kind)
      (readIf (startsWithWord text) true text.length) (some false) where
  grows := discipline_grown.follows_word ht hk
  found h := by
    obtain ⟨hword, rfl, rfl⟩ := readIf_some h
    exact word_run.trans (if_pos hword)
  missing h := word_run.trans (if_neg (readIf_none.mp h))

end

section
variable {α : Type} {E : Embedding} {wide : Bool} {i j : Nat} {p : Production α}
  {kind? : Option TokenKind} {kind : TokenKind} {test : List Char → Bool} {text : String} {a : α}
  {absent : Option α}

/-- A text that is read where a test is passed. -/
theorem IsLexeme.tested (hp : IsLexeme p kind? (readIf test a text.length) absent)
    (hstarts : ∀ rest, test rest = true → text.toList <+: rest) (hend : test [] = false)
    (hsame : ∀ rest, E.Guarded i rest → test (rest ++ E.behind) = test rest)
    (hlevel : ∀ last n rest, Closes last (n + i) (text.toList ++ rest) ↔ Closes last (n + j) rest)
    (habsent : absent.isSome = true → i = j)
    (hnext : wide = true → E.Guarded i [] → test E.next = false) :
    Parallel E wide false i j p := by
  refine hp.parallel (fun rest b n h => ?_) habsent (fun rest hg => ?_) fun hw hg => ⟨?_, ?_⟩
  · obtain ⟨htest, rfl, rfl⟩ := readIf_some h
    obtain ⟨more, rfl⟩ := hstarts rest htest
    rw [drop_text]
    refine ⟨?_, fun last m => hlevel last m more⟩
    rw [List.length_append, String.length_toList]
    exact Nat.le_add_right _ _
  · rw [readIf, readIf, hsame rest hg]
  · exact readIf_none.mpr (Bool.eq_false_iff.mp hend)
  · exact readIf_none.mpr (Bool.eq_false_iff.mp (hnext hw hg))

variable (hE : E.Apart)
include hE

theorem IsLexeme.fixed (hp : IsLexeme p kind? (readIf text.toList.isPrefixOf a text.length) absent)
    (ht : text ≠ "") (hedge : text.toList.all (!isEdge ·) = true)
    (hlevel : ∀ last n rest, Closes last (n + i) (text.toList ++ rest) ↔ Closes last (n + j) rest)
    (habsent : absent.isSome = true → i = j)
    (hnext : wide = true → E.Guarded i [] → text.toList.isPrefixOf E.next = false) :
    Parallel E wide false i j p :=
  hp.tested (fun _ => List.isPrefixOf_iff_prefix.mp)
    (Bool.eq_false_iff.mpr fun h => rest_ne_nil_of_isPrefixOf ht h rfl)
    (fun rest _ => hE.isPrefixOf_behind hedge rest) hlevel habsent hnext

/-- A text without blanks, parentheses and quotes. -/
theorem IsLexeme.plain (hp : IsLexeme p kind? (readIf text.toList.isPrefixOf a text.length) absent)
    (ht : text ≠ "") (hedge : text.toList.all (!isEdge ·) = true)
    (hplain : text.toList.all isPlain = true)
    (hnext : wide = true → text.toList.isPrefixOf E.next = false) :
    Parallel E wide false i i p :=
  hp.fixed hE ht hedge (fun _ _ _ => closes_plains hplain) (fun _ => rfl) fun hw _ => hnext hw

theorem Parallel.word (ht : text ≠ "") (hk : kind ≠ .comparison)
    (hedge : text.toList.all (!isEdge ·) = true) (hplain : text.toList.all isPlain = true)
    (hnext : wide = true → E.Guarded i [] → startsWithWord text E.next = false) :
    Parallel E wide false i i (word text kind) := by
  refine (isLexeme_word ht hk).tested (fun rest hword => ?_) (startsWithWord_nil ht)
    (fun rest _ => hE.startsWithWord_behind hedge rest) (fun _ _ _ => closes_plains hplain)
    (fun _ => rfl) hnext
  rw [startsWithWord, Bool.and_eq_true] at hword
  exact List.isPrefixOf_iff_prefix.mp hword.1

theorem Parallel.opening : Parallel E true false i (i + 1) (expect "(") :=
  (isLexeme_expect "(").fixed hE (by decide) (by decide) (fun _ _ _ => closes_opening) nofun
    fun _ _ => hE.unread _ (by decide)

omit hE in
/-- A parenthesis is closed within the text, whatever stands behind. -/
theorem Parallel.closing : Parallel E true false (i + 1) i (expect ")") := by
  refine (isLexeme_expect ")").tested (fun _ => List.isPrefixOf_iff_prefix.mp) rfl
    (fun rest hg => ?_) (fun _ _ _ => closes_closing) nofun fun _ hg => ?_
  · cases rest with
    | cons c rest => rfl
    | nil =>
      have hblanks := List.dropWhile_eq_nil_iff.mp (hg.next_eq_nil (Nat.succ_ne_zero i))
      refine isPrefixOf_cons_false (fun hhead => ?_) []
      exact absurd (hblanks _ (List.mem_of_mem_head? hhead)) (by decide)
  · rw [hg.next_eq_nil (Nat.succ_ne_zero i)]
    rfl

end

def readSpelling {α : Type} (at? : List Char → Option α) (spelling : α → String)
    (rest : List Char) : Option (α × Nat) :=
  (at? rest).map fun a => (a, (spelling a).length)

theorem axisAt?_starts {a : Axis} {rest : List Char} (h : axisAt? rest = some a) :
    a.spelling.toList <+: rest := by
  rw [axisAt?] at h
  have hstarts := List.find?_some h
  exact List.isPrefixOf_iff_prefix.mp hstarts

theorem relationAt?_starts {r : Relation} {rest : List Char} (h : relationAt? rest = some r) :
    r.spelling.toList <+: rest := by
  rw [relationAt?, Option.orElse_eq_orElse, Option.orElse_eq_or] at h
  obtain hword | ⟨-, hoperator⟩ := Option.or_eq_some_iff.mp h
  · have hstarts := List.find?_some hword
    rw [startsWithWord, Bool.and_eq_true] at hstarts
    exact List.isPrefixOf_iff_prefix.mp hstarts.1
  · have hstarts := List.find?_some hoperator
    exact List.isPrefixOf_iff_prefix.mp hstarts

theorem advances_relation : relation.Advances := by
  intro s a t h
  rw [relation_run] at h
  cases hr : relationAt? s.cursor.rest with
  | none => rw [hr] at h; cases h
  | some r =>
    rw [hr] at h
    cases h
    have hlength : 0 < a.spelling.length := by cases a <;> decide
    refine Cursor.offset_lt_advance hlength fun hnil => ?_
    rw [hnil] at hr
    cases hr

theorem isLexeme_axis : IsLexeme axis (some .axis) (readSpelling axisAt? Axis.spelling) none where
  grows := discipline_grown.follows_axis
  found {s a n} h := by
    obtain ⟨b, hb, ⟨⟩⟩ := Option.map_eq_some_iff.mp h
    rw [axis_run, hb]
    rfl
  missing {s} h := by
    have hnone := Option.map_eq_none_iff.mp h
    exact ⟨.axis, s, by rw [axis_run, hnone], rfl⟩

theorem isLexeme_relation :
    IsLexeme relation (some .relation) (readSpelling relationAt? Relation.spelling) none where
  grows := discipline_grown.follows_relation
  found {s a n} h := by
    obtain ⟨b, hb, ⟨⟩⟩ := Option.map_eq_some_iff.mp h
    rw [relation_run, hb]
    rfl
  missing {s} h := by
    have hnone := Option.map_eq_none_iff.mp h
    exact ⟨.relation, s, by rw [relation_run, hnone], rfl⟩

section
variable {α : Type} {E : Embedding} {i : Nat} {p : Production α} {kind? : Option TokenKind}
  {at? : List Char → Option α} {spelling : α → String}

theorem IsLexeme.spelled (hp : IsLexeme p kind? (readSpelling at? spelling) none)
    (hstarts : ∀ rest a, at? rest = some a → (spelling a).toList <+: rest)
    (hplain : ∀ a, (spelling a).toList.all isPlain = true)
    (hsame : ∀ rest, at? (rest ++ E.behind) = at? rest) (hend : at? [] = none)
    (hnext : at? E.next = none) : Parallel E true false i i p := by
  refine hp.parallel (fun rest b n h => ?_) (fun _ => rfl) (fun rest _ => ?_) fun _ _ => ⟨?_, ?_⟩
  · obtain ⟨a, ha, ⟨⟩⟩ := Option.map_eq_some_iff.mp h
    obtain ⟨more, rfl⟩ := hstarts rest b ha
    rw [drop_text]
    refine ⟨?_, fun last m => closes_plains (hplain b)⟩
    rw [List.length_append, String.length_toList]
    exact Nat.le_add_right _ _
  · rw [readSpelling, readSpelling, hsame]
  · rw [readSpelling, hend]
    rfl
  · rw [readSpelling, hnext]
    rfl

variable (hE : E.Apart)
include hE

theorem Parallel.axis : Parallel E true false i i axis :=
  isLexeme_axis.spelled (fun _ _ => axisAt?_starts) (by rintro (_ | _) <;> decide)
    hE.axisAt?_behind rfl hE.axis

theorem Parallel.relation : Parallel E true false i i relation :=
  isLexeme_relation.spelled (fun _ _ => relationAt?_starts) (by rintro (_ | _) <;> decide)
    hE.relationAt?_behind rfl hE.relation

end

end OutlineQuery
