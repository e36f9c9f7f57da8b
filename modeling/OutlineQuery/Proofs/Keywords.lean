import OutlineQuery.Proofs.Scanning

/-! Where no unquoted string is read. The test for what is reserved looks at the text that remains
and has lists of its own; a production passes the word that it looks for, and gives it back where an
identifier goes on. Both come to the same, whatever text follows. -/

namespace OutlineQuery.Grammar
open Production Text

inductive Keyword where
  | word (text : String) (kind : TokenKind)
  | operator (text : String) (kind : TokenKind)

namespace Keyword

def matcher : Keyword → Production Bool
  | word text kind => Grammar.word text kind
  | operator text kind => Grammar.operator text kind

def opens : Keyword → List Char → Bool
  | word text _, rest => startsWithWord text rest
  | operator text _, rest => text.toList.isPrefixOf rest

def IsRead (k : Keyword) (s : State) : Prop := ∃ t, k.matcher s = .ok true t

variable {k : Keyword} {s : State}

theorem isRead_of_opens (h : k.opens s.cursor.rest = true) : k.IsRead s := by
  cases k with
  | word text kind => exact ⟨_, word_run.trans (if_pos h)⟩
  | operator text kind => exact ⟨_, operator_run.trans (if_pos h)⟩

/-- A keyword that is not there leaves all as it was. -/
theorem matcher_of_not_opens (h : k.opens s.cursor.rest = false) : k.matcher s = .ok false s := by
  cases k with
  | word text kind => exact word_run.trans (if_neg (Bool.eq_false_iff.mp h))
  | operator text kind => exact operator_run.trans (if_neg (Bool.eq_false_iff.mp h))

theorem isRead_iff : k.IsRead s ↔ k.opens s.cursor.rest = true := by
  refine ⟨fun ⟨t, hread⟩ => ?_, isRead_of_opens⟩
  cases h : k.opens s.cursor.rest with
  | true => rfl
  | false => cases hread.symm.trans (matcher_of_not_opens h)

theorem isRead_or_unchanged (k : Keyword) (s : State) : k.IsRead s ∨ k.matcher s = .ok false s := by
  cases h : k.opens s.cursor.rest with
  | true => exact .inl (isRead_of_opens h)
  | false => exact .inr (matcher_of_not_opens h)

end Keyword

def relationKeywords : List Keyword :=
  wordRelations.map (.word ·.1 .relation) ++ operatorRelations.map (.operator ·.1 .relation)

def keywords : List Keyword :=
  relationKeywords ++ [.word "heading" .type, .word "union" .set, .word "except" .set,
    .word "intersect" .set, .word "and" .boolean, .word "or" .boolean, .word "not" .boolean]

/-- The reserved words and operators are those that productions look for. -/
theorem startsReserved_eq (text : List Char) :
    startsReserved text = keywords.any (·.opens text) := by
  have hwords : reservedWords = wordRelations.map (·.1) ++
      ["heading", "union", "except", "intersect", "and", "or", "not"] := rfl
  have hoperators : reservedOperators = operatorRelations.map (·.1) := rfl
  calc startsReserved text
      = (operatorRelations.any (·.1.toList.isPrefixOf text) ||
          (wordRelations.any (startsWithWord ·.1 text) ||
            ["heading", "union", "except", "intersect", "and", "or", "not"].any
              (startsWithWord · text))) := by
        rw [startsReserved, hwords, hoperators, List.any_append, List.any_map, List.any_map]
        rfl
    _ = (wordRelations.any (startsWithWord ·.1 text) ||
          operatorRelations.any (·.1.toList.isPrefixOf text) ||
            ["heading", "union", "except", "intersect", "and", "or", "not"].any
              (startsWithWord · text)) := by
        rw [Bool.or_left_comm, Bool.or_assoc]
    _ = keywords.any (·.opens text) := by
        rw [keywords, relationKeywords, List.any_append, List.any_append, List.any_map,
          List.any_map]
        rfl

theorem startsReserved_iff (s : State) :
    startsReserved s.cursor.rest = true ↔ ∃ k ∈ keywords, k.IsRead s := by
  simp only [startsReserved_eq, List.any_eq_true, Keyword.isRead_iff]

variable {s t : State} {name : List Char}

theorem startsReserved_of_unquoted (h : unquoted s = .ok name t) :
    startsReserved s.cursor.rest = false := by
  cases hreserved : startsReserved s.cursor.rest with
  | false => rfl
  | true =>
    rw [unquoted, remaining_bind_run, if_pos hreserved] at h
    cases h

theorem relation_of_noKeyword (h : ∀ k ∈ relationKeywords, k.opens s.cursor.rest = false) :
    relation s = .error .relation s := by
  have hwords : firstRead (word ·.1 .relation) wordRelations s = .ok none s :=
    firstRead_of_none fun entry hentry => Keyword.matcher_of_not_opens <|
      h (.word entry.1 .relation) (List.mem_append_left _ (List.mem_map_of_mem hentry))
  have hoperators : firstRead (operator ·.1 .relation) operatorRelations s = .ok none s :=
    firstRead_of_none fun entry hentry => Keyword.matcher_of_not_opens <|
      h (.operator entry.1 .relation) (List.mem_append_right _ (List.mem_map_of_mem hentry))
  rw [relation, bind_of_ok hwords]
  exact bind_of_ok hoperators

theorem not_slash_of_unquoted (h : unquoted s = .ok name t) :
    operator "/" .axis s = .ok false s := by
  rw [operator_run, if_neg]
  intro hslash
  obtain ⟨behind, hrest⟩ := List.isPrefixOf_iff_prefix.mp hslash
  have hrefuses : Refuses unquoted s.depth ('/' :: behind) :=
    refuses_unquoted rfl rfl
  obtain ⟨reason, u, hrun, -⟩ := hrefuses s ⟨rfl, hrest.symm⟩
  cases h.symm.trans hrun

theorem headingType_of_noKeyword (h : (Keyword.word "heading" .type).opens s.cursor.rest = false) :
    headingType s = .error .stepType s :=
  bind_of_ok (Keyword.matcher_of_not_opens h)

/-- What is reserved is what can be read as a keyword, whatever follows. A word that cannot be read
leaves all as it was; and where an unquoted string is read, no keyword, relation or row type can be,
nor the slash between two steps. -/
theorem reserved_iff_keyword (s : State) :
    (startsReserved s.cursor.rest = true ↔ ∃ k ∈ keywords, k.IsRead s) ∧
      (∀ k : Keyword, k.IsRead s ∨ k.matcher s = .ok false s) ∧
      ∀ {name : List Char} {t : State}, unquoted s = .ok name t →
        (∀ k ∈ keywords, k.matcher s = .ok false s) ∧ relation s = .error .relation s ∧
          headingType s = .error .stepType s ∧ operator "/" .axis s = .ok false s := by
  refine ⟨startsReserved_iff s, fun k => k.isRead_or_unchanged s, fun {name t} hread => ?_⟩
  have hno : ∀ k ∈ keywords, k.opens s.cursor.rest = false := by
    have hreserved := startsReserved_of_unquoted hread
    rw [startsReserved_eq, List.any_eq_false] at hreserved
    exact fun k hk => Bool.eq_false_iff.mpr (hreserved k hk)
  refine ⟨fun k hk => Keyword.matcher_of_not_opens (hno k hk), ?_, ?_, not_slash_of_unquoted hread⟩
  · exact relation_of_noKeyword fun k hk => hno k (List.mem_append_left _ hk)
  · exact headingType_of_noKeyword (hno _ (List.mem_append_right _ (by simp)))

/-- A parenthesis ends the word `and`; in `android` the word goes on, and is given back. -/
theorem reserved_iff_keyword_android :
    (∃ k ∈ keywords, k.IsRead (.start "and(x".toList)) ∧
      unquoted (.start "android".toList) =
        .ok "android".toList ((State.start "android".toList).pass 7) ∧
      word "and" .boolean (.start "android".toList) = .ok false (.start "android".toList) := by
  have hread : unquoted (.start "android".toList) =
      .ok "android".toList ((State.start "android".toList).pass 7) := rfl
  refine ⟨(reserved_iff_keyword _).1.mp (by decide), hread, ?_⟩
  exact ((reserved_iff_keyword _).2.2 hread).1 (.word "and" .boolean) (by simp [keywords])

end OutlineQuery.Grammar
