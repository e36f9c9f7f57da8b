import OutlineQuery.Proofs.SingleStep
import OutlineQuery.Proofs.WordsAsNames

/-! Queries that are no more than a string. Everything else that may stand where the string does is
tried and fails, and so the query is a search for the string in the texts of the rows. -/

namespace OutlineQuery

structure Searches (limit : Nat) (query : String) (kind : TokenKind) (content : String) : Prop where
  result : (parse limit query).result =
    .ok (.location (.children (.textContains (.literal content) .caseInsensitive)))
  tokens : (parse limit query).tokens =
    [⟨kind, 0, query.utf8ByteSize, query⟩, ⟨.comparison, 0, query.utf8ByteSize, query⟩]

namespace Grammar
open Production Text

theorem State.cursor_behind (s : State) (kind? : Option TokenKind) (n : Nat) :
    (s.behind kind? n).cursor = s.cursor.advance n := by
  cases kind? <;> rfl

/-- The token that is recorded is for the text that is passed. -/
theorem State.tokens_behind (s : State) (kind : TokenKind) (n : Nat) :
    (s.behind (some kind) n).tokens.toList = s.tokens.toList ++
      [⟨kind, s.cursor.offset, s.cursor.offset + byteSize (s.cursor.rest.take n),
        String.ofList (s.cursor.rest.take n)⟩] := by
  rw [behind, emit, TokenLog.toList_push]
  simp only [pass, Cursor.offset_advance, Cursor.since_advance]

structure IsLoneString (kind : TokenKind) (text content : List Char) : Prop where
  string {s : State} : s.cursor.rest = text →
    string s = .ok content (s.behind (some kind) text.length)
  function {inner : Inner} {depth : Nat} : Refuses (function inner) depth text
  atSign : text.head? ≠ some '@'
  starts : text.head?.any (fun c => isBlank c || c == '(' || c == '*') = false
  notWord : startsWithWord "not" text = false
  opens : OpensTest text

section
variable {depth : Nat}

theorem refuses_operand_end {inner : Inner} (hi : inner.Follows Grown) :
    Refuses (operand inner) depth [] := by
  have hstring : Refuses Grammar.string depth [] := .string nofun (refuses_unquoted rfl rfl)
  exact refuses_operand hi (refuses_function rfl) (refuses_value nofun hstring)

theorem refuses_spacedModifier_end : Refuses spacedModifier depth [] := by
  have hletter : Refuses modifier depth [] := (Refuses.bind_first (refuses_expect rfl)).record
  exact .bind_next (reads_noBlanks rfl) hletter

theorem refuses_spacedRelation_end : Refuses spacedRelation depth [] :=
  .bind_next (reads_noBlanks rfl) (refuses_relation rfl)

end

namespace IsLoneString
variable {kind : TokenKind} {text content : List Char}

def search (content : List Char) : Predicate :=
  .textContains (.literal (String.ofList (trim content))) .caseInsensitive

theorem rest_behindText (kind : TokenKind) {s : State} (hs : s.cursor.rest = text) :
    (s.behind (some kind) text.length).cursor.rest = [] := by
  rw [State.cursor_behind, Cursor.rest_advance, hs, List.drop_length]

section
variable (h : IsLoneString kind text content) {s : State} (hs : s.cursor.rest = text)
include h hs

theorem value_run :
    value s = .ok (.literal (String.ofList (trim content)))
      (s.behind (some kind) text.length) := by
  have hattribute : Refuses attributeValue s.depth text := refuses_attributeValue h.atSign
  have hnone := hattribute.attempt_run discipline_grown.follows_attributeValue ⟨rfl, hs⟩
  have hothers : many nextPiece (s.behind (some kind) text.length) =
      .ok [] (s.behind (some kind) text.length) :=
    many_of_none consumes_nextPiece (consumes_nextPiece.ending (rest_behindText kind hs))
  have hliteral : literal s = .ok (.literal (String.ofList (trim (content ++ [].flatten))))
      (s.behind (some kind) text.length) := by
    rw [literal, bind_of_ok (h.string hs), bind_of_ok hothers]
    rfl
  rw [List.flatten_nil, List.append_nil] at hliteral
  exact (bind_of_ok hnone).trans hliteral

theorem loneValue_run : loneValue s = .ok (search content) (s.behind (some kind) text.length) := by
  have hmodifier : modifierBehind (s.behind (some kind) text.length) =
      .ok .default (s.behind (some kind) text.length) :=
    bind_of_ok (refuses_spacedModifier_end.attempt_run discipline_grown.follows_spacedModifier
      ⟨rfl, rest_behindText kind hs⟩)
  rw [loneValue, bind_of_ok (h.value_run hs), bind_of_ok hmodifier]
  rfl

variable {inner : Inner} (hi : inner.Follows Grown)
include hi

/-- There is nothing that the string could be compared with. -/
theorem fullComparison_run : attempt (fullComparison inner) s = .ok none s := by
  have hvalue : Reads value s.depth text (.literal (String.ofList (trim content))) [] :=
    fun _ hu => ⟨_, h.value_run hu.text, hu.depth, rest_behindText kind hu.text⟩
  have hleft : Reads (operand inner) s.depth text (.literal (String.ofList (trim content))) [] :=
    (h.function.attempt (discipline_grown.follows_function hi)).bind hvalue
  have hrelation : Reads relationBehind s.depth [] .default [] :=
    refuses_spacedRelation_end.attemptOr _ discipline_grown.follows_spacedRelation
  have hmodifier : Reads modifierBehind s.depth [] .default [] :=
    refuses_spacedModifier_end.attemptOr _ discipline_grown.follows_spacedModifier
  have hno : Refuses (fullComparison inner) s.depth text :=
    .bind_next hleft (.bind_next hrelation (.bind_next hmodifier
      (.bind_next (reads_noBlanks rfl) (refuses_operand_end hi).bind_first)))
  exact hno.attempt_run (discipline_grown.follows_fullComparison hi) ⟨rfl, hs⟩

theorem comparison_run : comparison inner s =
    .ok (search content) ((s.behind (some kind) text.length).emit .comparison s.cursor) := by
  have hstar : skip "*" s = .ok false s := by
    rw [skip_run, hs, no_star h.starts]
    rfl
  have hforms : firstOf [fullComparison inner, loneValue, textComparison inner] s =
      .ok (some (search content)) (s.behind (some kind) text.length) :=
    (bind_of_ok (h.fullComparison_run hs hi)).trans
      (bind_of_ok (attempt_of_ok (h.loneValue_run hs)))
  have hcomparison : starOrComparison inner s =
      .ok (search content) (s.behind (some kind) text.length) :=
    (bind_of_ok hstar).trans (bind_of_ok hforms)
  have hspaced : spacedComparison inner s =
      .ok (search content) ((s.behind (some kind) text.length).emit .comparison s.cursor) :=
    (bind_of_ok (skipBlanks_noBlanks (hs ▸ no_blank h.starts))).trans (record_of_ok hcomparison)
  exact bind_of_ok (attempt_of_ok hspaced)

/-- Nothing negates the search or joins it with another predicate. -/
theorem disjunction_run : ∃ t, disjunction inner s = .ok (search content) t ∧
    PastBlanks ((s.behind (some kind) text.length).emit .comparison s.cursor) t := by
  have hblank : s.cursor.rest.head?.any isBlank = false := hs ▸ no_blank h.starts
  have hgroup : skip "(" s = .ok false s := by
    rw [skip_run, hs, no_group h.starts]
    rfl
  have hterm : term inner s =
      .ok (search content) ((s.behind (some kind) text.length).emit .comparison s.cursor) :=
    (bind_of_ok (skipBlanks_noBlanks hblank)).trans
      ((bind_of_ok hgroup).trans (h.comparison_run hs hi))
  refine disjunction_of_negation hblank hi (negation_of_term hblank (hs ▸ h.notWord) hterm) ?_
  have hend : ((s.behind (some kind) text.length).emit .comparison s.cursor).cursor.rest = [] :=
    rest_behindText kind hs
  rw [hend]
  decide

end

/-- The two tokens are for all of the text. -/
theorem tokens_search (kind : TokenKind) (text : List Char) :
    (((inside text).behind (some kind) text.length).emit .comparison
      (inside text).cursor).tokens.toList =
    [⟨kind, 0, byteSize text, String.ofList text⟩,
      ⟨.comparison, 0, byteSize text, String.ofList text⟩] := by
  have htake : (inside text).cursor.rest.take text.length = text := List.take_length
  have hoffset : (inside text).cursor.offset = 0 := rfl
  have hempty : (inside text).tokens.toList = [] := rfl
  rw [State.emit, TokenLog.toList_push, State.tokens_behind, State.cursor_behind,
    Cursor.offset_advance, Cursor.since_advance, htake, hoffset, hempty, Nat.zero_add]
  rfl

/-- A query that is one string searches for what the string holds. -/
theorem searches {query : String} (h : IsLoneString kind query.toList content) {limit : Nat}
    (hlimit : 1 ≤ limit) : Searches limit query kind (String.ofList (trim content)) := by
  obtain ⟨levels, rfl⟩ : ∃ levels, limit = levels + 1 := ⟨limit - 1, by omega⟩
  have hi := discipline_grown.follows_innerAt (levels + 1) levels
  have hcall : Refuses (wholeCall (levels + 1)) 0 query.toList :=
    .bind_next (reads_noBlanks (no_blank h.starts)) h.function.bind_first
  obtain ⟨t, hdisjunction, ht⟩ := h.disjunction_run (s := inside query.toList) rfl hi
  have hend : t.cursor.rest.dropWhile isBlank = [] := by
    have hpassed : (((inside query.toList).behind (some kind) query.toList.length).emit .comparison
        (inside query.toList).cursor).cursor.rest = [] := rest_behindText kind rfl
    rw [ht.rest, hpassed]
    rfl
  obtain ⟨u, hunion, hu⟩ :=
    union_of_disjunction hi h.opens hdisjunction (endsLocation_of_blanks hend)
  have hread : ReadsLocation (levels + 1) (innerAt (levels + 1) levels) query.toList
      (.children (search content)) u :=
    ⟨hcall.attempt_run (discipline_grown.follows_wholeCall _) ⟨rfl, rfl⟩, hunion,
      List.dropWhile_eq_nil_iff.mp (hu.rest.trans hend)⟩
  obtain ⟨hresult, htokens⟩ := hread.parse
  refine ⟨hresult, ?_⟩
  rw [htokens, hu.tokens, ht.tokens, tokens_search, String.ofList_toList, utf8ByteSize_eq]

end IsLoneString
end Grammar
end OutlineQuery
