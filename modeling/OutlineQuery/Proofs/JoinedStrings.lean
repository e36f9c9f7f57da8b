import OutlineQuery.Proofs.OutsideStrings
import OutlineQuery.Proofs.Quoting

/-! Strings that are joined. The text that makes one literal is taken apart into its strings and the
blanks between them, and the literal holds what the strings hold with the same blanks in between.
A string that cannot be read ends the literal, and the blanks before it are left with it. -/

namespace OutlineQuery
open Grammar Production Text

/-- A string as it is written, with what it holds and the text behind it. Without quotes it is a
symbol or the whole of an identifier, and nothing reserved stands where it starts. -/
inductive IsPiece : TokenKind → List Char → List Char → List Char → Prop
  | quoted {content written rest : List Char} : QuotesAs content written →
      IsPiece .quotedString ('"' :: (written ++ ['"'])) content rest
  | symbol {c : Char} {rest : List Char} : isSymbol c = true →
      startsReserved (c :: rest) = false → IsPiece .unquotedString [c] [c] rest
  | name {name rest : List Char} : IsIdentifier name → rest.head?.any isRest = false →
      startsReserved (name ++ rest) = false → IsPiece .unquotedString name name rest

/-- The text is made of strings with nothing but blanks in between. `content` is what they hold with
these blanks in between, and each string has a token, the first of them at `offset`. -/
inductive Joined : Nat → List Char → List Char → List Token → List Char → Prop
  | last {kind : TokenKind} {offset : Nat} {piece held rest : List Char} :
      IsPiece kind piece held rest →
      Joined offset piece held
        [⟨kind, offset, offset + byteSize piece, String.ofList piece⟩] rest
  | more {kind : TokenKind} {offset : Nat} {piece held gap text content rest : List Char}
      {tokens : List Token} : IsPiece kind piece held (gap ++ (text ++ rest)) →
      (∀ c ∈ gap, isBlank c = true) → text.head?.any isBlank = false →
      Joined (offset + byteSize piece + byteSize gap) text content tokens rest →
      Joined offset (piece ++ (gap ++ text)) (held ++ (gap ++ content))
        (⟨kind, offset, offset + byteSize piece, String.ofList piece⟩ :: tokens) rest

theorem IsPiece.ne_nil {kind : TokenKind} {piece held rest : List Char}
    (h : IsPiece kind piece held rest) : piece ≠ [] := by
  cases h with
  | quoted => simp
  | symbol => simp
  | name hname =>
    rintro rfl
    exact hname

theorem Joined.ne_nil {offset : Nat} {text content rest : List Char} {tokens : List Token}
    (h : Joined offset text content tokens rest) : text ≠ [] := by
  cases h with
  | last hpiece => exact hpiece.ne_nil
  | more hpiece => exact fun hnil => hpiece.ne_nil (List.append_eq_nil_iff.mp hnil).1

theorem mem_escapes {e c : Char} (h : unescape? e = some c) : (e, c) ∈ escapes := by
  by_cases hmem : e ∈ escapes.map Prod.fst
  · obtain ⟨⟨_, d⟩, hd, rfl⟩ := List.mem_map.mp hmem
    cases h.symm.trans (unescape?_of_mem hd)
    exact hd
  · cases h.symm.trans (unescape?_of_notMem hmem)

theorem SpellsBody.quotesAs {body held : List Char} (h : SpellsBody body held) :
    ∃ written, body = written ++ ['"'] ∧ QuotesAs held written := by
  induction h with
  | close => exact ⟨[], rfl, .nil⟩
  | @escape e d _ _ hescape _ ih =>
    obtain ⟨written, rfl, hwritten⟩ := ih
    exact ⟨'\\' :: e :: written, rfl, .escaped (mem_escapes hescape) hwritten⟩
  | @plain c _ _ hquote hslash _ ih =>
    obtain ⟨written, rfl, hwritten⟩ := ih
    exact ⟨c :: written, rfl, .raw hquote hslash hwritten⟩

namespace Grammar

theorem readQuoted_piece {text held : List Char} {n : Nat} (h : readQuoted text = some (held, n)) :
    ∃ piece rest, text = piece ++ rest ∧ n = piece.length ∧
      IsPiece .quotedString piece held rest := by
  obtain ⟨body, rest, rfl, rfl, hspells⟩ := readQuoted_word h
  obtain ⟨written, rfl, hwritten⟩ := hspells.quotesAs
  exact ⟨'"' :: (written ++ ['"']), rest, rfl, rfl, .quoted hwritten⟩

theorem readSymbol_piece {text held : List Char} {n : Nat} (h : readSymbol text = some (held, n))
    (hreserved : startsReserved text = false) :
    ∃ piece rest, text = piece ++ rest ∧ n = piece.length ∧
      IsPiece .unquotedString piece held rest := by
  cases text with
  | nil => cases h
  | cons c text =>
    rw [readSymbol] at h
    split at h
    · rename_i hsymbol
      cases h
      exact ⟨[c], text, rfl, rfl, .symbol hsymbol hreserved⟩
    · rw [readName] at h
      split at h
      · rename_i hstart
        cases h
        have hsplit : c :: text = c :: text.takeWhile isRest ++ text.dropWhile isRest := by
          rw [List.cons_append, List.takeWhile_append_dropWhile]
        have hname : IsIdentifier (c :: text.takeWhile isRest) :=
          ⟨hstart, List.all_eq_true.mp List.all_takeWhile⟩
        rw [hsplit] at hreserved
        exact ⟨_, _, hsplit, rfl, .name hname (head_dropWhile text isRest) hreserved⟩
      · cases h

structure ReadsPiece (s t : State) (kind : TokenKind) (piece held : List Char) : Prop where
  isPiece : IsPiece kind piece held t.cursor.rest
  rest : s.cursor.rest = piece ++ t.cursor.rest
  state : t = s.behind (some kind) piece.length

theorem string_ok {s t : State} {held : List Char} (h : string s = .ok held t) :
    ∃ kind piece, ReadsPiece s t kind piece held := by
  have hread : ∃ kind piece rest, IsPiece kind piece held rest ∧ s.cursor.rest = piece ++ rest ∧
      t = s.behind (some kind) piece.length := by
    rw [string, remaining_bind_run] at h
    split at h
    · obtain ⟨u, hquoted, rfl⟩ := record_ok h
      obtain ⟨n, hfound, rfl⟩ := isLexeme_quoted.found_of_ok hquoted
      obtain ⟨piece, rest, htext, rfl, hpiece⟩ := readQuoted_piece hfound
      exact ⟨_, piece, rest, hpiece, htext, rfl⟩
    · obtain ⟨u, hunquoted, rfl⟩ := record_ok h
      rw [unquoted, remaining_bind_run] at hunquoted
      split at hunquoted
      · cases hunquoted
      · rename_i hreserved
        obtain ⟨n, hfound, rfl⟩ := isLexeme_symbolOrIdentifier.found_of_ok hunquoted
        obtain ⟨piece, rest, htext, rfl, hpiece⟩ :=
          readSymbol_piece hfound (Bool.eq_false_iff.mpr hreserved)
        exact ⟨_, piece, rest, hpiece, htext, rfl⟩
  obtain ⟨kind, piece, rest, hpiece, htext, rfl⟩ := hread
  have hrest : (s.behind (some kind) piece.length).cursor.rest = rest := by
    rw [IsLexeme.rest_behind, htext, List.drop_left]
  exact ⟨kind, piece, hrest.symm ▸ hpiece, hrest.symm ▸ htext, rfl⟩

structure ReadsJoined (s t : State) (text content : List Char) (tokens : List Token) : Prop where
  joined : Joined s.cursor.offset text content tokens t.cursor.rest
  rest : s.cursor.rest = text ++ t.cursor.rest
  cursor : t.cursor = s.cursor.advance text.length
  tokens : t.tokens.toList = s.tokens.toList ++ tokens

def NoneJoins (s : State) : Prop := ∀ held t,
  string (s.pass (s.cursor.rest.takeWhile isBlank).length) ≠ .ok held t

section
variable {s t u : State} {kind : TokenKind} {piece held : List Char}
  (hpiece : ReadsPiece s t kind piece held)
include hpiece

theorem ReadsPiece.joined : ReadsJoined s t piece held
    [⟨kind, s.cursor.offset, s.cursor.offset + byteSize piece, String.ofList piece⟩] where
  joined := .last hpiece.isPiece
  rest := hpiece.rest
  cursor := by rw [hpiece.state, State.cursor_behind]
  tokens := by rw [hpiece.state, State.tokens_behind, hpiece.rest, List.take_left]

/-- A string, the blanks behind it and what is joined behind these. -/
theorem ReadsPiece.more {gap text content : List Char} {tokens : List Token}
    (hgap : t.cursor.rest.takeWhile isBlank = gap)
    (h : ReadsJoined (t.pass gap.length) u text content tokens) :
    ReadsJoined s u (piece ++ (gap ++ text)) (held ++ (gap ++ content))
      (⟨kind, s.cursor.offset, s.cursor.offset + byteSize piece, String.ofList piece⟩ ::
        tokens) := by
  have hfirst := hpiece.joined
  have hblank : ∀ c ∈ gap, isBlank c = true := hgap ▸ List.all_eq_true.mp List.all_takeWhile
  have hpassed : (t.pass gap.length).cursor.rest = t.cursor.rest.dropWhile isBlank := by
    rw [rest_pass, ← hgap, drop_takeWhile]
  have hbehind : t.cursor.rest = gap ++ (text ++ u.cursor.rest) := by
    rw [← h.rest, hpassed, ← hgap, List.takeWhile_append_dropWhile]
  have hnext : text.head?.any isBlank = false := by
    have hhead := head_dropWhile t.cursor.rest isBlank
    rwa [← hpassed, h.rest, List.head?_append_of_ne_nil _ h.joined.ne_nil] at hhead
  have hoffset : (t.pass gap.length).cursor.offset =
      s.cursor.offset + byteSize piece + byteSize gap := by
    rw [State.pass, Cursor.offset_advance, hbehind, List.take_left, hfirst.cursor,
      Cursor.offset_advance, hpiece.rest, List.take_left]
  refine ⟨.more (hbehind ▸ hpiece.isPiece) hblank hnext (hoffset ▸ h.joined), ?_, ?_, ?_⟩
  · rw [hpiece.rest, hbehind, List.append_assoc, List.append_assoc]
  · rw [h.cursor, State.pass, hfirst.cursor, Cursor.advance_advance, Cursor.advance_advance,
      List.length_append, List.length_append]
  · have htokens : (t.pass gap.length).tokens = t.tokens := rfl
    rw [h.tokens, htokens, hfirst.tokens, List.append_assoc]
    rfl

end

theorem noneJoins_of_none {s t : State} (h : nextPiece s = .ok none t) : t = s ∧ NoneJoins s := by
  obtain ⟨a, ⟨⟩, -⟩ | ⟨-, ht, reason, u, hpiece, -⟩ :=
    attempt_ok (discipline_grown.follows_piece s) h
  refine ⟨ht, fun held v hstring => ?_⟩
  have hblanks : blanks s = .ok (s.cursor.rest.takeWhile isBlank)
      (s.pass (s.cursor.rest.takeWhile isBlank).length) := rfl
  rw [piece, bind_of_ok hblanks, bind_of_ok hstring] at hpiece
  cases hpiece

theorem nextPiece_some {s u : State} {content : List Char}
    (h : nextPiece s = .ok (some content) u) :
    ∃ held, content = s.cursor.rest.takeWhile isBlank ++ held ∧
      string (s.pass (s.cursor.rest.takeWhile isBlank).length) = .ok held u := by
  obtain ⟨a, ⟨⟩, hpiece⟩ | ⟨hnone, -⟩ := attempt_ok (discipline_grown.follows_piece s) h
  · obtain ⟨gap, t, ⟨⟩, hrest⟩ := bind_ok hpiece
    obtain ⟨held, v, hstring, ⟨⟩⟩ := bind_ok hrest
    exact ⟨held, rfl, hstring⟩
  · cases hnone

/-- Each round of the loop puts a string and the blanks behind it in front of what the rounds behind
it read. The last one fails and leaves the state as it was. -/
theorem pieces_joined {others : List (List Char)} {s t u : State} {first : List Char}
    (hfirst : string s = .ok first t) (hothers : many nextPiece t = .ok others u) :
    (∃ text tokens, ReadsJoined s u text (first ++ others.flatten) tokens) ∧ NoneJoins u := by
  obtain ⟨kind, written, hpiece⟩ := string_ok hfirst
  -- The string before the loop is general: in the next round it is the one just read.
  induction others generalizing s t first kind written with
  | nil =>
    obtain ⟨-, hnone⟩ | ⟨_, _, _, ⟨⟩, -⟩ := many_ok consumes_nextPiece hothers
    obtain ⟨rfl, hend⟩ := noneJoins_of_none hnone
    rw [List.flatten_nil, List.append_nil]
    exact ⟨⟨_, _, hpiece.joined⟩, hend⟩
  | cons other others ih =>
    obtain ⟨⟨⟩, -⟩ | ⟨_, _, t', ⟨⟩, hnext, hmore⟩ := many_ok consumes_nextPiece hothers
    obtain ⟨held, rfl, hstring⟩ := nextPiece_some hnext
    obtain ⟨kind', written', hpiece'⟩ := string_ok hstring
    obtain ⟨⟨text, tokens, hjoined⟩, hend⟩ := ih hstring hmore kind' written' hpiece'
    rw [List.flatten_cons, List.append_assoc]
    exact ⟨⟨_, _, hpiece.more rfl hjoined⟩, hend⟩

end Grammar

/-- Where a literal is read, the text that is passed is one string after the other with nothing but
blanks in between, and these strings are the tokens that are recorded. The literal is what they hold
with the same blanks, without those at the two ends. No string can be read behind the blanks that
come next; these are all of them, also where `\u1680` is one, which could start an identifier. -/
theorem literal_joined {s t : State} {v : Value} (h : literal s = .ok v t) :
    ∃ text content tokens, ReadsJoined s t text content tokens ∧
      v = .literal (String.ofList (trim content)) ∧ NoneJoins t := by
  obtain ⟨first, u, hfirst, hothers⟩ := bind_ok h
  obtain ⟨others, w, hmany, ⟨⟩⟩ := bind_ok hothers
  obtain ⟨⟨text, tokens, hjoined⟩, hend⟩ := pieces_joined hfirst hmany
  exact ⟨text, _, tokens, hjoined, rfl, hend⟩

/-- A word and a string between quotes are joined, and the reserved word behind them is not. -/
theorem literal_joined_wordAndQuotes :
    let start := State.start "a  \"b\\\"c\" or d".toList
    ∃ t, literal start = .ok (.literal "a  b\"c") t ∧
      ∃ text content tokens, ReadsJoined start t text content tokens ∧
        Value.literal "a  b\"c" = .literal (String.ofList (trim content)) ∧ NoneJoins t := by
  intro start
  obtain ⟨_, t, hread, htest⟩ := exists_run (r := literal start)
    (q := (· matches .literal "a  b\"c")) (by decide +kernel)
  split at htest
  · exact ⟨t, hread, literal_joined hread⟩
  · cases htest

end OutlineQuery
