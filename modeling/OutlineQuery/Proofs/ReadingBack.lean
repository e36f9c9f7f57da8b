import OutlineQuery.Proofs.Scanning

/-! Reading back what was written. What stands between parentheses is read back by assumption; the
characters behind each part of a query say that nothing more is read as one with it. -/

namespace OutlineQuery.Grammar
open Production Text

structure Inner.ReadsBack (inner : Inner) (depth size : Nat) : Prop where
  follows : inner.Follows Grown
  predicate (p : Predicate) (rest : List Char) : p.WellFormed → p.nodes ≤ size →
    Reads inner.predicate depth (p.written ++ ')' :: rest) p (')' :: rest)
  argument (l : Location) (rest : List Char) : l.WellFormed → l.nodes ≤ size →
    Reads inner.argument depth (l.written ++ ')' :: rest) l (')' :: rest)

section
variable {α : Type} {operand : Production α} {word : String} {kind : TokenKind}
  {combine : α → α → α} {depth : Nat} {text more rest : List Char} {a b : α}

/-- The blanks before what might have been the operator are passed. -/
theorem Reads.chain_end (hg : operand.Follows Grown) (hw : word ≠ "")
    (hp : Reads operand depth text a rest) (htext : text.head?.any isBlank = false)
    (hno : startsWithWord word (rest.dropWhile isBlank) = false) :
    Reads (chain operand (Grammar.word word kind) combine) depth text a
      (rest.dropWhile isBlank) := by
  have hend : Reads (Grammar.word word kind) depth (rest.dropWhile isBlank) false
      (rest.dropWhile isBlank) := reads_word_false hno
  rw [chain_eq (consumes_nextOperand hw hg)]
  exact (reads_noBlanks htext).bind (hp.bind (reads_skipBlanks.bind (hend.bind (.pure a))))

theorem Reads.chain_next {behind : List Char} (hg : operand.Follows Grown) (hw : word ≠ "")
    (hp : Reads operand depth text a behind) (htext : text.head?.any isBlank = false)
    (hbehind : behind.dropWhile isBlank = word.toList ++ more)
    (hmore : more.head?.any isRest = false)
    (hrec : Reads (chain operand (Grammar.word word kind) combine) depth more b rest) :
    Reads (chain operand (Grammar.word word kind) combine) depth text (combine a b) rest := by
  have hop : Reads (Grammar.word word kind) depth (behind.dropWhile isBlank) true more :=
    reads_word hbehind hmore
  have hagain : Reads (do return combine a (← chain operand (Grammar.word word kind) combine))
      depth more (combine a b) rest := hrec.map
  rw [chain_eq (consumes_nextOperand hw hg)]
  exact (reads_noBlanks htext).bind (hp.bind (reads_skipBlanks.bind (hop.bind hagain)))

theorem Reads.chain_last (hg : operand.Follows Grown) (hw : word ≠ "")
    (hp : Reads operand depth text a rest) (htext : text.head?.any isBlank = false)
    (hrest : rest.head?.any isBlank = false) (hno : startsWithWord word rest = false) :
    Reads (chain operand (Grammar.word word kind) combine) depth text a rest := by
  rw [← dropWhile_blank hrest] at hno
  have hread : Reads (chain operand (Grammar.word word kind) combine) depth text a _ :=
    hp.chain_end hg hw htext hno
  rwa [dropWhile_blank hrest] at hread

theorem Reads.chain_more (hg : operand.Follows Grown) (hw : word ≠ "")
    (hp : Reads operand depth text a (word.toList ++ more)) (htext : text.head?.any isBlank = false)
    (hword : (word.toList ++ more).head?.any isBlank = false)
    (hmore : more.head?.any isRest = false)
    (hrec : Reads (chain operand (Grammar.word word kind) combine) depth more b rest) :
    Reads (chain operand (Grammar.word word kind) combine) depth text (combine a b) rest :=
  hp.chain_next hg hw htext (dropWhile_blank hword) hmore hrec

/-- It does not matter to a chain whether the blanks before it have been passed. -/
theorem chain_run_blanks {operator : Production Bool} {s : State} {gap : List Char}
    (hs : s.cursor.rest = gap ++ text) (hgap : ∀ c ∈ gap, isBlank c = true) :
    chain operand operator combine s = chain operand operator combine (s.pass gap.length) := by
  have htake : s.cursor.rest.takeWhile isBlank = gap ++ text.takeWhile isBlank := by
    rw [hs, List.takeWhile_append_of_pos hgap]
  have hrest : (s.pass gap.length).cursor.rest = text := by
    rw [rest_pass, hs, List.drop_left]
  rw [chain, bind_of_ok skipBlanks_run, bind_of_ok skipBlanks_run, hrest, htake, pass_pass,
    List.length_append]

/-- A chain passes the blanks before it. -/
theorem Reads.chain_blank {operator : Production Bool}
    (h : Reads (chain operand operator combine) depth text a rest) :
    Reads (chain operand operator combine) depth (' ' :: text) a rest := by
  intro s hs
  have hblank : ∀ c ∈ [' '], isBlank c = true := List.forall_mem_singleton.mpr rfl
  rw [chain_run_blanks hs.text hblank]
  exact h _ (hs.pass 1)

end

section
variable {depth : Nat} {text rest : List Char} {name : String}

theorem reads_attributeValue (h : IsIdentifier name.toList) (hr : rest.head?.any isRest = false) :
    Reads attributeValue depth ('@' :: (name.toList ++ rest)) (.attribute name) rest := by
  have hat : Reads (expect "@") depth ('@' :: (name.toList ++ rest)) () (name.toList ++ rest) :=
    reads_expect rfl
  have hname : Reads attributeName depth ('@' :: (name.toList ++ rest)) name.toList rest :=
    hat.bind (reads_identifier h hr)
  have hvalue : Reads attributeValue depth ('@' :: (name.toList ++ rest))
      (.attribute (String.ofList name.toList)) rest := hname.record.bind (.pure _)
  rwa [String.ofList_toList] at hvalue

theorem refuses_attributeValue (h : text.head? ≠ some '@') : Refuses attributeValue depth text := by
  have hno : "@".toList.isPrefixOf text = false := isPrefixOf_cons_false h []
  exact Refuses.bind_first (Refuses.record (Refuses.bind_first (refuses_expect hno)))

/-- A value that is no attribute is one or more strings. -/
theorem refuses_value (hat : text.head? ≠ some '@') (h : Refuses string depth text) :
    Refuses value depth text := by
  have hattribute : Refuses attributeValue depth text := refuses_attributeValue hat
  exact .bind_next (hattribute.attempt discipline_grown.follows_attributeValue) h.bind_first

theorem refuses_piece (h : Refuses string depth (text.dropWhile isBlank)) :
    Refuses piece depth text :=
  .bind_next reads_blanks (.bind_first h)

theorem shorter_of_advances {α : Type} {p : Production α} {s t : State} {a : α}
    (hg : p.Follows Grown) (hp : p.Advances) (h : p s = .ok a t) :
    t.cursor.rest.length < s.cursor.rest.length := by
  have hgrown := hg s
  rw [finish_of_ok h] at hgrown
  exact hgrown.shorter_iff.mpr (hp s a t h)

theorem consumes_nextPiece : Consumes nextPiece where
  shorter {s t a} h := by
    obtain ⟨b, hb, hrun⟩ | ⟨hb, -⟩ := attempt_ok (discipline_grown.follows_piece s) h
    · exact shorter_of_advances discipline_grown.follows_piece advances_piece hrun
    · cases hb
  ending {s} hs := by
    have hnone : Refuses piece s.depth [] :=
      refuses_piece (Refuses.string (by simp) (refuses_unquoted rfl rfl))
    exact hnone.attempt_run discipline_grown.follows_piece ⟨rfl, hs⟩

theorem reads_literal {content : String} (h : trim content.toList = content.toList)
    (hstop : Refuses piece depth rest) :
    Reads literal depth (quotedText content.toList ++ rest) (.literal content) rest := by
  have hmore : Reads nextPiece depth rest none rest := hstop.attempt discipline_grown.follows_piece
  have hpieces : Reads (many nextPiece) depth rest [] rest :=
    Reads.many_none consumes_nextPiece hmore
  have hvalue : Reads literal depth (quotedText content.toList ++ rest)
      (.literal (String.ofList (trim (content.toList ++ [].flatten)))) rest :=
    (reads_quotedString content.toList rest).bind (hpieces.bind (.pure _))
  rwa [List.flatten_nil, List.append_nil, h, String.ofList_toList] at hvalue

structure EndsValue (rest : List Char) : Prop where
  name : rest.head?.any isRest = false
  piece (depth : Nat) : Refuses piece depth rest

theorem endsValue_close (rest : List Char) : EndsValue (')' :: rest) :=
  ⟨rfl, fun _ => refuses_piece (Refuses.string nofun (refuses_unquoted rfl rfl))⟩

theorem endsValue_modifier (m : Modifier) (rest : List Char) : EndsValue (m.written ++ rest) :=
  ⟨rfl, fun _ => refuses_piece (Refuses.string nofun (refuses_unquoted rfl rfl))⟩

theorem endsValue_relation (r : Relation) (m : Modifier) (rest : List Char) :
    EndsValue (' ' :: (r.spelling.toList ++ (m.written ++ rest))) := by
  have hreserved : startsReserved (r.spelling.toList ++ (m.written ++ rest)) = true := by
    cases r <;> rfl
  have hquote : (r.spelling.toList ++ (m.written ++ rest)).head? ≠ some '"' := by
    cases r <;> simp [Relation.spelling]
  have hblank : (' ' :: (r.spelling.toList ++ (m.written ++ rest))).dropWhile isBlank =
      r.spelling.toList ++ (m.written ++ rest) := by
    cases r <;> rfl
  refine ⟨rfl, fun depth => refuses_piece ?_⟩
  rw [hblank]
  exact Refuses.string hquote (refuses_reserved hreserved)

variable {inner : Inner} {size : Nat}

theorem reads_function (hi : inner.ReadsBack depth size) {f : Function} (hf : f.WellFormed)
    (hn : f.nodes ≤ size + 1) (rest : List Char) :
    Reads (function inner) depth (f.written ++ rest) f rest := by
  obtain ⟨name, argument⟩ := f
  obtain ⟨hname, -, hargument⟩ := hf
  have hsize : argument.nodes ≤ size := Nat.le_of_succ_le_succ hn
  have htext : (Function.mk name argument).written ++ rest =
      name.toList ++ '(' :: (argument.written ++ ')' :: rest) := by
    simp [Function.written]
  have hidentifier : Reads identifier depth
      (name.toList ++ '(' :: (argument.written ++ ')' :: rest)) name.toList
      ('(' :: (argument.written ++ ')' :: rest)) := reads_identifier hname rfl
  have hopen : Reads (expect "(") depth ('(' :: (argument.written ++ ')' :: rest)) ()
      (argument.written ++ ')' :: rest) := reads_expect rfl
  have hclose : Reads (expect ")") depth (')' :: rest) () rest := reads_expect rfl
  have hcall : Reads (function inner) depth
      (name.toList ++ '(' :: (argument.written ++ ')' :: rest))
      ⟨String.ofList name.toList, argument⟩ rest :=
    hidentifier.record.bind
      (hopen.bind ((hi.argument argument rest hargument hsize).bind (hclose.bind (.pure _))))
  rw [String.ofList_toList] at hcall
  rw [htext]
  exact hcall

theorem refuses_function (h : text.head?.any isStart = false) :
    Refuses (function inner) depth text :=
  Refuses.bind_first (refuses_identifier h).record

/-- An operand that is no call is a value. -/
theorem refuses_operand (hi : inner.Follows Grown) (hcall : Refuses (function inner) depth text)
    (hvalue : Refuses value depth text) : Refuses (operand inner) depth text :=
  .bind_next (hcall.attempt (discipline_grown.follows_function hi)) hvalue

theorem reads_operand (hi : inner.ReadsBack depth size) {v : Value} (hv : v.WellFormed)
    (hn : v.nodes ≤ size + 1) (hr : EndsValue rest) :
    Reads (operand inner) depth (v.written ++ rest) v rest := by
  have hfunction := discipline_grown.follows_function hi.follows
  match v with
  | .call f => exact (reads_function hi hv hn rest).attempt.bind (.pure _)
  | .attribute name =>
    have hno : Refuses (function inner) depth ('@' :: (name.toList ++ rest)) := refuses_function rfl
    have hvalue : Reads value depth ('@' :: (name.toList ++ rest)) (.attribute name) rest :=
      (reads_attributeValue hv hr.name).attempt.bind (.pure _)
    exact (hno.attempt hfunction).bind hvalue
  | .literal content =>
    have hno : Refuses (function inner) depth (quotedText content.toList ++ rest) :=
      refuses_function rfl
    have hnoAttribute : Refuses attributeValue depth (quotedText content.toList ++ rest) :=
      refuses_attributeValue (by simp [quotedText])
    have hvalue : Reads value depth (quotedText content.toList ++ rest) (.literal content) rest :=
      (hnoAttribute.attempt discipline_grown.follows_attributeValue).bind
        (reads_literal hv (hr.piece depth))
    exact (hno.attempt hfunction).bind hvalue

theorem refuses_operand_close (hi : inner.Follows Grown) (rest : List Char) :
    Refuses (operand inner) depth (')' :: rest) := by
  have hstring : Refuses string depth (')' :: rest) := .string (by simp) (refuses_unquoted rfl rfl)
  exact refuses_operand hi (refuses_function rfl) (refuses_value (by simp) hstring)

end

/-- A value starts with a character that starts neither a group nor a star, and with no blank. -/
theorem written_starts {v : Value} (hv : v.WellFormed) (rest : List Char) :
    (v.written ++ rest).head?.any (fun c => isBlank c || c == '(' || c == '*') = false := by
  match v with
  | .literal content => rfl
  | .attribute name => rfl
  | .call ⟨name, argument⟩ =>
    obtain ⟨hname, hblank, -⟩ := hv
    have htext : (Value.call ⟨name, argument⟩).written ++ rest =
        name.toList ++ '(' :: (argument.written ++ ')' :: rest) := by
      simp [Value.written, Function.written]
    rw [htext]
    cases h : name.toList with
    | nil => rw [h] at hname; cases hname
    | cons c text =>
      rw [h] at hname hblank
      have hstart := hname.1
      have hc : isBlank c = false := hblank
      have hgroup : c ≠ '(' := by rintro rfl; cases hstart
      have hstar : c ≠ '*' := by rintro rfl; cases hstart
      simp [hc, hgroup, hstar]

section
variable {text : List Char}
  (h : text.head?.any (fun c => isBlank c || c == '(' || c == '*') = false)
include h

theorem no_blank : text.head?.any isBlank = false := by
  cases text with
  | nil => rfl
  | cons c text => simp_all

theorem no_group : "(".toList.isPrefixOf text = false := by
  have hne : text.head? ≠ some '(' := by
    cases text with
    | nil => simp
    | cons c text => simp_all
  exact isPrefixOf_cons_false hne []

theorem no_star : "*".toList.isPrefixOf text = false := by
  have hne : text.head? ≠ some '*' := by
    cases text with
    | nil => simp
    | cons c text => simp_all
  exact isPrefixOf_cons_false hne []

end

/-- A name before a parenthesis is a word only if it is all of the word. -/
theorem startsWithWord_call {word : String} {name : List Char} (hname : ∀ c ∈ name, isRest c = true)
    (hne : name ≠ word.toList) (hword : '(' ∉ word.toList) (rest : List Char) :
    startsWithWord word (name ++ '(' :: rest) = false := by
  cases h : startsWithWord word (name ++ '(' :: rest) with
  | false => rfl
  | true =>
    rw [startsWithWord, Bool.and_eq_true, List.isPrefixOf_iff_prefix] at h
    obtain ⟨hstarts, hend⟩ := h
    have hwithin : word.toList <+: name := by
      by_cases hle : word.toList.length ≤ name.length
      · exact List.prefix_of_prefix_length_le hstarts (List.prefix_append _ _) hle
      · have hgroup : name ++ ['('] <+: word.toList := by
          have hsplit : name ++ ['('] <+: name ++ '(' :: rest := by simp
          have hlength : (name ++ ['(']).length ≤ word.toList.length := by
            rw [List.length_append]
            exact Nat.not_le.mp hle
          exact List.prefix_of_prefix_length_le hsplit hstarts hlength
        have hmem : '(' ∈ word.toList := hgroup.subset (by simp)
        exact absurd hmem hword
    obtain ⟨more, rfl⟩ := hwithin
    cases more with
    | nil => simp at hne
    | cons c more =>
      have hc : isRest c = true := hname c (by simp)
      rw [List.append_assoc, drop_text] at hend
      simp [hc] at hend

theorem not_negated {v : Value} (hv : v.WellFormed) (hno : ¬v.LooksNegated) (rest : List Char) :
    startsWithWord "not" (v.written ++ rest) = false := by
  match v with
  | .literal content => rfl
  | .attribute name => rfl
  | .call ⟨name, argument⟩ =>
    have htext : (Value.call ⟨name, argument⟩).written ++ rest =
        name.toList ++ '(' :: (argument.written ++ ')' :: rest) := by
      simp [Value.written, Function.written]
    have hne : name.toList ≠ "not".toList := fun h => hno (String.toList_inj.mp h)
    rw [htext]
    exact startsWithWord_call (IsIdentifier.all_isRest hv.1) hne (by decide) _

section
variable {depth size : Nat} {inner : Inner} {text rest : List Char}

theorem reads_relationBehind (r : Relation) (m : Modifier) (rest : List Char) :
    Reads relationBehind depth (' ' :: (r.spelling.toList ++ (m.written ++ rest))) r
      (m.written ++ rest) := by
  have hblanks : Reads skipBlanks depth (' ' :: (r.spelling.toList ++ (m.written ++ rest))) ()
      (r.spelling.toList ++ (m.written ++ rest)) := by
    have hskip : Reads skipBlanks depth (' ' :: (r.spelling.toList ++ (m.written ++ rest))) () _ :=
      reads_skipBlanks
    have hblank : (' ' :: (r.spelling.toList ++ (m.written ++ rest))).dropWhile isBlank =
        r.spelling.toList ++ (m.written ++ rest) := by
      cases r <;> rfl
    rwa [hblank] at hskip
  have hrelation : Reads relation depth (r.spelling.toList ++ (m.written ++ rest)) r
      (m.written ++ rest) := reads_relation (relationAt?_spelling r (m.letter :: ']' :: rest))
  exact Reads.attemptOr (hblanks.bind hrelation)

theorem reads_modifierBehind (m : Modifier) (rest : List Char) :
    Reads modifierBehind depth (m.written ++ rest) m rest := by
  have hblanks : Reads skipBlanks depth (m.written ++ rest) () (m.written ++ rest) :=
    reads_noBlanks rfl
  exact Reads.attemptOr (hblanks.bind (reads_modifier m rest))

theorem reads_fullComparison (hi : inner.ReadsBack depth size) {left right : Value} {r : Relation}
    {m : Modifier} (hp : (Predicate.comparison left (some r) m (some right)).WellFormed)
    (hn : (Predicate.comparison left (some r) m (some right)).nodes ≤ size + 1)
    (rest : List Char) :
    Reads (fullComparison inner) depth
      ((Predicate.comparison left (some r) m (some right)).written ++ ')' :: rest)
      (.comparison left (some r) m (some right)) (')' :: rest) := by
  obtain ⟨-, hleft, hright⟩ := hp
  simp only [Predicate.nodes] at hn
  have htext : (Predicate.comparison left (some r) m (some right)).written ++ ')' :: rest =
      left.written ++ ' ' :: (r.spelling.toList ++
        (m.written ++ (right.written ++ ')' :: rest))) := by
    simp [Predicate.written, relationText, operandText]
  have hfirst : Reads (operand inner) depth
      (left.written ++ ' ' :: (r.spelling.toList ++ (m.written ++ (right.written ++ ')' :: rest))))
      left (' ' :: (r.spelling.toList ++ (m.written ++ (right.written ++ ')' :: rest)))) :=
    reads_operand hi hleft (by omega) (endsValue_relation r m _)
  have hblanks : Reads skipBlanks depth (right.written ++ ')' :: rest) ()
      (right.written ++ ')' :: rest) := reads_noBlanks (no_blank (written_starts hright _))
  have hsecond : Reads (operand inner) depth (right.written ++ ')' :: rest) right (')' :: rest) :=
    reads_operand hi hright (by omega) (endsValue_close rest)
  rw [htext]
  exact hfirst.bind ((reads_relationBehind r m _).bind
    ((reads_modifierBehind m _).bind (hblanks.bind (hsecond.bind (.pure _)))))

/-- A presence test is no full comparison, since no second operand stands behind the modifier. -/
theorem refuses_fullComparison (hi : inner.ReadsBack depth size) {name : String} (m : Modifier)
    (hname : IsIdentifier name.toList) (rest : List Char) :
    Refuses (fullComparison inner) depth
      ((Value.attribute name).written ++ (m.written ++ ')' :: rest)) := by
  have hfirst : Reads (operand inner) depth
      ((Value.attribute name).written ++ (m.written ++ ')' :: rest)) (.attribute name)
      (m.written ++ ')' :: rest) :=
    reads_operand hi hname (Nat.le_add_left 1 size) (endsValue_modifier m _)
  have hblanks : Reads skipBlanks depth (m.written ++ ')' :: rest) () (m.written ++ ')' :: rest) :=
    reads_noBlanks rfl
  have hnoRelation : Refuses spacedRelation depth (m.written ++ ')' :: rest) :=
    Refuses.bind_next hblanks (refuses_relation rfl)
  have hrelation : Reads relationBehind depth (m.written ++ ')' :: rest) .default
      (m.written ++ ')' :: rest) :=
    hnoRelation.attemptOr Relation.default discipline_grown.follows_spacedRelation
  have hclose : Reads skipBlanks depth (')' :: rest) () (')' :: rest) := reads_noBlanks rfl
  exact Refuses.bind_next hfirst (Refuses.bind_next hrelation
    (Refuses.bind_next (reads_modifierBehind m _)
      (Refuses.bind_next hclose (Refuses.bind_first (refuses_operand_close hi.follows rest)))))

theorem reads_loneValue {name : String} (m : Modifier) (hname : IsIdentifier name.toList)
    (rest : List Char) :
    Reads loneValue depth ((Value.attribute name).written ++ (m.written ++ ')' :: rest))
      (.comparison (.attribute name) none m none) (')' :: rest) := by
  have hvalue : Reads value depth ((Value.attribute name).written ++ (m.written ++ ')' :: rest))
      (.attribute name) (m.written ++ ')' :: rest) :=
    (reads_attributeValue hname rfl).attempt.bind (.pure _)
  exact hvalue.bind ((reads_modifierBehind m _).bind (.pure _))

/-- A comparison that is read by the first form that takes it. -/
theorem reads_comparison {p : Predicate}
    (htext : text.head?.any (fun c => isBlank c || c == '(' || c == '*') = false)
    (hforms : Reads (firstOf [fullComparison inner, loneValue, textComparison inner]) depth text
      (some p) rest) : Reads (comparison inner) depth text p rest := by
  have hstar : Reads (skip "*") depth text false text := reads_skip_false (no_star htext)
  have hread : Reads (starOrComparison inner) depth text p rest :=
    hstar.bind (hforms.bind (.pure p))
  have hspaced : Reads (spacedComparison inner) depth text p rest :=
    (reads_noBlanks (no_blank htext)).bind hread.record
  exact hspaced.attempt.bind (.pure p)

theorem wellFormed_left {left : Value} {r : Option Relation} {m : Modifier} {right : Option Value}
    (hp : (Predicate.comparison left r m right).WellFormed) :
    left.WellFormed ∧ ¬left.LooksNegated := by
  match r, right, hp with
  | some _, some _, hp => exact ⟨hp.2.1, hp.1⟩
  | none, none, hp =>
    refine ⟨hp.2, ?_⟩
    cases left <;> simp_all [Predicate.WellFormed, Value.IsAttribute, Value.LooksNegated]

theorem reads_writtenComparison (hi : inner.ReadsBack depth size) {left : Value}
    {r : Option Relation} {m : Modifier} {right : Option Value}
    (hp : (Predicate.comparison left r m right).WellFormed)
    (hn : (Predicate.comparison left r m right).nodes ≤ size + 1) (rest : List Char) :
    Reads (comparison inner) depth ((Predicate.comparison left r m right).written ++ ')' :: rest)
      (.comparison left r m right) (')' :: rest) := by
  match r, right, hp with
  | some r, some right, hp =>
    refine reads_comparison ?_ (reads_fullComparison hi hp hn rest).firstOf
    rw [Predicate.written, List.append_assoc]
    exact written_starts hp.2.1 _
  | none, none, hp =>
    obtain ⟨hattribute, hleft⟩ := hp
    match left, hattribute with
    | .attribute name, _ =>
      have htext : (Predicate.comparison (.attribute name) none m none).written ++ ')' :: rest =
          (Value.attribute name).written ++ (m.written ++ ')' :: rest) := by
        simp [Predicate.written, relationText, operandText]
      have hlone : Reads (firstOf [loneValue, textComparison inner]) depth _ _ (')' :: rest) :=
        (reads_loneValue m hleft rest).firstOf
      have hforms := (refuses_fullComparison hi m hleft rest).firstOf
        (discipline_grown.follows_fullComparison hi.follows) hlone
      rw [htext]
      exact reads_comparison rfl hforms

theorem reads_group {p : Predicate}
    (hp : Reads inner.predicate depth (p.written ++ ')' :: rest) p (')' :: rest)) :
    Reads (term inner) depth ('(' :: (p.written ++ ')' :: rest)) p rest := by
  have hblanks : Reads skipBlanks depth ('(' :: (p.written ++ ')' :: rest)) ()
      ('(' :: (p.written ++ ')' :: rest)) := reads_noBlanks rfl
  have hopen : Reads (skip "(") depth ('(' :: (p.written ++ ')' :: rest)) true
      (p.written ++ ')' :: rest) := reads_skip rfl
  have hend : Reads skipBlanks depth (')' :: rest) () (')' :: rest) := reads_noBlanks rfl
  have hclose : Reads (expect ")") depth (')' :: rest) () rest := reads_expect rfl
  exact hblanks.bind (hopen.bind (hp.bind (hend.bind (hclose.bind (.pure p)))))

theorem consumes_nextNot : Consumes nextNot where
  shorter {s t a} h := by
    obtain ⟨_, u, h₁, h₂⟩ := bind_ok h
    obtain ⟨found, v, h₃, h₄⟩ := bind_ok h₂
    cases found with
    | false => cases h₄
    | true =>
      cases h₄
      have hskip := rest_length_le (follows_grown_of_silent silent_skipBlanks) h₁
      have hword := word_shortens (by decide) h₃
      omega
  ending {s} hs := by
    have hskip : skipBlanks s = .ok () s := by
      rw [skipBlanks_run, hs]
      rfl
    have hword : word "not" .boolean s = .ok false s := by
      rw [word_run, hs]
      rfl
    exact (bind_of_ok hskip).trans (bind_of_ok hword)

theorem reads_noNot (hblank : text.head?.any isBlank = false)
    (hno : startsWithWord "not" text = false) : Reads (many nextNot) depth text [] text := by
  have hword : Reads (word "not" .boolean) depth text false text := reads_word_false hno
  have hnext : Reads nextNot depth text none text :=
    (reads_noBlanks hblank).bind (hword.bind (.pure none))
  exact .many_none consumes_nextNot hnext

theorem reads_negation {p : Predicate} (hblank : text.head?.any isBlank = false)
    (hno : startsWithWord "not" text = false) (hp : Reads (term inner) depth text p rest) :
    Reads (negation inner) depth text p rest :=
  (reads_noNot hblank hno).bind ((reads_noBlanks hblank).bind (hp.bind (.pure p)))

/-- A `not` in front of something in parentheses. -/
theorem reads_negated {p : Predicate}
    (hp : Reads inner.predicate depth (p.written ++ ')' :: rest) p (')' :: rest)) :
    Reads (negation inner) depth ("not".toList ++ '(' :: (p.written ++ ')' :: rest)) (.not p)
      rest := by
  have hblanks : Reads skipBlanks depth ("not".toList ++ '(' :: (p.written ++ ')' :: rest)) ()
      ("not".toList ++ '(' :: (p.written ++ ')' :: rest)) := reads_noBlanks rfl
  have hword : Reads (word "not" .boolean) depth
      ("not".toList ++ '(' :: (p.written ++ ')' :: rest)) true
      ('(' :: (p.written ++ ')' :: rest)) := reads_word rfl rfl
  have hnext : Reads nextNot depth ("not".toList ++ '(' :: (p.written ++ ')' :: rest)) (some ())
      ('(' :: (p.written ++ ')' :: rest)) := hblanks.bind (hword.bind (.pure (some ())))
  have hnots : Reads (many nextNot) depth ("not".toList ++ '(' :: (p.written ++ ')' :: rest)) [()]
      ('(' :: (p.written ++ ')' :: rest)) :=
    .many_some consumes_nextNot hnext (reads_noNot rfl rfl)
  have hgroup : Reads skipBlanks depth ('(' :: (p.written ++ ')' :: rest)) ()
      ('(' :: (p.written ++ ')' :: rest)) := reads_noBlanks rfl
  exact hnots.bind (hgroup.bind ((reads_group hp).bind (.pure (Predicate.not p))))

/-- Where neither a blank nor `and` follows, one operand is all of the conjunction. -/
theorem reads_conjunction (hi : inner.Follows Grown) {starts : List Char} {p : Predicate}
    (hp : Reads (negation inner) depth text p rest) (htext : text.head?.any isBlank = false)
    (hrest : StartsIn starts rest) (hblank : starts.all (!isBlank ·) = true)
    (hand : 'a' ∉ starts) : Reads (conjunction inner) depth text p rest :=
  hp.chain_last (discipline_grown.follows_negation hi) (by decide) htext (hrest.head_any hblank)
    (hrest.startsWithWord rfl hand)

theorem reads_disjunction (hi : inner.Follows Grown) {starts : List Char} {p : Predicate}
    (hp : Reads (negation inner) depth text p rest) (htext : text.head?.any isBlank = false)
    (hrest : StartsIn starts rest) (hblank : starts.all (!isBlank ·) = true)
    (hand : 'a' ∉ starts) (hor : 'o' ∉ starts) : Reads (disjunction inner) depth text p rest :=
  (reads_conjunction hi hp htext hrest hblank hand).chain_last
    (discipline_grown.follows_conjunction hi) (by decide) htext (hrest.head_any hblank)
    (hrest.startsWithWord rfl hor)

theorem reads_groupNegation {p : Predicate}
    (hp : Reads inner.predicate depth (p.written ++ ')' :: rest) p (')' :: rest)) :
    Reads (negation inner) depth ('(' :: (p.written ++ ')' :: rest)) p rest :=
  reads_negation rfl rfl (reads_group hp)

theorem reads_star (hi : inner.Follows Grown) {rest : List Char}
    (hrest : StartsIn [')', '['] rest) :
    Reads (disjunction inner) depth ('*' :: rest) .any rest := by
  have hblanks : Reads skipBlanks depth ('*' :: rest) () ('*' :: rest) := reads_noBlanks rfl
  have hno : Reads (skip "(") depth ('*' :: rest) false ('*' :: rest) := reads_skip_false rfl
  have hstar : Reads (skip "*") depth ('*' :: rest) true rest := reads_skip rfl
  have hread : Reads (starOrComparison inner) depth ('*' :: rest) .any rest :=
    hstar.bind (.pure Predicate.any)
  have hcomparison : Reads (comparison inner) depth ('*' :: rest) .any rest :=
    (hblanks.bind hread.record).attempt.bind (.pure Predicate.any)
  have hterm : Reads (term inner) depth ('*' :: rest) .any rest :=
    hblanks.bind (hno.bind hcomparison)
  exact reads_disjunction hi (reads_negation rfl rfl hterm) rfl hrest (by decide) (by decide)
    (by decide)

/-- Two groups with `and` between them. -/
theorem reads_conjoined (hi : inner.Follows Grown) {p q : Predicate}
    (hp : ∀ rest, Reads inner.predicate depth (p.written ++ ')' :: rest) p (')' :: rest))
    (hq : ∀ rest, Reads inner.predicate depth (q.written ++ ')' :: rest) q (')' :: rest)) :
    Reads (disjunction inner) depth ((Predicate.and p q).written ++ ')' :: rest) (.and p q)
      (')' :: rest) := by
  have htext : (Predicate.and p q).written ++ ')' :: rest = '(' :: (p.written ++
      ')' :: ("and".toList ++ '(' :: (q.written ++ ')' :: ')' :: rest))) := by
    simp [Predicate.written]
  have hright := reads_conjunction hi (reads_groupNegation (hq (')' :: rest))) rfl
    (startsIn_close rest) (by decide) (by decide)
  have hboth : Reads (conjunction inner) depth _ (.and p q) (')' :: rest) :=
    (reads_groupNegation (hp _)).chain_more (discipline_grown.follows_negation hi) (by decide)
      rfl rfl rfl hright
  rw [htext]
  exact hboth.chain_last (discipline_grown.follows_conjunction hi) (by decide) rfl rfl rfl

/-- Two groups with `or` between them. -/
theorem reads_disjoined (hi : inner.Follows Grown) {p q : Predicate}
    (hp : ∀ rest, Reads inner.predicate depth (p.written ++ ')' :: rest) p (')' :: rest))
    (hq : ∀ rest, Reads inner.predicate depth (q.written ++ ')' :: rest) q (')' :: rest)) :
    Reads (disjunction inner) depth ((Predicate.or p q).written ++ ')' :: rest) (.or p q)
      (')' :: rest) := by
  have htext : (Predicate.or p q).written ++ ')' :: rest = '(' :: (p.written ++
      ')' :: ("or".toList ++ '(' :: (q.written ++ ')' :: ')' :: rest))) := by
    simp [Predicate.written]
  have hword : StartsIn ['o'] ("or".toList ++ '(' :: (q.written ++ ')' :: ')' :: rest)) :=
    startsIn_cons (List.mem_singleton_self 'o') _
  have hleft := reads_conjunction hi (reads_groupNegation (hp _)) rfl hword (by decide) (by decide)
  have hright := reads_disjunction hi (reads_groupNegation (hq (')' :: rest))) rfl
    (startsIn_close rest) (by decide) (by decide) (by decide)
  rw [htext]
  exact hleft.chain_more (discipline_grown.follows_conjunction hi) (by decide) rfl rfl rfl hright

/-- A comparison is neither a group nor behind a `not`. -/
theorem reads_compared (hi : inner.ReadsBack depth size) {left : Value} {r : Option Relation}
    {m : Modifier} {right : Option Value} (hp : (Predicate.comparison left r m right).WellFormed)
    (hn : (Predicate.comparison left r m right).nodes ≤ size + 1) (rest : List Char) :
    Reads (disjunction inner) depth ((Predicate.comparison left r m right).written ++ ')' :: rest)
      (.comparison left r m right) (')' :: rest) := by
  obtain ⟨hleft, hno⟩ := wellFormed_left hp
  have htext : (Predicate.comparison left r m right).written ++ ')' :: rest =
      left.written ++ (relationText r ++ (m.written ++ (operandText right ++ ')' :: rest))) := by
    simp [Predicate.written]
  have hread := reads_writtenComparison hi hp hn rest
  rw [htext] at hread ⊢
  have hstarts := written_starts hleft
    (relationText r ++ (m.written ++ (operandText right ++ ')' :: rest)))
  have hblank := no_blank hstarts
  have hgroup : Reads (skip "(") depth _ false _ := reads_skip_false (no_group hstarts)
  have hterm : Reads (term inner) depth _ (.comparison left r m right) (')' :: rest) :=
    (reads_noBlanks hblank).bind (hgroup.bind hread)
  exact reads_disjunction hi.follows (reads_negation hblank (not_negated hleft hno _) hterm)
    hblank (startsIn_close rest) (by decide) (by decide) (by decide)

/-- A predicate is read back between parentheses, if smaller ones are. -/
theorem reads_writtenPredicate (hi : inner.ReadsBack depth size) {p : Predicate}
    (hp : p.WellFormed) (hn : p.nodes ≤ size + 1) (rest : List Char) :
    Reads (disjunction inner) depth (p.written ++ ')' :: rest) p (')' :: rest) := by
  match p with
  | .any => exact reads_star hi.follows (startsIn_cons (by decide) rest)
  | .not q =>
    simp only [Predicate.nodes] at hn
    have hq := hi.predicate q (')' :: rest) hp (by omega)
    have htext : (Predicate.not q).written ++ ')' :: rest =
        "not".toList ++ '(' :: (q.written ++ ')' :: ')' :: rest) := by
      simp [Predicate.written]
    rw [htext]
    exact reads_disjunction hi.follows (reads_negated hq) rfl (startsIn_close rest) (by decide)
      (by decide) (by decide)
  | .and q r =>
    simp only [Predicate.nodes] at hn
    exact reads_conjoined hi.follows (fun rest => hi.predicate q rest hp.1 (by omega))
      fun rest => hi.predicate r rest hp.2 (by omega)
  | .or q r =>
    simp only [Predicate.nodes] at hn
    exact reads_disjoined hi.follows (fun rest => hi.predicate q rest hp.1 (by omega))
      fun rest => hi.predicate r rest hp.2 (by omega)
  | .comparison left r m right => exact reads_compared hi hp hn rest

theorem refuses_headingType {text : List Char} (h : startsWithWord "heading" text = false) :
    Refuses headingType depth text :=
  .bind_next (reads_word_false h) (refuses_fail rfl)

/-- Without a type the test of a step is a predicate. -/
theorem reads_stepTest_any (hg : inner.Follows Grown) {text rest : List Char} {p : Predicate}
    (h : startsWithWord "heading" text = false) (hp : Reads (disjunction inner) depth text p rest) :
    Reads (stepTest inner) depth text (.any, p) rest := by
  have hno : Refuses headingType depth text := refuses_headingType h
  have hnoTest : Refuses (headingTest inner) depth text := hno.bind_first
  have hnoBare : Refuses bareHeading depth text := hno.bind_first
  have htest : Reads (predicateTest inner) depth text (.any, p) rest := hp.map
  have hlast : Reads (firstOf [predicateTest inner]) depth text (some (.any, p)) rest :=
    htest.firstOf
  have hforms := hnoTest.firstOf (discipline_grown.follows_headingTest hg)
    (hnoBare.firstOf discipline_grown.follows_bareHeading hlast)
  exact hforms.bind (.pure _)

end
end OutlineQuery.Grammar
