import OutlineQuery.Proofs.Reading
import OutlineQuery.Proofs.WellFormed
import OutlineQuery.Proofs.Writing

/-! What the smallest parts of a query read, by the characters that come next. -/

namespace OutlineQuery.Grammar
open Production Text

def StartsIn (starts : List Char) (text : List Char) : Prop := ∀ c ∈ text.head?, c ∈ starts

section
variable {starts more text rest : List Char} {c : Char}

theorem startsIn_nil (starts : List Char) : StartsIn starts [] := by
  intro c hc
  cases hc

theorem startsIn_cons (hc : c ∈ starts) (text : List Char) : StartsIn starts (c :: text) := by
  intro d hd
  cases hd
  exact hc

theorem startsIn_close (text : List Char) : StartsIn [')'] (')' :: text) :=
  startsIn_cons (List.mem_singleton_self ')') text

theorem StartsIn.mono (h : StartsIn starts text) (hsub : starts ⊆ more) : StartsIn more text :=
  fun c hc => hsub (h c hc)

theorem StartsIn.head_any {p : Char → Bool} (h : StartsIn starts text)
    (hp : starts.all (!p ·) = true) : text.head?.any p = false := by
  cases text with
  | nil => rfl
  | cons c text =>
    have hmem := h c rfl
    have hpc := List.all_eq_true.mp hp c hmem
    simpa using hpc

theorem isPrefixOf_cons_false (h : text.head? ≠ some c) (pattern : List Char) :
    (c :: pattern).isPrefixOf text = false := by
  cases text with
  | nil => rfl
  | cons d text =>
    have hne : c ≠ d := fun heq => h (by rw [heq]; rfl)
    simp [List.isPrefixOf, hne]

theorem StartsIn.head_ne (h : StartsIn starts text) (hc : c ∉ starts) : text.head? ≠ some c :=
  fun heq => hc (h c heq)

theorem StartsIn.startsWithWord {word : String} {pattern : List Char} (h : StartsIn starts text)
    (hword : word.toList = c :: pattern) (hc : c ∉ starts) : startsWithWord word text = false := by
  rw [Text.startsWithWord, hword, isPrefixOf_cons_false (h.head_ne hc) pattern, Bool.false_and]

theorem dropWhile_blank (h : text.head?.any isBlank = false) : text.dropWhile isBlank = text := by
  cases text with
  | nil => rfl
  | cons c text =>
    have hc : isBlank c = false := by simpa using h
    rw [List.dropWhile_cons_of_neg (by simp [hc])]

theorem takeWhile_append_stop {p : Char → Bool} (ht : ∀ c ∈ text, p c = true)
    (hr : rest.head?.any p = false) : (text ++ rest).takeWhile p = text := by
  rw [List.takeWhile_append_of_pos ht]
  cases rest with
  | nil => simp
  | cons c rest =>
    have hc : p c = false := by simpa using hr
    simp [hc]

end

section
variable {depth : Nat} {text rest : List Char} {word : String} {kind : TokenKind}

theorem isPrefixOf_append (pattern rest : List Char) :
    pattern.isPrefixOf (pattern ++ rest) = true :=
  List.isPrefixOf_iff_prefix.mpr (List.prefix_append pattern rest)

theorem drop_text (word : String) (rest : List Char) :
    (word.toList ++ rest).drop word.length = rest := by
  rw [← String.length_toList, List.drop_left]

theorem reads_pass (n : Nat) : Reads (pass n) depth text () (text.drop n) :=
  fun s hs => ⟨s.pass n, rfl, hs.pass n⟩

theorem reads_pass_text (word : String) (rest : List Char) :
    Reads (pass word.length) depth (word.toList ++ rest) () rest := by
  have hpass : Reads (pass word.length) depth (word.toList ++ rest) () _ := reads_pass word.length
  rwa [drop_text] at hpass

theorem reads_skip (h : text = word.toList ++ rest) : Reads (skip word) depth text true rest := by
  subst h
  have hpass : Reads (pass word.length) depth (word.toList ++ rest) () rest :=
    reads_pass_text word rest
  refine Reads.remaining_bind ?_
  rw [if_pos (isPrefixOf_append _ _)]
  exact hpass.bind (.pure true)

theorem reads_skip_false (h : word.toList.isPrefixOf text = false) :
    Reads (skip word) depth text false text := by
  refine Reads.remaining_bind ?_
  rw [if_neg (by simp [h])]
  exact .pure false

theorem reads_expect (h : text = word.toList ++ rest) : Reads (expect word) depth text () rest :=
  (reads_skip h).bind (.pure ())

theorem refuses_expect (h : word.toList.isPrefixOf text = false) :
    Refuses (expect word) depth text :=
  .bind_next (reads_skip_false h) (refuses_fail rfl)

theorem startsWithWord_append (h : rest.head?.any isRest = false) :
    startsWithWord word (word.toList ++ rest) = true := by
  rw [startsWithWord, isPrefixOf_append, drop_text, h]
  rfl

theorem reads_word (h : text = word.toList ++ rest) (hr : rest.head?.any isRest = false) :
    Reads (Grammar.word word kind) depth text true rest := by
  subst h
  rw [word_eq]
  have hpass : Reads (pass word.length) depth (word.toList ++ rest) () rest :=
    reads_pass_text word rest
  refine Reads.remaining_bind ?_
  rw [if_pos (startsWithWord_append hr)]
  exact hpass.record.bind (.pure true)

theorem reads_word_false (h : startsWithWord word text = false) :
    Reads (Grammar.word word kind) depth text false text := by
  rw [word_eq]
  refine Reads.remaining_bind ?_
  rw [if_neg (by simp [h])]
  exact .pure false

theorem reads_operator (h : text = word.toList ++ rest) :
    Reads (operator word kind) depth text true rest := by
  subst h
  have hpass : Reads (pass word.length) depth (word.toList ++ rest) () rest :=
    reads_pass_text word rest
  refine Reads.remaining_bind ?_
  rw [if_pos (isPrefixOf_append _ _)]
  exact hpass.record.bind (.pure true)

theorem reads_operator_false (h : word.toList.isPrefixOf text = false) :
    Reads (operator word kind) depth text false text := by
  refine Reads.remaining_bind ?_
  rw [if_neg (by simp [h])]
  exact .pure false

theorem drop_takeWhile (p : Char → Bool) (text : List Char) :
    text.drop (text.takeWhile p).length = text.dropWhile p := by
  have hsplit : text.takeWhile p ++ text.dropWhile p = text := List.takeWhile_append_dropWhile
  calc text.drop (text.takeWhile p).length
      = (text.takeWhile p ++ text.dropWhile p).drop (text.takeWhile p).length := by rw [hsplit]
    _ = text.dropWhile p := List.drop_left

theorem reads_blanks :
    Reads blanks depth text (text.takeWhile isBlank) (text.dropWhile isBlank) := by
  have hpass : Reads (pass (text.takeWhile isBlank).length) depth text () _ := reads_pass _
  rw [drop_takeWhile] at hpass
  exact Reads.remaining_bind (hpass.bind (.pure _))

theorem reads_skipBlanks : Reads skipBlanks depth text () (text.dropWhile isBlank) :=
  reads_blanks.bind (.pure ())

/-- Where no blank comes next none are passed. -/
theorem reads_noBlanks (h : text.head?.any isBlank = false) :
    Reads skipBlanks depth text () text := by
  have hread : Reads skipBlanks depth text () (text.dropWhile isBlank) := reads_skipBlanks
  rwa [dropWhile_blank h] at hread

end

section
variable {depth : Nat} {text rest : List Char}

theorem isRest_of_isStart {c : Char} (h : isStart c = true) : isRest c = true := by
  simp [isRest, h]

theorem IsIdentifier.all_isRest {name : List Char} (h : IsIdentifier name) :
    ∀ c ∈ name, isRest c = true := by
  cases name with
  | nil => cases h
  | cons c name =>
    intro d hd
    obtain rfl | hd := List.mem_cons.mp hd
    · exact isRest_of_isStart h.1
    · exact h.2 d hd

theorem reads_identifier {name : List Char} (h : IsIdentifier name)
    (hr : rest.head?.any isRest = false) : Reads identifier depth (name ++ rest) name rest := by
  cases name with
  | nil => cases h
  | cons c name =>
    have htake : (name ++ rest).takeWhile isRest = name := takeWhile_append_stop h.2 hr
    have hpass : Reads (pass (name.length + 1)) depth (c :: (name ++ rest)) () _ := reads_pass _
    rw [List.drop_succ_cons, List.drop_left] at hpass
    refine Reads.remaining_bind ?_
    simp only [List.cons_append, h.1, if_true, htake]
    exact hpass.bind (.pure _)

theorem refuses_identifier (h : text.head?.any isStart = false) :
    Refuses identifier depth text := by
  refine Refuses.bind_next reads_remaining ?_
  cases text with
  | nil => exact refuses_fail rfl
  | cons c text =>
    have hc : isStart c = false := by simpa using h
    simp only [hc]
    exact refuses_fail rfl

theorem quotedBody_quote (text : List Char) : quotedBody ('"' :: text) = (1, .ok []) := by
  rw [quotedBody.eq_def]
  rfl

theorem quotedBody_plain {c : Char} (hquote : c ≠ '"') (hslash : c ≠ '\\') (text : List Char) :
    quotedBody (c :: text) =
      ((quotedBody text).1 + 1, (quotedBody text).2.map (c :: ·)) := by
  rw [quotedBody.eq_def]
  simp [hquote, hslash]

theorem quotedBody_escape {c d : Char} (h : unescape? c = some d) (text : List Char) :
    quotedBody ('\\' :: c :: text) =
      ((quotedBody text).1 + 2, (quotedBody text).2.map (d :: ·)) := by
  rw [quotedBody.eq_def]
  simp [h]

theorem quotedBody_escapedChar (c : Char) (text : List Char) :
    quotedBody (escapedChar c ++ text) =
      ((quotedBody text).1 + (escapedChar c).length, (quotedBody text).2.map (c :: ·)) := by
  by_cases hc : c = '"' ∨ c = '\\'
  · have hmeant : unescape? c = some c := by
      obtain rfl | rfl := hc
      · rfl
      · rfl
    rw [escapedChar, if_pos hc]
    exact quotedBody_escape hmeant text
  · rw [escapedChar, if_neg hc]
    exact quotedBody_plain (fun h => hc (.inl h)) (fun h => hc (.inr h)) text

/-- The body of a string that was escaped is what was escaped. -/
theorem quotedBody_escaped (text rest : List Char) :
    quotedBody (text.flatMap escapedChar ++ '"' :: rest) =
      ((text.flatMap escapedChar).length + 1, .ok text) := by
  induction text with
  | nil => exact quotedBody_quote rest
  | cons c text ih =>
    rw [List.flatMap_cons, List.append_assoc, quotedBody_escapedChar, ih, List.length_append,
      Nat.add_right_comm, Nat.add_comm (escapedChar c).length]
    rfl

theorem reads_quoted (text rest : List Char) :
    Reads quoted depth (quotedText text ++ rest) text rest := by
  have hopen : Reads (expect "\"") depth (quotedText text ++ rest) ()
      (text.flatMap escapedChar ++ '"' :: rest) := reads_expect (by simp [quotedText])
  have hpass : Reads (pass ((text.flatMap escapedChar).length + 1)) depth
      (text.flatMap escapedChar ++ '"' :: rest) () _ := reads_pass _
  rw [← List.drop_drop, List.drop_left, List.drop_succ_cons, List.drop_zero] at hpass
  refine hopen.bind (Reads.remaining_bind ?_)
  simp only [quotedBody_escaped]
  exact hpass.bind (.pure text)

theorem reads_quotedString (text rest : List Char) :
    Reads string depth (quotedText text ++ rest) text rest := by
  have hquote : ['"'].isPrefixOf (quotedText text ++ rest) = true := rfl
  refine Reads.remaining_bind ?_
  rw [if_pos hquote]
  exact (reads_quoted text rest).record

/-- A text that starts with no quote is a string only if it is an unquoted one. -/
theorem Refuses.string (hquote : text.head? ≠ some '"') (h : Refuses unquoted depth text) :
    Refuses string depth text := by
  have hno : ['"'].isPrefixOf text = false := isPrefixOf_cons_false hquote []
  refine Refuses.bind_next reads_remaining ?_
  rw [if_neg (by simp [hno])]
  exact h.record

theorem refuses_reserved (h : startsReserved text = true) : Refuses unquoted depth text := by
  refine Refuses.bind_next reads_remaining ?_
  rw [if_pos h]
  exact refuses_fail rfl

/-- Characters that are no symbols and start no identifier start no unquoted string either. -/
theorem refuses_unquoted (hsymbol : text.head?.any isSymbol = false)
    (hstart : text.head?.any isStart = false) : Refuses unquoted depth text := by
  refine Refuses.bind_next reads_remaining ?_
  split
  · exact refuses_fail rfl
  · refine Refuses.bind_next reads_remaining ?_
    cases text with
    | nil => exact refuses_identifier hstart
    | cons c text =>
      have hc : isSymbol c = false := by simpa using hsymbol
      simp only [hc]
      exact refuses_identifier hstart

theorem digitsValue_toDigits (n : Nat) : digitsValue (Nat.toDigits 10 n) = n :=
  Nat.ofDigitChars_eq_foldl.symm.trans Nat.ofDigitChars_ten_toDigits

theorem isDigit_toDigits (n : Nat) : ∀ c ∈ Nat.toDigits 10 n, c.isDigit = true :=
  fun _ hc => Nat.isDigit_of_mem_toDigits (by decide) (by decide) hc

def signText (negative : Bool) : List Char := if negative then ['-'] else []

def SpellsInteger (n : Int64) (text : List Char) : Prop :=
  ∃ negative digits, text = signText negative ++ digits ∧ digits ≠ [] ∧
    (∀ c ∈ digits, c.isDigit = true) ∧
    n.toInt = if negative = true then -(digitsValue digits : Int) else digitsValue digits

def SpellsBound (bound : Option Int64) (text : List Char) : Prop :=
  match bound with
  | none => text = []
  | some n => SpellsInteger n text

inductive SpellsSlice : Slice → List Char → Prop
  | index {n : Int64} {number : List Char} : SpellsInteger n number →
      SpellsSlice (.index n) ('[' :: (number ++ [']']))
  | between {start stop : Option Int64} {first last : List Char} : SpellsBound start first →
      SpellsBound stop last →
      SpellsSlice (.between start stop) ('[' :: (first ++ ':' :: (last ++ [']'])))

theorem reads_sign (negative : Bool) {digits : List Char} (hsome : digits ≠ [])
    (hdigits : ∀ c ∈ digits, c.isDigit = true) :
    Reads (skip "-") depth (signText negative ++ (digits ++ rest)) negative (digits ++ rest) := by
  cases negative with
  | true => exact reads_skip rfl
  | false =>
    cases digits with
    | nil => exact absurd rfl hsome
    | cons c digits =>
      have hc : c.isDigit = true := hdigits c List.mem_cons_self
      refine reads_skip_false (isPrefixOf_cons_false ?_ [])
      rintro ⟨⟩
      cases hc

theorem SpellsInteger.reads {n : Int64} (h : SpellsInteger n text)
    (hr : rest.head?.any Char.isDigit = false) : Reads integer depth (text ++ rest) n rest := by
  obtain ⟨negative, digits, rfl, hsome, hdigits, hvalue⟩ := h
  have htake : (digits ++ rest).takeWhile Char.isDigit = digits :=
    takeWhile_append_stop hdigits hr
  have hpass : Reads (pass digits.length) depth (digits ++ rest) () _ := reads_pass _
  rw [List.drop_left] at hpass
  have hrange : Int64.minValue.toInt ≤ n.toInt ∧ n.toInt ≤ Int64.maxValue.toInt :=
    ⟨n.minValue_le_toInt, n.toInt_le⟩
  rw [List.append_assoc]
  refine (reads_sign negative hsome hdigits).bind (Reads.remaining_bind ?_)
  simp only [htake, ← hvalue]
  rw [if_neg (by simpa using hsome)]
  refine hpass.bind ?_
  rw [if_pos hrange, Int64.ofInt_toInt]
  exact .pure n

theorem refuses_integer (hsign : text.head? ≠ some '-')
    (hdigit : text.head?.any Char.isDigit = false) : Refuses integer depth text := by
  have hno : "-".toList.isPrefixOf text = false := isPrefixOf_cons_false hsign []
  have hnone : text.takeWhile Char.isDigit = [] := by
    cases text with
    | nil => rfl
    | cons c text =>
      have hc : c.isDigit = false := by simpa using hdigit
      simp [hc]
  refine Refuses.bind_next (reads_skip_false hno) (Refuses.bind_next reads_remaining ?_)
  simp only [hnone]
  exact refuses_fail rfl

theorem SpellsBound.reads {bound : Option Int64} (h : SpellsBound bound text)
    (hsign : rest.head? ≠ some '-') (hr : rest.head?.any Char.isDigit = false) :
    Reads (attempt integer) depth (text ++ rest) bound rest := by
  cases bound with
  | none =>
    obtain rfl : text = [] := h
    exact (refuses_integer hsign hr).attempt (follows_grown_of_silent silent_integer)
  | some n =>
    have hn : SpellsInteger n text := h
    exact (hn.reads hr).attempt

/-- A range is no row number: a colon comes next where the bracket has to close. -/
theorem SpellsBound.refuses_index {bound : Option Int64} (h : SpellsBound bound text) :
    Refuses indexSlice depth ('[' :: (text ++ ':' :: rest)) := by
  have hopen : Reads (expect "[") depth ('[' :: (text ++ ':' :: rest)) () (text ++ ':' :: rest) :=
    reads_expect rfl
  refine Refuses.bind_next hopen ?_
  cases bound with
  | none =>
    obtain rfl : text = [] := h
    exact Refuses.bind_first (refuses_integer (by simp) rfl)
  | some n =>
    have hn : SpellsInteger n text := h
    exact Refuses.bind_next (hn.reads rfl) (Refuses.bind_first (refuses_expect rfl))

/-- A slice is read to its closing bracket, whatever follows. -/
theorem SpellsSlice.reads {s : Slice} (h : SpellsSlice s text) :
    Reads slice depth (text ++ rest) s rest := by
  have hclose : Reads (expect "]") depth (']' :: rest) () rest := reads_expect rfl
  cases h with
  | @index n number hn =>
    have hopen : Reads (expect "[") depth ('[' :: (number ++ ']' :: rest)) ()
        (number ++ ']' :: rest) := reads_expect rfl
    have hindex : Reads indexSlice depth ('[' :: (number ++ ']' :: rest)) (.index n) rest :=
      hopen.bind ((hn.reads rfl).bind (hclose.bind (.pure _)))
    rw [List.cons_append, List.append_assoc]
    exact hindex.attempt.bind (.pure _)
  | @between start stop first last hstart hstop =>
    have hopen : Reads (expect "[") depth ('[' :: (first ++ ':' :: (last ++ ']' :: rest))) ()
        (first ++ ':' :: (last ++ ']' :: rest)) := reads_expect rfl
    have hfirst : Reads (attempt integer) depth (first ++ ':' :: (last ++ ']' :: rest)) start
        (':' :: (last ++ ']' :: rest)) := hstart.reads (by simp) rfl
    have hcolon : Reads (expect ":") depth (':' :: (last ++ ']' :: rest)) ()
        (last ++ ']' :: rest) := reads_expect rfl
    have hlast : Reads (attempt integer) depth (last ++ ']' :: rest) stop (']' :: rest) :=
      hstop.reads (by simp) rfl
    have hrange : Reads rangeSlice depth ('[' :: (first ++ ':' :: (last ++ ']' :: rest)))
        (.between start stop) rest :=
      hopen.bind (hfirst.bind (hcolon.bind (hlast.bind (hclose.bind (.pure _)))))
    have htext : ('[' :: (first ++ ':' :: (last ++ [']']))) ++ rest =
        '[' :: (first ++ ':' :: (last ++ ']' :: rest)) := by simp
    rw [htext]
    exact (hstart.refuses_index.attempt (follows_grown_of_silent silent_indexSlice)).bind hrange

theorem spells_integerText (n : Int64) : SpellsInteger n (integerText n.toInt) := by
  refine ⟨decide (n.toInt < 0), Nat.toDigits 10 n.toInt.natAbs, ?_, Nat.toDigits_ne_nil,
    isDigit_toDigits _, ?_⟩
  · by_cases hneg : n.toInt < 0
    · rw [integerText, if_pos hneg, decide_eq_true hneg]
      rfl
    · rw [integerText, if_neg hneg, decide_eq_false hneg]
      rfl
  · rw [digitsValue_toDigits]
    split <;> rename_i hneg <;> rw [decide_eq_true_eq] at hneg <;> omega

theorem spells_boundText (bound : Option Int64) : SpellsBound bound (boundText bound) := by
  cases bound with
  | none => rfl
  | some n => exact spells_integerText n

theorem spells_written {s : Slice} (h : s.WellFormed) : SpellsSlice s s.written := by
  obtain ⟨n, rfl⟩ | ⟨start, stop, rfl⟩ := h
  · exact .index (spells_integerText n)
  · exact .between (spells_boundText start) (spells_boundText stop)

theorem reads_slice {s : Slice} (h : s.WellFormed) :
    Reads slice depth (s.written ++ rest) s rest :=
  (spells_written h).reads

theorem axisAt?_spelling (a : Axis) (rest : List Char) :
    axisAt? (a.spelling.toList ++ ' ' :: rest) = some a ∧
      axisAt? (a.spelling.toList ++ 'h' :: rest) = some a := by
  cases a <;> exact ⟨rfl, rfl⟩

theorem relationAt?_spelling (r : Relation) (rest : List Char) :
    relationAt? (r.spelling.toList ++ '[' :: rest) = some r := by
  cases r <;> rfl

theorem reads_axis {a : Axis} (h : axisAt? (a.spelling.toList ++ rest) = some a) :
    Reads axis depth (a.spelling.toList ++ rest) a rest := by
  rw [axis_eq]
  refine Reads.remaining_bind ?_
  simp only [h]
  exact (reads_pass_text a.spelling rest).record.bind (.pure a)

theorem reads_relation {r : Relation} (h : relationAt? (r.spelling.toList ++ rest) = some r) :
    Reads relation depth (r.spelling.toList ++ rest) r rest := by
  rw [relation_eq]
  refine Reads.remaining_bind ?_
  simp only [h]
  exact (reads_pass_text r.spelling rest).record.bind (.pure r)

theorem refuses_relation (h : relationAt? text = none) : Refuses relation depth text := by
  rw [relation_eq]
  refine Refuses.bind_next reads_remaining ?_
  simp only [h]
  exact refuses_fail rfl

theorem reads_bracketedLetter (m : Modifier) (rest : List Char) :
    Reads bracketedLetter depth (m.written ++ rest) m rest := by
  have hopen : Reads (expect "[") depth (m.written ++ rest) () (m.letter :: ']' :: rest) :=
    reads_expect rfl
  have hclose : Reads (expect "]") depth (']' :: rest) () rest := reads_expect rfl
  have hletter : Reads (pass 1) depth (m.letter :: ']' :: rest) () (']' :: rest) := reads_pass 1
  refine hopen.bind (Reads.remaining_bind ?_)
  simp only [Modifier.ofLetter?_letter]
  exact hletter.bind (hclose.bind (.pure m))

theorem reads_modifier (m : Modifier) (rest : List Char) :
    Reads modifier depth (m.written ++ rest) m rest :=
  (reads_bracketedLetter m rest).record

end
end OutlineQuery.Grammar
