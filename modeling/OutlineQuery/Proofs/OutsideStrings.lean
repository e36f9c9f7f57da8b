import OutlineQuery.Proofs.StringsInContext

/-! Where the strings between quotes stand in a query that can be read. Whatever a run passes closes
the strings that it opens, and each token starts where no string is open. -/

namespace OutlineQuery
open Grammar Production Text

inductive Text.WholeStrings : List Char → Prop
  | nil : WholeStrings []
  | plain {c : Char} {text : List Char} : c ≠ '"' → WholeStrings text → WholeStrings (c :: text)
  | string {body held text : List Char} : SpellsBody body held → WholeStrings text →
      WholeStrings ('"' :: (body ++ text))

namespace Text.WholeStrings
variable {text rest : List Char}

theorem append (h : WholeStrings text) (h' : WholeStrings rest) : WholeStrings (text ++ rest) := by
  induction h with
  | nil => exact h'
  | plain hc _ ih => exact .plain hc ih
  | string hbody _ ih =>
    rw [List.cons_append, List.append_assoc]
    exact .string hbody ih

theorem of_unquoted (htext : '"' ∉ text) : WholeStrings text := by
  induction text with
  | nil => exact .nil
  | cons c text ih =>
    exact .plain (List.ne_of_not_mem_cons htext).symm (ih (List.not_mem_of_not_mem_cons htext))

theorem drop (h : WholeStrings (text ++ rest)) (htext : '"' ∉ text) : WholeStrings rest := by
  induction text with
  | nil => exact h
  | cons c text ih =>
    generalize hall : c :: text ++ rest = all at h
    cases h with
    | nil => cases hall
    | plain _ h =>
      cases hall
      exact ih h (List.not_mem_of_not_mem_cons htext)
    | string _ _ =>
      exact absurd (List.cons.inj hall).1 (List.ne_of_not_mem_cons htext).symm

end Text.WholeStrings

namespace Grammar

structure KeepsStrings (s t : State) (passed : List Char) (new : List Token) : Prop where
  rest : s.cursor.rest = passed ++ t.cursor.rest
  offset : t.cursor.offset = s.cursor.offset + byteSize passed
  whole : WholeStrings passed
  tokens : t.tokens.toList = s.tokens.toList ++ new
  starts : ∀ k ∈ new, ∃ first next, passed = first ++ next ∧ WholeStrings first ∧
    k.start = s.cursor.offset + byteSize first

namespace KeepsStrings
variable {s t u : State} {passed more : List Char} {new further : List Token}

theorem trans (h : KeepsStrings s t passed new) (h' : KeepsStrings t u more further) :
    KeepsStrings s u (passed ++ more) (new ++ further) where
  rest := by rw [h.rest, h'.rest, List.append_assoc]
  offset := by rw [h'.offset, h.offset, byteSize_append, Nat.add_assoc]
  whole := h.whole.append h'.whole
  tokens := by rw [h'.tokens, h.tokens, List.append_assoc]
  starts k hk := by
    obtain hk | hk := List.mem_append.mp hk
    · obtain ⟨first, next, rfl, hfirst, hstart⟩ := h.starts k hk
      exact ⟨first, next ++ more, List.append_assoc _ _ _, hfirst, hstart⟩
    · obtain ⟨first, next, rfl, hfirst, hstart⟩ := h'.starts k hk
      refine ⟨passed ++ first, next, (List.append_assoc _ _ _).symm, h.whole.append hfirst, ?_⟩
      rw [hstart, h.offset, byteSize_append, Nat.add_assoc]

theorem passes (h : Passes s t passed) (hwhole : WholeStrings passed) :
    KeepsStrings s t passed [] := by
  obtain ⟨rfl, hrest⟩ := h
  refine ⟨hrest, ?_, hwhole, (List.append_nil _).symm, nofun⟩
  rw [State.pass, Cursor.offset_advance, hrest, List.take_left]

/-- The token of a run starts where the run does. -/
theorem emit (h : KeepsStrings s t passed new) (kind : TokenKind) :
    KeepsStrings s (t.emit kind s.cursor) passed (new ++ [⟨kind, s.cursor.offset, t.cursor.offset,
      String.ofList (s.cursor.since t.cursor)⟩]) where
  rest := h.rest
  offset := h.offset
  whole := h.whole
  tokens := by rw [State.emit, TokenLog.toList_push, h.tokens, List.append_assoc]
  starts k hk := by
    obtain hk | hk := List.mem_append.mp hk
    · exact h.starts k hk
    · obtain rfl := List.mem_singleton.mp hk
      exact ⟨[], passed, rfl, .nil, rfl⟩

end KeepsStrings

def ClosesStrings (s t : State) (_ : List Empty) : Prop :=
  ∃ passed new, KeepsStrings s t passed new

theorem additive_closesStrings : Additive ClosesStrings where
  refl s := ⟨[], [], rfl, rfl, .nil, (List.append_nil _).symm, nofun⟩
  trans := by
    rintro s t u _ _ ⟨passed, new, h⟩ ⟨more, further, h'⟩
    exact ⟨_, _, h.trans h'⟩
  deeper := by
    rintro s t _ ⟨passed, new, h⟩
    exact ⟨passed, new, h.rest, h.offset, h.whole, h.tokens, h.starts⟩

abbrev Tidy {α : Type} (p : Production α) : Prop := YieldsNothing ClosesStrings p

namespace Tidy
variable {α β : Type} {p : Production α} {f : α → Production β}

theorem of_runs (hg : p.Follows Grown)
    (h : ∀ s a t, p s = .ok a t → ∃ passed new, KeepsStrings s t passed new) : Tidy p :=
  ⟨hg, fun hok => ⟨[], h _ _ _ hok, rfl⟩⟩

theorem of_passes {spells : α → List Char → Prop} (hp : Yields Passes p spells)
    (h : ∀ a text, spells a text → WholeStrings text) : Tidy p := by
  refine .of_runs hp.grows fun s a t hok => ?_
  obtain ⟨passed, hpassed, ha⟩ := hp.yields hok
  exact ⟨passed, [], .passes hpassed (h a passed ha)⟩

theorem pure (a : α) : Tidy (Pure.pure a : Production α) := additive_closesStrings.pure rfl

theorem bind (hp : Tidy p) (hf : ∀ a, Tidy (f a)) : Tidy (p >>= f) :=
  additive_closesStrings.quiet_bind hp hf

theorem map (hp : Tidy p) (g : α → β) : Tidy (p >>= fun a => Pure.pure (g a)) :=
  hp.bind fun a => pure (g a)

theorem remaining_bind {f : List Char → Production β} (hf : ∀ text, Tidy (f text)) :
    Tidy (remaining >>= f) :=
  bind additive_closesStrings.remaining hf

theorem attempt (hp : Tidy p) : Tidy (attempt p) :=
  (additive_closesStrings.attempt hp).mono fun found new h => by cases found <;> exact h

theorem attemptOr (default : α) (hp : Tidy p) : Tidy (attemptOr default p) :=
  additive_closesStrings.attemptOr default hp

theorem firstOf {alternatives : List (Production α)} (h : ∀ p ∈ alternatives, Tidy p) :
    Tidy (firstOf alternatives) :=
  (additive_closesStrings.firstOf h).mono fun found new h => by cases found <;> exact h

theorem many {item : Production (Option α)} (hp : Tidy item) : Tidy (many item) :=
  additive_closesStrings.many_quiet hp

theorem nested (limit : Nat) (hp : Tidy p) : Tidy (nested limit p) :=
  additive_closesStrings.nested limit hp

theorem record (kind : TokenKind) (hp : Tidy p) : Tidy (record kind p) := by
  refine .of_runs (follows_grown_record kind hp.grows) fun s a t hok => ?_
  obtain ⟨u, hu, rfl⟩ := record_ok hok
  obtain ⟨-, ⟨passed, new, h⟩, -⟩ := hp.yields hu
  exact ⟨passed, _, h.emit kind⟩

end Tidy
end Grammar

theorem not_mem_of_all_isRest {text : List Char} (h : ∀ c ∈ text, isRest c = true) :
    '"' ∉ text := by
  intro hmem
  have hrest := h '"' hmem
  revert hrest
  decide

theorem readName_word {text name : List Char} {n : Nat} (h : readName text = some (name, n)) :
    ∃ rest, text = name ++ rest ∧ n = name.length ∧ '"' ∉ name := by
  cases text with
  | nil => cases h
  | cons c text =>
    rw [readName] at h
    split at h
    · rename_i hstart
      cases h
      refine ⟨text.dropWhile isRest, ?_, rfl, not_mem_of_all_isRest fun d hd => ?_⟩
      · rw [List.cons_append, List.takeWhile_append_dropWhile]
      · obtain rfl | hd := List.mem_cons.mp hd
        · exact isRest_of_isStart hstart
        · exact List.all_eq_true.mp List.all_takeWhile d hd
    · cases h

theorem readSymbol_word {text name : List Char} {n : Nat} (h : readSymbol text = some (name, n)) :
    ∃ rest, text = name ++ rest ∧ n = name.length ∧ '"' ∉ name := by
  cases text with
  | nil => cases h
  | cons c text =>
    rw [readSymbol] at h
    split at h
    · rename_i hsymbol
      cases h
      refine ⟨text, rfl, rfl, fun hmem => ?_⟩
      obtain rfl := List.mem_singleton.mp hmem
      revert hsymbol
      decide
    · exact readName_word h

theorem readQuoted_word {text held : List Char} {n : Nat} (h : readQuoted text = some (held, n)) :
    ∃ body rest, text = '"' :: (body ++ rest) ∧ n = body.length + 1 ∧ SpellsBody body held := by
  cases text with
  | nil => cases h
  | cons c text =>
    rw [readQuoted] at h
    split at h
    · rename_i hquote
      subst hquote
      split at h
      · rename_i hbody
        cases h
        obtain ⟨body, rest, rfl, rfl, hspells⟩ := SpellsBody.of_quotedBody hbody
        exact ⟨body, rest, rfl, rfl, hspells⟩
      · cases h
    · cases h

section
variable {α : Type} {p : Production α} {kind? : Option TokenKind} {kind : TokenKind}
  {read : List Char → Option (α × Nat)} {absent : Option α} {word : String}

theorem IsLexeme.tidy (hp : IsLexeme p kind? read absent)
    (hread : ∀ text a n, read text = some (a, n) → ∃ first rest, text = first ++ rest ∧
      n = first.length ∧ WholeStrings first) : Tidy p := by
  refine .of_runs hp.grows fun s a t hok => ?_
  cases hfound : read s.cursor.rest with
  | some found =>
    obtain ⟨b, n⟩ := found
    rw [hp.found hfound] at hok
    cases hok
    obtain ⟨first, rest, htext, rfl, hwhole⟩ := hread _ _ _ hfound
    have hpasses : Passes s (s.pass first.length) first :=
      ⟨rfl, by rw [rest_pass, htext, List.drop_left]⟩
    have hkeeps := KeepsStrings.passes hpasses hwhole
    cases kind? with
    | none => exact ⟨first, [], hkeeps⟩
    | some kind => exact ⟨first, _, hkeeps.emit kind⟩
  | none =>
    have hmissing := hp.missing hfound
    cases absent with
    | some b =>
      rw [hmissing] at hok
      cases hok
      obtain ⟨passed, new, h⟩ := additive_closesStrings.refl s
      exact ⟨passed, new, h⟩
    | none =>
      obtain ⟨reason, u, hrun, -⟩ := hmissing
      rw [hrun] at hok
      cases hok

/-- A text without quotes that is read where a test is passed. -/
theorem IsLexeme.tidy_tested {test : List Char → Bool} {a : α}
    (hp : IsLexeme p kind? (readIf test a word.length) absent)
    (hword : '"' ∉ word.toList)
    (hstarts : ∀ text, test text = true → word.toList <+: text) : Tidy p := by
  refine hp.tidy fun text b n hread => ?_
  obtain ⟨htest, -, rfl⟩ := readIf_some hread
  obtain ⟨rest, rfl⟩ := hstarts text htest
  exact ⟨word.toList, rest, rfl, String.length_toList.symm, .of_unquoted hword⟩

theorem IsLexeme.tidy_spelled {at? : List Char → Option α} {spelling : α → String}
    (hp : IsLexeme p kind? (readSpelling at? spelling) none)
    (hspelling : ∀ a, '"' ∉ (spelling a).toList)
    (hstarts : ∀ text a, at? text = some a → (spelling a).toList <+: text) : Tidy p := by
  refine hp.tidy fun text b n hread => ?_
  obtain ⟨a, ha, ⟨⟩⟩ := Option.map_eq_some_iff.mp hread
  obtain ⟨rest, rfl⟩ := hstarts text b ha
  exact ⟨_, rest, rfl, String.length_toList.symm, .of_unquoted (hspelling b)⟩

theorem tidy_skip (hword : '"' ∉ word.toList) : Tidy (skip word) :=
  (isLexeme_skip word).tidy_tested hword fun _ => List.isPrefixOf_iff_prefix.mp

theorem tidy_expect (hword : '"' ∉ word.toList) : Tidy (expect word) :=
  (isLexeme_expect word).tidy_tested hword fun _ => List.isPrefixOf_iff_prefix.mp

theorem tidy_operator (hne : word ≠ "") (hkind : kind ≠ .comparison)
    (hword : '"' ∉ word.toList) : Tidy (operator word kind) :=
  (isLexeme_operator hne hkind).tidy_tested hword fun _ => List.isPrefixOf_iff_prefix.mp

theorem tidy_word (hne : word ≠ "") (hkind : kind ≠ .comparison)
    (hword : '"' ∉ word.toList) : Tidy (Grammar.word word kind) := by
  refine (isLexeme_word hne hkind).tidy_tested hword fun text hstarts => ?_
  rw [startsWithWord, Bool.and_eq_true] at hstarts
  exact List.isPrefixOf_iff_prefix.mp hstarts.1

end

namespace Grammar

theorem tidy_identifier : Tidy identifier := by
  refine isLexeme_identifier.tidy fun text name n hread => ?_
  obtain ⟨rest, rfl, rfl, hname⟩ := readName_word hread
  exact ⟨name, rest, rfl, rfl, .of_unquoted hname⟩

theorem tidy_string : Tidy string := by
  have hquoted : Tidy quoted := by
    refine isLexeme_quoted.tidy fun text held n hread => ?_
    obtain ⟨body, rest, rfl, rfl, hbody⟩ := readQuoted_word hread
    refine ⟨'"' :: body, rest, rfl, rfl, ?_⟩
    simpa using WholeStrings.string hbody .nil
  have hname : Tidy symbolOrIdentifier := by
    refine isLexeme_symbolOrIdentifier.tidy fun text name n hread => ?_
    obtain ⟨rest, rfl, rfl, hname⟩ := readSymbol_word hread
    exact ⟨name, rest, rfl, rfl, .of_unquoted hname⟩
  refine .remaining_bind fun text => ?_
  split
  · exact hquoted.record _
  · refine Tidy.record _ (.remaining_bind fun text => ?_)
    split
    · exact .fail _
    · exact hname

theorem tidy_skipBlanks : Tidy skipBlanks := by
  refine .of_passes passes_skipBlanks fun _ text htext => .of_unquoted fun hmem => ?_
  have hblank := List.all_eq_true.mp htext '"' hmem
  revert hblank
  decide

theorem tidy_blanks : Tidy blanks := by
  refine .of_runs (follows_grown_of_silent silent_blanks) fun s gap t hok => ?_
  have hskip : skipBlanks s = .ok () t := bind_of_ok hok
  obtain ⟨_, hkeeps, -⟩ := tidy_skipBlanks.yields hskip
  exact hkeeps

theorem tidy_slice : Tidy slice := by
  refine .of_passes passes_slice fun s text hs => .of_unquoted fun hquote => ?_
  obtain hmem | hdigit := hs.chars '"' hquote
  · revert hmem
    decide
  · cases hdigit

theorem tidy_modifier : Tidy modifier := by
  refine Tidy.record _ (.of_passes passes_bracketedLetter ?_)
  rintro m _ rfl
  refine .of_unquoted ?_
  cases m <;> decide

theorem tidy_relation : Tidy relation :=
  isLexeme_relation.tidy_spelled (fun r => by cases r <;> decide) fun _ _ => relationAt?_starts

theorem tidy_axis : Tidy axis :=
  isLexeme_axis.tidy_spelled (fun a => by cases a <;> decide) fun _ _ => axisAt?_starts

theorem tidy_value : Tidy value := by
  have hattribute : Tidy attributeValue :=
    ((tidy_expect (by decide)).bind fun _ => tidy_identifier).record _ |>.map _
  have hpiece : Tidy piece := tidy_blanks.bind fun _ => tidy_string.map _
  have hliteral : Tidy literal := tidy_string.bind fun _ => hpiece.attempt.many.map _
  refine hattribute.attempt.bind fun found => ?_
  cases found with
  | some v => exact .pure v
  | none => exact hliteral

theorem tidy_relationBehind : Tidy relationBehind :=
  .attemptOr _ (tidy_skipBlanks.bind fun _ => tidy_relation)

theorem tidy_modifierBehind : Tidy modifierBehind :=
  .attemptOr _ (tidy_skipBlanks.bind fun _ => tidy_modifier)

theorem tidy_loneValue : Tidy loneValue := by
  refine tidy_value.bind fun v => tidy_modifierBehind.bind fun m => ?_
  cases v <;> exact .pure _

theorem tidy_chain {α : Type} {operand : Production α} {combine : α → α → α} {word : String}
    {kind : TokenKind} (hne : word ≠ "") (hkind : kind ≠ .comparison)
    (hword : '"' ∉ word.toList) (hp : Tidy operand) :
    Tidy (chain operand (Grammar.word word kind) combine) := by
  have hnext : Tidy (nextOperand operand (Grammar.word word kind)) := by
    refine tidy_skipBlanks.bind fun _ => (tidy_word hne hkind hword).bind fun found => ?_
    cases found with
    | true => exact tidy_skipBlanks.bind fun _ => hp.map _
    | false => exact .pure none
  exact tidy_skipBlanks.bind fun _ => hp.bind fun _ => hnext.many.map _

theorem tidy_headingType : Tidy headingType := by
  refine (tidy_word (by decide) (by decide) (by decide)).bind fun found => ?_
  cases found with
  | true => exact .pure _
  | false => exact .fail _

theorem tidy_nextNot : Tidy nextNot := by
  refine tidy_skipBlanks.bind fun _ =>
    (tidy_word (by decide) (by decide) (by decide)).bind fun found => ?_
  cases found <;> exact .pure _

structure Inner.Tidy (inner : Inner) : Prop where
  predicate : Grammar.Tidy inner.predicate
  argument : Grammar.Tidy inner.argument

section
variable {inner : Inner} (hi : inner.Tidy)
include hi

theorem tidy_function : Tidy (function inner) :=
  (tidy_identifier.record _).bind fun _ => (tidy_expect (by decide)).bind fun _ =>
    hi.argument.bind fun _ => (tidy_expect (by decide)).map _

theorem tidy_operand : Tidy (operand inner) := by
  refine (tidy_function hi).attempt.bind fun found => ?_
  cases found with
  | some f => exact .pure _
  | none => exact tidy_value

theorem tidy_starOrComparison : Tidy (starOrComparison inner) := by
  refine (tidy_skip (by decide)).bind fun star => ?_
  cases star with
  | true => exact .pure _
  | false =>
    have hforms : ∀ form ∈ [fullComparison inner, loneValue, textComparison inner],
        Tidy form := by
      simp only [List.mem_cons, List.not_mem_nil, or_false]
      rintro form (rfl | rfl | rfl)
      · exact (tidy_operand hi).bind fun _ => tidy_relationBehind.bind fun _ =>
          tidy_modifierBehind.bind fun _ => tidy_skipBlanks.bind fun _ => (tidy_operand hi).map _
      · exact tidy_loneValue
      · exact (Tidy.attemptOr _ tidy_relation).bind fun _ => tidy_skipBlanks.bind fun _ =>
          (Tidy.attemptOr _ tidy_modifier).bind fun _ => tidy_skipBlanks.bind fun _ =>
            (tidy_operand hi).map _
    refine (Tidy.firstOf hforms).bind fun found => ?_
    cases found with
    | some p => exact .pure p
    | none => exact .fail _

theorem tidy_term : Tidy (term inner) := by
  refine tidy_skipBlanks.bind fun _ => (tidy_skip (by decide)).bind fun bracketed => ?_
  cases bracketed with
  | true =>
    exact hi.predicate.bind fun _ => tidy_skipBlanks.bind fun _ => (tidy_expect (by decide)).map _
  | false =>
    have hspaced : Tidy (spacedComparison inner) :=
      tidy_skipBlanks.bind fun _ => (tidy_starOrComparison hi).record _
    refine hspaced.attempt.bind fun found => ?_
    cases found with
    | some p => exact .pure p
    | none => exact .fail _

theorem tidy_disjunction : Tidy (disjunction inner) := by
  have hnegation : Tidy (negation inner) :=
    tidy_nextNot.many.bind fun _ => tidy_skipBlanks.bind fun _ => (tidy_term hi).map _
  have hconjunction : Tidy (conjunction inner) :=
    tidy_chain (by decide) (by decide) (by decide) hnegation
  exact tidy_chain (by decide) (by decide) (by decide) hconjunction

theorem tidy_step : Tidy (step inner) := by
  have htests : ∀ test ∈ [headingTest inner, bareHeading, predicateTest inner], Tidy test := by
    simp only [List.mem_cons, List.not_mem_nil, or_false]
    rintro test (rfl | rfl | rfl)
    · exact tidy_headingType.bind fun _ => (tidy_disjunction hi).map _
    · exact tidy_headingType.map _
    · exact (tidy_disjunction hi).map _
  have htest : Tidy (stepTest inner) := by
    refine (Tidy.firstOf htests).bind fun found => ?_
    cases found with
    | some test => exact .pure test
    | none => exact .fail _
  refine (Tidy.attemptOr _ tidy_axis).bind fun _ => htest.bind fun _ =>
    .remaining_bind fun text => ?_
  split
  · exact tidy_slice.map _
  · exact .pure _

theorem tidy_union : Tidy (union inner) := by
  have hslash : Tidy (operator "/" .axis) := tidy_operator (by decide) (by decide) (by decide)
  have hnext : Tidy (nextStep inner) := by
    refine hslash.bind fun found => ?_
    cases found with
    | true => exact (tidy_step hi).map _
    | false => exact .pure none
  have hpath : Tidy (path inner) :=
    hslash.bind fun _ => (tidy_step hi).bind fun _ => hnext.many.map _
  have hoperand : Tidy (pathOperand inner) := tidy_skipBlanks.bind fun _ => hpath.map _
  have hintersect : Tidy (intersection inner) :=
    tidy_chain (by decide) (by decide) (by decide) hoperand
  have hexcept : Tidy (exception inner) :=
    tidy_chain (by decide) (by decide) (by decide) hintersect
  exact tidy_chain (by decide) (by decide) (by decide) hexcept

end

/-- By the levels of nesting that are left. -/
theorem tidy_levels (limit levels : Nat) :
    Tidy (location limit levels) ∧ (innerAt limit levels).Tidy := by
  induction levels with
  | zero =>
    rw [location_zero, innerAt_zero]
    exact ⟨.fail _, .fail _, .fail _⟩
  | succ levels ih =>
    obtain ⟨hlocation, hinner⟩ := ih
    rw [location_succ, innerAt_succ]
    exact ⟨.nested limit (tidy_skipBlanks.bind fun _ => tidy_union hinner),
      .nested limit (tidy_disjunction hinner), .nested limit hlocation⟩

theorem tidy_expression (limit : Nat) : Tidy (expression limit) := by
  obtain ⟨hlocation, hinner⟩ := tidy_levels limit limit
  have hend : Tidy expectEnd := by
    have hatEnd : Tidy atEnd := .remaining_bind fun _ => .pure _
    refine tidy_skipBlanks.bind fun _ => hatEnd.bind fun finished => ?_
    cases finished with
    | true => exact .pure ()
    | false => exact .fail _
  have hcall : Tidy (wholeCall limit) :=
    tidy_skipBlanks.bind fun _ => (tidy_function hinner).bind fun _ => hend.map _
  have hwhole : Tidy (wholeLocation limit) := tidy_skipBlanks.bind fun _ => hlocation
  refine hcall.attempt.bind fun found => ?_
  cases found with
  | some f => exact .pure _
  | none =>
    refine hwhole.attempt.bind fun found => ?_
    cases found with
    | some l => exact hend.map _
    | none => exact .fail _

end Grammar

/-- In a query that can be read each token starts outside of the strings between quotes: all those
that are opened before it are closed before it. -/
theorem tokens_outside_strings (limit : Nat) (text : String) (e : Expression)
    (h : (parse limit text).result = .ok e) : ∀ t ∈ (parse limit text).tokens,
      ∃ before behind, text.toList = before ++ behind ∧ t.start = byteSize before ∧
        WholeStrings before := by
  rw [parse] at h ⊢
  cases hrun : expression limit (.start text.toList) with
  | error reason s => rw [hrun] at h; cases h
  | ok e' s =>
    obtain ⟨-, ⟨passed, new, hkeeps⟩, -⟩ := (tidy_expression limit).yields hrun
    intro t ht
    have htokens : s.tokens.toList = new := hkeeps.tokens
    obtain ⟨before, next, rfl, hbefore, hstart⟩ := hkeeps.starts t (htokens ▸ ht)
    refine ⟨before, next ++ s.cursor.rest, ?_, hstart.trans (Nat.zero_add _), hbefore⟩
    exact hkeeps.rest.trans (List.append_assoc _ _ _)

end OutlineQuery
