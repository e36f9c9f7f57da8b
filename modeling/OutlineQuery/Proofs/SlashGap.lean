import OutlineQuery.Proofs.Agreement
import OutlineQuery.Proofs.OutsideStrings

/-! A query with a slash, and the same query with blanks on one side of the slash. The smallest
parts of a query come to the same from both, wherever they start before the slash: none of them but
a string between quotes could go on across it. -/

namespace OutlineQuery
open Grammar Production Text

namespace Grammar

/-- A path may start behind the text: nothing but blanks stands behind its start, a parenthesis or a
word that joins paths. -/
def PathMayStart (text : List Char) : Prop :=
  ∃ head gap, text = head ++ gap ∧ (∀ c ∈ gap, isBlank c = true) ∧
    (head = [] ∨ ∃ mark ∈ ["(", "union", "except", "intersect"], mark.toList <:+ head)

def StepMayStart (text : List Char) : Prop := PathMayStart text ∨ ['/'] <:+ text

/-- The text ends in a slice, or in a step that is no more than a type. -/
def EndsTight (text : List Char) : Prop :=
  (∃ before spelled s, text = before ++ spelled ∧ SpellsSlice s spelled) ∨
    ∃ before axis, text = before ++ axis ++ "heading".toList ∧ StepMayStart before ∧
      (axis = [] ∨ ∃ a : Axis, axis = a.spelling.toList)

def OpensTight (text : List Char) : Prop :=
  axisAt? text ≠ none ∨ startsWithWord "heading" text = true

instance (text : List Char) : Decidable (OpensTight text) := inferInstanceAs (Decidable (_ ∨ _))

end Grammar

structure SpacedSlash where
  before : List Char
  behind : List Char
  gap : List Char
  gapBehind : Bool
  blank : ∀ c ∈ gap, isBlank c = true ∧ isRest c = false
  single : ¬['/'] <:+ before
  loose : gapBehind = false → ¬EndsTight before
  opens : gapBehind = true → ¬OpensTight behind

namespace SpacedSlash
variable (S : SpacedSlash)

def plain : List Char := '/' :: S.behind

def spaced : List Char :=
  if S.gapBehind then '/' :: (S.gap ++ S.behind) else S.gap ++ '/' :: S.behind

/-- Texts that are left of the two queries: from a place before the slash on, or the same text of
both. -/
inductive Beside (P : List Char → Prop) : List Char → List Char → Prop where
  | same (text : List Char) : Beside P text text
  | apart {text : List Char} : text <:+ S.before → WholeStrings text → P text →
    Beside P (text ++ S.plain) (text ++ S.spaced)

theorem Beside.mono {S : SpacedSlash} {P Q : List Char → Prop} {text text' : List Char}
    (h : S.Beside P text text') (hPQ : ∀ text, P text → Q text) : S.Beside Q text text' := by
  cases h with
  | same => exact .same text
  | apart hplace hwhole hP => exact .apart hplace hwhole (hPQ _ hP)

def Anywhere : List Char → Prop := fun _ => True

theorem Beside.anywhere {S : SpacedSlash} {P : List Char → Prop} {text text' : List Char}
    (h : S.Beside P text text') : S.Beside Anywhere text text' :=
  h.mono fun _ _ => trivial

def Ahead (text : List Char) : Prop := text = [] → S.gapBehind = true

def isStop (c : Char) : Bool := c == '/' || isBlank c && !isRest c

theorem isRest_of_isStop {c : Char} (h : isStop c = true) : isRest c = false := by
  simp only [isStop, Bool.or_eq_true, beq_iff_eq, Bool.and_eq_true, Bool.not_eq_true'] at h
  obtain rfl | ⟨-, h⟩ := h
  · decide
  · exact h

theorem isStop_of_isBlank {c : Char} (h : isBlank c = true ∧ isRest c = false) :
    isStop c = true := by
  simp [isStop, h]

def Stops (text : List Char) : Prop := ∃ c rest, text = c :: rest ∧ isStop c = true

theorem stops_plain : Stops S.plain := ⟨'/', S.behind, rfl, rfl⟩

theorem stops_spaced : Stops S.spaced := by
  rw [spaced]
  split
  · exact ⟨'/', _, rfl, rfl⟩
  · cases hgap : S.gap with
    | nil => exact ⟨'/', _, rfl, rfl⟩
    | cons c gap => exact ⟨c, _, rfl, isStop_of_isBlank (S.blank c (by simp [hgap]))⟩

section
variable {more : List Char} (hmore : Stops more)
include hmore

theorem Stops.isPrefixOf {word : List Char} (hword : ∀ c ∈ word, isStop c = false)
    (text : List Char) : word.isPrefixOf (text ++ more) = word.isPrefixOf text := by
  obtain ⟨d, rest, rfl, hd⟩ := hmore
  induction word generalizing text with
  | nil => simp
  | cons c word ih =>
    cases text with
    | nil =>
      refine isPrefixOf_cons_false (fun hhead => ?_) word
      obtain rfl := Option.some.inj hhead
      rw [hword d List.mem_cons_self] at hd
      cases hd
    | cons e text =>
      have hrest := ih (fun c hc => hword c (List.mem_cons_of_mem _ hc)) text
      simp only [List.cons_append, List.isPrefixOf_cons_cons, hrest]

theorem Stops.not_head {p : Char → Bool} (hp : ∀ c, isStop c = true → p c = false) :
    more.head?.any p = false := by
  obtain ⟨d, rest, rfl, hd⟩ := hmore
  exact hp d hd

theorem Stops.startsWithWord {word : String} (hword : ∀ c ∈ word.toList, isStop c = false)
    (text : List Char) : startsWithWord word (text ++ more) = startsWithWord word text := by
  rw [Text.startsWithWord, Text.startsWithWord, hmore.isPrefixOf hword]
  cases hstarts : word.toList.isPrefixOf text with
  | false => rfl
  | true =>
    obtain ⟨rest, rfl⟩ := List.isPrefixOf_iff_prefix.mp hstarts
    rw [List.append_assoc, drop_text, drop_text]
    cases rest with
    | nil => rw [List.nil_append, hmore.not_head fun _ => isRest_of_isStop]; rfl
    | cons c rest => rfl

theorem Stops.takeWhile {p : Char → Bool} (hp : ∀ c, isStop c = true → p c = false)
    (text : List Char) : (text ++ more).takeWhile p = text.takeWhile p := by
  induction text with
  | nil => exact takeWhile_append_stop (List.forall_mem_nil _) (hmore.not_head hp)
  | cons c text ih => rw [List.cons_append, List.takeWhile_cons, List.takeWhile_cons, ih]

end

end SpacedSlash

theorem IsLexeme.agrees {α : Type} {p : Production α} {kind? : Option TokenKind}
    {read : List Char → Option (α × Nat)} {absent : Option α} {D : List Char → List Char → Prop}
    {E : α → List Char → List Char → Prop} (hp : IsLexeme p kind? read absent)
    (h : ∀ text text', D text text' →
      (∃ a n, read text = some (a, n) ∧ read text' = some (a, n) ∧
        E a (text.drop n) (text'.drop n)) ∨
      read text = none ∧ read text' = none ∧ ∀ a ∈ absent, E a text text') : Agrees D p E := by
  have hfound {a : α} {n depth : Nat} {text : List Char} (hread : read text = some (a, n)) :
      Reads p depth text a (text.drop n) := by
    intro s hs
    rw [← hs.text] at hread
    refine ⟨s.behind kind? n, hp.found hread, ?_, ?_⟩
    · rw [← hs.depth]
      cases kind? <;> rfl
    · rw [IsLexeme.rest_behind, hs.text]
  refine ⟨hp.grows, fun {depth text text'} htext => ?_⟩
  obtain ⟨a, n, hread, hread', hrest⟩ | ⟨hnone, hnone', hrest⟩ := h text text' htext
  · exact .reads (hfound hread) (hfound hread') hrest
  · cases absent with
    | some a =>
      have hmissing {text : List Char} (hnone : read text = none) : Reads p depth text a text := by
        intro s hs
        rw [← hs.text] at hnone
        exact ⟨s, hp.missing hnone, hs⟩
      exact .reads (hmissing hnone) (hmissing hnone') (hrest a rfl)
    | none =>
      have hmissing {text : List Char} (hnone : read text = none) : Refuses p depth text := by
        intro s hs
        rw [← hs.text] at hnone
        exact hp.missing hnone
      exact .refuses (hmissing hnone) (hmissing hnone')

namespace SpacedSlash
variable {S : SpacedSlash} {α : Type} {p : Production α} {kind? : Option TokenKind}
  {kind : TokenKind} {absent : Option α} {P : List Char → Prop} {Q : α → List Char → Prop}

/-- What is read of the text before the slash is read whatever stop follows. -/
theorem agrees_lexeme {read : List Char → Option (α × Nat)}
    (hp : IsLexeme p kind? read absent)
    (hsame : ∀ text more, text <:+ S.before → WholeStrings text → P text → Stops more →
      read (text ++ more) = read text)
    (hfound : ∀ text a n, text <:+ S.before → WholeStrings text → P text →
      read text = some (a, n) → ∃ word rest, text = word ++ rest ∧ n = word.length ∧
        WholeStrings rest ∧ Q a rest)
    (habsent : ∀ a ∈ absent, ∀ text, P text → Q a text) :
    Agrees (S.Beside P) p fun a => S.Beside (Q a) := by
  refine hp.agrees fun text text' htext => ?_
  cases htext with
  | same =>
    cases hread : read text with
    | some found => exact .inl ⟨found.1, found.2, rfl, rfl, .same _⟩
    | none => exact .inr ⟨rfl, rfl, fun _ _ => .same _⟩
  | @apart text hplace hwhole hP =>
    rw [hsame text S.plain hplace hwhole hP S.stops_plain,
      hsame text S.spaced hplace hwhole hP S.stops_spaced]
    cases hread : read text with
    | some found =>
      obtain ⟨a, n⟩ := found
      obtain ⟨word, rest, rfl, rfl, hrest, hQ⟩ := hfound text a n hplace hwhole hP hread
      refine .inl ⟨a, word.length, rfl, rfl, ?_⟩
      rw [List.append_assoc, List.append_assoc, List.drop_left, List.drop_left]
      exact .apart ((List.suffix_append word rest).trans hplace) hrest hQ
    | none => exact .inr ⟨rfl, rfl, fun a ha => .apart hplace hwhole (habsent a ha text hP)⟩

def IsSolid (text : List Char) : Prop := text.all (fun c => !isStop c && c != '"') = true

instance (text : List Char) : Decidable (IsSolid text) := inferInstanceAs (Decidable (_ = true))

theorem isSolid_iff {text : List Char} :
    IsSolid text ↔ (∀ c ∈ text, isStop c = false) ∧ '"' ∉ text := by
  simp only [IsSolid, List.all_eq_true, Bool.and_eq_true, Bool.not_eq_true', bne_iff_ne]
  constructor
  · intro h
    exact ⟨fun c hc => (h c hc).1, fun hmem => (h _ hmem).2 rfl⟩
  · rintro ⟨hstop, hquote⟩ c hc
    refine ⟨hstop c hc, ?_⟩
    rintro rfl
    exact hquote hc

theorem IsSolid.noStop {text : List Char} (h : IsSolid text) : ∀ c ∈ text, isStop c = false :=
  (isSolid_iff.mp h).1

theorem IsSolid.unquoted {text : List Char} (h : IsSolid text) : '"' ∉ text := (isSolid_iff.mp h).2

section
variable {word : String} {test : List Char → Bool} {a : α}

/-- A text that is read where a test is passed. -/
theorem agrees_tested (hp : IsLexeme p kind? (readIf test a word.length) absent)
    (hword : IsSolid word.toList) (hstarts : ∀ text, test text = true → word.toList <+: text)
    (hsame : ∀ more, Stops more → ∀ text, test (text ++ more) = test text)
    (hfound : ∀ rest, word.toList ++ rest <:+ S.before → P (word.toList ++ rest) → Q a rest)
    (habsent : ∀ b ∈ absent, ∀ text, P text → Q b text) :
    Agrees (S.Beside P) p fun a => S.Beside (Q a) := by
  refine agrees_lexeme hp (fun text more _ _ _ hmore => ?_)
    (fun text b n hplace hwhole hP hread => ?_) habsent
  · rw [readIf, readIf, hsame more hmore]
  · obtain ⟨htest, rfl, rfl⟩ := readIf_some hread
    obtain ⟨rest, rfl⟩ := hstarts text htest
    refine ⟨word.toList, rest, rfl, String.length_toList.symm, ?_, hfound rest hplace hP⟩
    exact hwhole.drop hword.unquoted

theorem agrees_skip {Q : Bool → List Char → Prop} (hword : IsSolid word.toList)
    (hfound : ∀ rest, word.toList ++ rest <:+ S.before → P (word.toList ++ rest) → Q true rest)
    (habsent : ∀ text, P text → Q false text) :
    Agrees (S.Beside P) (skip word) fun found => S.Beside (Q found) :=
  agrees_tested (isLexeme_skip word) hword (fun _ => List.isPrefixOf_iff_prefix.mp)
    (fun _ hmore => hmore.isPrefixOf hword.noStop) hfound
    fun b hb => by cases hb; exact habsent

theorem agrees_expect {Q : List Char → Prop} (hword : IsSolid word.toList)
    (hfound : ∀ rest, word.toList ++ rest <:+ S.before → P (word.toList ++ rest) → Q rest) :
    Agrees (S.Beside P) (expect word) fun _ => S.Beside Q :=
  agrees_tested (Q := fun _ => Q) (isLexeme_expect word) hword
    (fun _ => List.isPrefixOf_iff_prefix.mp)
    (fun _ hmore => hmore.isPrefixOf hword.noStop) hfound nofun

theorem agrees_word {Q : Bool → List Char → Prop} (hne : word ≠ "") (hkind : kind ≠ .comparison)
    (hword : IsSolid word.toList)
    (hfound : ∀ rest, word.toList ++ rest <:+ S.before → P (word.toList ++ rest) → Q true rest)
    (habsent : ∀ text, P text → Q false text) :
    Agrees (S.Beside P) (Grammar.word word kind) fun found => S.Beside (Q found) := by
  refine agrees_tested (isLexeme_word hne hkind) hword (fun text hstarts => ?_)
    (fun _ hmore => hmore.startsWithWord hword.noStop) hfound
    fun b hb => by cases hb; exact habsent
  rw [startsWithWord, Bool.and_eq_true] at hstarts
  exact List.isPrefixOf_iff_prefix.mp hstarts.1

end

theorem not_isStart_of_isStop {c : Char} (h : isStop c = true) : ¬isStart c = true := by
  intro hstart
  have hrest := isRest_of_isStart hstart
  rw [isRest_of_isStop h] at hrest
  cases hrest

theorem not_isSymbol_of_isStop {c : Char} (h : isStop c = true) : ¬isSymbol c = true := by
  intro hsymbol
  have hno : symbols.all (!isStop ·) = true := by decide +kernel
  have hc := List.all_eq_true.mp hno c (List.contains_iff_mem.mp hsymbol)
  rw [h] at hc
  cases hc

section
variable {more : List Char} (hmore : Stops more)
include hmore

theorem Stops.readName (text : List Char) : readName (text ++ more) = readName text := by
  cases text with
  | cons c text =>
    rw [List.cons_append, OutlineQuery.readName, OutlineQuery.readName,
      hmore.takeWhile fun _ => isRest_of_isStop]
  | nil =>
    obtain ⟨c, rest, rfl, hc⟩ := hmore
    exact if_neg (not_isStart_of_isStop hc)

theorem Stops.readSymbol (text : List Char) : readSymbol (text ++ more) = readSymbol text := by
  cases text with
  | cons c text =>
    have hname := hmore.readName (c :: text)
    rw [List.cons_append] at hname ⊢
    rw [OutlineQuery.readSymbol, OutlineQuery.readSymbol, hname]
  | nil =>
    have hname := hmore.readName []
    obtain ⟨c, rest, rfl, hc⟩ := hmore
    exact (if_neg (not_isSymbol_of_isStop hc)).trans hname

theorem Stops.readQuoted {text : List Char} (hwhole : WholeStrings text) :
    readQuoted (text ++ more) = readQuoted text := by
  cases hwhole with
  | nil =>
    obtain ⟨c, rest, rfl, hc⟩ := hmore
    have hquote : c ≠ '"' := by
      rintro rfl
      revert hc
      decide
    exact if_neg hquote
  | plain hc _ =>
    rw [List.cons_append, OutlineQuery.readQuoted, OutlineQuery.readQuoted, if_neg hc, if_neg hc]
  | string hbody _ =>
    simp only [List.cons_append, OutlineQuery.readQuoted, List.append_assoc, hbody.quotedBody_eq]

end

theorem agrees_identifier :
    Agrees (S.Beside Anywhere) identifier fun _ => S.Beside Anywhere := by
  refine agrees_lexeme isLexeme_identifier (fun text more _ _ _ hmore => hmore.readName text)
    (fun text a n _ hwhole _ hread => ?_) nofun
  obtain ⟨rest, rfl, rfl, hquote⟩ := readName_word hread
  exact ⟨a, rest, rfl, rfl, hwhole.drop hquote, trivial⟩

theorem agrees_symbolOrIdentifier :
    Agrees (S.Beside Anywhere) symbolOrIdentifier fun _ => S.Beside Anywhere := by
  refine agrees_lexeme isLexeme_symbolOrIdentifier
    (fun text more _ _ _ hmore => hmore.readSymbol text) (fun text a n _ hwhole _ hread => ?_) nofun
  obtain ⟨rest, rfl, rfl, hquote⟩ := readSymbol_word hread
  exact ⟨a, rest, rfl, rfl, hwhole.drop hquote, trivial⟩

theorem agrees_quoted : Agrees (S.Beside Anywhere) quoted fun _ => S.Beside Anywhere := by
  refine agrees_lexeme isLexeme_quoted (fun text more _ hwhole _ hmore => hmore.readQuoted hwhole)
    (fun text a n _ hwhole _ hread => ?_) nofun
  cases hwhole with
  | nil => cases hread
  | plain hc _ =>
    rw [readQuoted, if_neg hc] at hread
    cases hread
  | @string body held rest hbody hrest =>
    rw [readQuoted, if_pos rfl, hbody.quotedBody_eq] at hread
    cases hread
    exact ⟨'"' :: body, rest, rfl, rfl, hrest, trivial⟩

/-- What does not see beyond a stop sees the same of both queries. -/
theorem Beside.eq {γ : Type} {g : List Char → γ} {text text' : List Char}
    (h : S.Beside P text text') (hg : ∀ text more, Stops more → g (text ++ more) = g text) :
    g text' = g text := by
  cases h with
  | same => rfl
  | apart _ _ _ => rw [hg _ _ S.stops_spaced, hg _ _ S.stops_plain]

theorem Beside.isPrefixOf_eq {word text text' : List Char} (h : S.Beside P text text')
    (hword : ∀ c ∈ word, isStop c = false) : word.isPrefixOf text' = word.isPrefixOf text :=
  h.eq (g := word.isPrefixOf) fun text _ hmore => hmore.isPrefixOf hword text

theorem Stops.startsReserved {more : List Char} (hmore : Stops more) (text : List Char) :
    startsReserved (text ++ more) = startsReserved text := by
  have hoperators : ∀ word ∈ reservedOperators, IsSolid word.toList := by decide
  have hwords : ∀ word ∈ reservedWords, IsSolid word.toList := by decide
  rw [Bool.eq_iff_iff]
  simp only [Text.startsReserved, Bool.or_eq_true, List.any_eq_true]
  refine or_congr (exists_congr fun word => and_congr_right fun hmem => ?_)
    (exists_congr fun word => and_congr_right fun hmem => ?_)
  · rw [hmore.isPrefixOf (hoperators word hmem).noStop]
  · rw [hmore.startsWithWord (hwords word hmem).noStop]

theorem agrees_string : Agrees (S.Beside Anywhere) string fun _ => S.Beside Anywhere := by
  refine .remaining_bind (fun text text' htext => ?_) fun text => ?_
  · rw [htext.isPrefixOf_eq (List.forall_mem_singleton.mpr rfl)]
  · split
    · exact agrees_quoted.record _
    · refine (Agrees.remaining_bind (fun text text' htext => ?_) fun text => ?_).record _
      · rw [htext.eq fun text more hmore => hmore.startsReserved text]
      · split
        · exact .fail _
        · exact agrees_symbolOrIdentifier

theorem agrees_relation : Agrees (S.Beside Anywhere) relation fun _ => S.Beside Anywhere := by
  have hsolid : ∀ r : Relation, IsSolid r.spelling.toList := by
    intro r
    cases r <;> decide
  refine agrees_lexeme isLexeme_relation (fun text more _ _ _ hmore => ?_)
    (fun text r n _ hwhole _ hread => ?_) nofun
  · have hword (r : Relation) := hmore.startsWithWord (hsolid r).noStop text
    have hstart (r : Relation) := hmore.isPrefixOf (hsolid r).noStop text
    simp only [readSpelling, relationAt?, hword, hstart]
  · obtain ⟨r', hr, ⟨⟩⟩ := Option.map_eq_some_iff.mp hread
    obtain ⟨rest, rfl⟩ := relationAt?_starts hr
    refine ⟨r.spelling.toList, rest, rfl, String.length_toList.symm, ?_, trivial⟩
    exact hwhole.drop (hsolid r).unquoted

/-- Before a text that does not come to the gap the axis is the same. -/
theorem Stops.axisAt? {more text : List Char} (hmore : Stops more) (htext : text ≠ [])
    (hslash : ¬['/'] <:+ text) : axisAt? (text ++ more) = axisAt? text := by
  obtain ⟨c, text, rfl⟩ := List.exists_cons_of_ne_nil htext
  have hspelling (a : Axis) :
      a.spelling.toList.isPrefixOf (c :: text ++ more) =
        a.spelling.toList.isPrefixOf (c :: text) := by
    by_cases hsolid : IsSolid a.spelling.toList
    · exact hmore.isPrefixOf hsolid.noStop _
    · have hshortcut : a.spelling = "/" ∨ a.spelling = "//" := by
        revert hsolid
        cases a <;> decide
      obtain h | h := hshortcut
      · rw [h]
        rfl
      · rw [h]
        cases text with
        | nil =>
          have hc : '/' ≠ c := by
            rintro rfl
            exact hslash (List.suffix_refl _)
          simp [List.isPrefixOf, hc]
        | cons d text => rfl
  simp only [Grammar.axisAt?, hspelling]

theorem agrees_axis (hP : ∀ text, P text → text ≠ []) : Agrees (S.Beside P) axis
    fun a => S.Beside fun rest => P (a.spelling.toList ++ rest) := by
  refine agrees_lexeme isLexeme_axis (fun text more hplace _ htext hmore => ?_)
    (fun text a n _ hwhole htext hread => ?_) nofun
  · have hslash : ¬['/'] <:+ text := fun h => S.single (h.trans hplace)
    rw [readSpelling, readSpelling, hmore.axisAt? (hP text htext) hslash]
  · obtain ⟨a', ha, ⟨⟩⟩ := Option.map_eq_some_iff.mp hread
    obtain ⟨rest, rfl⟩ := axisAt?_starts ha
    refine ⟨a.spelling.toList, rest, rfl, String.length_toList.symm, ?_, htext⟩
    refine hwhole.drop ?_
    cases a <;> decide

/-- What has no stops in it ends before the stop. -/
theorem Stops.within {more text word rest : List Char} (hmore : Stops more)
    (hword : ∀ c ∈ word, isStop c = false) (h : text ++ more = word ++ rest) :
    ∃ others, text = word ++ others := by
  obtain ⟨others, rfl, hothers⟩ | ⟨others, htext, -⟩ := List.append_eq_append_iff.mp h
  · cases others with
    | nil => exact ⟨[], by simp⟩
    | cons d others =>
      obtain ⟨c, tail, rfl, hc⟩ := hmore
      obtain rfl := (List.cons.inj hothers).1
      rw [hword c (by simp)] at hc
      cases hc
  · exact ⟨others, htext⟩

/-- A text is spelled at its start, or it is refused. -/
theorem reads_or_refuses {spells : α → List Char → Prop} (hp : Yields Passes p spells)
    (hr : Recoverable p)
    (hreads : ∀ a word, spells a word → ∀ depth rest, Reads p depth (word ++ rest) a rest)
    (depth : Nat) (text : List Char) :
    (∃ a word rest, spells a word ∧ text = word ++ rest) ∨ Refuses p depth text := by
  cases hrun : p (.before depth text) with
  | ok a t =>
    obtain ⟨word, ⟨-, htext⟩, hword⟩ := hp.yields hrun
    exact .inl ⟨a, word, t.cursor.rest, hword, htext⟩
  | error reason t =>
    refine .inr fun s hs => ?_
    cases hagain : p s with
    | error reason' u => exact ⟨reason', u, rfl, hr s reason' u hagain⟩
    | ok a u =>
      obtain ⟨word, ⟨-, htext⟩, hword⟩ := hp.yields hagain
      rw [hs.text] at htext
      obtain ⟨v, hok, -⟩ := hreads a word hword depth u.cursor.rest (.before depth text)
        ⟨rfl, htext⟩
      rw [hrun] at hok
      cases hok

/-- A text that is read whatever follows. -/
theorem agrees_spelled {spells : α → List Char → Prop} (hp : Yields Passes p spells)
    (hr : Recoverable p)
    (hreads : ∀ a word, spells a word → ∀ depth rest, Reads p depth (word ++ rest) a rest)
    (hsolid : ∀ a word, spells a word → IsSolid word)
    (hQ : ∀ a word rest, spells a word → word ++ rest <:+ S.before → P (word ++ rest) → Q a rest) :
    Agrees (S.Beside P) p fun a => S.Beside (Q a) := by
  refine ⟨hp.grows, fun {depth text text'} htext => ?_⟩
  have hcases := reads_or_refuses hp hr hreads depth
  cases htext with
  | same =>
    obtain ⟨a, word, rest, hword, rfl⟩ | hno := hcases text
    · exact .reads (hreads a word hword depth rest) (hreads a word hword depth rest) (.same rest)
    · exact .refuses hno hno
  | @apart text hplace hwhole hP =>
    by_cases hspelled : ∃ a word rest, spells a word ∧ text = word ++ rest
    · obtain ⟨a, word, rest, hword, rfl⟩ := hspelled
      have hrest := hwhole.drop (hsolid a word hword).unquoted
      rw [List.append_assoc, List.append_assoc]
      exact .reads (hreads a word hword depth _) (hreads a word hword depth _) (.apart
        ((List.suffix_append word rest).trans hplace) hrest (hQ a word rest hword hplace hP))
    · have hrefuses : ∀ more, Stops more → Refuses p depth (text ++ more) := by
        intro more hmore
        obtain ⟨a, word, rest, hword, hsplit⟩ | hno := hcases (text ++ more)
        · obtain ⟨others, rfl⟩ := hmore.within (hsolid a word hword).noStop hsplit
          exact absurd ⟨a, word, others, hword, rfl⟩ hspelled
        · exact hno
      exact .refuses (hrefuses _ S.stops_plain) (hrefuses _ S.stops_spaced)

theorem agrees_bracketedLetter :
    Agrees (S.Beside Anywhere) bracketedLetter fun _ => S.Beside Anywhere := by
  refine agrees_spelled passes_bracketedLetter .bracketedLetter ?_ ?_ fun _ _ _ _ _ _ => trivial
  · rintro m _ rfl depth rest
    exact reads_bracketedLetter m rest
  · rintro m _ rfl
    cases m <;> decide

/-- Where the blanks stand before the slash, no slice ends at them. -/
theorem agrees_slice : Agrees (S.Beside Anywhere) slice fun _ => S.Beside S.Ahead := by
  refine agrees_spelled passes_slice .slice (fun s word hs depth rest => hs.reads) ?_ ?_
  · intro s word hs
    have hmarks : IsSolid ['[', ']', ':', '-'] := by decide
    refine isSolid_iff.mpr ⟨fun c hc => ?_, fun hquote => ?_⟩
    · obtain hmem | hdigit := hs.chars c hc
      · exact hmarks.noStop c hmem
      · have hslash : c ≠ '/' := by
          rintro rfl
          cases hdigit
        simp [isStop, hslash, isBlank_eq_false_of_isDigit hdigit]
    · obtain hmem | hdigit := hs.chars _ hquote
      · exact hmarks.unquoted hmem
      · cases hdigit
  · intro s word rest hs hplace _ hrest
    subst hrest
    by_contra hfront
    obtain ⟨before, hbefore⟩ := hplace
    rw [List.append_nil] at hbefore
    exact S.loose (Bool.eq_false_iff.mpr hfront) (.inl ⟨before, word, s, hbefore.symm, hs⟩)

def Turned (S : SpacedSlash) (text text' : List Char) : Prop :=
  S.gapBehind = true ∧ text = S.behind ∧ text' = S.gap ++ S.behind

abbrev Around (S : SpacedSlash) (P : List Char → Prop) (text text' : List Char) : Prop :=
  S.Beside P text text' ∨ S.Turned text text'

theorem dropWhile_gap (S : SpacedSlash) (text : List Char) :
    (S.gap ++ text).dropWhile isBlank = text.dropWhile isBlank :=
  List.dropWhile_append_of_pos fun c hc => (S.blank c hc).1

/-- Blanks before the slash are passed with those that are there already. -/
theorem dropWhile_spaced (h : S.gapBehind = false) :
    S.spaced.dropWhile isBlank = S.plain.dropWhile isBlank := by
  rw [spaced, h]
  exact S.dropWhile_gap _

theorem plain_noBlank (S : SpacedSlash) : S.plain.dropWhile isBlank = S.plain :=
  dropWhile_blank rfl

theorem spaced_noBlank (h : S.gapBehind = true) : S.spaced.dropWhile isBlank = S.spaced := by
  rw [spaced, h]
  exact dropWhile_blank rfl

theorem dropWhile_within {text : List Char} (h : text.dropWhile isBlank ≠ []) (more : List Char) :
    (text ++ more).dropWhile isBlank = text.dropWhile isBlank ++ more := by
  rw [List.dropWhile_append, if_neg]
  simpa using h

/-- What is left before the slash when its blanks are passed. -/
theorem Beside.passed {text : List Char} (hplace : text <:+ S.before) (hwhole : WholeStrings text)
    (hP : P (text.dropWhile isBlank)) (h : text.dropWhile isBlank ≠ []) :
    S.Beside (fun text => P text ∧ S.Ahead text) (text.dropWhile isBlank ++ S.plain)
      (text.dropWhile isBlank ++ S.spaced) := by
  refine .apart ((List.dropWhile_suffix isBlank).trans hplace) ?_ ⟨hP, fun hnil => absurd hnil h⟩
  rw [← List.takeWhile_append_dropWhile (p := isBlank) (l := text)] at hwhole
  refine hwhole.drop fun hmem => ?_
  have hblank := List.all_eq_true.mp List.all_takeWhile '"' hmem
  revert hblank
  decide

theorem agrees_skipBlanks (hP : ∀ text, P text → P (text.dropWhile isBlank)) :
    Agrees (S.Around P) skipBlanks fun _ => S.Beside fun text => P text ∧ S.Ahead text := by
  refine ⟨follows_grown_of_silent silent_skipBlanks, fun {depth text text'} htext => ?_⟩
  refine .reads reads_skipBlanks reads_skipBlanks ?_
  obtain htext | ⟨-, rfl, rfl⟩ := htext
  · cases htext with
    | same => exact .same _
    | @apart text hplace hwhole htext =>
      have hdropped := hP text htext
      by_cases hend : text.dropWhile isBlank = []
      · rw [List.dropWhile_append_of_pos (List.dropWhile_eq_nil_iff.mp hend),
          List.dropWhile_append_of_pos (List.dropWhile_eq_nil_iff.mp hend)]
        cases hgap : S.gapBehind with
        | false =>
          rw [dropWhile_spaced hgap]
          exact .same _
        | true =>
          rw [plain_noBlank, spaced_noBlank hgap]
          exact .apart List.nil_suffix .nil ⟨hend ▸ hdropped, fun _ => hgap⟩
      · rw [dropWhile_within hend, dropWhile_within hend]
        exact .passed hplace hwhole hdropped hend
  · rw [dropWhile_gap]
    exact .same _

theorem takeWhile_within {text : List Char} (h : text.dropWhile isBlank ≠ []) (more : List Char) :
    (text ++ more).takeWhile isBlank = text.takeWhile isBlank := by
  rw [List.takeWhile_append, if_neg]
  intro hlength
  have hsplit := congrArg List.length (List.takeWhile_append_dropWhile (p := isBlank) (l := text))
  rw [List.length_append, hlength] at hsplit
  exact h (List.eq_nil_of_length_eq_zero (by omega))

theorem refuses_string_slash {text : List Char} (h : text.head? = some '/') (depth : Nat) :
    Refuses string depth text := by
  refine .string (by simp [h]) (refuses_unquoted ?_ ?_)
  · rw [h]
    decide
  · rw [h]
    decide

theorem agrees_blanks (hP : ∀ text, P text → P (text.dropWhile isBlank)) :
    Agrees (S.Beside P) skipBlanks fun _ => S.Beside fun text => P text ∧ S.Ahead text :=
  (agrees_skipBlanks hP).narrow fun _ _ => .inl

/-- The blanks at the gap are part of no string, since none begins behind them. -/
theorem agrees_piece : Agrees (S.Beside Anywhere) piece fun _ => S.Beside Anywhere := by
  have hstring (gap : List Char) : Agrees (S.Beside Anywhere) (do return gap ++ (← string))
      fun _ => S.Beside Anywhere := agrees_string.map _
  refine ⟨discipline_grown.follows_piece, fun {depth text text'} htext => ?_⟩
  cases htext with
  | same =>
    have hblanks : SameOutcome blanks depth (fun _ => S.Beside Anywhere) text text :=
      .reads reads_blanks reads_blanks (.same _)
    exact hblanks.bind fun gap rest rest' _ hrest => (hstring gap).same hrest
  | @apart text hplace hwhole htext =>
    by_cases hend : text.dropWhile isBlank = []
    · have hrefuses : ∀ more, (more.dropWhile isBlank).head? = some '/' →
          Refuses piece depth (text ++ more) := by
        intro more hmore
        refine refuses_piece ?_
        rw [List.dropWhile_append_of_pos (List.dropWhile_eq_nil_iff.mp hend)]
        exact refuses_string_slash hmore depth
      refine .refuses (hrefuses _ (by rw [plain_noBlank]; rfl)) (hrefuses _ ?_)
      cases hgap : S.gapBehind with
      | false => rw [dropWhile_spaced hgap, plain_noBlank]; rfl
      | true => rw [spaced_noBlank hgap, spaced, hgap]; rfl
    · have hblanks : SameOutcome blanks depth (fun _ => S.Beside Anywhere) (text ++ S.plain)
          (text ++ S.spaced) := by
        have hplain : Reads blanks depth (text ++ S.plain) _ _ := reads_blanks
        have hspaced : Reads blanks depth (text ++ S.spaced) _ _ := reads_blanks
        rw [takeWhile_within hend, dropWhile_within hend] at hplain hspaced
        exact .reads hplain hspaced ((Beside.passed hplace hwhole trivial hend).mono fun _ h => h.1)
      exact hblanks.bind fun gap rest rest' _ hrest => (hstring gap).same hrest

/-- A slash before the gap is passed as always. The one at the gap leaves the texts behind it, if it
stands there in both queries. -/
theorem agrees_slash {Q : List Char → Prop} (hahead : ∀ text, P text → S.Ahead text)
    (hQ : ∀ rest, '/' :: rest <:+ S.before → P ('/' :: rest) → Q rest) :
    Agrees (S.Beside P) (operator "/" .axis) fun found text text' =>
      if found then S.Around (fun rest => rest ≠ [] ∧ Q rest) text text'
      else (S.Beside fun text => text ≠ [] ∧ P text) text text' := by
  refine (isLexeme_operator (by decide) (by decide)).agrees fun text text' htext => ?_
  have hread (c : Char) (text : List Char) :
      readIf "/".toList.isPrefixOf true "/".length (c :: text) =
        if c = '/' then some (true, 1) else none := by
    by_cases hc : c = '/'
    · subst hc
      rfl
    · have hno : ['/'].isPrefixOf (c :: text) = false :=
        isPrefixOf_cons_false (by simpa using hc) []
      have hnone : ¬"/".toList.isPrefixOf (c :: text) = true := Bool.eq_false_iff.mp hno
      exact (if_neg hnone).trans (if_neg hc).symm
  cases htext with
  | same =>
    cases hfound : readIf "/".toList.isPrefixOf true "/".length text with
    | some found =>
      obtain ⟨-, hvalue, hlength⟩ := readIf_some hfound
      refine .inl ⟨found.1, found.2, rfl, rfl, ?_⟩
      rw [← hvalue]
      exact .inl (.same _)
    | none => exact .inr ⟨rfl, rfl, fun a ha => by cases ha; exact .same _⟩
  | @apart text hplace hwhole htext =>
    cases text with
    | nil =>
      have hgap := hahead [] htext rfl
      rw [List.nil_append, List.nil_append, plain, spaced, if_pos hgap, hread, hread, if_pos rfl]
      exact .inl ⟨true, 1, rfl, rfl, .inr ⟨hgap, rfl, rfl⟩⟩
    | cons c rest =>
      rw [List.cons_append, List.cons_append, hread, hread]
      by_cases hc : c = '/'
      · subst hc
        have hrest : rest ≠ [] := by
          rintro rfl
          exact S.single hplace
        have hsuffix : rest <:+ S.before := (List.suffix_cons '/' rest).trans hplace
        refine .inl ⟨true, 1, if_pos rfl, if_pos rfl, .inl ?_⟩
        exact .apart hsuffix (@WholeStrings.drop ['/'] rest hwhole (by decide))
          ⟨hrest, hQ rest hplace htext⟩
      · refine .inr ⟨if_neg hc, if_neg hc, fun a ha => ?_⟩
        cases ha
        exact .apart hplace hwhole ⟨List.cons_ne_nil c rest, htext⟩

end SpacedSlash
end OutlineQuery
