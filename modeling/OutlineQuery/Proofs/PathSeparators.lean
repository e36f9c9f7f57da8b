import OutlineQuery.Proofs.OuterBlanks
import OutlineQuery.Proofs.SlashGapInPaths
import OutlineQuery.Proofs.Support
import OutlineQuery.Proofs.WordsAsNames

/-! Blanks beside the slashes that start a path or stand between two of its steps. Before such a
slash and behind it blanks change nothing, but for two kinds of places where a path does not pass
them: behind a slice or a step that is no more than a type, and before an axis or a type. -/

namespace OutlineQuery
open Grammar Production Text

/-- The slash behind the text starts a path or stands between two steps. It is recorded as that; the
slashes with which an axis is written are recorded in the same way, but they stand directly behind
another slash, and the first of them is no axis. -/
def IsSeparator (limit : Nat) (before behind : String) : Prop :=
  (⟨.axis, before.utf8ByteSize, before.utf8ByteSize + 1, "/"⟩ : Token) ∈
      (parse limit (before ++ "/" ++ behind)).tokens ∧ ¬['/'] <:+ before.toList

instance (limit : Nat) (before behind : String) : Decidable (IsSeparator limit before behind) :=
  inferInstanceAs (Decidable (_ ∧ _))

/-- No separator stands in a string. -/
theorem IsSeparator.whole {limit : Nat} {before behind : String} {e : Expression}
    (hslash : IsSeparator limit before behind)
    (h : (parse limit (before ++ "/" ++ behind)).result = .ok e) : WholeStrings before.toList := by
  obtain ⟨first, next, htext, hstart, hfirst⟩ := tokens_outside_strings limit _ e h _ hslash.1
  have hsplit : before.toList ++ '/' :: behind.toList = first ++ next := by simpa using htext
  have hsize : byteSize before.toList = byteSize first := by rw [← utf8ByteSize_eq, ← hstart]
  have hbefore : before.toList = first := by
    rw [← takeBytes_append before.toList, hsize, hsplit, takeBytes_append]
  rwa [hbefore]

theorem Grammar.SpellsSlice.closed {s : Slice} {text : List Char} (h : SpellsSlice s text) :
    [']'] <:+ text := by
  cases h with
  | @index n number _ => exact ⟨'[' :: number, rfl⟩
  | @between start stop first last _ _ => exact ⟨'[' :: (first ++ ':' :: last), by simp⟩

/-- A text ends tight only with a bracket or the name of a type. -/
theorem not_endsTight {text : List Char} (hbracket : ¬[']'] <:+ text)
    (htype : ¬"heading".toList <:+ text) : ¬EndsTight text := by
  rintro (⟨before, spelled, s, rfl, hs⟩ | ⟨before, axis, rfl, -⟩)
  · exact hbracket (hs.closed.trans (List.suffix_append _ _))
  · exact htype (List.suffix_append _ _)

theorem SpacedSlash.parse (S : SpacedSlash) {limit : Nat} {query query' : String} {e : Expression}
    (hwhole : WholeStrings S.before) (hquery : query.toList = S.before ++ S.plain)
    (hquery' : query'.toList = S.before ++ S.spaced) (h : (parse limit query).result = .ok e) :
    (OutlineQuery.parse limit query').result = .ok e := by
  have hopens : S.Opens S.before := ⟨[], rfl, [], [], rfl, nofun, .inl rfl⟩
  have hbeside : S.Beside S.Opens query.toList query'.toList := by
    rw [hquery, hquery']
    exact .apart List.suffix_rfl hwhole hopens
  exact ((agrees_expression S limit).same hbeside).parse h

/-- Blanks before a separator or behind it change nothing of what a query is read as, unless they
stand behind a slice or a step that is no more than a type, or before an axis or a type. -/
theorem blanks_beside_separator (limit : Nat) (before gap behind : String) (e : Expression)
    (h : (parse limit (before ++ "/" ++ behind)).result = .ok e)
    (hslash : IsSeparator limit before behind)
    (hgap : ∀ c ∈ gap.toList, isBlank c = true ∧ isRest c = false) :
    (¬EndsTight before.toList →
      (parse limit (before ++ gap ++ "/" ++ behind)).result = .ok e) ∧
    (¬OpensTight behind.toList →
      (parse limit (before ++ "/" ++ gap ++ behind)).result = .ok e) := by
  have hwhole := hslash.whole h
  refine ⟨fun hloose => ?_, fun hopens => ?_⟩
  · let S : SpacedSlash := ⟨before.toList, behind.toList, gap.toList, false, hgap, hslash.2,
      fun _ => hloose, fun h => absurd h Bool.false_ne_true⟩
    exact S.parse hwhole (by simp [S, SpacedSlash.plain]) (by simp [S, SpacedSlash.spaced]) h
  · let S : SpacedSlash := ⟨before.toList, behind.toList, gap.toList, true, hgap, hslash.2,
      fun h => absurd h.symm Bool.false_ne_true, fun _ => hopens⟩
    exact S.parse hwhole (by simp [S, SpacedSlash.plain]) (by simp [S, SpacedSlash.spaced]) h

/-- The second slash of `a[0]/b/c` stands behind a string and before one. -/
theorem secondSlash_between_blanks :
    ∃ e, (parse 32 ("a[0]/b" ++ "/" ++ "c")).result = .ok e ∧
      IsSeparator 32 "a[0]/b" "c" ∧ (∀ c ∈ " ".toList, isBlank c = true ∧ isRest c = false) ∧
      (parse 32 ("a[0]/b" ++ " " ++ "/" ++ "c")).result = .ok e ∧
      (parse 32 ("a[0]/b" ++ "/" ++ " " ++ "c")).result = .ok e := by
  obtain ⟨e, he, -⟩ := exists_read (r := (parse 32 ("a[0]/b" ++ "/" ++ "c")).result)
    (q := fun _ => true) (by decide +kernel)
  have hslash : IsSeparator 32 "a[0]/b" "c" := by decide +kernel
  have hgap : ∀ c ∈ " ".toList, isBlank c = true ∧ isRest c = false :=
    blanks_of_all " " (by decide)
  obtain ⟨hbefore, hbehind⟩ := blanks_beside_separator 32 "a[0]/b" " " "c" e he hslash hgap
  exact ⟨e, he, hslash, hgap, hbefore (not_endsTight (by decide) (by decide)),
    hbehind (by decide)⟩

/-- In `heading /a` the path ends before the blank, and the slash cannot be read any more. In
`a/parent::*` only the first step compares rows with a text; in `a/ parent::*` the blank hides the
axis, and the second step is a search for the text `parent::*`. -/
theorem blanks_beside_separator_noticed :
    (IsSeparator 32 "heading" "a" ∧ (∃ e, (parse 32 ("heading" ++ "/" ++ "a")).result = .ok e) ∧
      ∀ e, (parse 32 ("heading" ++ " " ++ "/" ++ "a")).result ≠ .ok e) ∧
    IsSeparator 32 "a" "parent::*" ∧
      ∃ e e', (parse 32 ("a" ++ "/" ++ "parent::*")).result = .ok e ∧
        (parse 32 ("a" ++ "/" ++ " " ++ "parent::*")).result = .ok e' ∧ e' ≠ e := by
  refine ⟨⟨by decide +kernel, ?_, fun e he => ?_⟩, by decide +kernel, ?_⟩
  · obtain ⟨e, he, -⟩ := exists_read (r := (parse 32 ("heading" ++ "/" ++ "a")).result)
      (q := fun _ => true) (by decide +kernel)
    exact ⟨e, he⟩
  · have hrefused : (parse 32 ("heading" ++ " " ++ "/" ++ "a")).result.isOk = false := by
      decide +kernel
    rw [he] at hrefused
    cases hrefused
  · obtain ⟨e, he, hone⟩ := exists_read (r := (parse 32 ("a" ++ "/" ++ "parent::*")).result)
      (q := (·.comparisons.length == 1)) (by decide +kernel)
    obtain ⟨e', he', htwo⟩ := exists_read
      (r := (parse 32 ("a" ++ "/" ++ " " ++ "parent::*")).result)
      (q := (·.comparisons.length == 2)) (by decide +kernel)
    refine ⟨e, e', he, he', ?_⟩
    rintro rfl
    exact absurd ((eq_of_beq hone).symm.trans (eq_of_beq htwo)) (by decide)

end OutlineQuery
