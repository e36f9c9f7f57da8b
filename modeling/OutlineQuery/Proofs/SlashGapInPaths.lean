import OutlineQuery.Proofs.Leading
import OutlineQuery.Proofs.SlashGap

/-! Every production comes to the same from a query with a slash and from the query with blanks
beside the slash. Only a path goes on across the slash; it does so from a place where the blanks
before it have been passed, and what follows the slash passes the blanks behind it. -/

namespace OutlineQuery
open Grammar Production Text

namespace SpacedSlash
variable {S : SpacedSlash}

def Opens (S : SpacedSlash) (text : List Char) : Prop :=
  ∃ before, S.before = before ++ text ∧ PathMayStart before

theorem Opens.dropWhile {text : List Char} (h : S.Opens text) :
    S.Opens (text.dropWhile isBlank) := by
  obtain ⟨before, hbefore, head, gap, rfl, hgap, hhead⟩ := h
  refine ⟨head ++ (gap ++ text.takeWhile isBlank), ?_, head, _, rfl, fun c hc => ?_, hhead⟩
  · simp only [hbefore, List.append_assoc, List.takeWhile_append_dropWhile]
  · obtain hc | hc := List.mem_append.mp hc
    · exact hgap c hc
    · exact List.all_eq_true.mp List.all_takeWhile c hc

theorem opens_behind {mark : String} (hmark : mark ∈ ["(", "union", "except", "intersect"])
    {rest : List Char} (h : mark.toList ++ rest <:+ S.before) : S.Opens rest := by
  obtain ⟨before, hbefore⟩ := h
  refine ⟨before ++ mark.toList, ?_, before ++ mark.toList, [], ?_, nofun, .inr ⟨mark, hmark, ?_⟩⟩
  · rw [← hbefore, List.append_assoc]
  · rw [List.append_nil]
  · exact List.suffix_append before mark.toList

def Starts (S : SpacedSlash) (text : List Char) : Prop :=
  ∃ before, S.before = before ++ text ∧ StepMayStart before

theorem Opens.starts {text : List Char} (h : S.Opens text) : S.Starts text := by
  obtain ⟨before, hbefore, hstart⟩ := h
  exact ⟨before, hbefore, .inl hstart⟩

theorem starts_behind_slash {rest : List Char} (h : '/' :: rest <:+ S.before) : S.Starts rest := by
  obtain ⟨before, hbefore⟩ := h
  refine ⟨before ++ ['/'], ?_, .inr (List.suffix_append before ['/'])⟩
  rw [← hbefore, List.append_assoc, List.singleton_append]

structure Keeps (S : SpacedSlash) (inner : Inner) : Prop where
  predicate : Agrees (S.Beside Anywhere) inner.predicate fun _ => S.Beside Anywhere
  argument : Agrees (S.Beside S.Opens) inner.argument fun _ => S.Beside Anywhere

theorem Keeps.follows {inner : Inner} (h : S.Keeps inner) : inner.Follows Grown :=
  ⟨h.predicate.grows, h.argument.grows⟩

abbrev Holds (S : SpacedSlash) {α : Type} (p : Production α) : Prop :=
  Agrees (S.Beside Anywhere) p fun _ => S.Beside Anywhere

theorem holds_skipBlanks : S.Holds skipBlanks :=
  (agrees_blanks fun _ _ => trivial).relax fun _ _ _ h => h.anywhere

theorem holds_pure {α : Type} (a : α) : S.Holds (Pure.pure a : Production α) :=
  .pure fun _ _ h => h

theorem Holds.attemptOr {α : Type} {p : Production α} (default : α) (hp : S.Holds p) :
    S.Holds (attemptOr default p) :=
  Agrees.attemptOr default hp fun _ _ h => h

theorem Holds.alternative {α β : Type} {p : Production α} {f : Option α → Production β}
    (hp : S.Holds p) (hsome : ∀ a, S.Holds (f (some a))) (hnone : S.Holds (f none)) :
    S.Holds (attempt p >>= f) :=
  Agrees.alternative hp hsome hnone

theorem holds_expect {word : String} (hword : IsSolid word.toList) : S.Holds (expect word) :=
  agrees_expect hword fun _ _ _ => trivial

theorem holds_word {word : String} {kind : TokenKind} (hne : word ≠ "") (hkind : kind ≠ .comparison)
    (hword : IsSolid word.toList) : S.Holds (Grammar.word word kind) :=
  agrees_word hne hkind hword (fun _ _ _ => trivial) fun _ _ => trivial

/-- An operator between the operands leads to a place where an operand may start, and behind the
last of them the blanks are passed. -/
theorem agrees_wordChain {α : Type} {operand : Production α} {combine : α → α → α} {word : String}
    {kind : TokenKind} {P : List Char → Prop} (hne : word ≠ "") (hkind : kind ≠ .comparison)
    (hword : IsSolid word.toList) (hdrop : ∀ text, P text → P (text.dropWhile isBlank))
    (hbehind : ∀ rest, word.toList ++ rest <:+ S.before → P rest)
    (hp : Agrees (S.Beside P) operand fun _ => S.Beside Anywhere) :
    Agrees (S.Around P) (chain operand (Grammar.word word kind) combine)
      fun _ => S.Beside S.Ahead := by
  have hskip : Agrees (S.Around P) skipBlanks fun _ => S.Beside P :=
    (agrees_skipBlanks hdrop).relax fun _ _ _ h => h.mono fun _ hboth => hboth.1
  have hnext : Agrees (S.Beside Anywhere) skipBlanks fun _ => S.Beside S.Ahead :=
    (agrees_blanks fun _ _ => trivial).relax fun _ _ _ h => h.mono fun _ hboth => hboth.2
  have hoperator : Agrees (S.Beside S.Ahead) (Grammar.word word kind) fun found =>
      S.Beside (if found then P else S.Ahead) :=
    agrees_word (Q := fun found => if found then P else S.Ahead) hne hkind hword
      (fun rest hplace _ => hbehind rest hplace) fun _ h => h
  exact .chain (consumes_nextOperand hne hp.grows) hskip hp hnext hoperator
    (hskip.narrow fun _ _ => .inl)

theorem holds_literal : S.Holds literal := by
  have hpiece : Agrees (S.Beside Anywhere) nextPiece fun found =>
      found.elim (S.Beside Anywhere) fun _ => S.Beside Anywhere := agrees_piece.attempt
  exact agrees_string.bind fun _ => (Agrees.many consumes_nextPiece hpiece).map _

theorem holds_attributeValue : S.Holds attributeValue := by
  have hname : S.Holds attributeName :=
    (holds_expect (by decide)).bind fun _ => agrees_identifier
  exact (hname.record _).map _

theorem holds_value : S.Holds value :=
  Holds.alternative holds_attributeValue (fun v => holds_pure v) holds_literal

theorem holds_relationBehind : S.Holds relationBehind :=
  Holds.attemptOr _ (holds_skipBlanks.bind fun _ => agrees_relation)

theorem holds_modifier : S.Holds modifier :=
  agrees_bracketedLetter.record _

theorem holds_modifierBehind : S.Holds modifierBehind :=
  Holds.attemptOr _ (holds_skipBlanks.bind fun _ => holds_modifier)

theorem holds_loneValue : S.Holds loneValue := by
  refine holds_value.bind fun v => holds_modifierBehind.bind fun m => ?_
  cases v <;> exact holds_pure _

section
variable {inner : Inner} (hi : S.Keeps inner)
include hi

theorem holds_function : S.Holds (function inner) := by
  refine (agrees_identifier.record _).bind fun name => ?_
  have hopen : Agrees (S.Beside Anywhere) (expect "(") fun _ => S.Beside S.Opens :=
    agrees_expect (by decide) fun _ hplace _ => opens_behind (by decide) hplace
  exact hopen.bind fun _ => hi.argument.bind fun _ => (holds_expect (by decide)).map _

theorem holds_operand : S.Holds (operand inner) :=
  Holds.alternative (holds_function hi) (fun _ => holds_pure _) holds_value

theorem holds_fullComparison : S.Holds (fullComparison inner) :=
  (holds_operand hi).bind fun _ => holds_relationBehind.bind fun _ => holds_modifierBehind.bind
    fun _ => holds_skipBlanks.bind fun _ => (holds_operand hi).map _

theorem holds_textComparison : S.Holds (textComparison inner) :=
  (Holds.attemptOr _ agrees_relation).bind fun _ => holds_skipBlanks.bind fun _ =>
    (Holds.attemptOr _ holds_modifier).bind fun _ => holds_skipBlanks.bind fun _ =>
      (holds_operand hi).map _

theorem holds_starOrComparison : S.Holds (starOrComparison inner) := by
  have hstar : S.Holds (skip "*") :=
    agrees_skip (by decide) (fun _ _ _ => trivial) fun _ _ => trivial
  refine hstar.bind fun found => ?_
  cases found with
  | true => exact holds_pure _
  | false =>
    have hforms : ∀ form ∈ [fullComparison inner, loneValue, textComparison inner],
        S.Holds form := by
      simp only [List.mem_cons, List.not_mem_nil, or_false]
      rintro form (rfl | rfl | rfl)
      · exact holds_fullComparison hi
      · exact holds_loneValue
      · exact holds_textComparison hi
    refine (Agrees.firstOf hforms).bind fun found => ?_
    cases found with
    | some p => exact holds_pure p
    | none => exact .fail _

theorem holds_comparison : S.Holds (comparison inner) := by
  have hspaced : S.Holds (spacedComparison inner) :=
    holds_skipBlanks.bind fun _ => (holds_starOrComparison hi).record _
  exact Holds.alternative hspaced (fun p => holds_pure p) (.fail _)

theorem holds_term : S.Holds (term inner) := by
  have hopen : S.Holds (skip "(") :=
    agrees_skip (by decide) (fun _ _ _ => trivial) fun _ _ => trivial
  refine holds_skipBlanks.bind fun _ => hopen.bind fun found => ?_
  cases found with
  | true =>
    exact hi.predicate.bind fun _ => holds_skipBlanks.bind fun _ =>
      (holds_expect (by decide)).map _
  | false => exact holds_comparison hi

theorem holds_negation : S.Holds (negation inner) := by
  have hnot : Agrees (S.Beside Anywhere) nextNot fun found =>
      found.elim (S.Beside Anywhere) fun _ => S.Beside Anywhere := by
    refine holds_skipBlanks.bind fun _ => ?_
    refine (holds_word (by decide) (by decide) (by decide)).bind fun found => ?_
    cases found with
    | true => exact .pure fun _ _ h => h
    | false => exact .pure fun _ _ h => h
  exact (Agrees.many consumes_nextNot hnot).bind fun _ => holds_skipBlanks.bind fun _ =>
    (holds_term hi).map _

theorem agrees_conjunction :
    Agrees (S.Around Anywhere) (conjunction inner) fun _ => S.Beside S.Ahead :=
  agrees_wordChain (by decide) (by decide) (by decide) (fun _ h => h) (fun _ _ => trivial)
    (holds_negation hi)

theorem agrees_disjunction :
    Agrees (S.Around Anywhere) (disjunction inner) fun _ => S.Beside S.Ahead :=
  agrees_wordChain (by decide) (by decide) (by decide) (fun _ h => h) (fun _ _ => trivial)
    ((agrees_conjunction hi).mono (fun _ _ => .inl) fun _ _ _ h => h.anywhere)

end

def Loose (S : SpacedSlash) (text : List Char) : Prop :=
  text = "heading".toList → S.gapBehind = true

def Fresh (S : SpacedSlash) (text : List Char) : Prop := text ≠ [] ∧ S.Starts text

/-- With its axis or without, what is no more than a type ends tight. -/
theorem Starts.loose {axis rest : List Char} (h : S.Starts (axis ++ rest))
    (haxis : axis = [] ∨ ∃ a : Axis, axis = a.spelling.toList) : S.Loose rest := by
  rintro rfl
  obtain ⟨before, hbefore, hstart⟩ := h
  by_contra hgap
  refine S.loose (Bool.eq_false_iff.mpr hgap) (.inr ⟨before, axis, ?_, hstart, haxis⟩)
  rw [hbefore, List.append_assoc]

theorem isPrefixOf_blank {word : List Char} (hword : word.head?.any (!isBlank ·) = true) {c : Char}
    (hc : isBlank c = true) (text : List Char) : word.isPrefixOf (c :: text) = false := by
  cases word with
  | nil => cases hword
  | cons d word =>
    refine isPrefixOf_cons_false (fun hhead => ?_) word
    obtain rfl := Option.some.inj hhead
    simp [hc] at hword

/-- Neither an axis nor a type starts with a blank. -/
theorem not_opensTight_blank {c : Char} (hc : isBlank c = true) (text : List Char) :
    ¬OpensTight (c :: text) := by
  have hspelling (a : Axis) : a.spelling.toList.head?.any (!isBlank ·) = true := by
    cases a <;> decide
  rintro (haxis | hheading)
  · refine haxis (List.find?_eq_none.mpr fun a _ => ?_)
    rw [isPrefixOf_blank (hspelling a) hc]
    exact Bool.false_ne_true
  · rw [startsWithWord, isPrefixOf_blank (by decide) hc] at hheading
    cases hheading

theorem Turned.not_opensTight {text text' : List Char} (h : S.Turned text text') :
    ¬OpensTight text ∧ ¬OpensTight text' := by
  obtain ⟨hgap, rfl, rfl⟩ := h
  refine ⟨S.opens hgap, ?_⟩
  cases hblanks : S.gap with
  | nil => exact S.opens hgap
  | cons c gap => exact not_opensTight_blank (S.blank c (by simp [hblanks])).1 _

theorem refuses_axis_loose {text : List Char} (h : ¬OpensTight text) (depth : Nat) :
    Refuses axis depth text :=
  refuses_axis (of_not_not fun haxis => h (.inl haxis))

theorem refuses_headingType_loose {text : List Char} (h : ¬OpensTight text) (depth : Nat) :
    Refuses headingType depth text :=
  refuses_headingType (Bool.eq_false_iff.mpr fun hheading => h (.inr hheading))

theorem agrees_stepAxis :
    Agrees (S.Around S.Fresh) (attemptOr Axis.child axis) fun _ => S.Around S.Loose := by
  have hspelled : Agrees (S.Beside S.Fresh) axis fun _ => S.Around S.Loose :=
    (agrees_axis fun _ h => h.1).relax
      fun a _ _ h => .inl (h.mono fun _ hfresh => hfresh.2.loose (.inr ⟨a, rfl⟩))
  have hnone : Agrees S.Turned axis fun _ => S.Around S.Loose :=
    ⟨discipline_grown.follows_axis, fun h => .refuses (refuses_axis_loose h.not_opensTight.1 _)
      (refuses_axis_loose h.not_opensTight.2 _)⟩
  refine Agrees.attemptOr _ (hspelled.or hnone) fun text text' htext => ?_
  exact htext.imp_left fun h =>
    h.mono fun rest hfresh => @Starts.loose S [] rest hfresh.2 (.inl rfl)

theorem agrees_headingType :
    Agrees (S.Around S.Loose) headingType fun _ => S.Beside S.Ahead := by
  have hword : Agrees (S.Beside S.Loose) headingType fun _ => S.Beside S.Ahead := by
    refine (agrees_word (Q := fun found => if found then S.Ahead else Anywhere) (by decide)
      (by decide) (by decide) (fun rest _ h => ?_) fun _ _ => trivial).bind fun found => ?_
    · rintro rfl
      exact h (List.append_nil _)
    · cases found with
      | true => exact .pure fun _ _ h => h
      | false => exact .fail _
  have hnone : Agrees S.Turned headingType fun _ => S.Beside S.Ahead :=
    ⟨discipline_grown.follows_headingType, fun h =>
      .refuses (refuses_headingType_loose h.not_opensTight.1 _)
        (refuses_headingType_loose h.not_opensTight.2 _)⟩
  exact hword.or hnone

section
variable {inner : Inner} (hi : S.Keeps inner)
include hi

theorem agrees_stepTest :
    Agrees (S.Around S.Loose) (stepTest inner) fun _ => S.Beside S.Ahead := by
  have htests : ∀ test ∈ [headingTest inner, bareHeading, predicateTest inner],
      Agrees (S.Around S.Loose) test fun _ => S.Beside S.Ahead := by
    simp only [List.mem_cons, List.not_mem_nil, or_false]
    rintro test (rfl | rfl | rfl)
    · exact agrees_headingType.bind fun _ =>
        ((agrees_disjunction hi).narrow fun _ _ h => .inl h.anywhere).map _
    · exact agrees_headingType.map _
    · exact ((agrees_disjunction hi).narrow fun _ _ h => h.imp_left (·.anywhere)).map _
  refine (Agrees.firstOf htests).bind fun found => ?_
  cases found with
  | some test => exact .pure fun _ _ h => h
  | none => exact .fail _

theorem agrees_step : Agrees (S.Around S.Fresh) (step inner) fun _ => S.Beside S.Ahead := by
  refine agrees_stepAxis.bind fun a => (agrees_stepTest hi).bind fun test => ?_
  refine .remaining_bind (fun text text' htext => ?_) fun text => ?_
  · rw [htext.isPrefixOf_eq (List.forall_mem_singleton.mpr rfl)]
  · split
    · exact (agrees_slice.narrow fun _ _ h => h.anywhere).map _
    · exact .pure fun _ _ h => h

theorem agrees_nextStep : Agrees (S.Beside S.Ahead) (nextStep inner) fun found =>
    found.elim (S.Beside S.Ahead) fun _ => S.Beside S.Ahead := by
  have hslash := agrees_slash (P := S.Ahead) (fun _ h => h)
    fun _ hplace _ => starts_behind_slash hplace
  refine hslash.bind fun found => ?_
  cases found with
  | true => exact (agrees_step hi).bind fun _ => .pure fun _ _ h => h
  | false => exact .pure fun _ _ h => h.mono fun _ hboth => hboth.2

theorem agrees_path : Agrees (S.Beside fun text => S.Opens text ∧ S.Ahead text) (path inner)
    fun _ => S.Beside S.Ahead := by
  have hslash := agrees_slash (P := fun text => S.Opens text ∧ S.Ahead text) (fun _ h => h.2)
    fun _ hplace _ => starts_behind_slash hplace
  have hfirst : Agrees (S.Beside fun text => S.Opens text ∧ S.Ahead text) (operator "/" .axis)
      fun _ => S.Around S.Fresh := by
    refine hslash.relax fun absolute text text' htext => ?_
    cases absolute with
    | true => exact htext
    | false => exact .inl (Beside.mono htext fun _ hall => ⟨hall.1, hall.2.1.starts⟩)
  exact hfirst.bind fun _ => (agrees_step hi).bind fun _ =>
    (Agrees.many (consumes_nextStep hi.follows) (agrees_nextStep hi)).map _

theorem agrees_pathOperand :
    Agrees (S.Beside S.Opens) (pathOperand inner) fun _ => S.Beside Anywhere :=
  (agrees_blanks fun _ h => h.dropWhile).bind fun _ =>
    ((agrees_path hi).relax fun _ _ _ h => h.anywhere).map _

theorem agrees_union : Agrees (S.Beside S.Opens) (union inner) fun _ => S.Beside Anywhere := by
  have hintersect : Agrees (S.Beside S.Opens) (intersection inner) fun _ => S.Beside Anywhere :=
    (agrees_wordChain (by decide) (by decide) (by decide) (fun _ h => h.dropWhile)
      (fun _ => opens_behind (by decide)) (agrees_pathOperand hi)).mono (fun _ _ => .inl)
      fun _ _ _ h => h.anywhere
  have hexcept : Agrees (S.Beside S.Opens) (exception inner) fun _ => S.Beside Anywhere :=
    (agrees_wordChain (by decide) (by decide) (by decide) (fun _ h => h.dropWhile)
      (fun _ => opens_behind (by decide)) hintersect).mono (fun _ _ => .inl)
      fun _ _ _ h => h.anywhere
  exact (agrees_wordChain (by decide) (by decide) (by decide) (fun _ h => h.dropWhile)
    (fun _ => opens_behind (by decide)) hexcept).mono (fun _ _ => .inl)
    fun _ _ _ h => h.anywhere

end

/-- By the levels of nesting that are left. -/
theorem agrees_levels (S : SpacedSlash) (limit levels : Nat) :
    Agrees (S.Beside S.Opens) (location limit levels) (fun _ => S.Beside Anywhere) ∧
      S.Keeps (innerAt limit levels) := by
  induction levels with
  | zero =>
    rw [location_zero, innerAt_zero]
    exact ⟨.fail _, .fail _, .fail _⟩
  | succ levels ih =>
    obtain ⟨hlocation, hinner⟩ := ih
    rw [location_eq_union, innerAt_succ]
    refine ⟨.nested limit (agrees_union hinner), .nested limit ?_, .nested limit hlocation⟩
    exact (agrees_disjunction hinner).mono (fun _ _ => .inl) fun _ _ _ h => h.anywhere

theorem agrees_expectEnd : S.Holds expectEnd := by
  have hend : S.Holds atEnd := by
    refine ⟨discipline_grown.bind discipline_grown.remaining fun _ => discipline_grown.pure _,
      fun {depth text text'} htext => ?_⟩
    cases htext with
    | same =>
      have hread : Reads atEnd depth text text.isEmpty text := reads_remaining.bind (.pure _)
      exact .reads hread hread (.same text)
    | @apart text hplace hwhole htext =>
      have hread (more : List Char) (hmore : Stops more) :
          Reads atEnd depth (text ++ more) false (text ++ more) := by
        obtain ⟨c, rest, rfl, -⟩ := hmore
        have hfull : (text ++ c :: rest).isEmpty = false := by simp
        exact reads_remaining.bind (hfull ▸ .pure _)
      exact .reads (hread _ S.stops_plain) (hread _ S.stops_spaced) (.apart hplace hwhole htext)
  refine holds_skipBlanks.bind fun _ => hend.bind fun finished => ?_
  cases finished with
  | true => exact holds_pure ()
  | false => exact .fail _

/-- The whole query comes to the same. -/
theorem agrees_expression (S : SpacedSlash) (limit : Nat) :
    Agrees (S.Beside S.Opens) (expression limit) fun _ => S.Beside Anywhere := by
  obtain ⟨hlocation, hinner⟩ := agrees_levels S limit limit
  have hcall : Agrees (S.Beside S.Opens) (wholeCall limit) fun _ => S.Beside Anywhere := by
    refine Agrees.narrow (D := S.Beside Anywhere) ?_ fun _ _ h => h.anywhere
    exact holds_skipBlanks.bind fun _ => (holds_function hinner).bind fun _ =>
      agrees_expectEnd.map _
  have hblanks : Agrees (S.Beside S.Opens) skipBlanks fun _ => S.Beside S.Opens :=
    (agrees_blanks fun _ h => h.dropWhile).relax fun _ _ _ h => h.mono fun _ hboth => hboth.1
  have hwhole : Agrees (S.Beside S.Opens) (wholeLocation limit) fun _ => S.Beside Anywhere :=
    hblanks.bind fun _ => hlocation
  refine hcall.alternative (fun f => holds_pure _) ?_
  exact hwhole.alternative (fun l => agrees_expectEnd.map _) (.fail _)

end SpacedSlash
end OutlineQuery
