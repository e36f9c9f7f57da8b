import Mathlib.Data.List.Find
import OutlineQuery.Proofs.Discipline

/-! What the smallest parts of a query do to the state. They record nothing themselves, and those
that become tokens take up at least one character. -/

namespace OutlineQuery.Grammar
open Production Text

section
variable {s : State} {text : String} {kind : TokenKind}

@[simp] theorem rest_pass (s : State) (n : Nat) : (s.pass n).cursor.rest = s.cursor.rest.drop n :=
  Cursor.rest_advance n s.cursor

theorem pass_zero (s : State) : s.pass 0 = s := by
  simp only [State.pass, Cursor.advance]

theorem pass_pass (s : State) (m n : Nat) : (s.pass m).pass n = s.pass (m + n) := by
  simp [State.pass, Cursor.advance_advance]

theorem skip_run : skip text s =
    if text.toList.isPrefixOf s.cursor.rest then .ok true (s.pass text.length)
    else .ok false s := by
  simp only [skip, remaining_bind_run]
  split <;> rfl

theorem expect_run : expect text s =
    if text.toList.isPrefixOf s.cursor.rest then .ok () (s.pass text.length)
    else .error (.text text) s := by
  by_cases h : text.toList.isPrefixOf s.cursor.rest = true
  · rw [expect, bind_of_ok (a := true) (by rw [skip_run, if_pos h]), if_pos h]
    rfl
  · rw [expect, bind_of_ok (a := false) (by rw [skip_run, if_neg h]), if_neg h]
    rfl

/-- To give a word back is as good as not to pass it. -/
theorem word_run : word text kind s =
    if startsWithWord text s.cursor.rest then .ok true ((s.pass text.length).emit kind s.cursor)
    else .ok false s := by
  rw [startsWithWord]
  by_cases hfront : text.toList.isPrefixOf s.cursor.rest = true
  · have hskip : skip text s = .ok true (s.pass text.length) := by rw [skip_run, if_pos hfront]
    have hword : word text kind s =
        if ((s.pass text.length).cursor.rest.head?.any isRest) = true then
          .ok false ((s.pass text.length).restore s.snapshot)
        else .ok true ((s.pass text.length).emit kind s.cursor) := by
      simp only [word, snapshot_bind_run, here_bind_run, bind_of_ok hskip, if_true,
        remaining_bind_run]
      split <;> rfl
    rw [hword, (Grown.pass s text.length).restore, rest_pass, hfront, Bool.true_and]
    cases (s.cursor.rest.drop text.length).head?.any isRest <;> rfl
  · have hskip : skip text s = .ok false s := by rw [skip_run, if_neg hfront]
    rw [if_neg (by simp [hfront])]
    simp only [word, snapshot_bind_run, here_bind_run, bind_of_ok hskip]
    rfl

/-- A word is passed where it stands alone. -/
theorem word_eq : word text kind = (do
    if startsWithWord text (← remaining) then
      record kind (pass text.length)
      return true
    else return false) := by
  funext s
  rw [word_run, remaining_bind_run]
  split <;> rfl

theorem operator_run : operator text kind s =
    if text.toList.isPrefixOf s.cursor.rest then
      .ok true ((s.pass text.length).emit kind s.cursor)
    else .ok false s := by
  simp only [operator, remaining_bind_run]
  split <;> rfl

theorem skipBlanks_run :
    skipBlanks s = .ok () (s.pass (s.cursor.rest.takeWhile isBlank).length) :=
  rfl

/-- Items that are each read where a test tells so are tried up to the first of them. -/
theorem firstRead_run {α : Type} {read : α → Production Bool} {test : α → Bool} {after : α → State}
    {items : List α}
    (hread : ∀ a, read a s = if test a then .ok true (after a) else .ok false s) :
    firstRead read items s =
      match items.find? test with
      | some a => .ok (some a) (after a)
      | none => .ok none s := by
  induction items with
  | nil => rfl
  | cons a others ih =>
    have ha := hread a
    by_cases htest : test a = true
    · rw [if_pos htest] at ha
      rw [firstRead, bind_of_ok ha, List.find?_cons_of_pos htest]
      rfl
    · rw [if_neg htest] at ha
      rw [firstRead, bind_of_ok ha, List.find?_cons_of_neg htest]
      exact ih

theorem firstRead_of_none {α : Type} {read : α → Production Bool} {items : List α}
    (h : ∀ a ∈ items, read a s = .ok false s) : firstRead read items s = .ok none s := by
  induction items with
  | nil => rfl
  | cons a others ih =>
    rw [firstRead, bind_of_ok (h a List.mem_cons_self)]
    exact ih fun b hb => h b (List.mem_cons_of_mem a hb)

/-- Where each text of a table is the spelling of its value, the value that is read is the first one
whose spelling passes the test. -/
theorem firstRead_table {α : Type} {read : String → Production Bool} {test : String → Bool}
    {after : String → State} {table : List (String × α)} {spelling : α → String}
    (hspelled : ∀ entry ∈ table, entry.1 = spelling entry.2)
    (hread : ∀ text, read text s = if test text then .ok true (after text) else .ok false s) :
    firstRead (read ·.1) table s =
      match (table.map (·.2)).find? (test <| spelling ·) with
      | some a => .ok (some (spelling a, a)) (after (spelling a))
      | none => .ok none s := by
  have hfind : (table.map (·.2)).find? (test <| spelling ·) =
      (table.find? (test ·.1)).map (·.2) := by
    rw [List.find?_map]
    refine congrArg (Option.map _) (List.find?_congr fun entry hentry => ?_)
    exact congrArg test (hspelled entry hentry).symm
  rw [firstRead_run fun entry => hread entry.1, hfind]
  cases hfirst : table.find? (test ·.1) with
  | none => rfl
  | some entry =>
    have hentry : entry = (spelling entry.2, entry.2) :=
      Prod.ext (hspelled entry (List.mem_of_find?_eq_some hfirst)) rfl
    rw [hentry]
    rfl

theorem firstRead_table_bind {α β : Type} {read : String → Production Bool} {test : String → Bool}
    {after : String → State} {table : List (String × α)} {spelling : α → String}
    {f : Option (String × α) → Production β}
    (hspelled : ∀ entry ∈ table, entry.1 = spelling entry.2)
    (hread : ∀ text, read text s = if test text then .ok true (after text) else .ok false s) :
    (firstRead (read ·.1) table >>= f) s =
      match (table.map (·.2)).find? (test <| spelling ·) with
      | some a => f (some (spelling a, a)) (after (spelling a))
      | none => f none s := by
  have hfirst := firstRead_table hspelled hread
  cases hfind : (table.map (·.2)).find? (test <| spelling ·) with
  | some a =>
    rw [hfind] at hfirst
    exact bind_of_ok hfirst
  | none =>
    rw [hfind] at hfirst
    exact bind_of_ok hfirst

theorem spelled_words : ∀ entry ∈ wordRelations, entry.1 = entry.2.spelling := by decide

theorem spelled_operators : ∀ entry ∈ operatorRelations, entry.1 = entry.2.spelling := by decide

theorem spelled_axes : ∀ entry ∈ axisSpellings, entry.1 = entry.2.spelling := by decide

def relationAt? (text : List Char) : Option Relation :=
  (wordRelations.map (·.2)).find? (startsWithWord ·.spelling text) <|>
    (operatorRelations.map (·.2)).find? (·.spelling.toList.isPrefixOf text)

theorem relation_run : relation s =
    match relationAt? s.cursor.rest with
    | some r => .ok r ((s.pass r.spelling.length).emit .relation s.cursor)
    | none => .error .relation s := by
  rw [relation, relationAt?,
    firstRead_table_bind spelled_words fun text => @word_run s text .relation]
  cases (wordRelations.map (·.2)).find? (startsWithWord ·.spelling s.cursor.rest) with
  | some r => rfl
  | none =>
    dsimp only
    rw [firstRead_table_bind spelled_operators fun text => @operator_run s text .relation]
    cases (operatorRelations.map (·.2)).find? (·.spelling.toList.isPrefixOf s.cursor.rest) with
    | some r => rfl
    | none => rfl

/-- To try the relations one after another is to take the one that stands there. -/
theorem relation_eq : relation = (do
    match relationAt? (← remaining) with
    | some r =>
      record .relation (pass r.spelling.length)
      return r
    | none => fail .relation) := by
  funext s
  rw [relation_run, remaining_bind_run]
  cases relationAt? s.cursor.rest <;> rfl

def axisAt? (text : List Char) : Option Axis :=
  (axisSpellings.map (·.2)).find? (·.spelling.toList.isPrefixOf text)

theorem axis_run : axis s =
    match axisAt? s.cursor.rest with
    | some a => .ok a ((s.pass a.spelling.length).emit .axis s.cursor)
    | none => .error .axis s := by
  rw [axis, axisAt?, firstRead_table_bind spelled_axes fun text => @operator_run s text .axis]
  cases (axisSpellings.map (·.2)).find? (·.spelling.toList.isPrefixOf s.cursor.rest) with
  | some a => rfl
  | none => rfl

/-- To try the axes one after another is to take the one that stands there. -/
theorem axis_eq : axis = (do
    match axisAt? (← remaining) with
    | some a =>
      record .axis (pass a.spelling.length)
      return a
    | none => fail .axis) := by
  funext s
  rw [axis_run, remaining_bind_run]
  cases axisAt? s.cursor.rest <;> rfl

/-- What `expect` passes is what was expected. -/
theorem expect_ok {t : State} (h : expect text s = .ok () t) :
    s.cursor.rest.take text.length = text.toList ∧ t = s.pass text.length := by
  rw [expect_run] at h
  split at h
  · rename_i hp
    cases h
    refine ⟨?_, rfl⟩
    rw [← String.length_toList]
    exact (List.prefix_iff_eq_take.mp (List.isPrefixOf_iff_prefix.mp hp)).symm
  · cases h

/-- The name of an identifier is what is passed of the text. -/
theorem identifier_ok {t : State} {name : List Char} (h : identifier s = .ok name t) :
    s.cursor.rest.take name.length = name ∧ t = s.pass name.length := by
  simp only [identifier, remaining_bind_run] at h
  cases hrest : s.cursor.rest with
  | nil => simp [hrest] at h
  | cons c rest =>
    simp only [hrest] at h
    split at h
    · cases h
      refine ⟨?_, rfl⟩
      have hp : c :: rest.takeWhile isRest <+: c :: rest :=
        List.cons_prefix_cons.mpr ⟨rfl, List.takeWhile_prefix isRest⟩
      exact (List.prefix_iff_eq_take.mp hp).symm
    · cases h

end

theorem silent_skip (text : String) : (skip text).Silent := by
  refine silent_remaining.bind fun rest => ?_
  split
  · exact (silent_pass _).bind fun _ => .pure true
  · exact .pure false

theorem silent_expect (text : String) : (expect text).Silent := by
  refine (silent_skip text).bind fun found => ?_
  cases found with
  | true => exact .pure ()
  | false => exact .fail _

theorem silent_blanks : blanks.Silent :=
  silent_remaining.bind fun _ => (silent_pass _).bind fun _ => .pure _

theorem silent_skipBlanks : skipBlanks.Silent := silent_blanks.bind fun _ => .pure ()

theorem silent_identifier : identifier.Silent := by
  refine silent_remaining.bind fun rest => ?_
  cases rest with
  | nil => exact .fail _
  | cons c text =>
    dsimp only
    split
    · exact (silent_pass _).bind fun _ => .pure _
    · exact .fail _

theorem silent_quoted : quoted.Silent := by
  refine (silent_expect "\"").bind fun _ => silent_remaining.bind fun rest => ?_
  refine (silent_pass _).bind fun _ => ?_
  cases (quotedBody rest).2 with
  | ok text => exact .pure text
  | error reason => exact .fail reason

theorem silent_symbolOrIdentifier : symbolOrIdentifier.Silent := by
  refine silent_remaining.bind fun rest => ?_
  cases rest with
  | nil => exact silent_identifier
  | cons c text =>
    dsimp only
    split
    · exact (silent_pass 1).bind fun _ => .pure _
    · exact silent_identifier

theorem silent_unquoted : unquoted.Silent := by
  refine silent_remaining.bind fun rest => ?_
  split
  · exact .fail _
  · exact silent_symbolOrIdentifier

theorem silent_integer : integer.Silent := by
  refine (silent_skip "-").bind fun negative => silent_remaining.bind fun rest => ?_
  dsimp only
  split
  · exact .fail _
  · refine (silent_pass _).bind fun _ => ?_
    generalize (if negative = true then _ else _ : Int) = n
    split
    · exact .pure _
    · exact .fail _

theorem silent_attributeName : attributeName.Silent :=
  (silent_expect "@").bind fun _ => silent_identifier

theorem silent_bracketedLetter : bracketedLetter.Silent := by
  refine (silent_expect "[").bind fun _ => silent_remaining.bind fun rest => ?_
  cases rest with
  | nil => exact .fail _
  | cons c text =>
    dsimp only
    cases Modifier.ofLetter? c with
    | none => exact .fail _
    | some m => exact (silent_pass 1).bind fun _ => (silent_expect "]").bind fun _ => .pure m

theorem silent_indexSlice : indexSlice.Silent :=
  (silent_expect "[").bind fun _ => silent_integer.bind fun _ =>
    (silent_expect "]").bind fun _ => .pure _

theorem silent_atEnd : atEnd.Silent := silent_remaining.bind fun _ => .pure _

theorem silent_expectEnd : expectEnd.Silent := by
  refine silent_skipBlanks.bind fun _ => silent_atEnd.bind fun finished => ?_
  cases finished with
  | true => exact .pure ()
  | false => exact .fail _

theorem follows_grown_of_silent {α : Type} {p : Production α} (hp : p.Silent) :
    p.Follows Grown :=
  discipline_grown.silent hp

theorem rest_ne_nil_of_isPrefixOf {text : String} {rest : List Char} (ht : text ≠ "")
    (h : text.toList.isPrefixOf rest = true) : rest ≠ [] := by
  rintro rfl
  have hnil : text.toList = [] := by simpa using h
  exact ht (String.toList_eq_nil_iff.mp hnil)

theorem length_pos_of_ne_empty {text : String} (ht : text ≠ "") : 0 < text.length := by
  rw [← String.length_toList]
  exact List.length_pos_iff.mpr fun h => ht (String.toList_eq_nil_iff.mp h)

/-- A text that is skipped is passed. -/
theorem offset_lt_of_skip {text : String} (ht : text ≠ "") {s t : State}
    (h : skip text s = .ok true t) : s.cursor.offset < t.cursor.offset := by
  rw [skip_run] at h
  split at h
  · rename_i hp
    cases h
    exact Cursor.offset_lt_advance (length_pos_of_ne_empty ht) (rest_ne_nil_of_isPrefixOf ht hp)
  · cases h

theorem advances_expect {text : String} (ht : text ≠ "") : (expect text).Advances := by
  intro s a t h
  obtain ⟨found, u, hskip, hrest⟩ := bind_ok h
  cases found with
  | true =>
    cases hrest
    exact offset_lt_of_skip ht hskip
  | false => cases hrest

theorem advances_identifier : identifier.Advances := by
  intro s a t h
  simp only [identifier, remaining_bind_run] at h
  cases hrest : s.cursor.rest with
  | nil => simp [hrest] at h
  | cons c text =>
    simp only [hrest] at h
    split at h
    · cases h
      exact Cursor.offset_lt_advance (by simp) (by simp [hrest])
    · cases h

theorem advances_quoted : quoted.Advances := by
  refine (advances_expect (by decide)).bind_first fun _ => follows_grown_of_silent ?_
  refine silent_remaining.bind fun rest => (silent_pass _).bind fun _ => ?_
  cases (quotedBody rest).2 with
  | ok text => exact .pure text
  | error reason => exact .fail reason

theorem advances_symbolOrIdentifier : symbolOrIdentifier.Advances := by
  intro s a t h
  simp only [symbolOrIdentifier, remaining_bind_run] at h
  cases hrest : s.cursor.rest with
  | nil =>
    simp only [hrest] at h
    exact advances_identifier s a t h
  | cons c text =>
    simp only [hrest] at h
    split at h
    · cases h
      exact Cursor.offset_lt_advance (by simp) (by simp [hrest])
    · exact advances_identifier s a t h

theorem advances_unquoted : unquoted.Advances := by
  refine Advances.bind_next (follows_grown_of_silent silent_remaining) fun rest => ?_
  split
  · exact .fail _
  · exact advances_symbolOrIdentifier

theorem advances_attributeName : attributeName.Advances :=
  (advances_expect (by decide)).bind_first fun _ => follows_grown_of_silent silent_identifier

theorem advances_bracketedLetter : bracketedLetter.Advances := by
  refine (advances_expect (by decide)).bind_first fun _ => follows_grown_of_silent ?_
  refine silent_remaining.bind fun rest => ?_
  cases rest with
  | nil => exact .fail _
  | cons c text =>
    dsimp only
    cases Modifier.ofLetter? c with
    | none => exact .fail _
    | some m => exact (silent_pass 1).bind fun _ => (silent_expect "]").bind fun _ => .pure m

/-- Recording a token does not change how far a production goes. -/
theorem advances_record {α : Type} {p : Production α} (kind : TokenKind) (hp : p.Advances) :
    (record kind p).Advances := by
  intro s a t h
  obtain ⟨u, hu, rfl⟩ := record_ok h
  exact hp s a u hu

theorem advances_string : string.Advances := by
  refine Advances.bind_next (follows_grown_of_silent silent_remaining) fun rest => ?_
  split
  · exact advances_record _ advances_quoted
  · exact advances_record _ advances_unquoted

end OutlineQuery.Grammar
