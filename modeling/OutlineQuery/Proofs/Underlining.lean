import OutlineQuery.Diagnostic.Format
import OutlineQuery.Proofs.FailureReports

/-! Diagnostics written for people end in the source line and carets below it. The carets stand
below the place as long as the number of the line fits in front of it. -/

namespace OutlineQuery
open Text

namespace Diagnostic

/-- The upper row ends in the line, and the lower one in so many carets, the first of them under the
character of the line at this column. -/
def Underlined (line : List Char) (column carets : Nat) (source marks : List Char) : Prop :=
  ∃ gutter blank, source = gutter ++ line ∧ marks = blank ++ List.replicate carets '^' ∧
    '^' ∉ blank ∧ blank.length = gutter.length + column

structure Span.CoveredBy (span : Span) (length carets : Nat) : Prop where
  within : span.start.line = span.stop.line → span.start.column < span.stop.column →
    span.start.column + carets = span.stop.column
  empty : span.start = span.stop → carets = 1
  toEnd : span.start.line ≠ span.stop.line → span.start.column < length →
    span.start.column + carets = length

def IsWritten (d : Diagnostic) (showCode : Bool) (source marks : List Char) : Prop :=
  ∃ title place, (d.format .text showCode).toList.splitOn '\n' = [title, place, source, marks, []]

theorem toList_pushn (c : Char) (n : Nat) : ("".pushn c n).toList = List.replicate n c := by
  rw [String.pushn_eq_repeat_push]
  induction n with
  | zero => rfl
  | succ n ih => rw [Nat.repeat, String.toList_push, ih, List.replicate_succ']

theorem lineFeed_not_mem_digits (n : Nat) : '\n' ∉ Nat.toDigits 10 n := by
  intro hmem
  have hdigit := Nat.isDigit_of_mem_toDigits (by decide) (by decide) hmem
  exact absurd hdigit (by decide)

/-- Four columns are enough for numbers below ten thousand. -/
theorem length_lineNumber (line : Nat) : (lineNumber line).length = 4 ↔ line + 1 < 10000 := by
  have hdigits : (toString (line + 1)).length ≤ 4 ↔ line + 1 < 10000 := by
    rw [Nat.toString_eq_ofList_toDigits, String.length_ofList]
    exact Nat.length_toDigits_le_iff (by decide) (by decide)
  have hlength : (lineNumber line).length =
      4 - (toString (line + 1)).length + (toString (line + 1)).length := by
    rw [lineNumber, String.length_append, String.length_pushn]
    simp
  rw [hlength, ← hdigits]
  omega

theorem coveredBy_underlineWidth (span : Span) (line : String) :
    span.CoveredBy line.length (underlineWidth span line) where
  within hline hlt := by
    rw [underlineWidth, if_pos hline]
    omega
  empty h := by
    rw [underlineWidth, h, if_pos rfl, Nat.sub_self]
    rfl
  toEnd hline hlt := by
    rw [underlineWidth, if_neg hline]
    omega

theorem lineFeed_not_mem_place (p : Place) : '\n' ∉ p.text.toList := by
  simp [Place.text, lineFeed_not_mem_digits]

theorem lineFeed_not_mem_span (span : Span) : '\n' ∉ span.text.toList := by
  rw [Span.text]
  split
  · exact lineFeed_not_mem_place span.start
  · split
    · simp [lineFeed_not_mem_place, lineFeed_not_mem_digits]
    · simp [lineFeed_not_mem_place]

def gutter (line : Nat) : List Char := (lineNumber line).toList ++ [' ', '|', ' ']

def blank (column : Nat) : List Char :=
  [' ', ' ', ' ', ' ', ' ', '|', ' '] ++ List.replicate column ' '

theorem lineFeed_not_mem_gutter (line : Nat) : '\n' ∉ gutter line := by
  simp [gutter, lineNumber, toList_pushn, lineFeed_not_mem_digits]

theorem not_mem_blank {c : Char} (hc : c ∉ [' ', '|']) (column : Nat) : c ∉ blank column := by
  simp only [List.mem_cons, List.not_mem_nil, or_false, not_or] at hc
  simp [blank, hc]

theorem toList_excerpt (span : Span) (line : String) : (excerpt span line).toList =
    gutter span.start.line ++ line.toList ++ '\n' :: (blank span.start.column ++
      List.replicate (underlineWidth span line) '^' ++ ['\n']) := by
  simp [excerpt, gutter, blank, toList_pushn]

def title (d : Diagnostic) (showCode : Bool) : String :=
  d.severity.name ++ ": " ++ d.message ++ if showCode then " [" ++ d.code.number ++ "]" else ""

theorem lineFeed_not_mem_title {d : Diagnostic} (h : '\n' ∉ d.message.toList) (showCode : Bool) :
    '\n' ∉ (d.title showCode).toList := by
  have hseverity : '\n' ∉ d.severity.name.toList := by cases d.severity <;> decide
  have hcode : '\n' ∉ d.code.number.toList := by cases d.code <;> decide
  cases showCode <;> simp [title, h, hseverity, hcode]

theorem isWritten_rows {d : Diagnostic} {line : String}
    (hsource : d.location.sourceText = some line)
    (hmessage : '\n' ∉ d.message.toList) (hline : '\n' ∉ line.toList) (showCode : Bool) :
    d.IsWritten showCode (gutter d.location.span.start.line ++ line.toList)
      (blank d.location.span.start.column ++
        List.replicate (underlineWidth d.location.span line) '^') := by
  have htitle := lineFeed_not_mem_title hmessage showCode
  have hplace : '\n' ∉ (" --> " ++ d.location.span.text).toList := by
    simp [lineFeed_not_mem_span]
  have hshown : '\n' ∉ gutter d.location.span.start.line ++ line.toList := by
    simp [lineFeed_not_mem_gutter, hline]
  have hmarks : '\n' ∉ blank d.location.span.start.column ++
      List.replicate (underlineWidth d.location.span line) '^' := by
    simp [not_mem_blank]
  have hrows : (d.format .text showCode).toList = (d.title showCode).toList ++
      '\n' :: ((" --> " ++ d.location.span.text).toList ++ '\n' ::
        (excerpt d.location.span line).toList) := by
    simp [format, formatText, title, hsource]
  refine ⟨(d.title showCode).toList, (" --> " ++ d.location.span.text).toList, ?_⟩
  rw [hrows, List.splitOn_append_cons_self_of_not_mem htitle,
    List.splitOn_append_cons_self_of_not_mem hplace, toList_excerpt,
    List.splitOn_append_cons_self_of_not_mem hshown,
    List.splitOn_append_cons_self_of_not_mem hmarks, List.splitOn_nil]

theorem underlined_iff {line gutter blank : List Char} (hblank : '^' ∉ blank)
    {column carets : Nat} :
    Underlined line column carets (gutter ++ line) (blank ++ List.replicate carets '^') ↔
      blank.length = gutter.length + column := by
  constructor
  · rintro ⟨gutter', blank', hsource, hmarks, -, hlength⟩
    rw [List.append_cancel_right hsource, List.append_cancel_right hmarks, hlength]
  · intro hlength
    exact ⟨gutter, blank, rfl, rfl, hblank, hlength⟩

/-- The right part of a line is underlined where it should be if and only if the number of the line
has no more than four digits. -/
theorem underlined_rows (left right : List Char) (row column carets : Nat) :
    Underlined right column carets (gutter row ++ (left ++ right))
      (blank (left.length + column) ++ List.replicate carets '^') ↔ row + 1 < 10000 := by
  rw [← List.append_assoc, underlined_iff (not_mem_blank (by decide) _), ← length_lineNumber]
  simp only [blank, gutter, List.length_append, List.length_replicate, String.length_toList,
    List.length_cons, List.length_nil]
  omega

theorem count_carets (column carets : Nat) :
    (blank column ++ List.replicate carets '^').count '^' = carets := by
  rw [List.count_append, List.count_eq_zero.mpr (not_mem_blank (by decide) column),
    List.count_replicate_self, Nat.zero_add]

/-- Where the line has two parts, the carets are told by the second one. -/
theorem exists_rows {d : Diagnostic} {line : String} (hsource : d.location.sourceText = some line)
    (hmessage : '\n' ∉ d.message.toList) (hline : '\n' ∉ line.toList) (showCode : Bool)
    {left right : List Char} {column : Nat} (hsplit : line.toList = left ++ right)
    (hcolumn : d.location.span.start.column = left.length + column) : ∃ source marks,
      d.IsWritten showCode source marks ∧
      marks.count '^' = underlineWidth d.location.span line ∧
      (Underlined right column (underlineWidth d.location.span line) source marks ↔
        d.location.span.start.line + 1 < 10000) := by
  refine ⟨_, _, isWritten_rows hsource hmessage hline showCode, count_carets _ _, ?_⟩
  rw [hsplit, hcolumn]
  exact underlined_rows left right _ _ _

end Diagnostic

open Diagnostic Grammar Production

/-- The caret stands under what comes next in the line. -/
theorem ParseError.underlined_ofState {reason : Reason} {s : State} (h : s.cursor.Coherent)
    (hmessage : '\n' ∉ reason.message.toList) (showCode : Bool) : ∃ source marks,
      (ofState reason s).toDiagnostic.IsWritten showCode source marks ∧ marks.count '^' = 1 ∧
      (Underlined (s.cursor.rest.takeWhile (· ≠ '\n')) 0 1 source marks ↔
        s.cursor.position.line < 10000) := by
  have hrow : s.cursor.position.line - 1 + 1 = s.cursor.position.line := by
    rw [h.behind.line, Nat.add_sub_cancel_left, Nat.add_comm]
  have hcolumn : s.cursor.position.column =
      (s.cursor.seen.takeWhile (· ≠ '\n')).reverse.length + 0 := by
    rw [h.behind.column, List.reverse_reverse, List.length_reverse, Nat.add_zero]
  have hsplit : (ofState reason s).lineText.toList =
      (s.cursor.seen.takeWhile (· ≠ '\n')).reverse ++ s.cursor.rest.takeWhile (· ≠ '\n') :=
    String.toList_ofList
  have hline : '\n' ∉ (ofState reason s).lineText.toList := by
    rw [hsplit, List.mem_append, List.mem_reverse, not_or]
    exact ⟨Cursor.lineFeed_not_mem_line _, Cursor.lineFeed_not_mem_line _⟩
  obtain ⟨source, marks, hwritten, hcount, hiff⟩ := exists_rows
    (d := (ofState reason s).toDiagnostic) rfl hmessage hline showCode hsplit hcolumn
  have hone := (coveredBy_underlineWidth (ofState reason s).toDiagnostic.location.span
    (ofState reason s).lineText).empty rfl
  rw [hone] at hcount hiff
  rw [← hrow]
  exact ⟨source, marks, hwritten, hcount, hiff⟩

/-- Below its source line a diagnostic has as many carets as the span needs, and they stand under
the span if and only if the number of the line is below ten thousand; so does the one caret for a
query that cannot be read, which stands under what comes next in the line or just behind it. -/
theorem carets_under_place (showCode : Bool) :
    (∀ (d : Diagnostic) (line : String), d.location.sourceText = some line →
      '\n' ∉ d.message.toList → '\n' ∉ line.toList → ∃ source marks carets,
        d.IsWritten showCode source marks ∧ d.location.span.CoveredBy line.length carets ∧
        marks.count '^' = carets ∧
        (Underlined line.toList d.location.span.start.column carets source marks ↔
          d.location.span.start.line + 1 < 10000)) ∧
    ∀ (limit : Nat) (text : String) (e : ParseError),
      (parse limit text).result = .error e → ∃ before behind source marks,
        text.toList = before ++ behind ∧ byteSize before = e.position.offset ∧
        e.toDiagnostic.IsWritten showCode source marks ∧ marks.count '^' = 1 ∧
        (Underlined (behind.takeWhile (· ≠ '\n')) 0 1 source marks ↔
          e.position.line < 10000) := by
  refine ⟨fun d line hsource hmessage hline => ?_, fun limit text e h => ?_⟩
  · obtain ⟨source, marks, hwritten, hcount, hiff⟩ := exists_rows hsource hmessage hline showCode
      (List.nil_append line.toList).symm (Nat.zero_add _).symm
    exact ⟨source, marks, _, hwritten, coveredBy_underlineWidth _ _, hcount, hiff⟩
  · rw [parse] at h
    cases hrun : expression limit (.start text.toList) with
    | ok a t => rw [hrun] at h; cases h
    | error reason t =>
      rw [hrun] at h
      cases h
      have hgrown := discipline_grown.follows_expression limit (.start text.toList)
      rw [finish_of_error hrun] at hgrown
      obtain ⟨hsource, hcoherent⟩ := hgrown.cursor_start
      have hmessage : '\n' ∉ reason.message.toList := by
        obtain rfl | ⟨rfl, -⟩ | ⟨rfl, -⟩ := expression_error hrun <;> decide
      obtain ⟨source, marks, hwritten, hcount, hiff⟩ :=
        ParseError.underlined_ofState hcoherent hmessage showCode
      exact ⟨_, _, source, marks, hsource.symm, hcoherent.offset_eq.symm, hwritten, hcount, hiff⟩

/-- Three characters of a line, and a parenthesis in the second line. -/
theorem heading_underlined :
    (∃ source marks carets,
      (Diagnostic.mk .error .syntaxError "expected end of input"
        ⟨⟨⟨0, 6⟩, ⟨0, 9⟩⟩, some "inbox heading"⟩).IsWritten false source marks ∧
      Span.CoveredBy ⟨⟨0, 6⟩, ⟨0, 9⟩⟩ 13 carets ∧ marks.count '^' = carets ∧
      (Underlined "inbox heading".toList 6 carets source marks ↔ 0 + 1 < 10000)) ∧
    ∃ e, (parse 32 "a\n b)c").result = .error e ∧ ∃ before behind source marks,
      "a\n b)c".toList = before ++ behind ∧ byteSize before = e.position.offset ∧
      e.toDiagnostic.IsWritten true source marks ∧ marks.count '^' = 1 ∧
      (Underlined (behind.takeWhile (· ≠ '\n')) 0 1 source marks ↔ e.position.line < 10000) := by
  refine ⟨(carets_under_place false).1 _ "inbox heading" rfl (by decide) (by decide), ?_⟩
  have hrun : (parse 32 "a\n b)c").result.map (fun _ => ()) =
      .error ⟨.endOfInput, ⟨4, 2, 2⟩, " b)c"⟩ := by decide +kernel
  cases h : (parse 32 "a\n b)c").result with
  | ok e => rw [h] at hrun; cases hrun
  | error e => exact ⟨e, rfl, (carets_under_place true).2 32 _ e h⟩

def tenThousandthLine : Diagnostic :=
  ⟨.error, .syntaxError, "expected end of input", ⟨.point ⟨9999, 0⟩, some ")"⟩⟩

/-- The number of that line takes one column more, and the caret stands one column in front of the
parenthesis. -/
theorem tenThousandthLine_missed :
    tenThousandthLine.IsWritten false "10000 | )".toList "     | ^".toList ∧
      ¬Underlined [')'] 0 1 "10000 | )".toList "     | ^".toList := by
  have hsource : gutter 9999 ++ [')'] = "10000 | )".toList := by decide
  have hmarks : blank 0 ++ List.replicate 1 '^' = "     | ^".toList := by decide
  have htext : tenThousandthLine.location.sourceText = some ")" := rfl
  rw [← hsource, ← hmarks]
  refine ⟨isWritten_rows htext (by decide) (by decide) false, fun h => ?_⟩
  exact absurd ((underlined_rows [] [')'] 9999 0 1).mp h) (by decide)

end OutlineQuery
