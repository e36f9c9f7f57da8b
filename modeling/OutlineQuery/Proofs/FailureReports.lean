import OutlineQuery.Diagnostic.Basic
import OutlineQuery.Proofs.Joining
import OutlineQuery.Proofs.NestingLimit

/-! What is reported of a query that cannot be read. There are three ways in which that happens, and
the report always shows a place of the text and the line around it. -/

namespace OutlineQuery
open Grammar Production Text

structure Position.Behind (p : Position) (before : List Char) : Prop where
  offset : p.offset = byteSize before
  line : p.line = 1 + before.count '\n'
  column : p.column = (before.reverse.takeWhile (· ≠ '\n')).length

inductive LineAround : List Char → List Char → List Char → Prop
  | mk {above left right below : List Char} (hleft : '\n' ∉ left) (hright : '\n' ∉ right)
    (habove : ∀ c ∈ above.getLast?, c = '\n') (hbelow : ∀ c ∈ below.head?, c = '\n') :
    LineAround (above ++ left) (right ++ below) (left ++ right)

theorem Position.Behind.after {p : Position} {before : List Char} (h : p.Behind before)
    (c : Char) : (p.after c).Behind (before ++ [c]) := by
  have hsize : byteSize (before ++ [c]) = byteSize before + c.utf8Size := by
    rw [byteSize_append]
    rfl
  rw [Position.after]
  split
  · rename_i hc
    refine ⟨?_, ?_, ?_⟩
    · rw [hsize, h.offset]
    · rw [h.line, List.count_append, hc]
      rfl
    · simp [hc]
  · rename_i hc
    refine ⟨?_, ?_, ?_⟩
    · rw [hsize, h.offset]
    · rw [h.line, List.count_append, List.count_singleton, if_neg (by simpa using hc)]
      rfl
    · simp [hc, h.column]

theorem Position.behind_start_past (before : List Char) :
    (Position.start.past before).Behind before := by
  induction before using List.reverseRecOn with
  | nil => exact ⟨rfl, rfl, rfl⟩
  | append_singleton before c ih =>
    rw [Position.past_append]
    exact ih.after c

namespace Cursor
variable {k : Cursor} {text : List Char}

theorem head_line_end (text : List Char) :
    ∀ c ∈ (text.dropWhile (· ≠ '\n')).head?, c = '\n' := by
  have hstop := List.head?_dropWhile_not (· ≠ '\n') text
  intro c hc
  rw [Option.mem_def.mp hc] at hstop
  simpa using hstop

theorem lineFeed_not_mem_line (text : List Char) : '\n' ∉ text.takeWhile (· ≠ '\n') := by
  intro hmem
  simpa using List.mem_takeWhile_imp hmem

theorem lineAround_lineText (k : Cursor) : LineAround k.seen.reverse k.rest k.lineText := by
  have hseen : (k.seen.dropWhile (· ≠ '\n')).reverse ++ (k.seen.takeWhile (· ≠ '\n')).reverse =
      k.seen.reverse := by
    rw [← List.reverse_append, List.takeWhile_append_dropWhile]
  have hrest : k.rest.takeWhile (· ≠ '\n') ++ k.rest.dropWhile (· ≠ '\n') = k.rest :=
    List.takeWhile_append_dropWhile
  have hline : LineAround
      ((k.seen.dropWhile (· ≠ '\n')).reverse ++ (k.seen.takeWhile (· ≠ '\n')).reverse)
      (k.rest.takeWhile (· ≠ '\n') ++ k.rest.dropWhile (· ≠ '\n')) k.lineText := by
    refine .mk ?_ (lineFeed_not_mem_line k.rest) ?_ (head_line_end k.rest)
    · rw [List.mem_reverse]
      exact lineFeed_not_mem_line k.seen
    · rw [List.getLast?_reverse]
      exact head_line_end k.seen
  rwa [hseen, hrest] at hline

theorem Coherent.behind (h : k.Coherent) : k.position.Behind k.seen.reverse := by
  rw [h]
  exact Position.behind_start_past _

theorem Coherent.column_le (h : k.Coherent) : k.position.column ≤ k.lineText.length := by
  rw [h.behind.column, List.reverse_reverse, lineText, List.length_append, List.length_reverse]
  exact Nat.le_add_right _ _

end Cursor

namespace Grammar
variable {limit : Nat} {text : List Char} {reason : Reason} {t : State}

/-- The three ways in which a query cannot be read. -/
theorem expression_error (h : expression limit (.start text) = .error reason t) :
    reason = .tooDeep ∨ (reason = .endOfInput ∧ ∃ c ∈ t.cursor.rest.head?, isBlank c = false) ∨
      reason = .expression ∧ t = .start text := by
  have hcall := discipline_grown.follows_wholeCall limit (.start text)
  have hlocation := discipline_grown.follows_wholeLocation limit (.start text)
  cases hc : attempt (wholeCall limit) (.start text) with
  | error reason' u =>
    rw [expression, bind_of_error hc] at h
    cases h
    exact .inl (tooDeep_of_attempt hc)
  | ok found u =>
    rw [expression, bind_of_ok hc] at h
    obtain ⟨f, rfl, -⟩ | ⟨rfl, rfl, -⟩ := attempt_ok hcall hc
    · cases h
    cases hl : attempt (wholeLocation limit) (.start text) with
    | error reason' u =>
      dsimp only at h
      rw [bind_of_error hl] at h
      cases h
      exact .inl (tooDeep_of_attempt hl)
    | ok found u =>
      dsimp only at h
      rw [bind_of_ok hl] at h
      obtain ⟨l, rfl, -⟩ | ⟨rfl, rfl, -⟩ := attempt_ok hlocation hl
      · dsimp only at h
        have hend := expectEnd_run u
        split at hend
        · rw [bind_of_ok hend] at h
          cases h
        · rename_i hmore
          rw [bind_of_error hend] at h
          cases h
          refine .inr (.inl ⟨rfl, ?_⟩)
          rw [rest_pass, drop_takeWhile]
          obtain ⟨c, rest, hrest⟩ := List.exists_cons_of_ne_nil hmore
          have hstop := head_dropWhile u.cursor.rest isBlank
          rw [hrest] at hstop ⊢
          exact ⟨c, rfl, by simpa using hstop⟩
      · cases h
        exact .inr (.inr ⟨rfl, rfl⟩)

/-- The text is all there in the state in which a run ends, and the position is counted right. -/
theorem Grown.cursor_start (h : Grown (.start text) t) :
    t.cursor.source = text ∧ t.cursor.Coherent := by
  obtain ⟨n, hn⟩ := h.cursor
  rw [hn]
  exact ⟨Cursor.source_advance n _, (Cursor.coherent_ofText text).advance n⟩

end Grammar

inductive FailureKind where
  | tooDeep | textLeft | nothingRead

def FailureKind.message : FailureKind → String
  | .tooDeep => "expression nested too deeply"
  | .textLeft => "expected end of input"
  | .nothingRead => "expected location expression or function call"

namespace ParseError

def IsOf (e : ParseError) (text : String) (behind : List Char) (tokens : List Token)
    (kind : FailureKind) : Prop :=
  e.message = kind.message ∧ match kind with
    | .tooDeep => e.isFatal = true
    | .textLeft => e.isFatal = false ∧ e.position.offset < text.utf8ByteSize ∧
      ∃ c ∈ behind.head?, isBlank c = false
    | .nothingRead => e.isFatal = false ∧ e.position = ⟨0, 1, 0⟩ ∧ tokens = []

/-- The report shows the place between these two parts of the text, and so does the diagnostic that
is made of it, whose lines are counted from 0. -/
structure Shows (e : ParseError) (before behind : List Char) : Prop where
  position : e.position.Behind before
  line : LineAround before behind e.lineText.toList
  column_le : e.position.column ≤ e.lineText.length
  place : ∃ place : Diagnostic.Place, place.line + 1 = e.position.line ∧
    place.column = e.position.column ∧
    e.toDiagnostic.location = ⟨.point place, some e.lineText⟩
  code : e.toDiagnostic.code.number = "E002" ↔ e.isFatal = true

variable {reason : Reason} {s : State}

theorem shows_ofState (h : s.cursor.Coherent) :
    (ofState reason s).Shows s.cursor.seen.reverse s.cursor.rest where
  position := h.behind
  line := by
    rw [ofState, String.toList_ofList]
    exact s.cursor.lineAround_lineText
  column_le := by
    rw [ofState, String.length_ofList]
    exact h.column_le
  place := by
    have hline : 1 ≤ s.cursor.position.line := by
      rw [h.behind.line]
      exact Nat.le_add_right _ _
    exact ⟨⟨s.cursor.position.line - 1, s.cursor.position.column⟩, Nat.sub_add_cancel hline, rfl,
      rfl⟩
  code := by
    show (if (ofState reason s).isFatal then Diagnostic.Code.nestingTooDeep
      else .syntaxError).number = "E002" ↔ (ofState reason s).isFatal = true
    cases (ofState reason s).isFatal <;> decide

/-- The messages tell the three apart. -/
theorem IsOf.unique {e : ParseError} {text : String} {behind : List Char} {tokens : List Token}
    {kind kind' : FailureKind} (h : e.IsOf text behind tokens kind)
    (h' : e.IsOf text behind tokens kind') : kind' = kind := by
  have hsame : kind'.message = kind.message := h'.1.symm.trans h.1
  cases kind <;> cases kind' <;> first | rfl | exact absurd hsame (by decide)

end ParseError

/-- A query that cannot be read has too many levels, or goes on where its end is expected, or
nothing of it can be read. The report tells which, and shows the place with its line. -/
theorem failure_report (limit : Nat) (text : String) (e : ParseError)
    (h : (parse limit text).result = .error e) :
    ∃ before behind, text.toList = before ++ behind ∧ e.Shows before behind ∧
      ∃! kind, e.IsOf text behind (parse limit text).tokens kind := by
  rw [parse] at h ⊢
  cases hrun : expression limit (.start text.toList) with
  | ok a t => rw [hrun] at h; cases h
  | error reason t =>
    rw [hrun] at h
    cases h
    have hgrown := discipline_grown.follows_expression limit (.start text.toList)
    rw [finish_of_error hrun] at hgrown
    obtain ⟨hsource, hcoherent⟩ := hgrown.cursor_start
    have hshows : (ParseError.ofState reason t).Shows t.cursor.seen.reverse t.cursor.rest :=
      ParseError.shows_ofState hcoherent
    refine ⟨_, _, hsource.symm, hshows, ?_⟩
    obtain ⟨kind, hkind⟩ : ∃ kind, (ParseError.ofState reason t).IsOf text t.cursor.rest
        t.tokens.toList kind := by
      obtain rfl | ⟨rfl, c, hc, hblank⟩ | ⟨rfl, rfl⟩ := expression_error hrun
      · exact ⟨.tooDeep, rfl, rfl⟩
      · refine ⟨.textLeft, rfl, rfl, ?_, c, hc, hblank⟩
        have hsize : byteSize text.toList =
            byteSize t.cursor.seen.reverse + byteSize t.cursor.rest := by
          rw [← byteSize_append]
          exact congrArg byteSize hsource.symm
        have hrest : 0 < byteSize t.cursor.rest := byteSize_pos fun hnil => by
          rw [hnil] at hc
          cases hc
        rw [hshows.position.offset, Text.utf8ByteSize_eq]
        omega
      · exact ⟨.nothingRead, rfl, rfl, rfl, rfl⟩
    exact ⟨kind, hkind, fun kind' hkind' => hkind.unique hkind'⟩

/-- The second line is what is left, and the mark stands under its third character. -/
theorem secondLine_report : ∃ e, (parse 32 "é
 a)b
c").result = .error e ∧
    (∃ before behind, "é
 a)b
c".toList = before ++ behind ∧ e.Shows before behind ∧
      ∃! kind, e.IsOf "é
 a)b
c" behind (parse 32 "é
 a)b
c").tokens kind) ∧
    e.position = ⟨5, 2, 2⟩ ∧ e.lineText = " a)b" := by
  have hrun : (parse 32 "é\n a)b\nc").result.map (fun _ => ()) =
      .error ⟨.endOfInput, ⟨5, 2, 2⟩, " a)b"⟩ := by decide +kernel
  cases h : (parse 32 "é\n a)b\nc").result with
  | ok e => rw [h] at hrun; cases hrun
  | error e =>
    rw [h] at hrun
    obtain rfl := Except.error.inj hrun
    exact ⟨_, rfl, failure_report 32 _ _ h, rfl, rfl⟩

end OutlineQuery
