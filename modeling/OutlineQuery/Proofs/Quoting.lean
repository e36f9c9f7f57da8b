import OutlineQuery.Proofs.LoneStrings

/-! Strings between quotes. However a text is escaped, it is read back as it was, up to the blanks
at its two ends. Where the quote is never closed, or something else is escaped, nothing is read. -/

namespace OutlineQuery
open Grammar Production Text

def escapes : List (Char × Char) :=
  [('"', '"'), ('\\', '\\'), ('n', '\n'), ('r', '\r'), ('t', '\t')]

/-- The content as it may be written between quotes: quotes and backslashes are escaped, and line
feeds, carriage returns and tabs may be. -/
inductive QuotesAs : List Char → List Char → Prop
  | nil : QuotesAs [] []
  | raw {c : Char} {content written : List Char} : c ≠ '"' → c ≠ '\\' →
      QuotesAs content written → QuotesAs (c :: content) (c :: written)
  | escaped {e c : Char} {content written : List Char} : (e, c) ∈ escapes →
      QuotesAs content written → QuotesAs (c :: content) ('\\' :: e :: written)

def BrokenOff (body : List Char) : Prop := ∃ content written more, QuotesAs content written ∧
  body = written ++ more ∧ (more = [] ∨ more = ['\\'] ∨
    ∃ e rest, more = '\\' :: e :: rest ∧ e ∉ escapes.map Prod.fst)

namespace Grammar

theorem unescape?_of_mem {e c : Char} (h : (e, c) ∈ escapes) : unescape? e = some c := by
  simp only [escapes, List.mem_cons, List.not_mem_nil, or_false, Prod.mk.injEq] at h
  obtain ⟨rfl, rfl⟩ | ⟨rfl, rfl⟩ | ⟨rfl, rfl⟩ | ⟨rfl, rfl⟩ | ⟨rfl, rfl⟩ := h <;> rfl

theorem unescape?_of_notMem {e : Char} (h : e ∉ escapes.map Prod.fst) : unescape? e = none := by
  simp only [escapes, List.map_cons, List.map_nil, List.mem_cons, List.not_mem_nil, or_false,
    not_or] at h
  unfold unescape?
  split <;> simp_all

/-- What is written is read as the content, whatever follows. -/
theorem quotedBody_written {content written : List Char} (h : QuotesAs content written)
    (more : List Char) : quotedBody (written ++ more) =
      ((quotedBody more).1 + written.length, (quotedBody more).2.map (content ++ ·)) := by
  induction h with
  | nil =>
    cases hmore : quotedBody more with
    | mk n result => cases result <;> simp [Except.map, hmore]
  | raw hquote hslash _ ih =>
    rw [List.cons_append, quotedBody_plain hquote hslash, ih]
    cases (quotedBody more).2 <;> rfl
  | escaped hmem _ ih =>
    rw [List.cons_append, List.cons_append, quotedBody_escape (unescape?_of_mem hmem), ih]
    cases (quotedBody more).2 <;> rfl

/-- A string up to its closing quote. -/
theorem quotedBody_closed {content written : List Char} (h : QuotesAs content written)
    (rest : List Char) :
    quotedBody (written ++ '"' :: rest) = (written.length + 1, .ok content) := by
  rw [quotedBody_written h, quotedBody_quote, Nat.add_comm]
  simp [Except.map]

theorem quotedBody_brokenOff {body : List Char} (h : BrokenOff body) :
    ∃ n reason, quotedBody body = (n, .error reason) := by
  obtain ⟨content, written, more, hwritten, rfl, hmore⟩ := h
  have herror : ∃ reason, (quotedBody more).2 = .error reason := by
    obtain rfl | rfl | ⟨e, rest, rfl, hno⟩ := hmore
    · exact ⟨_, by rw [quotedBody]⟩
    · exact ⟨_, by rw [quotedBody.eq_def]; rfl⟩
    · exact ⟨.escape e, by rw [quotedBody.eq_def]; simp [unescape?_of_notMem hno]⟩
  obtain ⟨reason, hreason⟩ := herror
  rw [quotedBody_written hwritten, hreason]
  exact ⟨_, reason, rfl⟩

section
variable {content written : List Char} (h : QuotesAs content written)
include h

theorem string_quoted {s : State} (hs : s.cursor.rest = '"' :: (written ++ ['"'])) :
    string s = .ok content (s.behind (some .quotedString) ('"' :: (written ++ ['"'])).length) := by
  have hquoted : quoted s = .ok content (s.pass ('"' :: (written ++ ['"'])).length) := by
    rw [quoted_run hs, quotedBody_closed h, List.length_cons, List.length_append]
    rfl
  have hquote : ['"'].isPrefixOf s.cursor.rest = true := by
    rw [hs]
    rfl
  rw [string, remaining_bind_run, if_pos hquote]
  exact record_of_ok hquoted

theorem isLoneString_quoted :
    IsLoneString .quotedString ('"' :: (written ++ ['"'])) content where
  string := string_quoted h
  function := refuses_function rfl
  atSign := by simp
  starts := rfl
  notWord := rfl
  opens := ⟨⟨rfl, rfl⟩, rfl, rfl⟩

end

section
variable {body : List Char} (h : BrokenOff body) {depth : Nat}
include h

theorem refuses_string_brokenOff : Refuses string depth ('"' :: body) := by
  intro s hs
  obtain ⟨n, reason, hbody⟩ := quotedBody_brokenOff h
  have hquoted : quoted s = .error reason (s.pass (n + 1)) := by
    rw [quoted_run hs.text, hbody]
  have hquote : ['"'].isPrefixOf s.cursor.rest = true := by
    rw [hs.text]
    rfl
  refine ⟨reason, s.pass (n + 1), ?_, isFatal_of_quotedBody hbody⟩
  rw [string, remaining_bind_run, if_pos hquote]
  exact record_of_error hquoted

theorem refuses_negation_brokenOff {inner : Inner} (hi : inner.Follows Grown) :
    Refuses (negation inner) depth ('"' :: body) := by
  have hvalue : Refuses value depth ('"' :: body) :=
    refuses_value (by simp) (refuses_string_brokenOff h)
  have hoperand : Refuses (operand inner) depth ('"' :: body) :=
    refuses_operand hi (refuses_function rfl) hvalue
  have hblanks : Reads skipBlanks depth ('"' :: body) () ('"' :: body) := reads_noBlanks rfl
  have hrelation : Refuses relation depth ('"' :: body) := refuses_relation rfl
  have htext : Refuses (textComparison inner) depth ('"' :: body) :=
    .bind_next (hrelation.attemptOr _ discipline_grown.follows_relation)
      (.bind_next hblanks (.bind_next (reads_noModifier (by simp))
        (.bind_next hblanks hoperand.bind_first)))
  have hfull : Refuses (fullComparison inner) depth ('"' :: body) := hoperand.bind_first
  have hlone : Refuses loneValue depth ('"' :: body) := hvalue.bind_first
  have hforms : Reads (firstOf [fullComparison inner, loneValue, textComparison inner]) depth
      ('"' :: body) none ('"' :: body) :=
    hfull.firstOf (discipline_grown.follows_fullComparison hi)
      (hlone.firstOf discipline_grown.follows_loneValue
        (htext.firstOf (discipline_grown.follows_textComparison hi) (.pure none)))
  exact refuses_negation_forms rfl rfl hi hforms

theorem refuses_union_brokenOff {inner : Inner} (hi : inner.Alone) :
    Refuses (union inner) depth ('"' :: body) :=
  (leads_negation hi).refuses (alone_union hi).settled ⟨⟨rfl, rfl⟩, rfl, rfl⟩
    (refuses_negation_brokenOff h hi.follows)

end
end Grammar

theorem parse_brokenOff {body : String} (h : BrokenOff body.toList) (limit : Nat)
    (e : Expression) : (parse limit ("\"" ++ body)).result ≠ .ok e := by
  have htext : ("\"" ++ body).toList = '"' :: body.toList := by simp
  cases limit with
  | zero =>
    intro hok
    obtain ⟨t, hrun⟩ := expression_zero (.start ("\"" ++ body).toList)
    obtain ⟨e', he', -⟩ := parse_of_tooDeep hrun
    cases hok.symm.trans he'
  | succ levels =>
    have hunion : Refuses (union (innerAt (levels + 1) levels)) 1 ('"' :: body.toList) :=
      refuses_union_brokenOff h (alone_levels (levels + 1) levels).2
    exact parse_ne_ok_of_refuses htext
      (refuses_expression (refuses_wholeCall_noStart rfl rfl) rfl hunion) e

/-- Between quotes a text may be written in many ways, and all of them search for the text without
the blanks at its two ends. A query that starts with a quote is no query if the string is never
closed or anything else is escaped in it. -/
theorem quoting_lossless (limit : Nat) :
    (∀ content written : String, 1 ≤ limit → QuotesAs content.toList written.toList →
      Searches limit ("\"" ++ written ++ "\"") .quotedString
        (String.ofList (trim content.toList))) ∧
    ∀ body : String, BrokenOff body.toList → ∀ e, (parse limit ("\"" ++ body)).result ≠ .ok e := by
  refine ⟨fun content written hlimit h => ?_, fun body h => parse_brokenOff h limit⟩
  have htext : ("\"" ++ written ++ "\"").toList = '"' :: (written.toList ++ ['"']) := by simp
  have hlone := isLoneString_quoted h
  rw [← htext] at hlone
  exact hlone.searches hlimit

/-- The quote in the first text is escaped and the line feed is not, and both are read; the blank
behind them is not kept. In the second text `q` is escaped. -/
theorem quoting_lossless_quoteAndFeed :
    QuotesAs "a\n\"b ".toList "a\n\\\"b ".toList ∧
    Searches 1 "\"a\n\\\"b \"" .quotedString "a\n\"b" ∧
    BrokenOff "a\\q\"".toList ∧ ∀ e, (parse 1 "\"a\\q\"").result ≠ .ok e := by
  have hwritten : QuotesAs "a\n\"b ".toList "a\n\\\"b ".toList :=
    .raw (by decide) (by decide) (.raw (by decide) (by decide) (.escaped (by decide)
      (.raw (by decide) (by decide) (.raw (by decide) (by decide) .nil))))
  have hbroken : BrokenOff "a\\q\"".toList :=
    ⟨['a'], ['a'], ['\\', 'q', '"'], .raw (by decide) (by decide) .nil, rfl,
      .inr (.inr ⟨'q', ['"'], rfl, by decide⟩)⟩
  have hquery : "\"" ++ "a\n\\\"b " ++ "\"" = "\"a\n\\\"b \"" := by decide
  have hcontent : String.ofList (trim "a\n\"b ".toList) = "a\n\"b" := by decide
  have hquery' : "\"" ++ "a\\q\"" = "\"a\\q\"" := by decide
  obtain ⟨hsearch, hno⟩ := quoting_lossless 1
  have hfound := hsearch _ _ (Nat.le_refl 1) hwritten
  have hrejected := hno _ hbroken
  rw [hquery, hcontent] at hfound
  rw [hquery'] at hrejected
  exact ⟨hwritten, hfound, hbroken, hrejected⟩

end OutlineQuery
