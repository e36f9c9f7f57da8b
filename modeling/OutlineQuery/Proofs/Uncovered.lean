import OutlineQuery.Proofs.Layout
import OutlineQuery.Proofs.Scanning
import OutlineQuery.Proofs.Yielding

/-! What the tokens of a query leave uncovered: blanks, parentheses and the slices of its steps. A
comparison has a token around all of it, so the slices in its arguments are covered. -/

namespace OutlineQuery
open Text Grammar Production

def Token.covers (t : Token) (offset : Nat) : Bool := t.start ≤ offset && offset < t.stop

def uncovered (tokens : List Token) : Nat → List Char → List Char
  | _, [] => []
  | offset, c :: text =>
    let others := uncovered tokens (offset + c.utf8Size) text
    if tokens.any (·.covers offset) then others else c :: others

section
variable {tokens more : List Token} {offset : Nat} {text : List Char}

theorem uncovered_append (tokens : List Token) (offset : Nat) (first next : List Char) :
    uncovered tokens offset (first ++ next) =
      uncovered tokens offset first ++ uncovered tokens (offset + byteSize first) next := by
  induction first generalizing offset with
  | nil => rfl
  | cons c first ih =>
    simp only [List.cons_append, uncovered, byteSize, ih, Nat.add_assoc]
    split <;> rfl

theorem uncovered_nil (offset : Nat) (text : List Char) : uncovered [] offset text = text := by
  induction text generalizing offset with
  | nil => rfl
  | cons c text ih => simp [uncovered, ih]

/-- Only tokens that have a character of the text count. -/
theorem uncovered_congr (h : ∀ n, offset ≤ n → n < offset + byteSize text →
    tokens.any (·.covers n) = more.any (·.covers n)) :
    uncovered tokens offset text = uncovered more offset text := by
  induction text generalizing offset with
  | nil => rfl
  | cons c text ih =>
    have hc := c.utf8Size_pos
    rw [byteSize] at h
    have hothers : uncovered tokens (offset + c.utf8Size) text =
        uncovered more (offset + c.utf8Size) text :=
      ih fun n hle hlt => h n (by omega) (by omega)
    rw [uncovered, uncovered, hothers, h offset (Nat.le_refl _) (by omega)]

theorem uncovered_covered {t : Token} (ht : t ∈ tokens) (hstart : t.start ≤ offset)
    (hstop : offset + byteSize text ≤ t.stop) : uncovered tokens offset text = [] := by
  induction text generalizing offset with
  | nil => rfl
  | cons c text ih =>
    have hc := c.utf8Size_pos
    rw [byteSize] at hstop
    have hcovers : tokens.any (·.covers offset) = true := by
      refine List.any_eq_true.mpr ⟨t, ht, ?_⟩
      rw [Token.covers, Bool.and_eq_true, decide_eq_true_eq, decide_eq_true_eq]
      omega
    rw [uncovered, if_pos hcovers]
    exact ih (by omega) (by omega)

end

/-- Tokens that lie before a place and others behind it each leave their own part of the text. -/
theorem LaidOut.uncovered_append {source first next : List Char} {lo hi : Nat}
    {left right : List Token} (hl : LaidOut source lo (lo + byteSize first) left)
    (hr : LaidOut source (lo + byteSize first) hi right) :
    uncovered (left ++ right) lo (first ++ next) =
      uncovered left lo first ++ uncovered right (lo + byteSize first) next := by
  have hright : ∀ n, n < lo + byteSize first → right.any (·.covers n) = false := by
    intro n hn
    refine List.any_eq_false.mpr fun t ht => ?_
    have hbounds := hr.bounds t ht
    rw [Token.covers, Bool.and_eq_true, decide_eq_true_eq, decide_eq_true_eq]
    omega
  have hleft : ∀ n, lo + byteSize first ≤ n → left.any (·.covers n) = false := by
    intro n hn
    refine List.any_eq_false.mpr fun t ht => ?_
    have hbounds := hl.bounds t ht
    rw [Token.covers, Bool.and_eq_true, decide_eq_true_eq, decide_eq_true_eq]
    omega
  rw [OutlineQuery.uncovered_append]
  congr 1
  · refine uncovered_congr fun n _ hlt => ?_
    rw [List.any_append, hright n hlt, Bool.or_false]
  · refine uncovered_congr fun n hle _ => ?_
    rw [List.any_append, hleft n hle, Bool.false_or]

def isGap (c : Char) : Bool := isBlank c || c == '(' || c == ')'

namespace Grammar

def Leaves (s t : State) (left : List Char) : Prop :=
  Grown s t ∧ (s.cursor.Coherent → ∃ new, t.tokens.toList = s.tokens.toList ++ new ∧
    LaidOut s.cursor.source s.cursor.offset t.cursor.offset new ∧
    left = (uncovered new s.cursor.offset (s.cursor.since t.cursor)).filter (!isGap ·))

theorem additive_leaves : Additive Leaves where
  refl s := by
    refine ⟨.refl s, fun _ => ⟨[], (List.append_nil _).symm, .nil, ?_⟩⟩
    have hnone : s.cursor.since s.cursor = [] := Cursor.since_advance 0 s.cursor
    rw [hnone]
    rfl
  trans {s t u left more} h h' := by
    refine ⟨h.1.trans h'.1, fun hs => ?_⟩
    obtain ⟨m, hm⟩ := h.1.cursor
    obtain ⟨n, hn⟩ := h'.1.cursor
    have ht : t.cursor.Coherent := by
      rw [hm]
      exact hs.advance m
    obtain ⟨first, hfirst, hlfirst, rfl⟩ := h.2 hs
    obtain ⟨next, hnext, hlnext, rfl⟩ := h'.2 ht
    have hsource : t.cursor.source = s.cursor.source := by
      rw [hm]
      exact Cursor.source_advance m s.cursor
    have hsince : s.cursor.since u.cursor =
        s.cursor.since t.cursor ++ t.cursor.since u.cursor := by
      rw [hn, hm, Cursor.since_advance, Cursor.since_advance, Cursor.advance_advance,
        Cursor.since_advance, Cursor.rest_advance, List.take_add]
    have hoffset : t.cursor.offset = s.cursor.offset + byteSize (s.cursor.since t.cursor) := by
      rw [hm, Cursor.since_advance]
      exact Cursor.offset_advance m s.cursor
    rw [hsource] at hlnext
    refine ⟨first ++ next, by rw [hnext, hfirst, List.append_assoc],
      hlfirst.append hlnext h.1.offset_le h'.1.offset_le, ?_⟩
    rw [hoffset] at hlfirst hlnext
    rw [hsince, hlfirst.uncovered_append hlnext, List.filter_append, ← hoffset]
  deeper h := ⟨h.1.deeper, h.2⟩

abbrev Covered {α : Type} (p : Production α) : Prop := YieldsNothing Leaves p

/-- A token for all that is read covers it, whatever else is recorded. -/
theorem leaves_emit {s u : State} {kind : TokenKind} (hg : Grown s u)
    (hr : Grown s (u.emit kind s.cursor) ∧
      (s.cursor.Coherent → Records s (u.emit kind s.cursor))) :
    Leaves s (u.emit kind s.cursor) [] := by
  refine ⟨hr.1, fun hs => ?_⟩
  obtain ⟨new, htokens, hnew⟩ := hr.2 hs
  refine ⟨new, htokens, hnew, ?_⟩
  obtain ⟨n, hn⟩ := hg.cursor
  obtain ⟨parts, hparts⟩ := hg.tokens
  have hmem : (⟨kind, s.cursor.offset, u.cursor.offset,
      String.ofList (s.cursor.since u.cursor)⟩ : Token) ∈ new := by
    rw [State.emit, TokenLog.toList_push, ← hparts, List.append_assoc] at htokens
    rw [← List.append_cancel_left htokens]
    exact List.mem_append_right _ (List.mem_singleton_self _)
  have hstop : s.cursor.offset + byteSize (s.cursor.since u.cursor) = u.cursor.offset := by
    rw [hn, Cursor.since_advance]
    exact (Cursor.offset_advance n s.cursor).symm
  have hcovered : uncovered new s.cursor.offset (s.cursor.since u.cursor) = [] :=
    uncovered_covered hmem (Nat.le_refl _) (Nat.le_of_eq hstop)
  exact (congrArg (List.filter (!isGap ·)) hcovered).symm

/-- A production that does nothing or ends with a token for all that it has read. -/
theorem covered_of_emit {α : Type} {p : Production α}
    (hr : p.Follows fun s t => Grown s t ∧ (s.cursor.Coherent → Records s t))
    (h : ∀ s a t, p s = .ok a t →
      t = s ∨ ∃ u kind, Grown s u ∧ t = u.emit kind s.cursor) : Covered p := by
  refine ⟨fun s => (hr s).1, fun {s a t} hok => ⟨[], ?_, rfl⟩⟩
  have hrun := hr s
  rw [finish_of_ok hok] at hrun
  obtain rfl | ⟨u, kind, hg, rfl⟩ := h s a t hok
  · exact additive_leaves.refl t
  · exact leaves_emit hg hrun

theorem covered_record {α : Type} {p : Production α} {kind : TokenKind} (hg : p.Follows Grown)
    (hr : (record kind p).Follows fun s t => Grown s t ∧ (s.cursor.Coherent → Records s t)) :
    Covered (record kind p) := by
  refine covered_of_emit hr fun s a t hok => .inr ?_
  obtain ⟨u, hu, rfl⟩ := record_ok hok
  have hgrown := hg s
  rw [finish_of_ok hu] at hgrown
  exact ⟨u, kind, hgrown, rfl⟩

section
variable {text : String} {kind : TokenKind}

theorem covered_word (ht : text ≠ "") (hk : kind ≠ .comparison) : Covered (word text kind) := by
  refine covered_of_emit (discipline_records.follows_word ht hk) fun s a t hok => ?_
  rw [word_run] at hok
  split at hok
  · cases hok
    exact .inr ⟨_, kind, .pass s _, rfl⟩
  · cases hok
    exact .inl rfl

theorem covered_operator (ht : text ≠ "") (hk : kind ≠ .comparison) :
    Covered (operator text kind) := by
  refine covered_of_emit (discipline_records.follows_operator ht hk) fun s a t hok => ?_
  rw [operator_run] at hok
  split at hok
  · cases hok
    exact .inr ⟨_, kind, .pass s _, rfl⟩
  · cases hok
    exact .inl rfl

theorem covered_axis : Covered axis := by
  refine covered_of_emit discipline_records.follows_axis fun s a t hok => ?_
  rw [axis_run] at hok
  split at hok
  · cases hok
    exact .inr ⟨_, .axis, .pass s _, rfl⟩
  · cases hok

end

def Passes (s t : State) (text : List Char) : Prop :=
  t = s.pass text.length ∧ s.cursor.rest = text ++ t.cursor.rest

theorem additive_passes : Additive Passes where
  refl s := ⟨rfl, rfl⟩
  trans {s t u first next} h h' := by
    obtain ⟨rfl, hs⟩ := h
    obtain ⟨rfl, ht⟩ := h'
    refine ⟨?_, ?_⟩
    · rw [pass_pass, List.length_append]
    · rw [hs, ht, List.append_assoc]
  deeper {s t text} h := by
    obtain ⟨rfl, hs⟩ := h
    exact ⟨rfl, hs⟩

theorem leaves_of_passes {s t : State} {text : List Char} (h : Passes s t text) :
    Leaves s t (text.filter (!isGap ·)) := by
  obtain ⟨rfl, hs⟩ := h
  refine ⟨.pass s _, fun _ => ⟨[], (List.append_nil _).symm, .nil, ?_⟩⟩
  have hsince : s.cursor.since (s.pass text.length).cursor = text := by
    rw [State.pass, Cursor.since_advance, hs, List.take_left]
  rw [hsince, uncovered_nil]

theorem Yields.leaves {α : Type} {p : Production α} {told told' : α → List Char → Prop}
    (hp : Yields Passes p told) (h : ∀ a text, told a text → told' a (text.filter (!isGap ·))) :
    Yields Leaves p told' := by
  refine ⟨hp.grows, fun hok => ?_⟩
  obtain ⟨text, htext, ha⟩ := hp.yields hok
  exact ⟨_, leaves_of_passes htext, h _ _ ha⟩

/-- Blanks and parentheses leave nothing. -/
theorem covered_gaps {α : Type} {p : Production α}
    (hp : Yields Passes p fun _ text => text.all isGap = true) : Covered p := by
  refine hp.leaves fun _ text htext => List.filter_eq_nil_iff.mpr fun c hc => ?_
  rw [List.all_eq_true.mp htext c hc]
  exact Bool.false_ne_true

theorem passes_expect (text : String) :
    Yields Passes (expect text) fun _ passed => passed = text.toList := by
  refine ⟨follows_grown_of_silent (silent_expect text), fun {s a t} hok => ?_⟩
  obtain ⟨htake, rfl⟩ := expect_ok hok
  refine ⟨text.toList, ⟨by rw [String.length_toList], ?_⟩, rfl⟩
  rw [rest_pass, ← htake, List.take_append_drop]

theorem passes_skip (text : String) : Yields Passes (skip text) fun found passed =>
    passed = if found = true then text.toList else [] := by
  refine ⟨follows_grown_of_silent (silent_skip text), fun {s found t} hok => ?_⟩
  cases found with
  | true =>
    have hexpect : expect text s = .ok () t := (bind_of_ok hok).trans rfl
    obtain ⟨passed, hpassed, rfl⟩ := (passes_expect text).yields hexpect
    exact ⟨_, hpassed, rfl⟩
  | false =>
    rw [skip_run] at hok
    split at hok
    · cases hok
    · cases hok
      exact ⟨[], additive_passes.refl s, rfl⟩

theorem passes_skipBlanks :
    Yields Passes skipBlanks fun _ passed => passed.all isBlank = true := by
  refine ⟨follows_grown_of_silent silent_skipBlanks, fun {s a t} hok => ?_⟩
  cases hok
  refine ⟨s.cursor.rest.takeWhile isBlank, ⟨rfl, ?_⟩, List.all_takeWhile⟩
  rw [rest_pass, drop_takeWhile, List.takeWhile_append_dropWhile]

theorem covered_skipBlanks : Covered skipBlanks := by
  refine covered_gaps (passes_skipBlanks.mono fun _ passed h => ?_)
  refine List.all_eq_true.mpr fun c hc => ?_
  rw [isGap, List.all_eq_true.mp h c hc, Bool.true_or, Bool.true_or]

theorem covered_expect {text : String} (h : text.toList.all isGap = true) :
    Covered (expect text) := by
  refine covered_gaps ((passes_expect text).mono ?_)
  rintro _ _ rfl
  exact h

theorem covered_skip {text : String} (h : text.toList.all isGap = true) :
    Covered (skip text) := by
  refine covered_gaps ((passes_skip text).mono ?_)
  rintro (_ | _) _ rfl
  · rfl
  · exact h

theorem passes_integer : Yields Passes integer SpellsInteger := by
  refine ⟨follows_grown_of_silent silent_integer, fun {s n t} hok => ?_⟩
  obtain ⟨negative, u, hskip, hnumber⟩ := bind_ok hok
  obtain ⟨sign, hsign, rfl⟩ := (passes_skip "-").yields hskip
  rw [remaining_bind_run] at hnumber
  dsimp only at hnumber
  split at hnumber
  · cases hnumber
  · rename_i hsome
    rw [pass_bind_run] at hnumber
    generalize hv : (if negative = true then
      -(digitsValue (u.cursor.rest.takeWhile Char.isDigit) : Int) else _) = v at hnumber
    split at hnumber
    · rename_i hrange
      cases hnumber
      have hdigits : Passes u (u.pass (u.cursor.rest.takeWhile Char.isDigit).length)
          (u.cursor.rest.takeWhile Char.isDigit) := by
        refine ⟨rfl, ?_⟩
        rw [rest_pass, drop_takeWhile, List.takeWhile_append_dropWhile]
      refine ⟨_, additive_passes.trans hsign hdigits, negative, _, rfl, by simpa using hsome,
        List.all_eq_true.mp List.all_takeWhile, ?_⟩
      rw [Int64.toInt_ofInt_of_le hrange.1 (Int.lt_add_one_of_le hrange.2), ← hv]
    · cases hnumber

theorem passes_bound : Yields Passes (attempt integer) SpellsBound := by
  refine (additive_passes.attempt passes_integer).mono fun bound text h => ?_
  cases bound <;> exact h

theorem passes_slice : Yields Passes slice SpellsSlice := by
  have hA := additive_passes
  have hindex : Yields Passes indexSlice SpellsSlice := by
    refine hA.bind (passes_expect "[") fun _ opening hopening => ?_
    refine hA.bind passes_integer fun n number hn => ?_
    refine hA.map (passes_expect "]") fun _ closing hclosing => ?_
    subst hopening hclosing
    exact .index hn
  refine hA.alternative hindex (fun s text hs => hA.pure ?_) ?_
  · rw [List.append_nil]
    exact hs
  · refine hA.bind (passes_expect "[") fun _ opening hopening => ?_
    refine hA.bind passes_bound fun start first hstart => ?_
    refine hA.bind (passes_expect ":") fun _ colon hcolon => ?_
    refine hA.bind passes_bound fun stop last hstop => ?_
    refine hA.map (passes_expect "]") fun _ closing hclosing => ?_
    subst hopening hcolon hclosing
    exact .between hstart hstop

theorem isBlank_eq_false_of_isDigit {c : Char} (h : c.isDigit = true) : isBlank c = false := by
  have hlow : '0'.toNat ≤ c.toNat := (Char.isDigit_iff_toNat.mp h).1
  have hhigh : c.toNat ≤ '9'.toNat := (Char.isDigit_iff_toNat.mp h).2
  have hblank : ∀ n < 58, 48 ≤ n → blankRanges.covers n = false := by decide
  exact hblank c.toNat (Nat.lt_succ_of_le hhigh) hlow

theorem isGap_eq_false_of_isDigit {c : Char} (h : c.isDigit = true) : isGap c = false := by
  have hno : isBlank c = false := isBlank_eq_false_of_isDigit h
  have hopen : c ≠ '(' := by
    rintro rfl
    cases h
  have hclose : c ≠ ')' := by
    rintro rfl
    cases h
  simp [isGap, hno, hopen, hclose]

theorem SpellsInteger.chars {n : Int64} {text : List Char} (h : SpellsInteger n text) :
    ∀ c ∈ text, c = '-' ∨ c.isDigit = true := by
  obtain ⟨negative, digits, rfl, -, hdigits, -⟩ := h
  intro c hc
  rcases List.mem_append.mp hc with hsign | hdigit
  · cases negative with
    | true => exact .inl (List.mem_singleton.mp hsign)
    | false => cases hsign
  · exact .inr (hdigits c hdigit)

theorem SpellsBound.chars {bound : Option Int64} {text : List Char} (h : SpellsBound bound text) :
    ∀ c ∈ text, c = '-' ∨ c.isDigit = true := by
  cases bound with
  | none =>
    obtain rfl : text = [] := h
    exact nofun
  | some n => exact SpellsInteger.chars (n := n) h

theorem SpellsSlice.chars {s : Slice} {text : List Char} (h : SpellsSlice s text) :
    ∀ c ∈ text, c ∈ ['[', ']', ':', '-'] ∨ c.isDigit = true := by
  have hnumber : ∀ {c : Char}, c = '-' ∨ c.isDigit = true →
      c ∈ ['[', ']', ':', '-'] ∨ c.isDigit = true := by
    rintro c (rfl | hc)
    · exact .inl (by decide)
    · exact .inr hc
  intro c hc
  cases h with
  | index hn =>
    simp only [List.mem_cons, List.mem_append, List.not_mem_nil, or_false] at hc
    rcases hc with rfl | hc | rfl
    · exact .inl (by decide)
    · exact hnumber (hn.chars c hc)
    · exact .inl (by decide)
  | between hstart hstop =>
    simp only [List.mem_cons, List.mem_append, List.not_mem_nil, or_false] at hc
    rcases hc with rfl | hc | rfl | hc | rfl
    · exact .inl (by decide)
    · exact hnumber (hstart.chars c hc)
    · exact .inl (by decide)
    · exact hnumber (hstop.chars c hc)
    · exact .inl (by decide)

theorem leaves_slice : Yields Leaves slice SpellsSlice := by
  refine passes_slice.leaves fun s text hs => ?_
  have hkept : text.filter (!isGap ·) = text := by
    refine List.filter_eq_self.mpr fun c hc => ?_
    have hgap : isGap c = false := by
      rcases hs.chars c hc with hmem | hdigit
      · have hall : ['[', ']', ':', '-'].all (!isGap ·) = true := by decide
        simpa using List.all_eq_true.mp hall c hmem
      · exact isGap_eq_false_of_isDigit hdigit
    rw [hgap]
    rfl
  rw [hkept]
  exact hs

end Grammar
end OutlineQuery
