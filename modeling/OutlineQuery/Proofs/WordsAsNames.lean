import OutlineQuery.Proofs.Agreement
import OutlineQuery.Proofs.JoiningWords
import OutlineQuery.Proofs.NestingLimit
import OutlineQuery.Proofs.OuterBlanks

/-! Words directly before a parenthesis. With a blank between them the word keeps its meaning.
Without one the word is tried as the name of a function first, and so keeps its meaning only where
no call can be read. -/

namespace OutlineQuery
open Grammar Production Text

def IsFunctionName (name : String) : Prop :=
  IsIdentifier name.toList ∧ name.toList.head?.any isBlank = false

instance (name : String) : Decidable (IsFunctionName name) :=
  inferInstanceAs (Decidable (_ ∧ _))

def Reading.TooDeep (r : Reading) : Prop := ∃ e, r.result = .error e ∧ e.isFatal = true

namespace Grammar

def wholeCallBehind (limit : Nat) : Production Location := do
  let argument ← callBehind (innerAt limit limit)
  expectEnd
  return argument

theorem wholeCall_eq (limit : Nat) :
    wholeCall limit = (do skipBlanks; named (wholeCallBehind limit)) := by
  simp only [wholeCall, function_eq, named, wholeCallBehind, bind_assoc, pure_bind]

theorem wholeLocation_eq (levels : Nat) : wholeLocation (levels + 1) =
    (do skipBlanks; nested (levels + 1) (union (innerAt (levels + 1) levels))) := by
  rw [wholeLocation, location_eq_union]

theorem settled_wholeCallBehind (limit : Nat) : Settled (wholeCallBehind limit) := by
  have hend : Alone expectEnd := fun before shift => .expectEnd rfl
  exact (settled_callBehind (alone_levels limit limit).2).bind fun _ =>
    hend.settled.bind fun _ => .pure _

theorem noBlank_name {name : String} (h : IsFunctionName name) (text : List Char) :
    (name.toList ++ text).head?.any isBlank = false := by
  obtain ⟨hname, hblank⟩ := h
  cases hcases : name.toList with
  | nil => rw [hcases] at hname; cases hname
  | cons c more => rwa [hcases] at hblank

theorem noBracket_name {name : String} (h : IsFunctionName name) (text : List Char) :
    (name.toList ++ text).head? ≠ some '[' := by
  obtain ⟨hname, -⟩ := h
  cases hcases : name.toList with
  | nil => rw [hcases] at hname; cases hname
  | cons c more =>
    rw [hcases] at hname
    rintro ⟨⟩
    exact absurd hname.1 (by decide)

section
variable {limit depth : Nat} {name : String} {text rest : List Char} {q : Location}

theorem reads_wholeCall_name (hname : IsFunctionName name) (htext : text.head?.any isRest = false)
    (h : Reads (wholeCallBehind limit) depth text q rest) :
    Reads (wholeCall limit) depth (name.toList ++ text) ⟨name, q⟩ rest := by
  have hnamed := h.named hname.1 htext
  rw [String.ofList_toList] at hnamed
  rw [wholeCall_eq]
  exact (reads_noBlanks (noBlank_name hname text)).bind hnamed

theorem refuses_wholeCall_name (hname : IsFunctionName name) (htext : text.head?.any isRest = false)
    (h : Refuses (wholeCallBehind limit) depth text) :
    Refuses (wholeCall limit) depth (name.toList ++ text) := by
  rw [wholeCall_eq]
  exact .bind_next (reads_noBlanks (noBlank_name hname text)) (h.named hname.1 htext)

theorem exceeds_wholeCall_name (hname : IsFunctionName name) (htext : text.head?.any isRest = false)
    (h : Exceeds (wholeCallBehind limit) depth text) :
    Exceeds (wholeCall limit) depth (name.toList ++ text) := by
  rw [wholeCall_eq]
  exact .bind_next (reads_noBlanks (noBlank_name hname text)) (h.named hname.1 htext)

/-- A call has its parenthesis directly behind the name. -/
theorem refuses_wholeCall_blank (hname : IsFunctionName name) (text : List Char) :
    Refuses (wholeCall limit) depth (name.toList ++ ' ' :: text) :=
  refuses_wholeCall_name hname rfl (.bind_first (.bind_first (refuses_expect rfl)))

theorem refuses_wholeCall_noStart (hblank : text.head?.any isBlank = false)
    (hstart : text.head?.any isStart = false) : Refuses (wholeCall limit) depth text := by
  have hcall : Refuses (function (innerAt limit limit)) depth text := refuses_function hstart
  exact .bind_next (reads_noBlanks hblank) hcall.bind_first

end

section
variable {levels : Nat} {text text' rest : List Char} {l : Location}
  (hcall : Refuses (wholeCall (levels + 1)) 0 text) (hblank : text.head?.any isBlank = false)
include hcall hblank

theorem same_expression (hcall' : Refuses (wholeCall (levels + 1)) 0 text')
    (hblank' : text'.head?.any isBlank = false)
    (h : SameOutcome (union (innerAt (levels + 1) levels)) 1 (fun _ => Eq) text text') :
    SameOutcome (expression (levels + 1)) 0 (fun _ => Eq) text text' := by
  have hgrown := discipline_grown.follows_wholeCall (levels + 1)
  have hwhole : SameOutcome (wholeLocation (levels + 1)) 0 (fun _ => Eq) text text' := by
    rw [wholeLocation_eq]
    exact .bind_next (reads_noBlanks hblank) (reads_noBlanks hblank')
      (h.nested (Nat.zero_lt_succ levels))
  have hend : Settled expectEnd := Alone.settled fun before shift => .expectEnd rfl
  refine .bind_next (hcall.attempt hgrown) (hcall'.attempt hgrown) ?_
  refine (hwhole.attempt (D := fun _ _ => True) (discipline_grown.follows_wholeLocation _)
    trivial).bind fun found rest rest' _ hrest => ?_
  cases found with
  | none => exact .refuses (refuses_fail rfl) (refuses_fail rfl)
  | some l =>
    obtain rfl : rest = rest' := hrest
    exact (hend.bind fun _ => .pure (Expression.location l)).same 0 rest

/-- Nothing is read as a query of which nothing is read as a location. -/
theorem refuses_expression (h : Refuses (union (innerAt (levels + 1) levels)) 1 text) :
    Refuses (expression (levels + 1)) 0 text := by
  have hwhole : Refuses (wholeLocation (levels + 1)) 0 text := by
    rw [wholeLocation_eq]
    exact .bind_next (reads_noBlanks hblank) (.nested (Nat.zero_lt_succ levels) h)
  exact .bind_next (hcall.attempt (discipline_grown.follows_wholeCall _))
    (.bind_next (hwhole.attempt (discipline_grown.follows_wholeLocation _)) (refuses_fail rfl))

/-- A location with more than blanks behind it is no query. -/
theorem refuses_expression_rest (h : Reads (union (innerAt (levels + 1) levels)) 1 text l rest)
    (hrest : rest.dropWhile isBlank ≠ []) : Refuses (expression (levels + 1)) 0 text := by
  have hwhole : Reads (wholeLocation (levels + 1)) 0 text l rest := by
    rw [wholeLocation_eq]
    exact (reads_noBlanks hblank).bind (h.nested (Nat.zero_lt_succ levels))
  have hend : Refuses expectEnd 0 rest := by
    intro s hs
    refine ⟨.endOfInput, s.pass (s.cursor.rest.takeWhile isBlank).length, ?_, rfl⟩
    rw [expectEnd_run, if_neg (hs.text ▸ hrest)]
  exact .bind_next (hcall.attempt (discipline_grown.follows_wholeCall _))
    (.bind_next hwhole.attempt hend.bind_first)

end

end Grammar

section
variable {limit : Nat} {query : String} {text rest : List Char} (htext : query.toList = text)
include htext

theorem parse_of_reads {e : Expression} (h : Reads (expression limit) 0 text e rest) :
    (parse limit query).result = .ok e := by
  obtain ⟨t, hrun, -⟩ := h (.start query.toList) ⟨rfl, htext⟩
  rw [parse, hrun]

theorem parse_of_refuses (h : Refuses (expression limit) 0 text) :
    ∃ e, (parse limit query).result = .error e ∧ e.isFatal = false := by
  obtain ⟨reason, t, hrun, hr⟩ := h (.start query.toList) ⟨rfl, htext⟩
  refine ⟨.ofState reason t, ?_, hr⟩
  rw [parse, hrun]

theorem parse_ne_ok_of_refuses (h : Refuses (expression limit) 0 text) (e : Expression) :
    (parse limit query).result ≠ .ok e := by
  intro hok
  obtain ⟨e', he', -⟩ := parse_of_refuses htext h
  cases hok.symm.trans he'

theorem parse_of_exceeds (h : Exceeds (expression limit) 0 text) : (parse limit query).TooDeep := by
  obtain ⟨reason, t, hrun, hr⟩ := h (.start query.toList) ⟨rfl, htext⟩
  refine ⟨.ofState reason t, ?_, hr⟩
  rw [parse, hrun]

/-- A query that is no call is a location, if it can be read. -/
theorem location_of_refuses {e : Expression} (hcall : Refuses (wholeCall limit) 0 text)
    (h : (parse limit query).result = .ok e) : ∃ l, e = .location l := by
  cases e with
  | location l => exact ⟨l, rfl⟩
  | function f =>
    rw [parse] at h
    cases hrun : expression limit (.start query.toList) with
    | error reason u => rw [hrun] at h; cases h
    | ok e u =>
      rw [hrun] at h
      cases h
      obtain ⟨t, hnone, -⟩ := hcall.attempt (discipline_grown.follows_wholeCall limit)
        (.start query.toList) ⟨rfl, htext⟩
      rw [expression, bind_of_ok hnone] at hrun
      obtain ⟨found, v, -, hend⟩ := bind_ok hrun
      cases found with
      | none => cases hend
      | some l => obtain ⟨_, w, -, hpure⟩ := bind_ok hend; cases hpure

end

theorem Grammar.SameOutcome.parse {limit : Nat} {query query' : String}
    {E : Expression → List Char → List Char → Prop} {e : Expression}
    (h : SameOutcome (expression limit) 0 E query.toList query'.toList)
    (hok : (parse limit query).result = .ok e) : (parse limit query').result = .ok e := by
  cases h with
  | reads hread hread' _ =>
    obtain ⟨⟩ := hok.symm.trans (parse_of_reads rfl hread)
    exact parse_of_reads rfl hread'
  | refuses hno _ => exact absurd hok (parse_ne_ok_of_refuses rfl hno e)
  | exceeds hno _ =>
    obtain ⟨e', he', -⟩ := parse_of_exceeds rfl hno
    cases hok.symm.trans he'

theorem Grammar.SameOutcome.tooDeep {limit : Nat} {query query' : String}
    {E : Expression → List Char → List Char → Prop}
    (h : SameOutcome (expression limit) 0 E query.toList query'.toList)
    (hdeep : (OutlineQuery.parse limit query).TooDeep) :
    (OutlineQuery.parse limit query').TooDeep := by
  obtain ⟨e, he, hfatal⟩ := hdeep
  cases h with
  | reads hread _ _ => cases he.symm.trans (parse_of_reads rfl hread)
  | refuses hno _ =>
    obtain ⟨e', he', hopen⟩ := parse_of_refuses rfl hno
    obtain ⟨⟩ := he.symm.trans he'
    cases hopen.symm.trans hfatal
  | exceeds _ hno => exact parse_of_exceeds rfl hno

section
variable {levels : Nat} {query : String} {text rest : List Char} {l : Location}
  (htext : query.toList = text) (hcall : Refuses (wholeCall (levels + 1)) 0 text)
  (hblank : text.head?.any isBlank = false)
include htext hcall hblank

theorem parse_of_union (h : Reads (union (innerAt (levels + 1) levels)) 1 text l rest)
    (hrest : ∀ c ∈ rest, isBlank c = true) :
    (parse (levels + 1) query).result = .ok (.location l) := by
  have hwhole : Reads (wholeLocation (levels + 1)) 0 text l rest := by
    rw [wholeLocation_eq]
    exact (reads_noBlanks hblank).bind (h.nested (Nat.zero_lt_succ levels))
  have hskip : Reads skipBlanks 0 rest () (rest.dropWhile isBlank) := reads_skipBlanks
  rw [List.dropWhile_eq_nil_iff.mpr hrest] at hskip
  have hatEnd : Reads atEnd 0 [] true [] := reads_remaining.bind (.pure true)
  have hend : Reads expectEnd 0 rest () [] := hskip.bind (hatEnd.bind (.pure ()))
  exact parse_of_reads htext ((hcall.attempt (discipline_grown.follows_wholeCall _)).bind
    (hwhole.attempt.bind (hend.bind (.pure _))))

theorem tooDeep_of_union (h : Exceeds (union (innerAt (levels + 1) levels)) 1 text) :
    (parse (levels + 1) query).TooDeep := by
  have hwhole : Exceeds (wholeLocation (levels + 1)) 0 text := by
    rw [wholeLocation_eq]
    exact .bind_next (reads_noBlanks hblank) (h.nested (Nat.zero_lt_succ levels))
  exact parse_of_exceeds htext
    (.bind_next (hcall.attempt (discipline_grown.follows_wholeCall _)) hwhole.attempt.bind_first)

end

/-- A group by itself is no call, so it is read as a location. -/
theorem group_read {limit : Nat} {p : String} {e : Expression}
    (h : (parse limit ("(" ++ p ++ ")")).result = .ok e) : ∃ levels l rest, limit = levels + 1 ∧
      Reads (union (innerAt limit levels)) 1 ('(' :: (p.toList ++ [')'])) l rest ∧
      ∀ c ∈ rest, isBlank c = true := by
  have htext : ("(" ++ p ++ ")").toList = '(' :: (p.toList ++ [')']) := by simp
  obtain ⟨l, rfl⟩ := location_of_refuses htext (refuses_wholeCall_noStart rfl rfl) h
  obtain ⟨levels, t, rfl, hread, -⟩ := parse_location h
  have hsettled := (alone_union (alone_levels (levels + 1) levels).2).settled
  have hunion : Reads (union (innerAt (levels + 1) levels)) 1 ("(" ++ p ++ ")").toList l
      t.cursor.rest := hsettled.reads_of_run hread.union
  rw [htext] at hunion
  exact ⟨levels, l, t.cursor.rest, rfl, hunion, hread.rest⟩

theorem isFunctionName_groupWords : ∀ word ∈ groupWords, IsFunctionName word := by decide +kernel

section
variable {levels : Nat} {p word : String} {l : Location} {rest : List Char}
  (h : Reads (union (innerAt (levels + 1) levels)) 1 ('(' :: (p.toList ++ [')'])) l rest)
  (hrest : ∀ c ∈ rest, isBlank c = true)
include h hrest

/-- Either the word keeps its meaning, or any name in its place is the name of a call, or with any
name the limit is exceeded. -/
theorem parse_groupWord (hword : word ∈ groupWords) : ∃ l',
    (parse (levels + 1) (word ++ " (" ++ p ++ ")")).result = .ok (.location l') ∧
    ((parse (levels + 1) (word ++ "(" ++ p ++ ")")).result = .ok (.location l') ∨
      (∃ q, ∀ name, IsFunctionName name →
        (parse (levels + 1) (name ++ "(" ++ p ++ ")")).result = .ok (.function ⟨name, q⟩)) ∨
      ∀ name, IsFunctionName name → (parse (levels + 1) (name ++ "(" ++ p ++ ")")).TooDeep) := by
  have hname := isFunctionName_groupWords word hword
  obtain ⟨l', hl'⟩ := reads_group_behind (alone_levels (levels + 1) levels).2 hword h
  have hspaced : (word ++ " (" ++ p ++ ")").toList =
      word.toList ++ ([' '] ++ '(' :: (p.toList ++ [')'])) := by simp
  have htight (name : String) : (name ++ "(" ++ p ++ ")").toList =
      name.toList ++ '(' :: (p.toList ++ [')']) := by simp
  refine ⟨l', ?_, ?_⟩
  · exact parse_of_union hspaced (refuses_wholeCall_blank hname _) (noBlank_name hname _)
      (hl' [' '] (.inr rfl)) hrest
  · obtain ⟨q, last, hq⟩ | hno | hno :=
      settled_wholeCallBehind (levels + 1) 0 ('(' :: (p.toList ++ [')']))
    · refine .inr (.inl ⟨q, fun name hname => ?_⟩)
      have hcall := reads_wholeCall_name hname rfl hq
      exact parse_of_reads (htight name) (hcall.attempt.bind (.pure _))
    · exact .inl (parse_of_union (htight word) (refuses_wholeCall_name hname rfl hno)
        (noBlank_name hname _) (hl' [] (.inl rfl)) hrest)
    · refine .inr (.inr fun name hname => ?_)
      have hcall := exceeds_wholeCall_name hname rfl hno
      exact parse_of_exceeds (htight name) hcall.attempt.bind_first

omit h hrest in
theorem toList_letterWord : ("x " ++ word ++ "(" ++ p ++ ")").toList =
    'x' :: ' ' :: (word.toList ++ ([] ++ '(' :: (p.toList ++ [')']))) := by simp

omit h hrest in
theorem toList_equalsName (name : String) : ("=" ++ name ++ "(" ++ p ++ ")").toList =
    '=' :: (name.toList ++ '(' :: (p.toList ++ [')'])) := by simp

omit h hrest in
theorem refuses_wholeCall_letter (limit : Nat) (text : List Char) :
    Refuses (wholeCall limit) 0 ('x' :: ' ' :: text) := by
  have hname : IsFunctionName "x" := by decide
  exact refuses_wholeCall_blank hname text

omit h hrest in
theorem isIdentifier_joiningWords : ∀ word ∈ ["and", "or"], IsIdentifier word.toList := by decide

section
variable (hword : word ∈ ["and", "or"])
include hword

/-- The string is compared with a call, as the text of the row is behind an operator. -/
theorem parse_letterAgainst {q : Location} {last : List Char}
    (hq : Reads (callBehind (innerAt (levels + 1) levels)) 1 ('(' :: (p.toList ++ [')'])) q last) :
    ∃ make : Predicate → Location, (∀ c, (make c).first = some c.first) ∧
      (parse (levels + 1) ("x " ++ word ++ "(" ++ p ++ ")")).result =
        .ok (.location (make (letterAgainst ⟨word, q⟩))) ∧
      ∀ name, IsFunctionName name → (parse (levels + 1) ("=" ++ name ++ "(" ++ p ++ ")")).result =
        .ok (.location (make (textEquals ⟨name, q⟩))) := by
  have hi := (alone_levels (levels + 1) levels).2
  obtain ⟨make, hview, hagain⟩ := reads_group_replaced hi h hq
  refine ⟨make, hview, ?_, fun name hname => ?_⟩
  · have hcall := reads_function_of_callBehind (isIdentifier_joiningWords word hword) hq
    have hletter := reads_letterAgainst hi.follows (endsComparison_group hword (.inl rfl) _) hcall
    exact parse_of_union toList_letterWord (refuses_wholeCall_letter _ _) rfl
      (hagain _ _ (opensTest_letter _) hletter) hrest
  · have hequals := reads_textEquals hi.follows (noBlank_name hname _) (noBracket_name hname _)
      (reads_function_of_callBehind hname.1 hq)
    exact parse_of_union (toList_equalsName name) (refuses_wholeCall_noStart rfl rfl) rfl
      (hagain _ _ (opensTest_equals _) hequals) hrest

omit h hrest in
theorem tooDeep_letterAgainst
    (hno : Exceeds (callBehind (innerAt (levels + 1) levels)) 1 ('(' :: (p.toList ++ [')']))) :
    (parse (levels + 1) ("x " ++ word ++ "(" ++ p ++ ")")).TooDeep ∧
      ∀ name, IsFunctionName name →
        (parse (levels + 1) ("=" ++ name ++ "(" ++ p ++ ")")).TooDeep := by
  have hi := (alone_levels (levels + 1) levels).2
  refine ⟨?_, fun name hname => ?_⟩
  · have hcall := exceeds_function_of_callBehind (isIdentifier_joiningWords word hword) hno
    have hletter := exceeds_letter hi.follows (endsComparison_group hword (.inl rfl) _) hcall
    exact tooDeep_of_union toList_letterWord (refuses_wholeCall_letter _ _) rfl
      ((leads_negation hi).exceeds (opensTest_letter _) hletter)
  · have hequals := exceeds_textEquals hi.follows (noBlank_name hname _) (noBracket_name hname _)
      (exceeds_function_of_callBehind hname.1 hno)
    exact tooDeep_of_union (toList_equalsName name) (refuses_wholeCall_noStart rfl rfl) rfl
      ((leads_negation hi).exceeds (opensTest_equals _) hequals)

/-- Either the word joins the string and the group, or any name in its place is the name of a call
that something is compared with, or with any name the limit is exceeded. -/
theorem parse_letterWord : ∃ l',
    (parse (levels + 1) ("x " ++ word ++ " (" ++ p ++ ")")).result = .ok (.location l') ∧
    ((parse (levels + 1) ("x " ++ word ++ "(" ++ p ++ ")")).result = .ok (.location l') ∨
      (∃ q, ∃ make : Predicate → Location, (∀ c, (make c).first = some c.first) ∧
        (parse (levels + 1) ("x " ++ word ++ "(" ++ p ++ ")")).result =
          .ok (.location (make (letterAgainst ⟨word, q⟩))) ∧
        ∀ name, IsFunctionName name → (parse (levels + 1) ("=" ++ name ++ "(" ++ p ++ ")")).result =
          .ok (.location (make (textEquals ⟨name, q⟩)))) ∨
      (parse (levels + 1) ("x " ++ word ++ "(" ++ p ++ ")")).TooDeep ∧
        ∀ name, IsFunctionName name →
          (parse (levels + 1) ("=" ++ name ++ "(" ++ p ++ ")")).TooDeep) := by
  have hi := (alone_levels (levels + 1) levels).2
  have hname := isIdentifier_joiningWords word hword
  have hspaced : ("x " ++ word ++ " (" ++ p ++ ")").toList =
      'x' :: ' ' :: (word.toList ++ ([' '] ++ '(' :: (p.toList ++ [')']))) := by simp
  have hblank : Refuses (function (innerAt (levels + 1) levels)) 1
      (word.toList ++ ([' '] ++ '(' :: (p.toList ++ [')']))) :=
    refuses_function_name hname rfl (by simp)
  obtain ⟨l', hl'⟩ := reads_group_joined hi hword h
  refine ⟨l', ?_, ?_⟩
  · exact parse_of_union hspaced (refuses_wholeCall_letter _ _) rfl
      (hl' [' '] (.inr rfl) hblank) hrest
  · obtain ⟨q, last, hq⟩ | hno | hno := settled_callBehind hi 1 ('(' :: (p.toList ++ [')']))
    · exact .inr (.inl ⟨q, parse_letterAgainst h hrest hword hq⟩)
    · have hnoCall := refuses_function_of_callBehind hname hno
      exact .inl (parse_of_union toList_letterWord (refuses_wholeCall_letter _ _) rfl
        (hl' [] (.inl rfl) hnoCall) hrest)
    · exact .inr (.inr (tooDeep_letterAgainst hword hno))

end
end

/-- A word directly before a group keeps its meaning unless it is read as the name of a function.
With a blank before the group it always keeps it. Without one, `not` and the long spellings of the
axes are read as with the blank, unless the query is a call of any name in their place, theirs
among them, or exceeds the limit with any. Behind a string, `and` and `or` are read as with the
blank, unless they are the name of a call that the string is compared with, as any name behind an
operator would be, or the limit is exceeded, as it would be with any name there. -/
theorem words_before_groups (limit : Nat) (p : String) (e : Expression)
    (h : (parse limit ("(" ++ p ++ ")")).result = .ok e) :
    (∀ word ∈ groupWords, IsFunctionName word ∧ ∃ e',
      (parse limit (word ++ " (" ++ p ++ ")")).result = .ok e' ∧
      ((parse limit (word ++ "(" ++ p ++ ")")).result = .ok e' ∨
        (∃ q, ∀ name, IsFunctionName name →
          (parse limit (name ++ "(" ++ p ++ ")")).result = .ok (.function ⟨name, q⟩)) ∨
        ∀ name, IsFunctionName name → (parse limit (name ++ "(" ++ p ++ ")")).TooDeep)) ∧
    ∀ word ∈ ["and", "or"], ∃ e',
      (parse limit ("x " ++ word ++ " (" ++ p ++ ")")).result = .ok e' ∧
      ((parse limit ("x " ++ word ++ "(" ++ p ++ ")")).result = .ok e' ∨
        (∃ q, ∃ make : Predicate → Location, (∀ c, (make c).first = some c.first) ∧
          (parse limit ("x " ++ word ++ "(" ++ p ++ ")")).result =
            .ok (.location (make (letterAgainst ⟨word, q⟩))) ∧
          ∀ name, IsFunctionName name → (parse limit ("=" ++ name ++ "(" ++ p ++ ")")).result =
            .ok (.location (make (textEquals ⟨name, q⟩)))) ∨
        (parse limit ("x " ++ word ++ "(" ++ p ++ ")")).TooDeep ∧ ∀ name, IsFunctionName name →
          (parse limit ("=" ++ name ++ "(" ++ p ++ ")")).TooDeep) := by
  obtain ⟨levels, l, rest, rfl, hread, hrest⟩ := group_read h
  refine ⟨fun word hword => ?_, fun word hword => ?_⟩
  · obtain ⟨l', houtcome⟩ := parse_groupWord hread hrest hword
    exact ⟨isFunctionName_groupWords word hword, .location l', houtcome⟩
  · obtain ⟨l', houtcome⟩ := parse_letterWord hread hrest hword
    exact ⟨.location l', houtcome⟩

/-- In `not(a)and(b)` no call is all of the query, so the word keeps its meaning. -/
theorem not_before_conjunction : (∃ e, (parse 32 "(a)and(b)").result = .ok e) ∧
    ∃ e, (parse 32 "not (a)and(b)").result = .ok e ∧
      (parse 32 "not(a)and(b)").result = .ok e := by
  obtain ⟨e, he, -⟩ := exists_read (r := (parse 32 "(a)and(b)").result) (q := fun _ => true)
    (by decide +kernel)
  obtain ⟨_ | m, hm, htest⟩ := exists_read (r := (parse 32 "not(a)and(b)").result)
    (q := Expression.isLocation) (by decide +kernel)
  · cases htest
  obtain ⟨hgroups, -⟩ := words_before_groups 32 "a)and(b" e he
  obtain ⟨hname, e', hspaced, hsame | ⟨q, hcall⟩ | hdeep⟩ := hgroups "not" (by decide)
  · exact ⟨⟨e, he⟩, e', hspaced, hsame⟩
  · have hfunction := hcall "not" hname
    exact absurd (hm.symm.trans hfunction) (by simp)
  · obtain ⟨error, herror, -⟩ := hdeep "not" hname
    exact absurd (hm.symm.trans herror) (by simp)

/-- Directly before a group `not` is the name of a function, and with a blank it is not. -/
theorem not_as_name : (∃ e, (parse 32 "(a)").result = .ok e) ∧
    (parse 32 "not(a)").result ≠ (parse 32 "not (a)").result := by
  obtain ⟨e, he, -⟩ := exists_read (r := (parse 32 "(a)").result) (q := fun _ => true)
    (by decide +kernel)
  obtain ⟨f, hf, hcall⟩ := exists_read (r := (parse 32 "not(a)").result)
    (q := (!·.isLocation)) (by decide +kernel)
  obtain ⟨m, hm, hlocation⟩ := exists_read (r := (parse 32 "not (a)").result)
    (q := Expression.isLocation) (by decide +kernel)
  refine ⟨⟨e, he⟩, fun hsame => ?_⟩
  rw [hf, hm] at hsame
  cases hsame
  cases f with
  | function call => cases hlocation
  | location l => cases hcall

end OutlineQuery
