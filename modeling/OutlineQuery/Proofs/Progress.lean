import OutlineQuery.Proofs.Advancing
import OutlineQuery.Proofs.OperatorChains
import OutlineQuery.Proofs.Tracking

/-! Why reading comes to an end. Whatever succeeds has taken up part of the text, so no loop goes on
without progress, and what stands between parentheses is read behind the place where the reading
around it began. The numbers that bound loops and nesting in the grammar therefore decide nothing:
the loops are the unbounded ones, and levels of nesting that neither the limit nor the length of the
text allows for are never entered. -/

namespace OutlineQuery.Grammar
open Production Text

def Repeats {α : Type} (item : Production (Option α)) (loop : Production (List α)) : Prop :=
  loop = do
    match ← item with
    | some a => return a :: (← loop)
    | none => return []

def GoesOn {α : Type} (item : Production (Option α)) : Prop :=
  ∀ s a t, item s = .ok (some a) t → s.cursor.offset < t.cursor.offset

def nextWhere (test : Char → Bool) : Production (Option Char) := do
  match ← remaining with
  | [] => return none
  | c :: _ =>
    if test c then
      pass 1
      return some c
    else return none

def charactersWhere (test : Char → Bool) : Production (List Char) := do
  let run := (← remaining).takeWhile test
  pass run.length
  return run

/-- What is meant by a character of a string between quotes, once it is passed: itself, the end of
the string, or with what comes behind it another character. -/
def quotedCharacter (c : Char) (behind : List Char) : Production (Option Char) :=
  if c = '"' then return none
  else if c = '\\' then
    match behind with
    | [] => fail .escapeAtEnd
    | e :: _ => do
      pass 1
      match unescape? e with
      | some d => return some d
      | none => fail (.escape e)
  else return some c

def nextQuoted : Production (Option Char) := do
  match ← remaining with
  | [] => fail (.text "\"")
  | c :: behind =>
    pass 1
    quotedCharacter c behind

def quotedRest : Production (List Char) := do
  let body := quotedBody (← remaining)
  pass body.1
  match body.2 with
  | .ok text => return text
  | .error reason => fail reason

section
variable {α : Type} {item : Production (Option α)} {loop loop' : Production (List α)}

/-- Since less of the text is left each time, there is one such loop only. -/
theorem Repeats.eq (hg : item.Follows Grown) (hitem : GoesOn item) (h : Repeats item loop)
    (h' : Repeats item loop') : loop = loop' := by
  funext s
  induction hn : s.cursor.rest.length using Nat.strongRecOn generalizing s with
  | ind length ih =>
    rw [h, h']
    cases hrun : item s with
    | error reason t => rw [bind_of_error hrun, bind_of_error hrun]
    | ok found t =>
      rw [bind_of_ok hrun, bind_of_ok hrun]
      cases found with
      | none => rfl
      | some a =>
        have hgrown := hg s
        rw [finish_of_ok hrun] at hgrown
        have hlt := hgrown.shorter_iff.mpr (hitem s a t hrun)
        exact bind_congr_run (ih _ (hn ▸ hlt) t rfl) _

theorem repeats_many (h : Consumes item) : Repeats item (many item) := funext (many_eq h)

theorem goesOn_of_consumes (hg : item.Follows Grown) (h : Consumes item) : GoesOn item := by
  intro s a t hrun
  have hgrown := hg s
  rw [finish_of_ok hrun] at hgrown
  exact hgrown.shorter_iff.mp (h.shorter hrun)

end

section
variable {test : Char → Bool}

theorem silent_nextWhere : (nextWhere test).Silent := by
  refine silent_remaining.bind fun rest => ?_
  cases rest with
  | nil => exact .pure none
  | cons c text =>
    dsimp only
    split
    · exact (silent_pass 1).bind fun _ => .pure _
    · exact .pure none

theorem goesOn_nextWhere : GoesOn (nextWhere test) := by
  intro s a t h
  rw [nextWhere, remaining_bind_run] at h
  cases hrest : s.cursor.rest with
  | nil => rw [hrest] at h; cases h
  | cons c text =>
    rw [hrest] at h
    dsimp only at h
    split at h
    · cases h
      exact Cursor.offset_lt_advance Nat.one_pos (by simp [hrest])
    · cases h

theorem charactersWhere_run (s : State) : charactersWhere test s =
    .ok (s.cursor.rest.takeWhile test) (s.pass (s.cursor.rest.takeWhile test).length) :=
  rfl

theorem repeats_charactersWhere : Repeats (nextWhere test) (charactersWhere test) := by
  funext s
  rw [charactersWhere_run]
  cases hrest : s.cursor.rest with
  | nil =>
    have hnone : nextWhere test s = .ok none s := by
      rw [nextWhere, remaining_bind_run, hrest]
      rfl
    rw [bind_of_ok hnone]
    exact congrArg (EStateM.Result.ok []) (pass_zero s)
  | cons c text =>
    have hrest' : (s.pass 1).cursor.rest = text := by
      rw [rest_pass, hrest]
      rfl
    by_cases hc : test c = true
    · have hsome : nextWhere test s = .ok (some c) (s.pass 1) := by
        rw [nextWhere, remaining_bind_run, hrest]
        exact congrFun (if_pos hc) s
      have hloop : charactersWhere test (s.pass 1) =
          .ok (text.takeWhile test) ((s.pass 1).pass (text.takeWhile test).length) := by
        rw [charactersWhere_run, hrest']
      have hagain : (do return c :: (← charactersWhere test) : Production (List Char)) (s.pass 1) =
          .ok (c :: text.takeWhile test) ((s.pass 1).pass (text.takeWhile test).length) :=
        bind_of_ok hloop
      rw [bind_of_ok hsome, List.takeWhile_cons, if_pos hc, List.length_cons, Nat.add_comm,
        ← pass_pass]
      exact hagain.symm
    · have hnone : nextWhere test s = .ok none s := by
        rw [nextWhere, remaining_bind_run, hrest]
        exact congrFun (if_neg hc) s
      rw [bind_of_ok hnone, List.takeWhile_cons, if_neg hc]
      exact congrArg (EStateM.Result.ok []) (pass_zero s)

end

def identifierWith (loop : Production (List Char)) : Production (List Char) := do
  match ← remaining with
  | [] => fail .identifierAtEnd
  | c :: _ =>
    if isStart c then
      pass 1
      return c :: (← loop)
    else fail .identifier

def integerWith (loop : Production (List Char)) : Production Int64 := do
  let negative ← skip "-"
  let digits ← loop
  if digits.isEmpty then fail .digit
  else
    let n : Int := if negative then -digitsValue digits else digitsValue digits
    if Int64.minValue.toInt ≤ n ∧ n ≤ Int64.maxValue.toInt then return .ofInt n
    else fail .integerRange

theorem identifier_eq : identifier = identifierWith (charactersWhere isRest) := by
  funext s
  rw [identifier, identifierWith, remaining_bind_run, remaining_bind_run]
  cases hrest : s.cursor.rest with
  | nil => rfl
  | cons c text =>
    dsimp only
    split
    · have hrun : charactersWhere isRest (s.pass 1) =
          .ok (text.takeWhile isRest) ((s.pass 1).pass (text.takeWhile isRest).length) := by
        rw [charactersWhere_run, rest_pass, hrest]
        rfl
      rw [pass_bind_run, pass_bind_run, bind_of_ok hrun, pass_pass, Nat.add_comm 1]
      rfl
    · rfl

theorem integer_eq : integer = integerWith (charactersWhere Char.isDigit) := by
  refine bind_congr fun negative => ?_
  funext s
  rw [remaining_bind_run, bind_of_ok (charactersWhere_run s)]
  dsimp only
  split
  · rename_i hdigits
    rw [List.isEmpty_iff] at hdigits
    rw [hdigits]
    exact congrArg (EStateM.Result.error Reason.digit) (pass_zero s).symm
  · rfl

theorem silent_quotedCharacter (c : Char) (behind : List Char) :
    (quotedCharacter c behind).Silent := by
  rw [quotedCharacter.eq_def]
  split
  · exact .pure none
  · split
    · cases behind with
      | nil => exact .fail _
      | cons e text =>
        refine (silent_pass 1).bind fun _ => ?_
        cases unescape? e with
        | some d => exact .pure _
        | none => exact .fail _
    · exact .pure _

theorem silent_nextQuoted : nextQuoted.Silent := by
  refine silent_remaining.bind fun rest => ?_
  cases rest with
  | nil => exact .fail _
  | cons c behind => exact (silent_pass 1).bind fun _ => silent_quotedCharacter c behind

section
variable {s : State} {c : Char} {behind : List Char} (hrest : s.cursor.rest = c :: behind)
include hrest

theorem nextQuoted_run : nextQuoted s = quotedCharacter c behind (s.pass 1) := by
  rw [nextQuoted, remaining_bind_run, hrest]
  rfl

theorem rest_pass_one : (s.pass 1).cursor.rest = behind := by
  rw [rest_pass, hrest]
  rfl

end

theorem goesOn_nextQuoted : GoesOn nextQuoted := by
  intro s a t h
  cases hrest : s.cursor.rest with
  | nil =>
    rw [nextQuoted, remaining_bind_run, hrest] at h
    cases h
  | cons c behind =>
    rw [nextQuoted_run hrest] at h
    have hlt : s.cursor.offset < (s.pass 1).cursor.offset :=
      Cursor.offset_lt_advance Nat.one_pos (by simp [hrest])
    have hle := (follows_grown_of_silent (silent_quotedCharacter c behind) (s.pass 1)).offset_le
    rw [finish_of_ok h] at hle
    omega

theorem quotedRest_run (s : State) : quotedRest s = match (quotedBody s.cursor.rest).2 with
    | .ok text => .ok text (s.pass (quotedBody s.cursor.rest).1)
    | .error reason => .error reason (s.pass (quotedBody s.cursor.rest).1) := by
  rw [quotedRest, remaining_bind_run, pass_bind_run]
  cases (quotedBody s.cursor.rest).2 <;> rfl

/-- The rest of a string with so many characters in front that stand for one. -/
theorem quotedRest_cons {s : State} {d : Char} {n : Nat}
    (h : quotedBody s.cursor.rest = ((quotedBody (s.pass n).cursor.rest).1 + n,
      (quotedBody (s.pass n).cursor.rest).2.map (d :: ·))) :
    quotedRest s = (do return d :: (← quotedRest) : Production (List Char)) (s.pass n) := by
  have hrun := quotedRest_run (s.pass n)
  rw [quotedRest_run, h]
  cases hbody : (quotedBody (s.pass n).cursor.rest).2 with
  | ok text =>
    rw [hbody] at hrun
    rw [bind_of_ok hrun, pass_pass, Nat.add_comm n]
    rfl
  | error reason =>
    rw [hbody] at hrun
    rw [bind_of_error hrun, pass_pass, Nat.add_comm n]
    rfl

theorem repeats_quotedRest : Repeats nextQuoted quotedRest := by
  funext s
  cases hrest : s.cursor.rest with
  | nil =>
    have hitem : nextQuoted s = .error (.text "\"") s := by
      rw [nextQuoted, remaining_bind_run, hrest]
      rfl
    rw [bind_of_error hitem, quotedRest_run, hrest]
    exact congrArg (EStateM.Result.error _) (pass_zero s)
  | cons c behind =>
    have hitem := nextQuoted_run hrest
    have hbehind := rest_pass_one hrest
    rw [quotedCharacter.eq_def] at hitem
    by_cases hquote : c = '"'
    · subst hquote
      rw [if_pos rfl] at hitem
      rw [bind_of_ok hitem, quotedRest_run, hrest, quotedBody_quote]
      rfl
    · rw [if_neg hquote] at hitem
      by_cases hslash : c = '\\'
      · subst hslash
        rw [if_pos rfl] at hitem
        cases behind with
        | nil =>
          rw [bind_of_error hitem, quotedRest_run, hrest]
          rfl
        | cons e text =>
          have htext := rest_pass_one hbehind
          rw [pass_pass] at htext
          dsimp only at hitem
          rw [pass_bind_run, pass_pass] at hitem
          cases he : unescape? e with
          | some d =>
            rw [he] at hitem
            rw [bind_of_ok hitem]
            exact quotedRest_cons (by rw [hrest, htext, quotedBody_escape he])
          | none =>
            have hbody : quotedBody ('\\' :: e :: text) = (2, .error (.escape e)) := by
              rw [quotedBody.eq_def]
              simp [he]
            rw [he] at hitem
            rw [bind_of_error hitem, quotedRest_run, hrest, hbody]
      · rw [if_neg hslash] at hitem
        rw [bind_of_ok hitem]
        exact quotedRest_cons (by rw [hrest, hbehind, quotedBody_plain hquote hslash])

inductive IsLoop (limit : Nat) : {α : Type} → Production (Option α) → Production (List α) → Prop
  | steps (levels : Nat) :
      IsLoop limit (nextStep (innerAt limit levels)) (many (nextStep (innerAt limit levels)))
  | operands {levels : Nat} {α : Type} {whole operand : Production α} {operator : Production Bool}
      {combine : α → α → α} (h : IsChain (innerAt limit levels) whole operand operator combine) :
      IsLoop limit (nextOperand operand operator) (many (nextOperand operand operator))
  | nots : IsLoop limit nextNot (many nextNot)
  | pieces : IsLoop limit nextPiece (many nextPiece)
  | quoted : IsLoop limit nextQuoted quotedRest
  | name : IsLoop limit (nextWhere isRest) (charactersWhere isRest)
  | digits : IsLoop limit (nextWhere Char.isDigit) (charactersWhere Char.isDigit)
  | blanks : IsLoop limit (nextWhere isBlank) blanks

theorem IsLoop.goes_on {limit : Nat} {α : Type} {item : Production (Option α)}
    {loop : Production (List α)} (h : IsLoop limit item loop) :
    item.Follows Grown ∧ GoesOn item ∧ Repeats item loop := by
  have hcharacters (test : Char → Bool) : (nextWhere test).Follows Grown ∧
      GoesOn (nextWhere test) ∧ Repeats (nextWhere test) (charactersWhere test) :=
    ⟨follows_grown_of_silent silent_nextWhere, goesOn_nextWhere, repeats_charactersWhere⟩
  have hmany {α : Type} {item : Production (Option α)} (hg : item.Follows Grown)
      (hc : Consumes item) : item.Follows Grown ∧ GoesOn item ∧ Repeats item (many item) :=
    ⟨hg, goesOn_of_consumes hg hc, repeats_many hc⟩
  cases h with
  | steps levels =>
    have hi : (innerAt limit levels).Follows Grown := discipline_grown.follows_innerAt limit levels
    exact hmany (discipline_grown.follows_nextStep hi) (consumes_nextStep hi)
  | operands h =>
    obtain ⟨hp, text, kind, hw, hk, rfl, -⟩ := h.eq_chain (discipline_grown.follows_innerAt _ _)
    exact hmany (discipline_grown.follows_nextOperand hp (discipline_grown.follows_word hw hk))
      (consumes_nextOperand hw hp)
  | nots => exact hmany discipline_grown.follows_nextNot consumes_nextNot
  | pieces => exact hmany discipline_grown.follows_nextPiece consumes_nextPiece
  | quoted =>
    exact ⟨follows_grown_of_silent silent_nextQuoted, goesOn_nextQuoted, repeats_quotedRest⟩
  | name => exact hcharacters isRest
  | digits => exact hcharacters Char.isDigit
  | blanks => exact hcharacters isBlank

def between (inner : Inner) : Inner := ⟨disjunction inner, do skipBlanks; union inner⟩

def Inner.within (limit : Nat) (inner : Inner) : Inner :=
  ⟨nested limit inner.predicate, nested limit (nested limit inner.argument)⟩

/-- The grammar between parentheses, so many times one within the other. Further in there is what
is given for it. -/
def unfolded (limit : Nat) (bottom : Inner) : Nat → Inner
  | 0 => bottom.within limit
  | k + 1 => (between (unfolded limit bottom k)).within limit

def expressionOver (limit : Nat) (inner : Inner) : Production Expression := do
  match ← attempt (do skipBlanks; let f ← function inner; expectEnd; return f) with
  | some f => return .function f
  | none =>
    match ← attempt (do skipBlanks; nested limit (do skipBlanks; union inner)) with
    | some l =>
      expectEnd
      return .location l
    | none => fail .expression

def Zone.left (limit depth levels length : Nat) : Zone where
  Holds s := s.depth = depth ∧ (s.cursor.rest.length < length ∨ limit ≤ depth + levels)
  grown {s t} hs h := by
    obtain ⟨n, hn⟩ := h.cursor
    refine ⟨h.depth.trans hs.1, hs.2.imp_left fun hlt => ?_⟩
    rw [hn, Cursor.rest_advance, List.length_drop]
    omega

theorem Zone.left_before (limit depth levels length : Nat) :
    (left limit depth levels (length + 1)).Before (left limit depth levels length) := by
  intro s t hs h hlt
  refine ⟨h.depth.trans hs.1, hs.2.imp_left fun hshort => ?_⟩
  have hless := h.shorter_iff.mpr hlt
  omega

section
variable {limit levels depth k length : Nat} {α : Type} {p q : Production α} {s : State}

theorem nested_tooDeep (h : limit ≤ s.depth) : nested limit p s = .error .tooDeep s := by
  rw [nested, if_neg (Nat.not_lt.mpr h)]

theorem location_tooDeep (h : limit ≤ s.depth) :
    location limit levels s = .error .tooDeep s := by
  cases levels with
  | zero => rw [location_zero]; rfl
  | succ levels => rw [location_succ, nested_tooDeep h]

theorem innerAt_tooDeep (h : limit ≤ s.depth) :
    (innerAt limit levels).predicate s = .error .tooDeep s ∧
      (innerAt limit levels).argument s = .error .tooDeep s := by
  cases levels with
  | zero => rw [innerAt_zero]; exact ⟨rfl, rfl⟩
  | succ levels =>
    rw [innerAt_succ]
    exact ⟨nested_tooDeep h, nested_tooDeep h⟩

/-- A level further in, one level less is allowed for. -/
theorem tracks_within (hp : Tracks 0 False (.left limit (depth + 1) k length) p q) :
    Tracks 0 False (.left limit depth (k + 1) length) (nested limit p) (nested limit q) := by
  have hdeeper {s : State} (hs : (Zone.left limit depth (k + 1) length).Holds s) :
      (Zone.left limit (depth + 1) k length).Holds { s with depth := s.depth + 1 } :=
    ⟨congrArg (· + 1) hs.1, hs.2.imp_right fun h => by omega⟩
  exact .nested (fun _ => Iff.rfl) hdeeper hp

theorem tracks_location {inner : Inner} (hlevels : limit ≤ depth + levels)
    (hinner : ∀ levels', limit ≤ depth + 1 + levels' →
      (innerAt limit levels').Tracks 0 False (.left limit (depth + 1) k k) inner) :
    Tracks 0 False (.left limit depth (k + 1) (k + 1)) (location limit levels)
      (nested limit (do skipBlanks; union inner)) := by
  cases levels with
  | zero =>
    refine .of_eq (discipline_grown.follows_location limit 0) fun {s} hs => ?_
    have hdeep : limit ≤ s.depth := by
      rw [hs.1]
      exact hlevels
    rw [location_tooDeep hdeep, nested_tooDeep hdeep]
  | succ levels =>
    rw [location_succ]
    have hunion := Tracks.union (Zone.left_before limit (depth + 1) k k)
      (hinner levels (by omega))
    exact tracks_within (Tracks.skipBlanks.bind fun _ => hunion)

end

/-- Where no level is left, it does not matter what there would be between parentheses. -/
theorem tracks_tooDeep {Z : Zone} (limit levels : Nat) (inner : Inner)
    (h : ∀ {s : State}, Z.Holds s → limit ≤ s.depth) :
    (innerAt limit levels).Tracks 0 False Z (inner.within limit) := by
  have hgrown := discipline_grown.follows_innerAt limit levels
  refine ⟨.of_eq hgrown.predicate fun {s} hs => ?_, .of_eq hgrown.argument fun {s} hs => ?_⟩
  · exact (nested_tooDeep (h hs)).trans (innerAt_tooDeep (h hs)).1.symm
  · exact (nested_tooDeep (h hs)).trans (innerAt_tooDeep (h hs)).2.symm

/-- By how many times one within the other the grammar is unfolded. -/
theorem tracks_unfolded (bottom : Inner) (limit k depth levels : Nat)
    (hlevels : limit ≤ depth + levels) :
    (innerAt limit levels).Tracks 0 False (.left limit depth k k) (unfolded limit bottom k) := by
  induction k generalizing depth levels with
  | zero =>
    refine tracks_tooDeep limit levels bottom fun {s} hs => ?_
    rw [hs.1]
    exact hs.2.resolve_left (Nat.not_lt_zero _)
  | succ k ih =>
    cases levels with
    | zero =>
      refine tracks_tooDeep limit 0 _ fun {s} hs => ?_
      rw [hs.1]
      exact hlevels
    | succ levels =>
      rw [innerAt_succ]
      refine ⟨tracks_within ?_, tracks_within ?_⟩
      · exact .disjunction (Zone.left_before limit (depth + 1) k k)
          (ih (depth + 1) levels (by omega))
      · have hleft : limit ≤ depth + 1 + levels := by omega
        have hlocation := tracks_location hleft fun levels' => ih (depth + 1 + 1) levels'
        refine hlocation.narrow fun {s} hs => ⟨hs.1, hs.2.imp_right fun h => ?_⟩
        omega

/-- Nesting is bounded by the limit and by the length of the text. -/
theorem expression_unfolded (bottom : Inner) {limit k : Nat} {text : String}
    (hk : min text.length limit ≤ k) :
    expression limit (.start text.toList) =
      expressionOver limit (unfolded limit bottom k) (.start text.toList) := by
  have hinner := tracks_unfolded bottom limit k
  have hcall : Tracks 0 False (.left limit 0 k (k + 1)) (wholeCall limit)
      (do skipBlanks; let f ← function (unfolded limit bottom k); expectEnd; return f) :=
    Tracks.skipBlanks.bind fun _ =>
      (Tracks.function (Zone.left_before limit 0 k k) (hinner 0 limit (by omega))).bind fun _ =>
      Tracks.expectEnd.map _
  have hlocation : Tracks 0 False (.left limit 0 k (k + 1)) (wholeLocation limit)
      (do skipBlanks; nested limit (do skipBlanks; union (unfolded limit bottom k))) := by
    refine Tracks.skipBlanks.bind fun _ => ?_
    refine (tracks_location (Nat.le_add_left limit 0) fun levels' => hinner 1 levels').narrow
      fun {s} hs => ⟨hs.1, hs.2.imp_right fun h => ?_⟩
    omega
  have hall : Tracks 0 False (.left limit 0 k (k + 1)) (expression limit)
      (expressionOver limit (unfolded limit bottom k)) :=
    hcall.alternative (fun f => .pure _) <|
      hlocation.alternative (fun l => Tracks.expectEnd.map _) (.fail _)
  have hstart : (Zone.left limit 0 k (k + 1)).Holds (.start text.toList) := by
    refine ⟨rfl, ?_⟩
    have hlength : (State.start text.toList).cursor.rest.length = text.length :=
      String.length_toList
    omega
  exact (hall.run_eq hstart).symm

/-- What stands between parentheses is read from behind the place where the production around them
began, so what would be read anywhere else does not matter. -/
theorem between_beyond {limit levels : Nat} {inner : Inner} {s : State}
    (h : ∀ t, Grown s t → s.cursor.offset < t.cursor.offset →
      inner.predicate t = (innerAt limit levels).predicate t ∧
        inner.argument t = (innerAt limit levels).argument t) :
    (between inner).predicate s = (between (innerAt limit levels)).predicate s ∧
      (between inner).argument s = (between (innerAt limit levels)).argument s ∧
      function inner s = function (innerAt limit levels) s := by
  have hgrown := discipline_grown.follows_innerAt limit levels
  have hinner : (innerAt limit levels).Tracks 0 False (.beyond s) inner :=
    ⟨.of_eq hgrown.predicate fun {t} ht => (h t ht.1 ht.2).1,
      .of_eq hgrown.argument fun {t} ht => (h t ht.1 ht.2).2⟩
  have hzone : (Zone.reached s).Before (.beyond s) := Zone.reached_before_beyond s
  have hargument : Tracks 0 False (.reached s) (between (innerAt limit levels)).argument
      (between inner).argument := Tracks.skipBlanks.bind fun _ => .union hzone hinner
  exact ⟨(Tracks.disjunction hzone hinner).run_eq (.refl s), hargument.run_eq (.refl s),
    (Tracks.function hzone hinner).run_eq (.refl s)⟩

/-- Reading ends by progress. What cannot succeed with nothing takes up part of the text; so does
each item that keeps a loop going, and the loops are the unbounded ones, without any other meaning.
What stands between parentheses is read further on than what stands around them. So the grammar need
not be unfolded more often than the text is long, nor more often than the limit allows. -/
theorem parsing_ends_by_progress (limit : Nat) :
    (∀ {α : Type} {p : Production α}, TakesUp limit p → ∀ s a t, p s = .ok a t →
      s.cursor.offset < t.cursor.offset) ∧
    (∀ {α : Type} {item : Production (Option α)} {loop : Production (List α)},
      IsLoop limit item loop →
      (∀ s a t, item s = .ok (some a) t → s.cursor.offset < t.cursor.offset) ∧
        Repeats item loop ∧ ∀ loop', Repeats item loop' → loop' = loop) ∧
    (quoted = (do expect "\""; quotedRest) ∧
      identifier = identifierWith (charactersWhere isRest) ∧
      integer = integerWith (charactersWhere Char.isDigit)) ∧
    (∀ levels inner s,
      (∀ t, Grown s t → s.cursor.offset < t.cursor.offset →
        inner.predicate t = (innerAt limit levels).predicate t ∧
          inner.argument t = (innerAt limit levels).argument t) →
      (between inner).predicate s = (between (innerAt limit levels)).predicate s ∧
        (between inner).argument s = (between (innerAt limit levels)).argument s ∧
        function inner s = function (innerAt limit levels) s) ∧
    ∀ (text : String) bottom k, min text.length limit ≤ k →
      expression limit (.start text.toList) =
        expressionOver limit (unfolded limit bottom k) (.start text.toList) := by
  refine ⟨fun hp => hp.advances, fun hloop => ?_, ⟨rfl, identifier_eq, integer_eq⟩,
    fun _ _ _ => between_beyond, fun _ bottom _ => expression_unfolded bottom⟩
  obtain ⟨hgrown, hgoes, hrepeats⟩ := hloop.goes_on
  exact ⟨hgoes, hrepeats, fun _ h => h.eq hgrown hgoes hrepeats⟩

/-- Two levels of parentheses in a text of seven characters. -/
theorem nestedCall_ends :
    let start := State.start "f((*) )".toList
    let elsewhere : Inner :=
      ⟨fun s => if s.cursor.offset = 0 then .ok .any s else (innerAt 32 9).predicate s,
        fun s => if s.cursor.offset = 0 then .error .axis s else (innerAt 32 9).argument s⟩
    (∃ f t, function (innerAt 32 9) start = .ok f t ∧ start.cursor.offset < t.cursor.offset) ∧
    (∃ t, nextNot (.start " not *".toList) = .ok (some ()) t ∧ 0 < t.cursor.offset) ∧
    function elsewhere start = function (innerAt 32 9) start ∧
    expression 32 start =
      expressionOver 32 (unfolded 32 ⟨pure .any, fail .axis⟩ 7) start := by
  intro start elsewhere
  obtain ⟨htakes, hloops, -, hbeyond, hunfolded⟩ := parsing_ends_by_progress 32
  refine ⟨?_, ?_, ?_, hunfolded "f((*) )" _ 7 (by decide)⟩
  · obtain ⟨f, t, hrun, -⟩ := exists_run (r := function (innerAt 32 9) start)
      (q := fun _ => true) (by decide +kernel)
    exact ⟨f, t, hrun, htakes (.function 9) start f t hrun⟩
  · obtain ⟨t, hrun⟩ : ∃ t, nextNot (.start " not *".toList) = .ok (some ()) t := ⟨_, rfl⟩
    exact ⟨t, hrun, (hloops .nots).1 _ () t hrun⟩
  · refine (hbeyond 9 elsewhere start fun t _ hlt => ?_).2.2
    have hne : t.cursor.offset ≠ 0 := Nat.ne_of_gt hlt
    exact ⟨if_neg hne, if_neg hne⟩

end OutlineQuery.Grammar
