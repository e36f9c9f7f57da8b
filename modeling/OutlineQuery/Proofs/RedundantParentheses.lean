import OutlineQuery.Proofs.SingleStep
import OutlineQuery.Proofs.Tracking
import OutlineQuery.Proofs.WordsAsNames

/-! Parentheses around a whole query. They change nothing of what is read, but each takes a level of
nesting. Within them the query is read so many levels further in, and it ends where the first
parenthesis closes. -/

namespace OutlineQuery
open Grammar Production Text

def parenthesized (n : Nat) (text : List Char) : List Char :=
  List.replicate n '(' ++ (text ++ List.replicate n ')')

namespace Grammar

theorem deeper_deeper (s : State) (m n : Nat) : (s.deeper m).deeper n = s.deeper (m + n) := by
  rw [State.deeper, State.deeper, State.deeper, Nat.add_assoc]

/-- Where the limit grows with the depth, the same levels are left. -/
theorem tracks_levels (n limit levels : Nat) :
    Tracks n False .everywhere (location limit levels) (location (limit + n) levels) ∧
      (innerAt limit levels).Tracks n False .everywhere (innerAt (limit + n) levels) := by
  have hlimit : ∀ {s : State}, Zone.everywhere.Holds s →
      (s.depth < limit ↔ s.depth + n < limit + n) := fun _ => (Nat.add_lt_add_iff_right).symm
  have hwithin : ∀ {s : State}, Zone.everywhere.Holds s →
      Zone.everywhere.Holds { s with depth := s.depth + 1 } := fun _ => trivial
  induction levels with
  | zero =>
    rw [location_zero, location_zero, innerAt_zero, innerAt_zero]
    exact ⟨.fail _, .fail _, .fail _⟩
  | succ levels ih =>
    obtain ⟨hlocation, hinner⟩ := ih
    have hsame : Zone.everywhere.Before .everywhere := Zone.before_self _
    rw [location_eq_union, location_eq_union, innerAt_succ, innerAt_succ]
    exact ⟨.nested hlimit hwithin (.union hsame hinner),
      .nested hlimit hwithin (.disjunction hsame hinner), .nested hlimit hwithin hlocation⟩

def beforeClosing (n : Nat) : Embedding := ⟨[], n, List.replicate n ')'⟩

theorem next_beforeClosing (n : Nat) : (beforeClosing n).next = List.replicate n ')' := by
  refine dropWhile_blank ?_
  cases n <;> rfl

theorem apart_beforeClosing (n : Nat) : (beforeClosing n).Apart := by
  cases n with
  | zero => exact Embedding.apart_of_nothing rfl
  | succ n =>
    have hnext : (beforeClosing (n + 1)).next = ')' :: List.replicate n ')' :=
      next_beforeClosing (n + 1)
    exact {
      edge := fun c hc => by
        cases hc
        decide
      string := fun depth => by
        rw [hnext]
        exact Refuses.string (by simp) (refuses_unquoted rfl rfl)
      function := fun inner depth => by
        rw [hnext]
        exact refuses_function rfl
      unread := by
        rw [hnext]
        simp [List.isPrefixOf]
      words := by
        rw [hnext]
        simp [startsWithWord]
      relation := by
        rw [hnext]
        rfl
      axis := by
        rw [hnext]
        rfl }

theorem byteSize_opening (n : Nat) : byteSize (List.replicate n '(') = n := by
  induction n with
  | zero => rfl
  | succ n ih =>
    rw [List.replicate_succ, byteSize, ih, Nat.add_comm]
    rfl

/-- Behind the opening parentheses the text begins, with as many more around it. -/
theorem beside_parenthesized (n : Nat) (text : List Char) :
    (beforeClosing n).Beside false ((inside text).deeper n)
      (((inside (parenthesized n text)).pass n).deeper n) := by
  have hlength : (List.replicate n '(').length = n := List.length_replicate
  refine ⟨rfl, rfl, ?_, ?_⟩
  · show ((inside (parenthesized n text)).pass n).cursor.rest = text ++ List.replicate n ')'
    rw [rest_pass]
    exact List.drop_left' hlength
  · show ((inside (parenthesized n text)).pass n).cursor.offset = 0 + n
    have hpassed : (parenthesized n text).take n = List.replicate n '(' := List.take_left' hlength
    rw [State.pass, Cursor.offset_advance]
    show 0 + byteSize ((parenthesized n text).take n) = 0 + n
    rw [hpassed, byteSize_opening]

/-- The text is read within the parentheses as it is alone, with so many levels more. -/
theorem disjunction_parenthesized {limit levels n : Nat} {text : List Char} {p : Predicate}
    {t : State} (hclosed : Closes [] 0 text)
    (h : disjunction (innerAt limit levels) (inside text) = .ok p t)
    (hend : ∀ c ∈ t.cursor.rest, isBlank c = true) :
    ∃ u, disjunction (innerAt (limit + n) levels)
        (((inside (parenthesized n text)).pass n).deeper n) = .ok p u ∧
      u.tokens.toList = t.tokens.toList.map (·.moved n) ∧
      u.cursor.rest.dropWhile isBlank = List.replicate n ')' := by
  have hE := apart_beforeClosing n
  have hdeeper : disjunction (innerAt (limit + n) levels) ((inside text).deeper n) =
      .ok p (t.deeper n) := by
    have hrun := (Tracks.disjunction (Zone.before_self .everywhere)
      (tracks_levels n limit levels).2).run (s := inside text) trivial
    rw [h] at hrun
    exact hrun.resolve_left And.left
  have hparallel : Parallel (beforeClosing n) true true 0 0
      (disjunction (innerAt (limit + n) levels)) :=
    .disjunction hE (Parallel.levels hE (limit + n) levels).2
  obtain ⟨u, hrun, hends⟩ := (hparallel.runs (fun _ => rfl) (beside_parenthesized n text)
    (.inr ⟨0, hclosed⟩)).of_ok hdeeper
  obtain ⟨crossed, hbeside⟩ : ∃ crossed, (beforeClosing n).Beside crossed (t.deeper n) u :=
    hends.elim (fun h => ⟨false, h⟩) fun h => ⟨true, h.2⟩
  have hnext := (hbeside.cross hend).place.2.1
  rw [rest_pass, drop_takeWhile, next_beforeClosing] at hnext
  exact ⟨u, hrun, hbeside.tokens, hnext⟩

section
variable {inner : Inner} {s u : State} {p : Predicate} {text rest : List Char}
  (hs : s.cursor.rest = '(' :: text) (h : inner.predicate (s.pass 1) = .ok p u)
  (hu : u.cursor.rest.dropWhile isBlank = ')' :: rest)
include hs h hu

theorem term_group :
    ∃ t, term inner s = .ok p t ∧ t.tokens = u.tokens ∧ t.cursor.rest = rest := by
  obtain ⟨v, hskip⟩ : ∃ v, skipBlanks u = .ok () v := ⟨_, skipBlanks_run⟩
  have hbehind : PastBlanks u v := .of_skipBlanks hskip
  have hv : v.cursor.rest = ')' :: rest := by
    rw [skipBlanks_run] at hskip
    cases hskip
    rw [rest_pass, drop_takeWhile, hu]
  have hopening : skip "(" s = .ok true (s.pass 1) := by
    rw [skip_run, hs]
    rfl
  have hclosing : expect ")" v = .ok () (v.pass 1) := by
    rw [expect_run, hv]
    rfl
  have hblank : skipBlanks s = .ok () s := skipBlanks_noBlanks (by rw [hs]; rfl)
  have hgroup : groupBehind inner (s.pass 1) = .ok p (v.pass 1) := by
    rw [groupBehind, bind_of_ok h, bind_of_ok hskip, bind_of_ok hclosing]
    rfl
  refine ⟨v.pass 1, ?_, hbehind.tokens, ?_⟩
  · exact (bind_of_ok hblank).trans ((bind_of_ok hopening).trans hgroup)
  · rw [rest_pass, hv]
    rfl

/-- A predicate in parentheses, where nothing but another parenthesis may follow. -/
theorem disjunction_group (hi : inner.Follows Grown) (hrest : ∀ c ∈ rest.head?, c = ')') :
    ∃ t, disjunction inner s = .ok p t ∧ t.tokens = u.tokens ∧
      t.cursor.rest.dropWhile isBlank = rest := by
  obtain ⟨t, hterm, htokens, ht⟩ := term_group hs h hu
  have hopen : s.cursor.rest.head?.any isBlank = false := by rw [hs]; rfl
  have hnegation : negation inner s = .ok p t := negation_of_term hopen (by rw [hs]; rfl) hterm
  have hclosed : rest.dropWhile isBlank = rest ∧
      ∀ word ∈ ["and", "or"], startsWithWord word rest = false := by
    cases rest with
    | nil => exact ⟨rfl, by decide⟩
    | cons c rest =>
      cases hrest c rfl
      exact ⟨rfl, by simp [startsWithWord]⟩
  obtain ⟨hdrop, hno⟩ := hclosed
  obtain ⟨v, hdisjunction, hv⟩ :=
    disjunction_of_negation hopen hi hnegation (by rwa [ht, hdrop])
  refine ⟨v, hdisjunction, hv.tokens.trans htokens, ?_⟩
  rw [hv.rest, ht, hdrop]

end

/-- Within so many parentheses as many levels are left as without them. -/
theorem disjunction_groups {limit levels n : Nat} {s u : State} {p : Predicate}
    {text rest : List Char} (hs : s.cursor.rest = List.replicate n '(' ++ text)
    (hdepth : s.depth + n ≤ limit)
    (h : disjunction (innerAt limit levels) ((s.pass n).deeper n) = .ok p u)
    (hu : u.cursor.rest.dropWhile isBlank = List.replicate n ')' ++ rest)
    (hrest : ∀ c ∈ rest.head?, c = ')') :
    ∃ t, disjunction (innerAt limit (levels + n)) s = .ok p t ∧ t.tokens = u.tokens ∧
      t.cursor.rest.dropWhile isBlank = rest := by
  induction n generalizing s rest with
  | zero =>
    rw [pass_zero] at h
    exact ⟨u, h, rfl, hu⟩
  | succ n ih =>
    rw [List.replicate_succ, List.cons_append] at hs
    have hinside : ((s.pass 1).deeper 1).cursor.rest = List.replicate n '(' ++ text := by
      show (s.pass 1).cursor.rest = _
      rw [rest_pass, hs]
      rfl
    have hstate : (((s.pass 1).deeper 1).pass n).deeper n = (s.pass (n + 1)).deeper (n + 1) := by
      show (((s.pass 1).pass n).deeper 1).deeper n = _
      rw [pass_pass, deeper_deeper, Nat.add_comm 1 n]
    rw [← hstate] at h
    have hu' : u.cursor.rest.dropWhile isBlank = List.replicate n ')' ++ ')' :: rest := by
      rw [hu, List.replicate_succ', List.append_assoc]
      rfl
    have hlimit : ((s.pass 1).deeper 1).depth + n ≤ limit := by
      show s.depth + 1 + n ≤ limit
      omega
    obtain ⟨t, hrun, htokens, hend⟩ := ih hinside hlimit h hu' (by simp)
    have hlevel : (s.pass 1).depth < limit := by
      show s.depth < limit
      omega
    have hnested : (innerAt limit (levels + n + 1)).predicate (s.pass 1) =
        .ok p { t with depth := t.depth - 1 } := by
      rw [innerAt_succ]
      exact nested_of_ok hlevel hrun
    obtain ⟨v, hv, hvtokens, hvrest⟩ := disjunction_group hs hnested hend
      (discipline_grown.follows_innerAt limit (levels + n + 1)) hrest
    exact ⟨v, hv, hvtokens.trans htokens, hvrest⟩

/-- From the first parenthesis to the last one the text is read as it is alone. -/
theorem disjunction_wrapped {levels n : Nat} {text : List Char} {p : Predicate} {t : State}
    (hclosed : Closes [] 0 text)
    (h : disjunction (innerAt (levels + 1) levels) (inside text) = .ok p t)
    (hend : ∀ c ∈ t.cursor.rest, isBlank c = true) :
    ∃ u, disjunction (innerAt (levels + 1 + n) (levels + n)) (inside (parenthesized n text)) =
        .ok p u ∧
      u.tokens.toList = t.tokens.toList.map (·.moved n) ∧
      u.cursor.rest.dropWhile isBlank = [] := by
  obtain ⟨v, hinner, htokens, hrest⟩ := disjunction_parenthesized (n := n) hclosed h hend
  have hopening : (inside (parenthesized n text)).cursor.rest =
      List.replicate n '(' ++ (text ++ List.replicate n ')') := rfl
  have hlimit : (inside (parenthesized n text)).depth + n ≤ levels + 1 + n := by
    show 1 + n ≤ levels + 1 + n
    omega
  rw [← List.append_nil (List.replicate n ')')] at hrest
  obtain ⟨u, houter, hsame, hnothing⟩ := disjunction_groups hopening hlimit hinner hrest nofun
  exact ⟨u, houter, by rw [hsame, htokens], hnothing⟩

/-- In parentheses the text is a query that starts with the first of them. -/
theorem ReadsLocation.wrap {levels : Nat} {text : List Char} {p : Predicate} {t : State}
    (h : ReadsLocation (levels + 1) (innerAt (levels + 1) levels) text (.children p) t)
    (haxes : AxesInComparisons t.tokens.toList) (n : Nat) :
    ∃ u, ReadsLocation (levels + (n + 1) + 1) (innerAt (levels + (n + 1) + 1) (levels + (n + 1)))
        (parenthesized (n + 1) text) (.children p) u ∧
      u.tokens.toList = t.tokens.toList.map (·.moved (n + 1)) := by
  obtain ⟨v, hpredicate, hpast⟩ := disjunction_of_children h.union haxes
  have hend : v.cursor.rest.dropWhile isBlank = [] :=
    hpast.rest.symm.trans (List.dropWhile_eq_nil_iff.mpr h.rest)
  obtain ⟨w, hwrapped, htokens, hrest⟩ :=
    disjunction_wrapped (n := n + 1) h.closes hpredicate (List.dropWhile_eq_nil_iff.mp hend)
  rw [Nat.add_right_comm levels 1 (n + 1)] at hwrapped
  obtain ⟨u, hunion, hu⟩ := union_of_disjunction
    (discipline_grown.follows_innerAt (levels + (n + 1) + 1) (levels + (n + 1)))
    (opensTest_group _) hwrapped (endsLocation_of_blanks hrest)
  have hno : Refuses (wholeCall (levels + (n + 1) + 1)) 0 (parenthesized (n + 1) text) :=
    refuses_wholeCall_noStart rfl rfl
  refine ⟨u, ⟨?_, hunion, List.dropWhile_eq_nil_iff.mp (hu.rest.trans hrest)⟩, ?_⟩
  · exact hno.attempt_run (discipline_grown.follows_wholeCall _) ⟨rfl, rfl⟩
  · rw [hu.tokens, htokens, hpast.tokens]

theorem exceeds_group {inner : Inner} (hi : inner.Alone) {depth : Nat} {text : List Char}
    (h : Exceeds inner.predicate depth text) :
    Exceeds (disjunction inner) depth ('(' :: text) :=
  (leads_disjunction hi).exceeds (opensTest_group text)
    ((leads_conjunction hi).exceeds (opensTest_group text) (exceeds_negation_group h.bind_first))

/-- By the levels that are left: each parenthesis takes one of them, so the last one finds none. -/
theorem exceeds_parentheses {limit levels depth n : Nat} (text : List Char)
    (hlimit : depth + levels = limit) (hn : levels ≤ n) :
    Exceeds (innerAt limit levels).predicate depth (List.replicate n '(' ++ text) := by
  induction levels generalizing depth n with
  | zero =>
    rw [innerAt_zero]
    exact fun s _ => ⟨.tooDeep, s, rfl, rfl⟩
  | succ levels ih =>
    obtain ⟨n, rfl⟩ := Nat.exists_eq_add_one_of_ne_zero (Nat.ne_zero_of_lt hn)
    have hinside : Exceeds (innerAt limit levels).predicate (depth + 1)
        (List.replicate n '(' ++ text) := ih (by omega) (Nat.le_of_succ_le_succ hn)
    rw [innerAt_succ]
    exact (exceeds_group (alone_levels limit levels).2 hinside).nested (by omega)

theorem parse_tooManyParentheses {limit n : Nat} (hle : limit ≤ n) (text : List Char) :
    (parse limit (String.ofList (parenthesized n text))).TooDeep := by
  cases limit with
  | zero =>
    obtain ⟨t, hdeep⟩ := expression_zero (.start (String.ofList (parenthesized n text)).toList)
    exact parse_of_tooDeep hdeep
  | succ levels =>
    obtain ⟨n, rfl⟩ := Nat.exists_eq_add_one_of_ne_zero (Nat.ne_zero_of_lt hle)
    have htext : (String.ofList (parenthesized (n + 1) text)).toList =
        '(' :: (List.replicate n '(' ++ (text ++ List.replicate (n + 1) ')')) := by
      rw [String.toList_ofList, parenthesized, List.replicate_succ, List.cons_append]
    have hinside : Exceeds (innerAt (levels + 1) levels).predicate 1
        (List.replicate n '(' ++ (text ++ List.replicate (n + 1) ')')) :=
      exceeds_parentheses _ (Nat.add_comm 1 levels) (Nat.le_of_succ_le_succ hle)
    have hi := (alone_levels (levels + 1) levels).2
    exact tooDeep_of_union htext (refuses_wholeCall_noStart rfl rfl) rfl
      ((leads_union hi).exceeds (opensTest_group _) (exceeds_group hi hinside))

end Grammar

/-- A query of a single step whose axis, type and slice are left out can be put in any number of
parentheses, if it names no axis outside of its comparisons. It needs as many levels of nesting
more, and is then read as the same step, with the tokens so many bytes further on. A limit that is
taken up by the parentheses is exceeded. -/
theorem parentheses_only_cost_depth (limit : Nat) (text : String) (p : Predicate)
    (hstep : (parse limit text).result = .ok (.location (.children p)))
    (haxes : AxesInComparisons (parse limit text).tokens) (n : Nat) :
    (parse (limit + n) (String.ofList (parenthesized n text.toList))).result =
        .ok (.location (.children p)) ∧
      (parse (limit + n) (String.ofList (parenthesized n text.toList))).tokens =
        (parse limit text).tokens.map (·.moved n) ∧
      ∀ limit' ≤ n, ∃ e,
        (parse limit' (String.ofList (parenthesized n text.toList))).result = .error e ∧
          e.isFatal = true := by
  have htooMany : ∀ limit' ≤ n, ∃ e,
      (parse limit' (String.ofList (parenthesized n text.toList))).result = .error e ∧
        e.isFatal = true := fun limit' hle => parse_tooManyParentheses hle text.toList
  cases n with
  | zero =>
    have htext : String.ofList (parenthesized 0 text.toList) = text := by
      simp [parenthesized]
    rw [htext] at htooMany ⊢
    exact ⟨hstep, (List.map_id _).symm, htooMany⟩
  | succ n =>
    obtain ⟨levels, t, rfl, hread, htokens⟩ := parse_location hstep
    rw [htokens] at haxes
    obtain ⟨u, hwrapped, hmoved⟩ := hread.wrap haxes n
    rw [← String.toList_ofList (l := parenthesized (n + 1) text.toList)] at hwrapped
    obtain ⟨hresult, htold⟩ := hwrapped.parse
    rw [Nat.add_right_comm levels 1 (n + 1)]
    exact ⟨hresult, by rw [htold, hmoved, htokens], htooMany⟩

/-- Between parentheses the name of an axis is read as a string. -/
example : (∃ t ∈ (parse 32 "child::a").tokens, t.kind = .axis) ∧
    ∀ t ∈ (parse 32 "(child::a)").tokens, t.kind ≠ .axis := by
  decide +kernel

def Expression.isChildren (e : Expression) : Bool :=
  e matches .location (.path ⟨false, [⟨.child, .any, _, none⟩]⟩)

/-- The axis stands in the argument of a call, and one parenthesis in a string; without further
parentheses three levels are needed. -/
theorem twoParentheses_fiveLevels : ∃ p,
    (parse 3 "f(child::a) = \")\" or not (b) ").result = .ok (.location (.children p)) ∧
    AxesInComparisons (parse 3 "f(child::a) = \")\" or not (b) ").tokens ∧
    (parse 5 "((f(child::a) = \")\" or not (b) ))").result = .ok (.location (.children p)) ∧
    (parse 5 "((f(child::a) = \")\" or not (b) ))").tokens =
      (parse 3 "f(child::a) = \")\" or not (b) ").tokens.map (·.moved 2) ∧
    ∀ limit ≤ 2, ∃ e, (parse limit "((f(child::a) = \")\" or not (b) ))").result = .error e ∧
      e.isFatal = true := by
  obtain ⟨p, hstep⟩ : ∃ p, (parse 3 "f(child::a) = \")\" or not (b) ").result =
      .ok (.location (.children p)) := by
    obtain ⟨e, he, htest⟩ := exists_read
      (r := (parse 3 "f(child::a) = \")\" or not (b) ").result)
      (q := Expression.isChildren) (by decide +kernel)
    unfold Expression.isChildren at htest
    split at htest
    · exact ⟨_, he⟩
    · cases htest
  have haxes : AxesInComparisons (parse 3 "f(child::a) = \")\" or not (b) ").tokens := by
    decide +kernel
  have htext : String.ofList (parenthesized 2 "f(child::a) = \")\" or not (b) ".toList) =
      "((f(child::a) = \")\" or not (b) ))" := by decide
  have hwrapped := parentheses_only_cost_depth 3 "f(child::a) = \")\" or not (b) " p hstep haxes 2
  rw [htext] at hwrapped
  exact ⟨p, hstep, haxes, hwrapped⟩

end OutlineQuery
