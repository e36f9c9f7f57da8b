import OutlineQuery.Proofs.Alongside
import OutlineQuery.Proofs.NestingLimit

/-! Two queries with the word `union` between them are the union of the two. What is read of the
first one does not depend on what follows, and the second one is read as if it stood alone. -/

namespace OutlineQuery
open Grammar Production Text

def Location.joinRight : Location → Location → Location
  | .union l m, other => .union l (m.joinRight other)
  | l, other => .union l other

theorem Location.joinRight_of_rank {l : Location} (h : l.rank ≤ 2) (other : Location) :
    l.joinRight other = .union l other := by
  cases l with
  | union l m => exact absurd h (Nat.not_succ_le_self 2)
  | _ => rfl

namespace Embedding

theorem next_eq_nil_of_blanks {E : Embedding} (h : ∀ c ∈ E.behind, isBlank c = true) :
    E.next = [] :=
  List.dropWhile_eq_nil_iff.mpr h

/-- Blanks may stand behind that no identifier goes on with. -/
theorem apart_of_blanks {E : Embedding}
    (h : ∀ c ∈ E.behind, isBlank c = true ∧ isRest c = false) : E.Apart := by
  have hnext : E.next = [] := next_eq_nil_of_blanks fun c hc => (h c hc).1
  exact {
    edge := fun c hc => (h c (List.mem_of_mem_head? hc)).imp_left isEdge_of_isBlank
    string := fun depth => by
      rw [hnext]
      exact Refuses.string nofun (refuses_unquoted rfl rfl)
    function := fun inner depth => by
      rw [hnext]
      exact refuses_function rfl
    unread := by rw [hnext]; decide
    words := by rw [hnext]; decide
    relation := by rw [hnext]; rfl
    axis := by rw [hnext]; rfl }

theorem apart_of_nothing {E : Embedding} (h : E.behind = []) : E.Apart := by
  refine apart_of_blanks fun c hc => ?_
  rw [h] at hc
  cases hc

def beforeUnion (other : List Char) : Embedding := ⟨[], 0, " union ".toList ++ other⟩

theorem next_beforeUnion (other : List Char) :
    (beforeUnion other).next = "union ".toList ++ other := rfl

theorem sameTokens_beforeUnion {other : List Char} {s s' : State}
    (h : (beforeUnion other).SameTokens s s') : s'.tokens.toList = s.tokens.toList := by
  have hmoved : (fun t : Token => t.moved 0) = id := rfl
  rw [SameTokens, beforeUnion, hmoved, List.map_id, List.nil_append] at h
  exact h

theorem apart_beforeUnion (other : List Char) : (beforeUnion other).Apart where
  edge c hc := by
    cases hc
    decide
  string depth := by
    rw [next_beforeUnion]
    exact Refuses.string (by simp) (refuses_reserved rfl)
  function inner depth := by
    have hname : Reads identifier depth ("union".toList ++ ' ' :: other) "union".toList
        (' ' :: other) := reads_identifier (by decide) rfl
    exact .bind_next hname.record (.bind_first (refuses_expect rfl))
  unread := by
    rw [next_beforeUnion]
    simp [List.isPrefixOf]
  words := by
    rw [next_beforeUnion]
    simp [startsWithWord]
  relation := rfl
  axis := rfl

end Embedding
namespace Grammar

theorem expectEnd_run (s : State) : expectEnd s =
    if s.cursor.rest.dropWhile isBlank = [] then
      .ok () (s.pass (s.cursor.rest.takeWhile isBlank).length)
    else .error .endOfInput (s.pass (s.cursor.rest.takeWhile isBlank).length) := by
  have hrest : (s.pass (s.cursor.rest.takeWhile isBlank).length).cursor.rest =
      s.cursor.rest.dropWhile isBlank := by
    rw [rest_pass, drop_takeWhile]
  have hend : atEnd (s.pass (s.cursor.rest.takeWhile isBlank).length) =
      .ok (s.cursor.rest.dropWhile isBlank).isEmpty
        (s.pass (s.cursor.rest.takeWhile isBlank).length) := by
    rw [← hrest]
    rfl
  rw [expectEnd, bind_of_ok skipBlanks_run, bind_of_ok hend]
  cases s.cursor.rest.dropWhile isBlank <;> rfl

/-- It does not matter to a union whether the blanks before it have been passed. -/
theorem union_passBlanks (inner : Inner) (s : State) : union inner s =
    union inner (s.pass (s.cursor.rest.takeWhile isBlank).length) :=
  chain_run_blanks List.takeWhile_append_dropWhile.symm (List.all_eq_true.mp List.all_takeWhile)

theorem location_eq_union (limit levels : Nat) :
    location limit (levels + 1) = nested limit (union (innerAt limit levels)) := by
  have hskip : (do skipBlanks; union (innerAt limit levels)) = union (innerAt limit levels) := by
    funext s
    rw [bind_of_ok skipBlanks_run, ← union_passBlanks]
  rw [location_succ, hskip]

def inside (text : List Char) : State := { State.start text with depth := 1 }

structure ReadsLocation (limit : Nat) (inner : Inner) (text : List Char) (l : Location)
    (t : State) : Prop where
  call : attempt (wholeCall limit) (.start text) = .ok none (.start text)
  union : union inner (inside text) = .ok l t
  rest : ∀ c ∈ t.cursor.rest, isBlank c = true

theorem wholeLocation_ok {limit : Nat} {text : List Char} {l : Location} {u : State}
    (h : wholeLocation limit (.start text) = .ok l u) : ∃ levels t, limit = levels + 1 ∧
      union (innerAt limit levels) (inside text) = .ok l t ∧
        u = { t with depth := t.depth - 1 } := by
  obtain ⟨_, s, ⟨⟩, hlocation⟩ := bind_ok h
  cases limit with
  | zero =>
    rw [location_zero] at hlocation
    cases hlocation
  | succ levels =>
    rw [location_eq_union] at hlocation
    obtain ⟨-, t, ht, hu⟩ := nested_ok hlocation
    exact ⟨levels, t, rfl, (union_passBlanks _ (inside text)).trans ht, hu⟩

theorem wholeLocation_of_union {levels : Nat} {text : List Char} {l : Location} {t : State}
    (h : union (innerAt (levels + 1) levels) (inside text) = .ok l t) :
    wholeLocation (levels + 1) (.start text) = .ok l { t with depth := t.depth - 1 } := by
  have hskip : skipBlanks (.start text) =
      .ok () ((State.start text).pass (text.takeWhile isBlank).length) := skipBlanks_run
  rw [wholeLocation, bind_of_ok hskip, location_eq_union]
  exact nested_of_ok (Nat.zero_lt_succ levels) ((union_passBlanks _ (inside text)).symm.trans h)

theorem expression_location {limit : Nat} {text : List Char} {l : Location} {u : State}
    (h : expression limit (.start text) = .ok (.location l) u) : ∃ levels t,
      limit = levels + 1 ∧ ReadsLocation limit (innerAt limit levels) text l t ∧
        t.tokens = u.tokens := by
  obtain ⟨found, v, hcall, hlocation⟩ := bind_ok h
  obtain ⟨f, rfl, -⟩ | ⟨rfl, rfl, -⟩ :=
    attempt_ok (discipline_grown.follows_wholeCall limit _) hcall
  · cases hlocation
  obtain ⟨found, w, hwhole, hend⟩ := bind_ok hlocation
  obtain ⟨m, rfl, hm⟩ | ⟨rfl, -⟩ :=
    attempt_ok (discipline_grown.follows_wholeLocation limit _) hwhole
  · obtain ⟨_, x, hfinal, ⟨⟩⟩ := bind_ok hend
    obtain ⟨levels, t, hlimit, hunion, rfl⟩ := wholeLocation_ok hm
    rw [expectEnd_run] at hfinal
    split at hfinal
    · rename_i hrest
      cases hfinal
      exact ⟨levels, t, hlimit, ⟨hcall, hunion, List.dropWhile_eq_nil_iff.mp hrest⟩, rfl⟩
    · cases hfinal
  · cases hend

theorem ReadsLocation.expression {levels : Nat} {text : List Char} {l : Location} {t : State}
    (h : ReadsLocation (levels + 1) (innerAt (levels + 1) levels) text l t) :
    ∃ u, expression (levels + 1) (.start text) = .ok (.location l) u ∧ u.tokens = t.tokens := by
  have hwhole := attempt_of_ok (wholeLocation_of_union h.union)
  have hend := expectEnd_run { t with depth := t.depth - 1 }
  rw [if_pos (List.dropWhile_eq_nil_iff.mpr h.rest)] at hend
  refine ⟨State.pass { t with depth := t.depth - 1 } (t.cursor.rest.takeWhile isBlank).length,
    ?_, rfl⟩
  rw [Grammar.expression, bind_of_ok h.call]
  dsimp only
  rw [bind_of_ok hwhole]
  dsimp only
  rw [bind_of_ok hend]
  rfl

theorem bind_congr_run {α β : Type} {p q : Production α} {s s' : State} (h : p s = q s')
    (f : α → Production β) : (p >>= f) s = (q >>= f) s' := by
  simp only [bind, EStateM.bind, h]

structure Continued (other : List Char) (t v : State) : Prop where
  ended : t.cursor.rest = []
  rest : v.cursor.rest = ' ' :: other
  offset : v.cursor.offset = t.cursor.offset + 6
  tokens : v.tokens.toList =
    t.tokens.toList ++ [⟨.set, t.cursor.offset + 1, t.cursor.offset + 6, "union"⟩]
  depth : v.depth = t.depth

/-- Where the first query ends, the word is read behind the blanks. -/
theorem reads_union_behind {other : List Char} {t t' : State}
    (h : (Embedding.beforeUnion other).Beside true t t') :
    ∃ v, word "union" .set t' = .ok true v ∧ Continued other t v := by
  have hrest : t'.cursor.rest = "union".toList ++ ' ' :: other := h.place.2.1
  have hword : startsWithWord "union" t'.cursor.rest = true := by
    rw [hrest]
    exact startsWithWord_append rfl
  have hoffset : t'.cursor.offset = t.cursor.offset + 1 := h.place.2.2
  have hpassed : (t'.pass "union".length).cursor.offset = t.cursor.offset + 6 := by
    rw [State.pass, Cursor.offset_advance, hrest, hoffset]
    rfl
  have hsince : t'.cursor.since (t'.pass "union".length).cursor = "union".toList := by
    rw [State.pass, Cursor.since_advance, hrest]
    rfl
  refine ⟨_, word_run.trans (if_pos hword), h.place.1, ?_, hpassed, ?_, h.depth⟩
  · rw [State.emit, rest_pass, hrest]
    rfl
  · rw [State.emit, TokenLog.toList_push, hsince, hoffset, hpassed]
    exact congrArg (· ++ _) (Embedding.sameTokens_beforeUnion h.tokens)

def unionBehind (inner : Inner) (first : Location) : Production Location := do
  skipBlanks
  if ← word "union" .set then return .union first (← union inner) else return first

theorem union_eq {inner : Inner} (hg : (exception inner).Follows Grown) :
    union inner = (do skipBlanks; exception inner) >>= unionBehind inner := by
  have hchain : union inner = (do
      skipBlanks
      let first ← exception inner
      skipBlanks
      if ← word "union" .set then return .union first (← union inner) else return first) :=
    chain_eq (consumes_nextOperand (by decide) hg)
  rw [bind_assoc]
  exact hchain

section
variable {other : List Char} {inner : Inner} {crossed : Bool} {s s' t : State} {first l : Location}

/-- At the end of the first query the word follows, and behind it comes the second query. -/
theorem unionBehind_last (hs : (Embedding.beforeUnion other).Beside crossed s s')
    (hblank : ∀ c ∈ s.cursor.rest, isBlank c = true) (hrank : first.rank ≤ 2)
    (h : unionBehind inner first s = .ok l t) : ∃ v, Continued other t v ∧
      unionBehind inner first s' = (do let m ← union inner; return l.joinRight m) v := by
  have hcross := hs.cross hblank
  obtain ⟨v, hword, hv⟩ := reads_union_behind hcross
  have hno : word "union" .set (s.pass (s.cursor.rest.takeWhile isBlank).length) =
      .ok false (s.pass (s.cursor.rest.takeWhile isBlank).length) := by
    rw [word_run, hcross.place.1]
    rfl
  rw [unionBehind, bind_of_ok skipBlanks_run, bind_of_ok hno] at h
  cases h
  refine ⟨v, hv, ?_⟩
  rw [unionBehind, bind_of_ok skipBlanks_run, bind_of_ok hword]
  simp only [Location.joinRight_of_rank hrank]
  rfl

/-- Before the end of the first query there is another operand in it. -/
theorem unionBehind_next (hs : (Embedding.beforeUnion other).Beside crossed s s')
    (hg : (Embedding.beforeUnion other).Guarded 0 s.cursor.rest)
    (hblank : ¬∀ c ∈ s.cursor.rest, isBlank c = true) (h : unionBehind inner first s = .ok l t)
    (hend : ∀ c ∈ t.cursor.rest, isBlank c = true) : ∃ m u u',
      (Embedding.beforeUnion other).Beside false u u' ∧
      (Embedding.beforeUnion other).Guarded 0 u.cursor.rest ∧
      u.cursor.rest.length < s.cursor.rest.length ∧ union inner u = .ok m t ∧ l = .union first m ∧
      unionBehind inner first s' = (do return Location.union first (← union inner)) u' := by
  have hword : Parallel (Embedding.beforeUnion other) false false 0 0 (word "union" .set) :=
    .word (Embedding.apart_beforeUnion other) (by decide) (by decide) (by decide) (by decide) nofun
  obtain ⟨rfl, hsame, hpassed⟩ := hs.passBlanks hblank
  have hguard := hg.of_level ((Parallel.skipBlanks (E := Embedding.beforeUnion other)).level
    skipBlanks_run)
  rw [unionBehind, bind_of_ok skipBlanks_run] at h
  obtain ⟨found, u, hfound, h⟩ := bind_ok h
  obtain ⟨u', hfound', hends⟩ := (hword.runs id hpassed hguard).of_ok hfound
  cases found with
  | false =>
    rw [word_run] at hfound
    split at hfound
    · cases hfound
    · cases hfound
      cases h
      rw [rest_pass, drop_takeWhile] at hend
      refine absurd (fun c hc => ?_) hblank
      rw [← List.takeWhile_append_dropWhile (p := isBlank) (l := s.cursor.rest)] at hc
      exact (List.mem_append.mp hc).elim (List.all_eq_true.mp List.all_takeWhile c) (hend c)
  | true =>
    obtain ⟨m, v, hunion, ⟨⟩⟩ := bind_ok h
    have hshorter := word_shortens (by decide) hfound
    have hskipped := rest_length_le (follows_grown_of_silent silent_skipBlanks)
      (skipBlanks_run (s := s))
    have hrun : unionBehind inner first s' =
        (do return Location.union first (← union inner)) u' := by
      rw [unionBehind, bind_of_ok skipBlanks_run, hsame, bind_of_ok hfound']
      rfl
    exact ⟨m, u, u', hends.firm, hguard.of_level (hword.level hfound),
      lt_of_lt_of_le hshorter hskipped, hunion, rfl, hrun⟩

end

/-- A union goes on behind its last operand where the word follows. -/
theorem union_continued {other : List Char} {inner : Inner}
    (hi : (Embedding.beforeUnion other).Keeps inner)
    (hrank : ∀ text, Returns (exception inner) text fun l _ => l.rank ≤ 2)
    {crossed : Bool} {s s' t : State} {l : Location}
    (hs : (Embedding.beforeUnion other).Beside crossed s s')
    (hg : (Embedding.beforeUnion other).Guarded 0 s.cursor.rest) (h : union inner s = .ok l t)
    (hend : ∀ c ∈ t.cursor.rest, isBlank c = true) : ∃ v, Continued other t v ∧
      union inner s' = (do let m ← union inner; return l.joinRight m) v := by
  have hE : (Embedding.beforeUnion other).Apart := Embedding.apart_beforeUnion other
  have hoperand : Parallel (Embedding.beforeUnion other) true true 0 0
      (do skipBlanks; exception inner) :=
    Parallel.skipBlanks.bind fun _ => .exception hE hi
  have hunion := union_eq (Parallel.exception hE hi (i := 0)).grows
  -- On what remains of the first query: each operand takes up some of it, and only behind the last
  -- one have the blanks been crossed, so only there can the word be the one between the queries.
  induction hn : s.cursor.rest.length using Nat.strongRecOn generalizing crossed s s' l with
  | ind length ih =>
    rw [hunion] at h
    obtain ⟨first, u, hfirst, h⟩ := bind_ok h
    obtain ⟨u', hfirst', hends⟩ := (hoperand.runs (fun _ => rfl) hs hg).of_ok hfirst
    have hguard := hg.of_level (hoperand.level hfirst)
    have hfirstRank : first.rank ≤ 2 := by
      obtain ⟨_, v, -, hexception⟩ := bind_ok hfirst
      exact hrank v.cursor.rest v first u rfl hexception
    obtain ⟨crossed', hbeside⟩ : ∃ crossed', (Embedding.beforeUnion other).Beside crossed' u u' :=
      hends.elim (fun h => ⟨crossed, h⟩) fun h => ⟨true, h.2⟩
    rw [hunion, bind_of_ok hfirst', ← hunion]
    by_cases hblank : ∀ c ∈ u.cursor.rest, isBlank c = true
    · exact unionBehind_last hbeside hblank hfirstRank h
    · obtain ⟨m, w, w', hw, hgw, hlt, hm, rfl, hrun⟩ :=
        unionBehind_next hbeside hguard hblank h hend
      have hle := rest_length_le hoperand.grows hfirst
      obtain ⟨v, hv, hothers⟩ := ih _ (by omega) hw hgw hm rfl
      refine ⟨v, hv, ?_⟩
      rw [hrun, bind_congr_run hothers, bind_bind_run]
      rfl

section
variable {limit levels : Nat} {text other : List Char} {l m : Location} {t u : State}

/-- What is read as a location closes all parentheses that it opens. -/
theorem ReadsLocation.closes (h : ReadsLocation limit (innerAt limit levels) text l t) :
    Closes [] 0 text := by
  have hE : (Embedding.mk [] 0 []).Apart := Embedding.apart_of_nothing rfl
  have hunion : Parallel (.mk [] 0 []) true true 0 0
      (Grammar.union (innerAt limit levels)) :=
    .union hE (Parallel.levels hE limit levels).2 fun _ => rfl
  have hplain : t.cursor.rest.all isPlain = true :=
    List.all_eq_true.mpr fun c hc => isPlain_of_isBlank (h.rest c hc)
  have hend : Closes [] 0 (t.cursor.rest ++ []) := (closes_plains hplain).mpr (.stop nofun)
  rw [List.append_nil] at hend
  exact (hunion.level h.union [] 0).mpr hend

/-- The word behind the first query is no end of input. -/
theorem expectEnd_behind {crossed : Bool} {s s' : State}
    (h : (Embedding.beforeUnion other).Beside crossed s s') :
    ∃ t, expectEnd s' = .error .endOfInput t := by
  have hword : 'u' ∈ s'.cursor.rest := by
    cases crossed with
    | false =>
      rw [h.place.1]
      exact List.mem_append_right _ (by simp [Embedding.beforeUnion])
    | true =>
      rw [h.place.2.1, Embedding.next_beforeUnion]
      simp
  refine ⟨_, (expectEnd_run s').trans (if_neg fun hend => ?_)⟩
  exact absurd (List.dropWhile_eq_nil_iff.mp hend 'u' hword) (by decide)

/-- No function call goes on to the end behind the word. -/
theorem ReadsLocation.call_behind (h : ReadsLocation limit (innerAt limit levels) text l t)
    (other : List Char) : attempt (wholeCall limit) (.start (text ++ (" union ".toList ++ other))) =
      .ok none (.start (text ++ (" union ".toList ++ other))) := by
  have hE : (Embedding.beforeUnion other).Apart := Embedding.apart_beforeUnion other
  have hcall : Parallel (Embedding.beforeUnion other) true true 0 0
      (do skipBlanks; function (innerAt limit limit)) :=
    Parallel.skipBlanks.bind fun _ =>
      (Parallel.function hE (Parallel.levels hE limit limit).2).relax
  have hwhole : wholeCall limit = (do skipBlanks; function (innerAt limit limit)) >>=
      fun f => do expectEnd; return f := by
    rw [bind_assoc]
    rfl
  have hrefused : ∃ reason v, wholeCall limit (.start (text ++ (" union ".toList ++ other))) =
      .error reason v ∧ reason.isFatal = false := by
    have hbeside : (Embedding.beforeUnion other).Beside false (.start text)
        (.start (text ++ (" union ".toList ++ other))) := ⟨rfl, rfl, rfl, rfl⟩
    obtain ⟨f, v, v', hok, hok', hends⟩ | ⟨reason, v, reason', v', hno, hno', hfatal, -⟩ :=
      (hcall.runs (fun _ => rfl) hbeside (.inr ⟨0, h.closes⟩)).cases
    · obtain ⟨w, hw⟩ : ∃ w, expectEnd v' = .error .endOfInput w :=
        hends.elim expectEnd_behind fun h => expectEnd_behind h.2
      exact ⟨.endOfInput, w, by rw [hwhole, bind_of_ok hok', bind_of_error hw], rfl⟩
    · obtain ⟨f, hf, -⟩ | ⟨-, -, reason₀, w, hw, hr⟩ :=
        attempt_ok (discipline_grown.follows_wholeCall limit _) h.call
      · cases hf
      · rw [hwhole, bind_of_error hno] at hw
        cases hw
        exact ⟨reason', v', by rw [hwhole, bind_of_error hno'], hfatal.trans hr⟩
  obtain ⟨reason, v, hv, hr⟩ := hrefused
  exact attempt_of_error (discipline_grown.follows_wholeCall limit _) hv hr

/-- What is read behind the word is what is read of the second query alone. -/
theorem ReadsLocation.behind {inner : Inner} {v : State}
    (hm : ReadsLocation limit inner other m u) (hv : Continued other t v) (hd : t.depth = 1)
    (hi : (Embedding.mk v.tokens.toList (t.cursor.offset + 7) []).Keeps inner) :
    ∃ w, Grammar.union inner v = .ok m w ∧ (∀ c ∈ w.cursor.rest, isBlank c = true) ∧
      w.tokens.toList =
        v.tokens.toList ++ u.tokens.toList.map (·.moved (t.cursor.offset + 7)) := by
  have hunion : Parallel (.mk v.tokens.toList (t.cursor.offset + 7) []) true true 0 0
      (Grammar.union inner) := .union (Embedding.apart_of_nothing rfl) hi fun _ => rfl
  have hblank : ∀ c ∈ [' '], isBlank c = true := List.forall_mem_singleton.mpr rfl
  have hoffset : (v.pass 1).cursor.offset = 0 + (t.cursor.offset + 7) := by
    rw [State.pass, Cursor.offset_advance, hv.rest, hv.offset, Nat.zero_add]
    rfl
  have hbeside : (Embedding.mk v.tokens.toList (t.cursor.offset + 7) []).Beside false
      (inside other) (v.pass 1) := by
    refine ⟨(List.append_nil _).symm, hv.depth.trans hd, ?_, hoffset⟩
    rw [rest_pass, hv.rest, List.append_nil]
    rfl
  obtain ⟨w, hw, hends⟩ := (hunion.runs (fun _ => rfl) hbeside (.inl rfl)).of_ok hm.union
  refine ⟨w, (chain_run_blanks hv.rest hblank).trans hw, ?_, ?_⟩
  · obtain hbeside | ⟨-, hbeside⟩ := hends
    · rw [hbeside.place.1, List.append_nil]
      exact hm.rest
    · rw [hbeside.place.2.1]
      exact List.forall_mem_nil _
  · exact hends.elim (·.tokens) (·.2.tokens)

theorem ReadsLocation.join
    (hl : ReadsLocation (levels + 1) (innerAt (levels + 1) levels) text l t)
    (hm : ReadsLocation (levels + 1) (innerAt (levels + 1) levels) other m u) :
    ∃ w, ReadsLocation (levels + 1) (innerAt (levels + 1) levels)
      (text ++ (" union ".toList ++ other)) (l.joinRight m) w ∧
      w.tokens.toList = t.tokens.toList ++ ⟨.set, byteSize text + 1, byteSize text + 6, "union"⟩ ::
        u.tokens.toList.map (·.moved (byteSize text + 7)) := by
  have hkeeps {E : Embedding} (hE : E.Apart) : E.Keeps (innerAt (levels + 1) levels) :=
    (Parallel.levels hE (levels + 1) levels).2
  have hrank (text : List Char) : Returns (exception (innerAt (levels + 1) levels)) text
      fun l _ => l.rank ≤ 2 :=
    (returns_exception text (returns_levels (levels + 1) levels).2).mono fun _ _ h => h.2
  have hgrown : Grown (inside text) t := by
    have hfinish := discipline_grown.follows_union
      (discipline_grown.follows_innerAt (levels + 1) levels) (inside text)
    rwa [finish_of_ok hl.union] at hfinish
  have hbeside : (Embedding.beforeUnion other).Beside false (inside text)
      (inside (text ++ (" union ".toList ++ other))) := ⟨rfl, rfl, rfl, rfl⟩
  obtain ⟨v, hv, hrun⟩ := union_continued (hkeeps (Embedding.apart_beforeUnion other)) hrank
    hbeside (.inr ⟨0, hl.closes⟩) hl.union hl.rest
  have hoffset : t.cursor.offset = byteSize text := by
    obtain ⟨n, hn⟩ := hgrown.cursor
    have hrest := hv.ended
    rw [hn, Cursor.rest_advance] at hrest
    have htake : text.take n = text := List.take_of_length_le (List.drop_eq_nil_iff.mp hrest)
    rw [hn, Cursor.offset_advance]
    show 0 + byteSize (text.take n) = byteSize text
    rw [htake, Nat.zero_add]
  obtain ⟨w, hw, hend, htokens⟩ :=
    hm.behind hv hgrown.depth (hkeeps (Embedding.apart_of_nothing rfl))
  refine ⟨w, ⟨hl.call_behind other, ?_, hend⟩, ?_⟩
  · rw [hrun, bind_of_ok hw]
    rfl
  · rw [htokens, hv.tokens, hoffset, List.append_assoc, List.singleton_append]

end

end Grammar

theorem parse_location {limit : Nat} {text : String} {l : Location}
    (h : (parse limit text).result = .ok (.location l)) : ∃ levels t, limit = levels + 1 ∧
      ReadsLocation limit (innerAt limit levels) text.toList l t ∧
        (parse limit text).tokens = t.tokens.toList := by
  rw [parse] at h ⊢
  cases hrun : expression limit (.start text.toList) with
  | error reason u => rw [hrun] at h; cases h
  | ok e u =>
    rw [hrun] at h
    cases h
    obtain ⟨levels, t, hlimit, hread, htokens⟩ := expression_location hrun
    exact ⟨levels, t, hlimit, hread, congrArg TokenLog.toList htokens.symm⟩

theorem Grammar.ReadsLocation.parse {levels : Nat} {text : String} {l : Location} {t : State}
    (h : ReadsLocation (levels + 1) (innerAt (levels + 1) levels) text.toList l t) :
    (parse (levels + 1) text).result = .ok (.location l) ∧
      (parse (levels + 1) text).tokens = t.tokens.toList := by
  obtain ⟨u, hrun, htokens⟩ := h.expression
  rw [OutlineQuery.parse, hrun]
  exact ⟨rfl, congrArg TokenLog.toList htokens⟩

/-- The union of two texts is the union of their trees: what follows the first one never changes how
it is read, and the second one is read as if it stood alone. The tokens are those of the one, the
word's, and those of the other, so many bytes further on. -/
theorem union_of_texts (limit : Nat) (a b : String) (l m : Location)
    (ha : (parse limit a).result = .ok (.location l))
    (hb : (parse limit b).result = .ok (.location m)) :
    (parse limit (a ++ " union " ++ b)).result = .ok (.location (l.joinRight m)) ∧
      (parse limit (a ++ " union " ++ b)).tokens = (parse limit a).tokens ++
        ⟨.set, a.utf8ByteSize + 1, a.utf8ByteSize + 6, "union"⟩ ::
          (parse limit b).tokens.map (·.moved (a.utf8ByteSize + 7)) := by
  obtain ⟨levels, t, rfl, hl, htokens⟩ := parse_location ha
  obtain ⟨levels', u, hlimit, hm, htokens'⟩ := parse_location hb
  obtain rfl : levels = levels' := Nat.succ.inj hlimit
  obtain ⟨w, hjoined, htold⟩ := hl.join hm
  have hsize : a.utf8ByteSize = byteSize a.toList := by
    rw [← Text.utf8ByteSize_ofList, String.ofList_toList]
  have htext : (a ++ " union " ++ b).toList = a.toList ++ (" union ".toList ++ b.toList) := by
    rw [String.toList_append, String.toList_append, List.append_assoc]
  rw [← htext] at hjoined
  rw [htokens, htokens', hsize, ← htold]
  exact hjoined.parse

def Expression.isUnionOfPaths (e : Expression) : Bool :=
  e matches .location (.union (.path _) (.path _))

/-- The first text is a union itself, so the second joins its last operand. The blanks before the
word are no part of the string that stands there. -/
theorem callAfterUnion_joined : ∃ p q m,
    (parse 32 "//a[0] union \"b\" c ").result = .ok (.location (.union (.path p) (.path q))) ∧
    (parse 32 "f(d union e)=g").result = .ok (.location m) ∧
    (parse 32 "//a[0] union \"b\" c  union f(d union e)=g").result =
      .ok (.location (.union (.path p) (.union (.path q) m))) ∧
    (parse 32 "//a[0] union \"b\" c  union f(d union e)=g").tokens =
      (parse 32 "//a[0] union \"b\" c ").tokens ++ ⟨.set, 20, 25, "union"⟩ ::
        (parse 32 "f(d union e)=g").tokens.map (·.moved 26) := by
  obtain ⟨p, q, ha⟩ : ∃ p q, (parse 32 "//a[0] union \"b\" c ").result =
      .ok (.location (.union (.path p) (.path q))) := by
    obtain ⟨e, he, htest⟩ := exists_read (r := (parse 32 "//a[0] union \"b\" c ").result)
      (q := Expression.isUnionOfPaths) (by decide +kernel)
    unfold Expression.isUnionOfPaths at htest
    split at htest
    · exact ⟨_, _, he⟩
    · cases htest
  obtain ⟨_ | m, hb, htest⟩ := exists_read (r := (parse 32 "f(d union e)=g").result)
    (q := Expression.isLocation) (by decide +kernel)
  · cases htest
  have hjoined := union_of_texts 32 "//a[0] union \"b\" c " "f(d union e)=g" _ m ha hb
  exact ⟨p, q, m, ha, hb, hjoined⟩

end OutlineQuery
