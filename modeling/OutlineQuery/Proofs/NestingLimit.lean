import OutlineQuery.Proofs.Parsed
import OutlineQuery.Proofs.Tracking

/-! A limit on nesting cuts a reading off, or makes no difference. Two readings of a text under
different limits go side by side, until the one with the smaller limit has no level left where the
text goes deeper; that failure is fatal, so no alternative is tried in its place. -/

namespace OutlineQuery.Grammar
open Production Text

structure CutOff {α : Type} (depth : Nat) (p q : Production α) : Prop where
  follows : p.Follows Grown
  run (s : State) : s.depth = depth → (∃ t, p s = .error .tooDeep t) ∨ q s = p s

/-- Where no more levels are needed than the smaller limit leaves, the larger one does the same. -/
theorem CutOff.of_tracks {α : Type} {depth : Nat} {p q : Production α}
    (h : Tracks 0 True (.atDepth depth) p q) : CutOff depth p q :=
  ⟨h.grows, fun _ hs =>
    (h.run hs).imp And.right fun hsame => hsame.trans (Tracks.deeperResult_zero _)⟩

section
variable {limit limit' : Nat} (hle : limit ≤ limit')
include hle

/-- By the levels of nesting that the smaller limit leaves. -/
theorem tracks_limits (levels levels' depth : Nat) (h : depth + levels = limit)
    (h' : depth + levels' = limit') :
    Tracks 0 True (.atDepth depth) (location limit levels) (location limit' levels') ∧
      (innerAt limit levels).Tracks 0 True (.atDepth depth) (innerAt limit' levels') := by
  induction levels generalizing levels' depth with
  | zero =>
    rw [location_zero, innerAt_zero]
    exact ⟨.tooDeep trivial, .tooDeep trivial, .tooDeep trivial⟩
  | succ levels ih =>
    cases levels' with
    | zero => omega
    | succ levels' =>
      -- both limits count down by one with each level, so both have one left here
      have hlimit {s : State} (hs : (Zone.atDepth depth).Holds s) :
          s.depth < limit ↔ s.depth + 0 < limit' := by
        have hdepth : s.depth = depth := hs
        omega
      have hwithin {s : State} (hs : (Zone.atDepth depth).Holds s) :
          (Zone.atDepth (depth + 1)).Holds { s with depth := s.depth + 1 } := congrArg (· + 1) hs
      have hsame : (Zone.atDepth (depth + 1)).Before (.atDepth (depth + 1)) := Zone.before_self _
      obtain ⟨hlocation, hinner⟩ := ih levels' (depth + 1) (by omega) (by omega)
      rw [location_succ, location_succ, innerAt_succ, innerAt_succ]
      refine ⟨.nested hlimit hwithin ?_, .nested hlimit hwithin ?_,
        .nested hlimit hwithin hlocation⟩
      · exact Tracks.skipBlanks.bind fun _ => .union hsame hinner
      · exact .disjunction hsame hinner

theorem cutOff_expression : CutOff 0 (expression limit) (expression limit') := by
  obtain ⟨hlocation, hinner⟩ :=
    tracks_limits hle limit limit' 0 (Nat.zero_add limit) (Nat.zero_add limit')
  have hsame : (Zone.atDepth 0).Before (.atDepth 0) := Zone.before_self _
  have hcall : Tracks 0 True (.atDepth 0) (wholeCall limit) (wholeCall limit') :=
    Tracks.skipBlanks.bind fun _ => (Tracks.function hsame hinner).bind fun _ =>
      Tracks.expectEnd.map _
  have hwhole : Tracks 0 True (.atDepth 0) (wholeLocation limit) (wholeLocation limit') :=
    Tracks.skipBlanks.bind fun _ => hlocation
  exact .of_tracks <| hcall.alternative (fun _ => .pure _) <|
    hwhole.alternative (fun _ => Tracks.expectEnd.map _) (.fail _)

end

theorem tooDeep_of_attempt {α : Type} {p : Production α} {s t : State} {reason : Reason}
    (h : attempt p s = .error reason t) : reason = .tooDeep := by
  rw [attempt] at h
  cases hp : p s with
  | ok a u => rw [hp] at h; cases h
  | error reason' u =>
    rw [hp] at h
    cases reason' with
    | tooDeep => cases h; rfl
    | _ => cases h

/-- Without levels no call can be read, and then no location either. -/
theorem expression_zero (s : State) : ∃ t, expression 0 s = .error .tooDeep t := by
  have hlocation : ∀ u, ∃ t, attempt (wholeLocation 0) u = .error .tooDeep t := by
    intro u
    have hwhole : ∃ t, wholeLocation 0 u = .error .tooDeep t := by
      rw [wholeLocation, bind_of_ok (skipBlanks_run (s := u)), location_zero]
      exact ⟨_, rfl⟩
    obtain ⟨t, hrun⟩ := hwhole
    exact ⟨t, attempt_of_fatal hrun rfl⟩
  cases hcall : attempt (wholeCall 0) s with
  | error reason t =>
    obtain rfl := tooDeep_of_attempt hcall
    exact ⟨t, bind_of_error hcall⟩
  | ok found t =>
    cases found with
    | some f =>
      have hfits : f.Fits 0 := Returns.attempt (discipline_grown.follows_wholeCall 0)
        (returns_wholeCall 0 s.cursor.rest) s (some f) t rfl hcall
      have hdepth := hfits.2
      have hpos := f.callDepth_pos
      omega
    | none =>
      obtain ⟨u, hu⟩ := hlocation t
      exact ⟨u, (bind_of_ok hcall).trans (bind_of_error hu)⟩

end OutlineQuery.Grammar

namespace OutlineQuery
open Grammar

section
variable {limit : Nat} {text : String}

theorem parse_of_tooDeep {t : State}
    (h : expression limit (.start text.toList) = .error .tooDeep t) :
    ∃ e, (parse limit text).result = .error e ∧ e.isFatal = true := by
  rw [parse, h]
  exact ⟨.ofState .tooDeep t, rfl, rfl⟩

/-- Unless it is cut off, a reading is the same under every larger limit. -/
theorem parse_of_le {limit' : Nat} (hle : limit ≤ limit')
    (h : ∀ e, (parse limit text).result = .error e → e.isFatal = false) :
    parse limit' text = parse limit text := by
  obtain ⟨t, hdeep⟩ | hsame := (cutOff_expression hle).run (.start text.toList) rfl
  · obtain ⟨e, he, hfatal⟩ := parse_of_tooDeep hdeep
    rw [h e he] at hfatal
    cases hfatal
  · rw [parse, parse, hsame]

end

/-- The limit on nesting only ever cuts off: a reading that does not fail fatally comes to the same
result and the same tokens under every larger limit. Under the limit 0 every reading fails fatally.
Each call that is nested in another needs two levels more, and a location one. -/
theorem limit_only_cuts_off (text : String) :
    (∀ limit limit', limit ≤ limit' →
      (∀ e, (parse limit text).result = .error e → e.isFatal = false) →
      parse limit' text = parse limit text) ∧
    (∃ e, (parse 0 text).result = .error e ∧ e.isFatal = true) ∧
    (∀ limit f, (parse limit text).result = .ok (.function f) → 2 * f.callDepth ≤ limit) ∧
    ∀ limit l, (parse limit text).result = .ok (.location l) → 1 + 2 * l.callDepth ≤ limit := by
  refine ⟨fun _ _ hle h => parse_of_le hle h, ?_, fun limit f h => ?_, fun limit l h => ?_⟩
  · obtain ⟨t, hdeep⟩ := expression_zero (.start text.toList)
    exact parse_of_tooDeep hdeep
  · exact (parse_returns h).2
  · rw [Nat.add_comm]
    exact (parse_returns h).2

/-- A call in a call takes four levels, and five on one side of a comparison. -/
theorem callInCall_levels :
    parse 32 "f(g(a)=b)" = parse 4 "f(g(a)=b)" ∧
    (∃ e, (parse 0 "f(g(a)=b)").result = .error e ∧ e.isFatal = true) ∧
    (∃ f, (parse 4 "f(g(a)=b)").result = .ok (.function f) ∧ 2 * f.callDepth ≤ 4) ∧
    ∃ l, (parse 5 "f(g(a)=b)=c").result = .ok (.location l) ∧ 1 + 2 * l.callDepth ≤ 5 := by
  obtain ⟨hlarger, hzero, hcall, -⟩ := limit_only_cuts_off "f(g(a)=b)"
  obtain ⟨-, -, -, hlocation⟩ := limit_only_cuts_off "f(g(a)=b)=c"
  obtain ⟨f, hf⟩ : ∃ f, (parse 4 "f(g(a)=b)").result = .ok (.function f) := by
    obtain ⟨f | _, hf, htest⟩ := exists_read (r := (parse 4 "f(g(a)=b)").result)
      (q := (!·.isLocation)) (by decide +kernel)
    · exact ⟨f, hf⟩
    · cases htest
  obtain ⟨_ | l, hl, htest⟩ := exists_read (r := (parse 5 "f(g(a)=b)=c").result)
    (q := Expression.isLocation) (by decide +kernel)
  · cases htest
  have hsame : parse 32 "f(g(a)=b)" = parse 4 "f(g(a)=b)" := by
    refine hlarger 4 32 (by decide) fun e he => ?_
    rw [hf] at he
    cases he
  exact ⟨hsame, hzero, ⟨f, hf, hcall 4 f hf⟩, l, hl, hlocation 5 l hl⟩

end OutlineQuery
