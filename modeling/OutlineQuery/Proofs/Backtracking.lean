import OutlineQuery.Parse
import OutlineQuery.Proofs.Productions

/-! Backtracking leaves no trace: a production only adds to the state, an attempt that fails puts
back the state before it, and a failure that is fatal ends the whole reading. -/

namespace OutlineQuery
open Grammar Production

namespace Grammar.Production

/-- The run of the second production from the second state comes to a run of `q` from `t`. -/
inductive Runs {β : Type} (q : Production β) (t : State) :
    {α : Type} → Production α → State → Prop
  | here : Runs q t q t
  | first {α γ : Type} {p : Production α} {f : α → Production γ} {s : State} :
      Runs q t p s → Runs q t (p >>= f) s
  | next {α γ : Type} {p : Production α} {f : α → Production γ} {s u : State} {a : α} :
      p s = .ok a u → Runs q t (f a) u → Runs q t (p >>= f) s
  | attempt {α : Type} {p : Production α} {s : State} : Runs q t p s → Runs q t (attempt p) s
  | nested {α : Type} {p : Production α} {limit : Nat} {s : State} : s.depth < limit →
      Runs q t p { s with depth := s.depth + 1 } → Runs q t (nested limit p) s

/-- No production around a run goes on after it has failed fatally; only the depth is counted
back. -/
theorem Runs.fatal {α β : Type} {q : Production β} {t t' : State} {p : Production α} {s : State}
    (h : Runs q t p s) {reason : Reason} (hq : q t = .error reason t')
    (hr : reason.isFatal = true) : ∃ d, p s = .error reason { t' with depth := d } := by
  induction h with
  | here => exact ⟨t'.depth, hq⟩
  | first _ ih =>
    obtain ⟨d, hd⟩ := ih
    exact ⟨d, bind_of_error hd⟩
  | next hok _ ih =>
    obtain ⟨d, hd⟩ := ih
    exact ⟨d, (bind_of_ok hok).trans hd⟩
  | attempt _ ih =>
    obtain ⟨d, hd⟩ := ih
    exact ⟨d, attempt_of_fatal hd hr⟩
  | nested hlt _ ih =>
    obtain ⟨d, hd⟩ := ih
    exact ⟨d - 1, by simp [Production.nested, hlt, hd]⟩

end Grammar.Production

/-- Whatever a production comes to, it keeps the tokens recorded before it, does not end before
its start, and leaves the depth as it was. So an attempt that fails recoverably puts back cursor,
tokens and depth; a fatal failure anywhere in a reading is the result of the reading. -/
theorem backtracking_leaves_no_trace (limit : Nat) :
    (∀ {α : Type} (p : Production α), IsProduction limit p → ∀ s : State,
      (s.tokens.toList <+: (p.finish s).tokens.toList ∧
        s.cursor.offset ≤ (p.finish s).cursor.offset ∧ (p.finish s).depth = s.depth) ∧
      ∀ reason t, p s = .error reason t → reason.isFatal = false → attempt p s = .ok none s) ∧
    ∀ (text : String) {β : Type} (q : Production β) (t t' : State) (reason : Reason),
      Runs q t (expression limit) (.start text.toList) → q t = .error reason t' →
      reason.isFatal = true →
      (parse limit text).result = .error (.ofState reason t') ∧
        (parse limit text).tokens = t'.tokens.toList := by
  constructor
  · intro α p hp s
    have hg : Grown s (p.finish s) := discipline_grown.follows hp s
    refine ⟨⟨hg.tokens, hg.offset_le, hg.depth⟩, ?_⟩
    intro reason t h hr
    exact attempt_of_error hg h hr
  · intro text β q t t' reason hrun hq hr
    obtain ⟨d, hd⟩ := hrun.fatal hq hr
    have hp : parse limit text = ⟨.error (.ofState reason t'), t'.tokens.toList⟩ := by
      rw [parse, hd]
      rfl
    rw [hp]
    exact ⟨rfl, rfl⟩

/-- Behind `not` the call `f(a` has passed three characters and recorded as many tokens when it
turns out not to be closed. They are dropped, and the token of `not` stays. With no levels at all a
star is no query, although it is no call either. -/
theorem unclosedCall_leaves_no_trace :
    (∃ before after,
      (do let _ ← word "not" .boolean; skipBlanks) (.start "not f(a".toList) = .ok () before ∧
        before.tokens.toList = [⟨.boolean, 0, 3, "not"⟩] ∧ before.cursor.offset = 4 ∧
        function (innerAt 4 4) before = .error (.text ")") after ∧ after.cursor.offset = 7 ∧
        after.tokens.toList = before.tokens.toList ++ [⟨.functionName, 4, 5, "f"⟩,
          ⟨.unquotedString, 6, 7, "a"⟩, ⟨.comparison, 6, 7, "a"⟩] ∧
        attempt (function (innerAt 4 4)) before = .ok none before) ∧
      (parse 0 "*").result = .error (.ofState .tooDeep (.start "*".toList)) := by
  constructor
  · let start := State.start "not f(a".toList
    let before := ((start.pass 3).emit .boolean start.cursor).pass 1
    have hfails : function (innerAt 4 4) before matches .error (.text ")") _ := by decide +kernel
    have htokens : ((function (innerAt 4 4)).finish before).tokens.toList =
        before.tokens.toList ++ [⟨.functionName, 4, 5, "f"⟩, ⟨.unquotedString, 6, 7, "a"⟩,
          ⟨.comparison, 6, 7, "a"⟩] := by decide +kernel
    have hoffset : ((function (innerAt 4 4)).finish before).cursor.offset = 7 := by decide +kernel
    split at hfails
    · rename_i after hafter
      rw [finish_of_error hafter] at htokens hoffset
      have hattempt := ((backtracking_leaves_no_trace 4).1 _ (.function 4) before).2
        (.text ")") after hafter rfl
      exact ⟨before, after, rfl, rfl, rfl, hafter, hoffset, htokens, hattempt⟩
    · cases hfails
  · have hcall : attempt (wholeCall 0) (.start "*".toList) = .ok none (.start "*".toList) := rfl
    have hfail : location 0 0 (.start "*".toList) = .error .tooDeep (.start "*".toList) := by
      rw [location_zero]
      rfl
    exact ((backtracking_leaves_no_trace 0).2 "*" (location 0 0) (.start "*".toList)
      (.start "*".toList) .tooDeep (.next hcall (.first (.attempt (.next rfl .here)))) hfail rfl).1

end OutlineQuery
