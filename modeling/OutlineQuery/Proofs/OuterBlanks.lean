import OutlineQuery.Proofs.Joining
import OutlineQuery.Proofs.NestingLimit

/-! Blanks around a query do not matter: the same is read, or refused for the same reason, and the
tokens stand so many bytes further on. -/

namespace OutlineQuery
open Grammar Production Text

/-- Blanks are passed in one go with those behind them. -/
theorem Grammar.skipBlanks_bind_run {α : Type} {f : Unit → Production α} {s : State}
    {gap text : List Char} (hs : s.cursor.rest = gap ++ text)
    (hgap : ∀ c ∈ gap, isBlank c = true) :
    (skipBlanks >>= f) s = (skipBlanks >>= f) (s.pass gap.length) := by
  have htake : s.cursor.rest.takeWhile isBlank = gap ++ text.takeWhile isBlank := by
    rw [hs, List.takeWhile_append_of_pos hgap]
  have hrest : (s.pass gap.length).cursor.rest = text := by
    rw [rest_pass, hs, List.drop_left]
  rw [bind_of_ok skipBlanks_run, bind_of_ok skipBlanks_run, hrest, htake, pass_pass,
    List.length_append]

namespace Embedding
variable {E : Embedding} {crossed lax : Bool} {s s' t t' : State}

def between (before behind : List Char) : Embedding := ⟨[], byteSize before, behind⟩

theorem beside_between (before text behind : List Char) : (between before behind).Beside false
    (.start text) ((State.start (before ++ (text ++ behind))).pass before.length) := by
  refine ⟨rfl, rfl, ?_, ?_⟩
  · rw [rest_pass]
    exact List.drop_left
  · rw [State.pass, Cursor.offset_advance]
    show 0 + byteSize ((before ++ (text ++ behind)).take before.length) = 0 + byteSize before
    rw [List.take_left]

theorem Ends.tokens (h : E.Ends lax crossed t t') : E.SameTokens t t' :=
  h.elim (·.tokens) (·.2.tokens)

def Agree {α : Type} (E : Embedding) :
    EStateM.Result Reason State α → EStateM.Result Reason State α → Prop
  | .ok a t, .ok a' t' => a' = a ∧ E.SameTokens t t'
  | .error reason t, .error reason' t' => reason' = reason ∧ E.SameTokens t t'
  | _, _ => False

/-- The end of the text is found behind the blanks in both, or in neither. -/
theorem Beside.expectEnd (hnext : E.next = []) (h : E.Beside crossed s s') :
    (∃ t t', expectEnd s = .ok () t ∧ expectEnd s' = .ok () t' ∧ E.Beside true t t') ∨
      ∃ t t', expectEnd s = .error .endOfInput t ∧ expectEnd s' = .error .endOfInput t' ∧
        E.SameTokens t t' := by
  rw [expectEnd_run, expectEnd_run]
  by_cases hblank : ∀ c ∈ s.cursor.rest, isBlank c = true
  · have hcrossed := h.cross hblank
    have hend' := hcrossed.place.2.1
    rw [rest_pass, drop_takeWhile, hnext] at hend'
    rw [if_pos (List.dropWhile_eq_nil_iff.mpr hblank), if_pos hend']
    exact .inl ⟨_, _, rfl, rfl, hcrossed⟩
  · have hmore : s.cursor.rest.dropWhile isBlank ≠ [] :=
      fun hnil => hblank (List.dropWhile_eq_nil_iff.mp hnil)
    obtain ⟨rfl, hsame, hpassed⟩ := h.passBlanks hblank
    have hmore' : s'.cursor.rest.dropWhile isBlank ≠ [] := by
      have hrest := hpassed.place.1
      rw [rest_pass, rest_pass, ← hsame, drop_takeWhile, hsame, drop_takeWhile] at hrest
      rw [hrest]
      exact fun hnil => hmore (List.append_eq_nil_iff.mp hnil).1
    rw [if_neg hmore, if_neg hmore']
    exact .inr ⟨_, _, rfl, rfl, hpassed.tokens⟩

end Embedding

namespace Parallel
variable {E : Embedding} {i : Nat}

theorem expectEnd (hnext : E.next = []) : Parallel E true true i i expectEnd := by
  refine ⟨follows_grown_of_silent silent_expectEnd, fun {s a t} hok last n => ?_,
    fun {crossed s s'} _ hs _ => ?_⟩
  · rw [expectEnd_run] at hok
    split at hok
    · cases hok
      rw [rest_pass, drop_takeWhile]
      exact closes_dropWhile fun _ => isPlain_of_isBlank
    · cases hok
  · obtain ⟨t, t', h, h', hends⟩ | ⟨t, t', h, h', -⟩ := hs.expectEnd hnext
    · rw [h, h']
      exact ⟨rfl, .inr ⟨rfl, hends⟩⟩
    · rw [h, h']
      exact ⟨rfl, nofun⟩

section
variable (hE : E.Apart) (limit : Nat)
include hE

theorem wholeCall (hnext : E.next = []) : Parallel E true true 0 0 (wholeCall limit) := by
  refine skipBlanks.bind fun _ => ?_
  refine (function hE (levels hE limit limit).2).bind_firm fun _ => (expectEnd hnext).map _

theorem wholeLocation (hnext : E.next = []) : Parallel E true true 0 0 (wholeLocation limit) := by
  refine skipBlanks.bind fun _ => ?_
  cases limit with
  | zero =>
    rw [location_zero]
    exact fail _
  | succ levels =>
    rw [location_eq_union]
    exact nested _ (union hE (Parallel.levels hE _ levels).2 fun _ => hnext)

end
end Parallel

namespace Embedding
variable {E : Embedding} {before text behind : List Char} {limit : Nat}

/-- Where the production starts with a way past the blanks, an attempt at it does the same in the
text alone and from before the blanks. -/
theorem attempt_between {α : Type} {p : Production α} {s s' s₀ : State}
    (hp : Parallel E true true 0 0 p) (hnext : E.next = []) (hs : E.Beside false s s')
    (hs₀ : p s₀ = p s') :
    (∃ a t t', attempt p s = .ok (some a) t ∧ attempt p s₀ = .ok (some a) t' ∧
        E.Ends true false t t') ∨
      (attempt p s = .ok none s ∧ attempt p s₀ = .ok none s₀) ∨
      ∃ t t', attempt p s = .error .tooDeep t ∧ attempt p s₀ = .error .tooDeep t' ∧
        E.SameTokens t t' := by
  obtain ⟨a, t, t', h, h', hends⟩ | ⟨reason, t, reason', t', h, h', hfatal, htokens⟩ :=
    (hp.runs (fun _ => rfl) hs (.inl hnext)).cases
  · exact .inl ⟨a, t, t', attempt_of_ok h, attempt_of_ok (hs₀.trans h'), hends⟩
  · cases hr : reason.isFatal with
    | false =>
      exact .inr (.inl ⟨attempt_of_error (hp.grows s) h hr,
        attempt_of_error (hp.grows s₀) (hs₀.trans h') (hfatal.trans hr)⟩)
    | true =>
      have hattempt := attempt_of_fatal h hr
      have hattempt' := attempt_of_fatal (hs₀.trans h') (hfatal.trans hr)
      obtain rfl := tooDeep_of_attempt hattempt
      obtain rfl := tooDeep_of_attempt hattempt'
      exact .inr (.inr ⟨t, t', hattempt, hattempt', htokens hr⟩)

theorem expression_between (limit : Nat) (hbefore : ∀ c ∈ before, isBlank c = true)
    (hbehind : ∀ c ∈ behind, isBlank c = true ∧ isRest c = false) :
    (between before behind).Agree (expression limit (.start text))
      (expression limit (.start (before ++ (text ++ behind)))) := by
  have hE : (between before behind).Apart := apart_of_blanks hbehind
  have hnext : (between before behind).next = [] :=
    next_eq_nil_of_blanks fun c hc => (hbehind c hc).1
  have hs := beside_between before text behind
  have hstart : (State.start (before ++ (text ++ behind))).cursor.rest =
      before ++ (text ++ behind) := rfl
  have hcall : wholeCall limit (.start (before ++ (text ++ behind))) =
      wholeCall limit ((State.start (before ++ (text ++ behind))).pass before.length) :=
    skipBlanks_bind_run hstart hbefore
  have hlocation : wholeLocation limit (.start (before ++ (text ++ behind))) =
      wholeLocation limit ((State.start (before ++ (text ++ behind))).pass before.length) :=
    skipBlanks_bind_run hstart hbefore
  rw [expression]
  obtain ⟨f, t, t', h, h', hends⟩ | ⟨h, h'⟩ | ⟨t, t', h, h', htokens⟩ :=
    attempt_between (.wholeCall hE limit hnext) hnext hs hcall
  · rw [bind_of_ok h, bind_of_ok h']
    exact ⟨rfl, hends.tokens⟩
  · rw [bind_of_ok h, bind_of_ok h']
    dsimp only
    obtain ⟨l, t, t', h, h', hends⟩ | ⟨h, h'⟩ | ⟨t, t', h, h', htokens⟩ :=
      attempt_between (.wholeLocation hE limit hnext) hnext hs hlocation
    · rw [bind_of_ok h, bind_of_ok h']
      dsimp only
      obtain ⟨crossed, hbeside⟩ : ∃ crossed, (between before behind).Beside crossed t t' :=
        hends.elim (fun h => ⟨false, h⟩) fun h => ⟨true, h.2⟩
      obtain ⟨u, u', hu, hu', hbeside'⟩ | ⟨u, u', hu, hu', htokens⟩ := hbeside.expectEnd hnext
      · rw [bind_of_ok hu, bind_of_ok hu']
        exact ⟨rfl, hbeside'.tokens⟩
      · rw [bind_of_error hu, bind_of_error hu']
        exact ⟨rfl, htokens⟩
    · rw [bind_of_ok h, bind_of_ok h']
      exact ⟨rfl, rfl⟩
    · rw [bind_of_error h, bind_of_error h']
      exact ⟨rfl, htokens⟩
  · rw [bind_of_error h, bind_of_error h']
    exact ⟨rfl, htokens⟩

end Embedding

/-- The same is read of a query with blanks around it, or it is refused for the same reason; its
tokens are the same so many bytes further on. Behind the query no blank may stand that an identifier
goes on with. -/
theorem parse_between_blanks (limit : Nat) (before text behind : String)
    (hbefore : ∀ c ∈ before.toList, isBlank c = true)
    (hbehind : ∀ c ∈ behind.toList, isBlank c = true ∧ isRest c = false) :
    (∀ e, (parse limit (before ++ text ++ behind)).result = .ok e ↔
        (parse limit text).result = .ok e) ∧
      (∀ error error', (parse limit text).result = .error error →
        (parse limit (before ++ text ++ behind)).result = .error error' →
          error'.message = error.message ∧ error'.isFatal = error.isFatal) ∧
      (parse limit (before ++ text ++ behind)).tokens =
        (parse limit text).tokens.map (·.moved before.utf8ByteSize) := by
  have htext : (before ++ text ++ behind).toList =
      before.toList ++ (text.toList ++ behind.toList) := by
    rw [String.toList_append, String.toList_append, List.append_assoc]
  have hagree : (Embedding.between before.toList behind.toList).Agree
      (expression limit (.start text.toList))
      (expression limit (.start (before.toList ++ (text.toList ++ behind.toList)))) :=
    Embedding.expression_between limit hbefore hbehind
  rw [parse, parse, htext, Text.utf8ByteSize_eq]
  cases h : expression limit (.start text.toList) with
  | ok e t =>
    cases h' : expression limit (.start (before.toList ++ (text.toList ++ behind.toList))) with
    | ok e' t' =>
      rw [h, h'] at hagree
      obtain ⟨rfl, htokens⟩ := hagree
      refine ⟨fun _ => Iff.rfl, fun _ _ hfailed => ?_, htokens⟩
      cases hfailed
    | error reason' t' => rw [h, h'] at hagree; exact hagree.elim
  | error reason t =>
    cases h' : expression limit (.start (before.toList ++ (text.toList ++ behind.toList))) with
    | ok e' t' => rw [h, h'] at hagree; exact hagree.elim
    | error reason' t' =>
      rw [h, h'] at hagree
      obtain ⟨rfl, htokens⟩ := hagree
      refine ⟨fun _ => ⟨fun hread => ?_, fun hread => ?_⟩, ?_, htokens⟩
      · cases hread
      · cases hread
      · rintro _ _ ⟨⟩ ⟨⟩
        exact ⟨rfl, rfl⟩

theorem blanks_of_all (text : String)
    (h : text.toList.all (fun c => isBlank c && !isRest c) = true) :
    ∀ c ∈ text.toList, isBlank c = true ∧ isRest c = false := by
  intro c hc
  have hboth := List.all_eq_true.mp h c hc
  simpa using hboth

/-- Behind `heading`, behind a slice and between the pieces of a string blanks would matter. -/
theorem query_between_blanks : (parse 32 "heading[0]/\"a\" b").result.isOk = true ∧
    (parse 32 ("\n\t " ++ "heading[0]/\"a\" b" ++ " \u2003\r\n")).result =
      (parse 32 "heading[0]/\"a\" b").result ∧
    (parse 32 ("\n\t " ++ "heading[0]/\"a\" b" ++ " \u2003\r\n")).tokens =
      (parse 32 "heading[0]/\"a\" b").tokens.map (·.moved 3) := by
  obtain ⟨hsame, -, htokens⟩ := parse_between_blanks 32 "\n\t " "heading[0]/\"a\" b" " \u2003\r\n"
    (List.all_eq_true.mp (by decide)) (blanks_of_all " \u2003\r\n" (by decide))
  cases h : (parse 32 "heading[0]/\"a\" b").result with
  | ok e => exact ⟨rfl, (hsame e).mpr h, htokens⟩
  | error error =>
    have hok : (parse 32 "heading[0]/\"a\" b").result.isOk = true := by decide +kernel
    rw [h] at hok
    cases hok

end OutlineQuery
