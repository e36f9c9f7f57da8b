import OutlineQuery.Proofs.Layout
import OutlineQuery.Proofs.Parentheses
import OutlineQuery.Proofs.ReadingBack

/-! A text that stands in a longer one is read there as it is read alone, where what stands behind
it is kept apart by a blank or by a parenthesis that closes. Two runs go side by side; where the one
comes to the end of its text, the other may cross the blanks behind it, and then neither finds
anything that it could read. -/

namespace OutlineQuery
open Grammar Production Text

def Token.moved (t : Token) (n : Nat) : Token := ⟨t.kind, t.start + n, t.stop + n, t.text⟩

/-- How a text stands in a longer one: with these tokens recorded before it, so many bytes further
on, and with this text behind it. -/
structure Embedding where
  before : List Token
  shift : Nat
  behind : List Char

namespace Embedding

def gap (E : Embedding) : List Char := E.behind.takeWhile isBlank

def next (E : Embedding) : List Char := E.behind.dropWhile isBlank

def SameTokens (E : Embedding) (s s' : State) : Prop :=
  s'.tokens.toList = E.before ++ s.tokens.toList.map (·.moved E.shift)

def SamePlace (E : Embedding) (k k' : Cursor) : Bool → Prop
  | false => k'.rest = k.rest ++ E.behind ∧ k'.offset = k.offset + E.shift
  | true => k.rest = [] ∧ k'.rest = E.next ∧ k'.offset = k.offset + E.shift + byteSize E.gap

structure Beside (E : Embedding) (crossed : Bool) (s s' : State) : Prop where
  tokens : E.SameTokens s s'
  depth : s'.depth = s.depth
  place : E.SamePlace s.cursor s'.cursor crossed

def Ends (E : Embedding) (lax crossed : Bool) (t t' : State) : Prop :=
  E.Beside crossed t t' ∨ lax = true ∧ E.Beside true t t'

def Matches {α : Type} (E : Embedding) (ends : State → State → Prop) :
    EStateM.Result Reason State α → EStateM.Result Reason State α → Prop
  | .ok a t, .ok a' t' => a' = a ∧ ends t t'
  | .error reason t, .error reason' t' =>
    reason'.isFatal = reason.isFatal ∧ (reason.isFatal = true → E.SameTokens t t')
  | _, _ => False

/-- Either nothing follows the blanks, or the text closes so many parentheses that stand open before
it, and maybe more. So it cannot end within parentheses. -/
def Guarded (E : Embedding) (n : Nat) (text : List Char) : Prop :=
  E.next = [] ∨ ∃ outer, Closes [] (outer + n) text

end Embedding

/-- Run side by side, the production comes to the same in the text alone and in the longer one. It
is run with so many parentheses open around it, and leaves so many open. It may be started where the
blanks behind the text have been crossed, if it is wide, and cross them itself, if it is lax. -/
structure Parallel {α : Type} (E : Embedding) (wide lax : Bool) (i j : Nat) (p : Production α) :
    Prop where
  grows : p.Follows Grown
  level {s : State} {a : α} {t : State} : p s = .ok a t → ∀ last n,
    Closes last (n + i) s.cursor.rest ↔ Closes last (n + j) t.cursor.rest
  runs {crossed : Bool} {s s' : State} : (crossed = true → wide = true) → E.Beside crossed s s' →
    E.Guarded i s.cursor.rest → E.Matches (E.Ends lax crossed) (p s) (p s')

namespace Embedding
variable {E : Embedding} {s s' t t' : State} {crossed : Bool}

theorem Matches.mono {α : Type} {ends ends' : State → State → Prop}
    {r r' : EStateM.Result Reason State α} (h : E.Matches ends r r')
    (hends : ∀ t t', ends t t' → ends' t t') : E.Matches ends' r r' := by
  cases r <;> cases r' <;> first | exact h | exact ⟨h.1, hends _ _ h.2⟩

theorem Matches.cases {α : Type} {ends : State → State → Prop}
    {r r' : EStateM.Result Reason State α} (h : E.Matches ends r r') :
    (∃ a t t', r = .ok a t ∧ r' = .ok a t' ∧ ends t t') ∨
      ∃ reason t reason' t', r = .error reason t ∧ r' = .error reason' t' ∧
        reason'.isFatal = reason.isFatal ∧ (reason.isFatal = true → E.SameTokens t t') := by
  cases r with
  | ok a t =>
    cases r' with
    | ok a' t' =>
      obtain ⟨rfl, hends⟩ := h
      exact .inl ⟨_, t, t', rfl, rfl, hends⟩
    | error reason' t' => exact h.elim
  | error reason t =>
    cases r' with
    | ok a' t' => exact h.elim
    | error reason' t' => exact .inr ⟨reason, t, reason', t', rfl, rfl, h⟩

theorem Matches.of_ok {α : Type} {p : Production α} {a : α} {ends : State → State → Prop}
    (h : E.Matches ends (p s) (p s')) (hok : p s = .ok a t) :
    ∃ t', p s' = .ok a t' ∧ ends t t' := by
  rw [hok] at h
  cases hrun : p s' with
  | ok a' t' =>
    rw [hrun] at h
    obtain ⟨rfl, hends⟩ := h
    exact ⟨t', rfl, hends⟩
  | error reason t' => rw [hrun] at h; exact h.elim

/-- What the second parts of two runs come to where the first ones have come to the same. -/
theorem Matches.bind {α β : Type} {p : Production α} {f : α → Production β}
    {ends ends' : State → State → Prop} (hp : E.Matches ends (p s) (p s'))
    (hf : ∀ a t t', p s = .ok a t → ends t t' → E.Matches ends' (f a t) (f a t')) :
    E.Matches ends' ((p >>= f) s) ((p >>= f) s') := by
  obtain ⟨a, t, t', h, h', hends⟩ | ⟨reason, t, reason', t', h, h', hfatal⟩ := hp.cases
  · rw [bind_of_ok h, bind_of_ok h']
    exact hf a t t' h hends
  · rw [bind_of_error h, bind_of_error h']
    exact hfatal

theorem Beside.ends {lax : Bool} (h : E.Beside crossed t t') : E.Ends lax crossed t t' := .inl h

theorem Ends.firm (h : E.Ends false crossed t t') : E.Beside crossed t t' :=
  h.elim id fun h => nomatch h.1

theorem Ends.relax (h : E.Ends false crossed t t') {lax : Bool} : E.Ends lax crossed t t' :=
  h.firm.ends

theorem Guarded.of_level {i j : Nat} {text rest : List Char}
    (h : ∀ last n, Closes last (n + i) text ↔ Closes last (n + j) rest) (hg : E.Guarded i text) :
    E.Guarded j rest :=
  hg.imp_right fun ⟨outer, hcloses⟩ => ⟨outer, (h [] outer).mp hcloses⟩

/-- Within parentheses the text has not come to its end. -/
theorem Guarded.next_eq_nil {i : Nat} (hi : i ≠ 0) (h : E.Guarded i []) : E.next = [] := by
  obtain hnext | ⟨outer, hcloses⟩ := h
  · exact hnext
  · obtain ⟨i, rfl⟩ := Nat.exists_eq_succ_of_ne_zero hi
    exact absurd hcloses not_closes_nil

/-- Both cursors pass the same characters of the text. -/
theorem Beside.pass (h : E.Beside false s s') {n : Nat} (hn : n ≤ s.cursor.rest.length) :
    E.Beside false (s.pass n) (s'.pass n) := by
  obtain ⟨hrest, hoffset⟩ := h.place
  refine ⟨h.tokens, h.depth, ?_, ?_⟩
  · rw [rest_pass, rest_pass, hrest, List.drop_append_of_le_length hn]
  · have htake : (s.cursor.rest ++ E.behind).take n = s.cursor.rest.take n :=
      List.take_append_of_le_length hn
    rw [State.pass, State.pass, Cursor.offset_advance, Cursor.offset_advance, hrest, htake, hoffset]
    exact Nat.add_right_comm _ _ _

/-- What has been read since two runs were beside each other has the same text in both. -/
theorem Beside.emit (hs : E.Beside false s s') (ht : E.Beside false t t') (hg : Grown s t)
    (kind : TokenKind) : E.Beside false (t.emit kind s.cursor) (t'.emit kind s'.cursor) := by
  obtain ⟨n, hn⟩ := hg.cursor
  obtain ⟨hrest, hoffset⟩ := hs.place
  have hlength : t.cursor.offset = s.cursor.offset + byteSize (s.cursor.rest.take n) := by
    rw [hn]
    exact Cursor.offset_advance n s.cursor
  have hsince : s'.cursor.since t'.cursor = s.cursor.since t.cursor := by
    have hsplit : s'.cursor.rest =
        s.cursor.rest.take n ++ (s.cursor.rest.drop n ++ E.behind) := by
      rw [hrest, ← List.append_assoc, List.take_append_drop]
    have hbytes : t'.cursor.offset - s'.cursor.offset = byteSize (s.cursor.rest.take n) := by
      have htoffset : t'.cursor.offset = t.cursor.offset + E.shift := ht.place.2
      omega
    rw [Cursor.since, hbytes, hsplit, takeBytes_append, hn, Cursor.since_advance]
  refine ⟨?_, ht.depth, ht.place⟩
  have htokens := ht.tokens
  rw [SameTokens] at htokens ⊢
  rw [State.emit, State.emit, TokenLog.toList_push, TokenLog.toList_push, htokens, hsince,
    List.map_append, List.append_assoc, hoffset, ht.place.2]
  rfl

end Embedding

namespace Parallel
variable {α β : Type} {E : Embedding} {wide lax lax' : Bool} {i j k : Nat} {p : Production α}
  {f : α → Production β}

theorem relax (hp : Parallel E wide false i j p) : Parallel E wide lax i j p :=
  ⟨hp.grows, hp.level, fun hw hs hg => (hp.runs hw hs hg).mono fun _ _ h => h.relax⟩

theorem narrow (hp : Parallel E true lax i j p) : Parallel E false lax i j p :=
  ⟨hp.grows, hp.level, fun _ => hp.runs fun _ => rfl⟩

/-- The same within more parentheses. -/
theorem within (hp : Parallel E wide lax i j p) (n : Nat) :
    Parallel E wide lax (n + i) (n + j) p := by
  refine ⟨hp.grows, fun hok last m => ?_, fun hw hs hg => hp.runs hw hs ?_⟩
  · rw [← Nat.add_assoc, ← Nat.add_assoc]
    exact hp.level hok last (m + n)
  · refine hg.imp_right ?_
    rintro ⟨outer, hcloses⟩
    exact ⟨outer + n, by rwa [Nat.add_assoc]⟩

theorem pure (a : α) : Parallel E wide lax i i (Pure.pure a : Production α) := by
  refine ⟨discipline_grown.pure a, fun hok last n => ?_, fun _ hs _ => ⟨rfl, hs.ends⟩⟩
  cases hok
  rfl

theorem fail (reason : Reason) :
    Parallel E wide lax i j (Production.fail reason : Production α) :=
  ⟨discipline_grown.fail reason, fun hok => (nomatch hok), fun _ hs _ => ⟨rfl, fun _ => hs.tokens⟩⟩

section
variable {wide' : Bool} (hp : Parallel E wide lax i j p)
  (hf : ∀ a, Parallel E wide' lax' j k (f a))
include hp hf

theorem grows_bind : (p >>= f).Follows Grown :=
  discipline_grown.bind hp.grows fun a => (hf a).grows

theorem level_bind {s u : State} {b : β} (hok : (p >>= f) s = .ok b u) (last : List Char)
    (n : Nat) : Closes last (n + i) s.cursor.rest ↔ Closes last (n + k) u.cursor.rest := by
  obtain ⟨a, t, h₁, h₂⟩ := bind_ok hok
  exact (hp.level h₁ last n).trans ((hf a).level h₂ last n)

end

/-- The second part may have to start where the blanks behind the text have been crossed. -/
theorem bind (hp : Parallel E wide lax i j p) (hf : ∀ a, Parallel E true true j k (f a)) :
    Parallel E wide true i k (p >>= f) := by
  refine ⟨hp.grows_bind hf, hp.level_bind hf, fun hw hs hg => ?_⟩
  refine (hp.runs hw hs hg).bind fun a t t' hok hends => ?_
  have hguard := hg.of_level (hp.level hok)
  obtain hbeside | ⟨-, hbeside⟩ := hends
  · refine ((hf a).runs (fun _ => rfl) hbeside hguard).mono fun u u' h => ?_
    exact h.imp_right fun h => ⟨rfl, h.2⟩
  · refine ((hf a).runs (fun _ => rfl) hbeside hguard).mono fun u u' h => ?_
    exact .inr ⟨rfl, h.elim id (·.2)⟩

/-- The first part does not cross the blanks, so the second one starts as it did. -/
theorem bind_firm (hp : Parallel E wide false i j p) (hf : ∀ a, Parallel E wide lax j k (f a)) :
    Parallel E wide lax i k (p >>= f) := by
  refine ⟨hp.grows_bind hf, hp.level_bind hf, fun hw hs hg => ?_⟩
  refine (hp.runs hw hs hg).bind fun a t t' hok hends => ?_
  exact (hf a).runs hw hends.firm (hg.of_level (hp.level hok))

/-- What is read behind a part of the text is read from the same place. -/
theorem bind_behind (hp : Parallel E wide false i j p) (ha : p.Advances)
    (hf : ∀ a, Parallel E false lax j k (f a)) : Parallel E wide lax i k (p >>= f) := by
  refine ⟨hp.grows_bind hf, hp.level_bind hf, fun {crossed s s'} hw hs hg => ?_⟩
  refine (hp.runs hw hs hg).bind fun a t t' hok hends => ?_
  cases crossed with
  | true =>
    have hlt := shorter_of_advances hp.grows ha hok
    rw [hs.place.1] at hlt
    exact absurd hlt (Nat.not_lt_zero _)
  | false => exact (hf a).runs nofun hends.firm (hg.of_level (hp.level hok))

/-- Where the first part has crossed the blanks, nothing is left for the second. -/
theorem bind_advances (hp : Parallel E wide lax i j p) (hf : ∀ a, Parallel E true false j k (f a))
    (ha : ∀ a, (f a).Advances) : Parallel E wide false i k (p >>= f) := by
  refine ⟨hp.grows_bind hf, hp.level_bind hf, fun hw hs hg => ?_⟩
  refine (hp.runs hw hs hg).bind fun a t t' hok hends => ?_
  have hguard := hg.of_level (hp.level hok)
  obtain hbeside | ⟨-, hbeside⟩ := hends
  · exact (hf a).runs (fun _ => rfl) hbeside hguard
  · have hruns := (hf a).runs (fun _ => rfl) hbeside hguard
    cases hrun : f a t with
    | ok b u =>
      have hlt := shorter_of_advances (hf a).grows (ha a) hrun
      rw [hbeside.place.1] at hlt
      exact absurd hlt (Nat.not_lt_zero _)
    | error reason u =>
      cases hrun' : f a t' with
      | ok b u' => rw [hrun, hrun'] at hruns; exact hruns.elim
      | error reason' u' => rwa [hrun, hrun'] at hruns

theorem map (hp : Parallel E wide lax i j p) (g : α → β) :
    Parallel E wide lax i j (p >>= fun a => Pure.pure (g a)) := by
  have hg (a : α) : Parallel E wide lax j j (Pure.pure (g a) : Production β) := pure (g a)
  refine ⟨hp.grows_bind hg, hp.level_bind hg, fun hw hs hguard => ?_⟩
  exact (hp.runs hw hs hguard).bind fun a t t' _ hends => ⟨rfl, hends⟩

/-- A failed attempt brings both runs back to where they were. -/
theorem attempt (hp : Parallel E wide lax i i p) : Parallel E wide lax i i (attempt p) := by
  refine ⟨discipline_grown.attempt hp.grows, fun {s found t} hok last n => ?_,
    fun {crossed s s'} hw hs hg => ?_⟩
  · obtain ⟨a, -, ha⟩ | ⟨-, rfl, -⟩ := attempt_ok (hp.grows s) hok
    · exact hp.level ha last n
    · rfl
  · obtain ⟨a, t, t', h, h', hends⟩ | ⟨reason, t, reason', t', h, h', hfatal⟩ :=
      (hp.runs hw hs hg).cases
    · rw [attempt_of_ok h, attempt_of_ok h']
      exact ⟨rfl, hends⟩
    · cases hr : reason.isFatal with
      | true =>
        rw [attempt_of_fatal h hr, attempt_of_fatal h' (hfatal.1.trans hr)]
        exact hfatal
      | false =>
        rw [attempt_of_error (hp.grows s) h hr,
          attempt_of_error (hp.grows s') h' (hfatal.1.trans hr)]
        exact ⟨rfl, hs.ends⟩

theorem attemptOr (default : α) (hp : Parallel E wide lax i i p) :
    Parallel E wide lax i i (attemptOr default p) :=
  hp.attempt.map _

/-- One alternative or the other, whichever can be read. -/
theorem alternative {f : Option α → Production β} (hp : Parallel E wide false i i p)
    (hsome : ∀ a, Parallel E wide lax i j (f (some a))) (hnone : Parallel E wide lax i j (f none)) :
    Parallel E wide lax i j (Production.attempt p >>= f) := by
  refine hp.attempt.bind_firm fun found => ?_
  cases found with
  | some a => exact hsome a
  | none => exact hnone

theorem firstOf {alternatives : List (Production α)}
    (h : ∀ p ∈ alternatives, Parallel E true lax i i p) :
    Parallel E true lax i i (firstOf alternatives) := by
  induction alternatives with
  | nil => exact pure none
  | cons p alternatives ih =>
    have hothers := ih fun q hq => h q (List.mem_cons_of_mem p hq)
    have hp := (h p List.mem_cons_self).attempt
    cases lax with
    | true =>
      refine hp.bind fun found => ?_
      cases found with
      | some a => exact pure (some a)
      | none => exact hothers
    | false =>
      refine hp.bind_firm fun found => ?_
      cases found with
      | some a => exact pure (some a)
      | none => exact hothers

/-- A token has the same text in both. -/
theorem record {kind : TokenKind} (hp : Parallel E wide false i j p) (ha : p.Advances) :
    Parallel E wide false i j (record kind p) := by
  refine ⟨follows_grown_record kind hp.grows, fun {s a t} hok last n => ?_,
    fun {crossed s s'} hw hs hg => ?_⟩
  · obtain ⟨u, hu, rfl⟩ := record_ok hok
    exact hp.level hu last n
  · obtain ⟨a, t, t', h, h', hends⟩ | ⟨reason, t, reason', t', h, h', hfatal⟩ :=
      (hp.runs hw hs hg).cases
    · cases crossed with
      | true =>
        have hlt := shorter_of_advances hp.grows ha h
        rw [hs.place.1] at hlt
        exact absurd hlt (Nat.not_lt_zero _)
      | false =>
        have hgrown := hp.grows s
        rw [finish_of_ok h] at hgrown
        rw [record_of_ok h, record_of_ok h']
        exact ⟨rfl, (hs.emit hends.firm hgrown kind).ends⟩
    · rw [record_of_error h, record_of_error h']
      exact hfatal

theorem nested (limit : Nat) (hp : Parallel E wide lax i j p) :
    Parallel E wide lax i j (nested limit p) := by
  refine ⟨discipline_grown.nested limit hp.grows, fun {s a t} hok last n => ?_,
    fun {crossed s s'} hw hs hg => ?_⟩
  · obtain ⟨-, u, hu, rfl⟩ := nested_ok hok
    exact hp.level hu last n
  · have hdeeper : E.Beside crossed { s with depth := s.depth + 1 }
        { s' with depth := s'.depth + 1 } :=
      ⟨hs.tokens, congrArg (· + 1) hs.depth, hs.place⟩
    have hback : ∀ {c : Bool} {t t' : State}, E.Beside c t t' →
        E.Beside c { t with depth := t.depth - 1 } { t' with depth := t'.depth - 1 } :=
      fun h => ⟨h.tokens, congrArg (· - 1) h.depth, h.place⟩
    by_cases hd : s.depth < limit
    · have hd' : s'.depth < limit := by rwa [hs.depth]
      rw [Production.nested, Production.nested, if_pos hd, if_pos hd']
      obtain ⟨a, t, t', h, h', hends⟩ | ⟨reason, t, reason', t', h, h', hfatal⟩ :=
        (hp.runs hw hdeeper hg).cases
      · rw [h, h']
        exact ⟨rfl, hends.imp hback fun h => ⟨h.1, hback h.2⟩⟩
      · rw [h, h']
        exact hfatal
    · have hd' : ¬s'.depth < limit := by rwa [hs.depth]
      rw [Production.nested, Production.nested, if_neg hd, if_neg hd']
      exact ⟨rfl, fun _ => hs.tokens⟩

/-- A loop, whose items go on side by side until there is none. -/
theorem many {item : Production (Option α)} (hc : Consumes item)
    (hp : Parallel E true lax i i item) : Parallel E true lax i i (many item) := by
  refine ⟨discipline_grown.many hp.grows, fun {s as t} hok last n => ?_,
    fun {crossed s s'} hw hs hg => ?_⟩
  · induction hn : s.cursor.rest.length using Nat.strongRecOn generalizing s as t with
    | ind length ih =>
      obtain ⟨-, hnone⟩ | ⟨a, others, u, -, hitem, hothers⟩ := many_ok hc hok
      · exact hp.level hnone last n
      · have hlt := hc.shorter hitem
        rw [hn] at hlt
        exact (hp.level hitem last n).trans (ih _ hlt hothers rfl)
  · -- The loop may cross the blanks with an item that leaves nothing; it then goes on from there.
    induction hn : s.cursor.rest.length using Nat.strongRecOn generalizing crossed s s' with
    | ind length ih =>
      rw [many_eq hc, many_eq hc]
      refine (hp.runs hw hs hg).bind fun found t t' hok hends => ?_
      cases found with
      | none => exact ⟨rfl, hends⟩
      | some a =>
        have hguard := hg.of_level (hp.level hok)
        have hlt := hc.shorter hok
        rw [hn] at hlt
        have hothers : E.Matches (E.Ends lax crossed) (Production.many item t)
            (Production.many item t') := by
          obtain hbeside | ⟨hlax, hbeside⟩ := hends
          · exact ih _ hlt hw hbeside hguard rfl
          · refine (ih _ hlt (fun _ => rfl) hbeside hguard rfl).mono fun u u' h => ?_
            exact .inr ⟨hlax, h.elim id (·.2)⟩
        exact hothers.bind fun as u u' _ hends => ⟨rfl, hends⟩

/-- A production that goes by the text that comes next, where what stands behind does not matter. -/
theorem remaining_bind {f : List Char → Production β}
    (hf : ∀ rest, Parallel E wide lax i k (f rest))
    (hsame : ∀ rest, f (rest ++ E.behind) = f rest) (hnext : wide = true → f E.next = f []) :
    Parallel E wide lax i k (remaining >>= f) := by
  refine ⟨discipline_grown.bind discipline_grown.remaining fun rest => (hf rest).grows,
    fun {s b t} hok last n => (hf s.cursor.rest).level hok last n,
    fun {crossed s s'} hw hs hg => ?_⟩
  rw [remaining_bind_run, remaining_bind_run]
  have hproduction : f s'.cursor.rest = f s.cursor.rest := by
    cases crossed with
    | false => rw [hs.place.1, hsame]
    | true => rw [hs.place.1, hs.place.2.1, hnext (hw rfl)]
  rw [hproduction]
  exact (hf s.cursor.rest).runs hw hs hg

/-- What fails at the end of the text, and where the blanks behind it have been crossed. -/
theorem of_refuses (hp : Parallel E false lax i j p) (hend : ∀ depth, Refuses p depth [])
    (hnext : ∀ depth, Refuses p depth E.next) : Parallel E true lax i j p := by
  refine ⟨hp.grows, hp.level, fun {crossed s s'} _ hs hg => ?_⟩
  cases crossed with
  | false => exact hp.runs nofun hs hg
  | true =>
    obtain ⟨reason, t, h, hr⟩ := hend s.depth s ⟨rfl, hs.place.1⟩
    obtain ⟨reason', t', h', hr'⟩ := hnext s'.depth s' ⟨rfl, hs.place.2.1⟩
    rw [h, h']
    exact ⟨hr'.trans hr.symm, fun hfatal => by rw [hr] at hfatal; cases hfatal⟩

end Parallel

def Grammar.State.behind (s : State) (kind? : Option TokenKind) (n : Nat) : State :=
  match kind? with
  | none => s.pass n
  | some kind => (s.pass n).emit kind s.cursor

/-- The text that comes next tells what is read and how many characters it takes up. Where nothing
is read, the production returns the value for that, or it fails if there is none. -/
structure IsLexeme {α : Type} (p : Production α) (kind? : Option TokenKind)
    (read : List Char → Option (α × Nat)) (absent : Option α) : Prop where
  grows : p.Follows Grown
  found {s : State} {a : α} {n : Nat} : read s.cursor.rest = some (a, n) →
    p s = .ok a (s.behind kind? n)
  missing {s : State} : read s.cursor.rest = none →
    match absent with
    | some a => p s = .ok a s
    | none => ∃ reason t, p s = .error reason t ∧ reason.isFatal = false

namespace IsLexeme
variable {α : Type} {E : Embedding} {wide : Bool} {i j : Nat} {p : Production α}
  {kind? : Option TokenKind} {read : List Char → Option (α × Nat)} {absent : Option α}

theorem rest_behind (s : State) (kind? : Option TokenKind) (n : Nat) :
    (s.behind kind? n).cursor.rest = s.cursor.rest.drop n := by
  cases kind? <;> exact rest_pass s n

/-- Without a value for what is missing, a lexeme that succeeds has been read. -/
theorem found_of_ok (hp : IsLexeme p kind? read none) {s t : State} {a : α} (h : p s = .ok a t) :
    ∃ n, read s.cursor.rest = some (a, n) ∧ t = s.behind kind? n := by
  cases hread : read s.cursor.rest with
  | some found =>
    obtain ⟨b, n⟩ := found
    cases (hp.found hread).symm.trans h
    exact ⟨n, rfl, rfl⟩
  | none =>
    obtain ⟨reason, u, hrun, -⟩ := hp.missing hread
    cases hrun.symm.trans h

theorem beside_behind {s s' : State} (h : E.Beside false s s') (kind? : Option TokenKind) {n : Nat}
    (hn : n ≤ s.cursor.rest.length) :
    E.Beside false (s.behind kind? n) (s'.behind kind? n) := by
  cases kind? with
  | none => exact h.pass hn
  | some kind => exact h.emit (h.pass hn) (.pass s n) kind

theorem matches_missing {s s' : State} {crossed : Bool} (hp : IsLexeme p kind? read absent)
    (hs : E.Beside crossed s s') (h : read s.cursor.rest = none)
    (h' : read s'.cursor.rest = none) : E.Matches (E.Ends false crossed) (p s) (p s') := by
  have hmissing := hp.missing h
  have hmissing' := hp.missing h'
  cases absent with
  | some a =>
    rw [hmissing, hmissing']
    exact ⟨rfl, hs.ends⟩
  | none =>
    obtain ⟨reason, t, hrun, hr⟩ := hmissing
    obtain ⟨reason', t', hrun', hr'⟩ := hmissing'
    rw [hrun, hrun']
    exact ⟨hr'.trans hr.symm, fun hfatal => by rw [hr] at hfatal; cases hfatal⟩

theorem level (hp : IsLexeme p kind? read absent)
    (htake : ∀ text a n, read text = some (a, n) → ∀ last m, Closes last (m + i) text ↔
      Closes last (m + j) (text.drop n)) (habsent : absent.isSome = true → i = j) {s t : State}
    {a : α} (hok : p s = .ok a t) (last : List Char) (m : Nat) :
    Closes last (m + i) s.cursor.rest ↔ Closes last (m + j) t.cursor.rest := by
  cases hread : read s.cursor.rest with
  | some found =>
    rw [hp.found hread] at hok
    cases hok
    rw [rest_behind]
    exact htake _ _ _ hread last m
  | none =>
    have hmissing := hp.missing hread
    cases absent with
    | some a' =>
      rw [hmissing] at hok
      cases hok
      rw [habsent rfl]
    | none =>
      obtain ⟨reason, u, hrun, -⟩ := hmissing
      rw [hrun] at hok
      cases hok

/-- It is enough that the same is read with and without the text behind. -/
theorem parallel (hp : IsLexeme p kind? read absent)
    (htake : ∀ text a n, read text = some (a, n) → n ≤ text.length ∧
      ∀ last m, Closes last (m + i) text ↔ Closes last (m + j) (text.drop n))
    (habsent : absent.isSome = true → i = j)
    (hsame : ∀ text, E.Guarded i text → read (text ++ E.behind) = read text)
    (hnext : wide = true → E.Guarded i [] → read [] = none ∧ read E.next = none) :
    Parallel E wide false i j p := by
  refine ⟨hp.grows, hp.level (fun text a n h => (htake text a n h).2) habsent,
    fun {crossed s s'} hw hs hg => ?_⟩
  cases crossed with
  | true =>
    have hguard := hg
    rw [hs.place.1] at hguard
    obtain ⟨hend, hafter⟩ := hnext (hw rfl) hguard
    rw [← hs.place.1] at hend
    rw [← hs.place.2.1] at hafter
    exact hp.matches_missing hs hend hafter
  | false =>
    have hboth : read s'.cursor.rest = read s.cursor.rest := by
      rw [hs.place.1, hsame _ hg]
    cases hread : read s.cursor.rest with
    | none => exact hp.matches_missing hs hread (hboth.trans hread)
    | some found =>
      rw [hp.found hread, hp.found (hboth.trans hread)]
      exact ⟨rfl, (beside_behind hs kind? (htake _ _ _ hread).1).ends⟩

end IsLexeme
end OutlineQuery
