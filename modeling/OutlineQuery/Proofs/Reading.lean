import OutlineQuery.Proofs.Productions

/-! What a production reads from a text, wherever in a query the text stands: what it returns, what
it leaves of the text, or that it refuses the text without ending the whole reading. -/

namespace OutlineQuery.Grammar
open Production Text

structure State.At (s : State) (depth : Nat) (text : List Char) : Prop where
  depth : s.depth = depth
  text : s.cursor.rest = text

def Reads {α : Type} (p : Production α) (depth : Nat) (text : List Char) (a : α)
    (rest : List Char) : Prop :=
  ∀ s : State, s.At depth text → ∃ t, p s = .ok a t ∧ t.At depth rest

def Refuses {α : Type} (p : Production α) (depth : Nat) (text : List Char) : Prop :=
  ∀ s : State, s.At depth text → ∃ reason t, p s = .error reason t ∧ reason.isFatal = false

section
variable {α β : Type} {p : Production α} {f : α → Production β} {a : α} {b : β} {depth : Nat}
  {text middle rest : List Char}

theorem State.At.pass {s : State} (h : s.At depth text) (n : Nat) :
    (s.pass n).At depth (text.drop n) := by
  refine ⟨h.depth, ?_⟩
  rw [rest_pass, h.text]

theorem State.At.emit {s : State} (h : s.At depth text) (kind : TokenKind) (start : Cursor) :
    (s.emit kind start).At depth text :=
  ⟨h.depth, h.text⟩

theorem State.At.deeper {s : State} (h : s.At depth text) :
    State.At { s with depth := s.depth + 1 } (depth + 1) text :=
  ⟨congrArg (· + 1) h.depth, h.text⟩

theorem Reads.pure (a : α) : Reads (Pure.pure a) depth text a text :=
  fun s hs => ⟨s, rfl, hs⟩

theorem reads_remaining : Reads remaining depth text text text := by
  intro s hs
  refine ⟨s, ?_, hs⟩
  rw [remaining, hs.text]

theorem Reads.bind (hp : Reads p depth text a middle) (hf : Reads (f a) depth middle b rest) :
    Reads (p >>= f) depth text b rest := by
  intro s hs
  obtain ⟨t, hpt, ht⟩ := hp s hs
  obtain ⟨u, hfu, hu⟩ := hf t ht
  exact ⟨u, (bind_of_ok hpt).trans hfu, hu⟩

theorem Reads.map {g : α → β} (hp : Reads p depth text a rest) :
    Reads (do return g (← p)) depth text (g a) rest :=
  hp.bind (.pure (g a))

/-- A production that reads on from the text as it stands. -/
theorem Reads.remaining_bind {f : List Char → Production β}
    (hf : Reads (f text) depth text b rest) : Reads (remaining >>= f) depth text b rest :=
  reads_remaining.bind hf

theorem Refuses.bind_first (hp : Refuses p depth text) : Refuses (p >>= f) depth text := by
  intro s hs
  obtain ⟨reason, t, hpt, hr⟩ := hp s hs
  exact ⟨reason, t, bind_of_error hpt, hr⟩

theorem Refuses.bind_next (hp : Reads p depth text a middle) (hf : Refuses (f a) depth middle) :
    Refuses (p >>= f) depth text := by
  intro s hs
  obtain ⟨t, hpt, ht⟩ := hp s hs
  obtain ⟨reason, u, hfu, hr⟩ := hf t ht
  exact ⟨reason, u, (bind_of_ok hpt).trans hfu, hr⟩

theorem refuses_fail {reason : Reason} (hr : reason.isFatal = false) :
    Refuses (fail reason : Production α) depth text :=
  fun s _ => ⟨reason, s, rfl, hr⟩

theorem Reads.record {kind : TokenKind} (hp : Reads p depth text a rest) :
    Reads (record kind p) depth text a rest := by
  intro s hs
  obtain ⟨t, hpt, ht⟩ := hp s hs
  exact ⟨_, record_of_ok hpt, ht.emit kind s.cursor⟩

theorem Refuses.record {kind : TokenKind} (hp : Refuses p depth text) :
    Refuses (record kind p) depth text := by
  intro s hs
  obtain ⟨reason, t, hpt, hr⟩ := hp s hs
  exact ⟨reason, t, record_of_error hpt, hr⟩

theorem Reads.attempt (hp : Reads p depth text a rest) :
    Reads (attempt p) depth text (some a) rest := by
  intro s hs
  obtain ⟨t, hpt, ht⟩ := hp s hs
  exact ⟨t, attempt_of_ok hpt, ht⟩

theorem Refuses.attempt_run {s : State} (hp : Refuses p depth text) (hg : p.Follows Grown)
    (hs : s.At depth text) : attempt p s = .ok none s := by
  obtain ⟨reason, t, hpt, hr⟩ := hp s hs
  exact attempt_of_error (hg s) hpt hr

/-- What is refused is left as it is for the next alternative. -/
theorem Refuses.attempt (hp : Refuses p depth text) (hg : p.Follows Grown) :
    Reads (attempt p) depth text none text :=
  fun s hs => ⟨s, hp.attempt_run hg hs, hs⟩

theorem Reads.attemptOr {default : α} (hp : Reads p depth text a rest) :
    Reads (attemptOr default p) depth text a rest :=
  hp.attempt.bind (.pure a)

theorem Refuses.attemptOr (default : α) (hp : Refuses p depth text) (hg : p.Follows Grown) :
    Reads (attemptOr default p) depth text default text :=
  (hp.attempt hg).bind (.pure default)

theorem Reads.firstOf {alternatives : List (Production α)} (hp : Reads p depth text a rest) :
    Reads (firstOf (p :: alternatives)) depth text (some a) rest :=
  hp.attempt.bind (.pure (some a))

theorem Refuses.firstOf {alternatives : List (Production α)} {found : Option α}
    (hp : Refuses p depth text) (hg : p.Follows Grown)
    (h : Reads (firstOf alternatives) depth text found rest) :
    Reads (firstOf (p :: alternatives)) depth text found rest :=
  (hp.attempt hg).bind h

theorem Reads.nested {limit : Nat} (hd : depth < limit) (hp : Reads p (depth + 1) text a rest) :
    Reads (nested limit p) depth text a rest := by
  intro s hs
  obtain ⟨t, hpt, ht⟩ := hp _ hs.deeper
  have hlimit : s.depth < limit := by rwa [hs.depth]
  exact ⟨_, nested_of_ok hlimit hpt, by simp [ht.depth], ht.text⟩

end

section
variable {α : Type} {item : Production (Option α)}

structure Consumes (item : Production (Option α)) : Prop where
  shorter {s t : State} {a : α} : item s = .ok (some a) t →
    t.cursor.rest.length < s.cursor.rest.length
  ending {s : State} : s.cursor.rest = [] → item s = .ok none s

theorem manyWithin_none {s t : State} (h : item s = .ok none t) (c : Char) (bound : List Char) :
    manyWithin item (c :: bound) s = .ok [] t :=
  bind_of_ok h

/-- Any bound that is long enough gives the same loop. -/
theorem manyWithin_eq (h : Consumes item) (bound bound' : List Char) (s : State)
    (hb : s.cursor.rest.length ≤ bound.length) (hb' : s.cursor.rest.length ≤ bound'.length) :
    manyWithin item bound s = manyWithin item bound' s := by
  induction bound generalizing bound' s with
  | nil =>
    have hrest : s.cursor.rest = [] := List.eq_nil_of_length_eq_zero (Nat.le_zero.mp hb)
    cases bound' with
    | nil => rfl
    | cons c bound' => rw [manyWithin_none (h.ending hrest)]; rfl
  | cons c bound ih =>
    cases bound' with
    | nil =>
      have hrest : s.cursor.rest = [] := List.eq_nil_of_length_eq_zero (Nat.le_zero.mp hb')
      rw [manyWithin_none (h.ending hrest)]
      rfl
    | cons c' bound' =>
      simp only [List.length_cons] at hb hb'
      cases hitem : item s with
      | error reason t =>
        rw [manyWithin, manyWithin, bind_of_error hitem, bind_of_error hitem]
      | ok found t =>
        rw [manyWithin, manyWithin, bind_of_ok hitem, bind_of_ok hitem]
        cases found with
        | none => rfl
        | some a =>
          have hlt := h.shorter hitem
          have hrun := ih bound' t (by omega) (by omega)
          simp only [bind, EStateM.bind, hrun]

/-- A loop is one item and the loop again. -/
theorem many_eq (h : Consumes item) (s : State) : many item s = (do
    match ← item with
    | some a => return a :: (← many item)
    | none => pure []) s := by
  have hmany (t : State) : many item t = manyWithin item t.cursor.rest t := rfl
  rw [hmany]
  cases hrest : s.cursor.rest with
  | nil =>
    rw [bind_of_ok (h.ending hrest)]
    rfl
  | cons c bound =>
    rw [manyWithin]
    cases hitem : item s with
    | error reason t => rw [bind_of_error hitem, bind_of_error hitem]
    | ok found t =>
      rw [bind_of_ok hitem, bind_of_ok hitem]
      cases found with
      | none => rfl
      | some a =>
        have hlt := h.shorter hitem
        rw [hrest, List.length_cons] at hlt
        have hrun := manyWithin_eq h bound t.cursor.rest t (by omega) (Nat.le_refl _)
        simp only [bind, EStateM.bind, hrun, hmany]

theorem many_of_none (h : Consumes item) {s t : State} (hnone : item s = .ok none t) :
    many item s = .ok [] t := by
  rw [many_eq h, bind_of_ok hnone]
  rfl

/-- A loop has come to its end where there is no item, and otherwise it stands behind the item. -/
theorem many_ok (h : Consumes item) {s t : State} {as : List α} (hok : many item s = .ok as t) :
    (as = [] ∧ item s = .ok none t) ∨ ∃ a others u, as = a :: others ∧
      item s = .ok (some a) u ∧ many item u = .ok others t := by
  rw [many_eq h] at hok
  obtain ⟨found, u, hitem, hothers⟩ := bind_ok hok
  cases found with
  | none =>
    cases hothers
    exact .inl ⟨rfl, hitem⟩
  | some a =>
    obtain ⟨others, v, hmany, hcons⟩ := bind_ok hothers
    cases hcons
    exact .inr ⟨a, others, u, rfl, hitem, hmany⟩

variable {depth : Nat} {text middle rest : List Char} {a : α} {others : List α}

theorem Reads.many_none (h : Consumes item) (hnone : Reads item depth text none rest) :
    Reads (many item) depth text [] rest := by
  intro s hs
  rw [many_eq h]
  exact hnone.bind (.pure []) s hs

theorem Reads.many_some (h : Consumes item) (hsome : Reads item depth text (some a) middle)
    (hothers : Reads (many item) depth middle others rest) :
    Reads (many item) depth text (a :: others) rest := by
  intro s hs
  have hcons : Reads (do return a :: (← many item)) depth middle (a :: others) rest := hothers.map
  rw [many_eq h]
  exact hsome.bind hcons s hs

end

section
variable {α : Type} {operand : Production α} {operator : Production Bool} {combine : α → α → α}

/-- A chain is an operand, and the chain again behind an operator. -/
theorem chain_eq (h : Consumes (nextOperand operand operator)) :
    chain operand operator combine = (do
      skipBlanks
      let first ← operand
      skipBlanks
      if ← operator then return combine first (← chain operand operator combine)
      else return first) := by
  have hloop : ∀ first, (do
      let others ← many (nextOperand operand operator)
      return groupRight combine first others) = (do
      skipBlanks
      if ← operator then return combine first (← chain operand operator combine)
      else return first) := by
    intro first
    rw [funext (many_eq h), nextOperand]
    simp only [bind_assoc]
    apply bind_congr
    intro _
    apply bind_congr
    intro found
    cases found with
    | false => simp
    | true => simp [chain, nextOperand]
  exact bind_congr fun _ => bind_congr fun first => hloop first

theorem rest_length_le {β : Type} {p : Production β} {s t : State} {b : β}
    (hp : p.Follows Grown) (h : p s = .ok b t) :
    t.cursor.rest.length ≤ s.cursor.rest.length := by
  obtain ⟨n, hn⟩ := (hp s).cursor
  rw [finish_of_ok h] at hn
  rw [hn, Cursor.rest_advance]
  simp

theorem startsWithWord_nil {word : String} (hw : word ≠ "") : startsWithWord word [] = false := by
  cases hp : word.toList.isPrefixOf [] with
  | false => simp [startsWithWord, hp]
  | true => exact absurd rfl (rest_ne_nil_of_isPrefixOf hw hp)

theorem passed_shortens {text : String} (ht : text ≠ "") {s : State}
    (h : text.toList.isPrefixOf s.cursor.rest = true) :
    (s.pass text.length).cursor.rest.length < s.cursor.rest.length := by
  have hpos := length_pos_of_ne_empty ht
  have hrest := List.length_pos_iff.mpr (rest_ne_nil_of_isPrefixOf ht h)
  rw [rest_pass, List.length_drop]
  omega

theorem word_shortens {word : String} {kind : TokenKind} (hw : word ≠ "") {s t : State}
    (h : Grammar.word word kind s = .ok true t) :
    t.cursor.rest.length < s.cursor.rest.length := by
  rw [word_run] at h
  by_cases hword : startsWithWord word s.cursor.rest = true
  · have hstarts : word.toList.isPrefixOf s.cursor.rest = true := by
      rw [startsWithWord, Bool.and_eq_true] at hword
      exact hword.1
    rw [if_pos hword] at h
    cases h
    exact passed_shortens hw hstarts
  · rw [if_neg hword] at h
    cases h

theorem operator_shortens {text : String} {kind : TokenKind} (ht : text ≠ "") {s t : State}
    (h : Grammar.operator text kind s = .ok true t) :
    t.cursor.rest.length < s.cursor.rest.length := by
  rw [operator_run] at h
  by_cases hstarts : text.toList.isPrefixOf s.cursor.rest = true
  · rw [if_pos hstarts] at h
    cases h
    exact passed_shortens ht hstarts
  · rw [if_neg hstarts] at h
    cases h

/-- A word and an operand behind it are one item of a loop. -/
theorem consumes_nextOperand {word : String} {kind : TokenKind} (hw : word ≠ "")
    (hp : operand.Follows Grown) : Consumes (nextOperand operand (Grammar.word word kind)) where
  shorter {s t a} h := by
    obtain ⟨_, u, h₁, h₂⟩ := bind_ok h
    obtain ⟨found, v, h₃, h₄⟩ := bind_ok h₂
    have hskip := rest_length_le (follows_grown_of_silent silent_skipBlanks) h₁
    cases found with
    | false => cases h₄
    | true =>
      have hword := word_shortens hw h₃
      obtain ⟨_, w, h₅, h₆⟩ := bind_ok h₄
      obtain ⟨b, x, h₇, h₈⟩ := bind_ok h₆
      cases h₈
      have hblanks := rest_length_le (follows_grown_of_silent silent_skipBlanks) h₅
      have hoperand := rest_length_le hp h₇
      omega
  ending {s} hs := by
    have hskip : skipBlanks s = .ok () s := by
      rw [skipBlanks_run, hs]
      rfl
    have hword : Grammar.word word kind s = .ok false s := by
      rw [word_run, hs, startsWithWord_nil hw]
      rfl
    exact (bind_of_ok hskip).trans (bind_of_ok hword)

end
end OutlineQuery.Grammar
