import OutlineQuery.Proofs.Outcomes

/-! Two texts from which a production comes to the same. It is enough that every part of it leaves
two texts from which the next part comes to the same. -/

namespace OutlineQuery.Grammar
open Production Text

inductive SameOutcome {α : Type} (p : Production α) (depth : Nat)
    (E : α → List Char → List Char → Prop) (text text' : List Char) : Prop where
  | reads {a : α} {rest rest' : List Char} : Reads p depth text a rest →
    Reads p depth text' a rest' → E a rest rest' → SameOutcome p depth E text text'
  | refuses : Refuses p depth text → Refuses p depth text' → SameOutcome p depth E text text'
  | exceeds : Exceeds p depth text → Exceeds p depth text' → SameOutcome p depth E text text'

structure Agrees {α : Type} (D : List Char → List Char → Prop) (p : Production α)
    (E : α → List Char → List Char → Prop) : Prop where
  grows : p.Follows Grown
  same {depth : Nat} {text text' : List Char} : D text text' → SameOutcome p depth E text text'

/-- The second part has to come to the same only from what the first one can leave. -/
theorem SameOutcome.bind {α β : Type} {p : Production α} {f : α → Production β} {depth : Nat}
    {E : α → List Char → List Char → Prop} {F : β → List Char → List Char → Prop}
    {text text' : List Char} (hp : SameOutcome p depth E text text')
    (hf : ∀ a rest rest', Reads p depth text a rest → E a rest rest' →
      SameOutcome (f a) depth F rest rest') : SameOutcome (p >>= f) depth F text text' := by
  cases hp with
  | reads h h' hrest =>
    cases hf _ _ _ h hrest with
    | reads k k' hlast => exact .reads (h.bind k) (h'.bind k') hlast
    | refuses k k' => exact .refuses (.bind_next h k) (.bind_next h' k')
    | exceeds k k' => exact .exceeds (.bind_next h k) (.bind_next h' k')
  | refuses h h' => exact .refuses h.bind_first h'.bind_first
  | exceeds h h' => exact .exceeds h.bind_first h'.bind_first

theorem SameOutcome.bind_next {α β : Type} {p : Production α} {f : α → Production β} {a : α}
    {depth : Nat} {F : β → List Char → List Char → Prop} {text text' middle middle' : List Char}
    (hp : Reads p depth text a middle) (hp' : Reads p depth text' a middle')
    (hf : SameOutcome (f a) depth F middle middle') : SameOutcome (p >>= f) depth F text text' := by
  cases hf with
  | reads h h' hrest => exact .reads (hp.bind h) (hp'.bind h') hrest
  | refuses h h' => exact .refuses (.bind_next hp h) (.bind_next hp' h')
  | exceeds h h' => exact .exceeds (.bind_next hp h) (.bind_next hp' h')

theorem SameOutcome.symm {α : Type} {p : Production α} {depth : Nat} {text text' : List Char}
    (h : SameOutcome p depth (fun _ => Eq) text text') :
    SameOutcome p depth (fun _ => Eq) text' text := by
  cases h with
  | reads h h' hrest => exact .reads h' h hrest.symm
  | refuses h h' => exact .refuses h' h
  | exceeds h h' => exact .exceeds h' h

/-- From the same text a production comes to the same. -/
theorem Settled.same {α : Type} {p : Production α} (hp : Settled p) (depth : Nat)
    (text : List Char) : SameOutcome p depth (fun _ => Eq) text text := by
  obtain ⟨a, rest, h⟩ | h | h := hp depth text
  · exact .reads h h rfl
  · exact .refuses h h
  · exact .exceeds h h

theorem Refuses.nested {α : Type} {p : Production α} {depth limit : Nat} {text : List Char}
    (hd : depth < limit) (hp : Refuses p (depth + 1) text) :
    Refuses (nested limit p) depth text := by
  intro s hs
  obtain ⟨reason, t, hpt, hr⟩ := hp _ hs.deeper
  have hlimit : s.depth < limit := by rwa [hs.depth]
  exact ⟨reason, _, nested_of_error hlimit hpt, hr⟩

theorem SameOutcome.nested {α : Type} {p : Production α} {depth limit : Nat}
    {E : α → List Char → List Char → Prop} {text text' : List Char} (hd : depth < limit)
    (hp : SameOutcome p (depth + 1) E text text') :
    SameOutcome (nested limit p) depth E text text' := by
  cases hp with
  | reads h h' hrest => exact .reads (h.nested hd) (h'.nested hd) hrest
  | refuses h h' => exact .refuses (.nested hd h) (.nested hd h')
  | exceeds h h' => exact .exceeds (h.nested hd) (h'.nested hd)

theorem SameOutcome.attempt {α : Type} {p : Production α} {depth : Nat}
    {D : List Char → List Char → Prop} {E : α → List Char → List Char → Prop}
    {text text' : List Char} (hp : SameOutcome p depth E text text') (hg : p.Follows Grown)
    (htext : D text text') :
    SameOutcome (attempt p) depth (fun found => found.elim D E) text text' := by
  cases hp with
  | reads h h' hrest => exact .reads h.attempt h'.attempt hrest
  | refuses h h' => exact .reads (h.attempt hg) (h'.attempt hg) htext
  | exceeds h h' => exact .exceeds h.attempt h'.attempt

theorem Consumes.length_lt {α : Type} {item : Production (Option α)} (hc : Consumes item)
    {depth : Nat} {text rest : List Char} {a : α} (h : Reads item depth text (some a) rest) :
    rest.length < text.length := by
  obtain ⟨t, hrun, ht⟩ := h _ (at_before depth text)
  have hlt := hc.shorter hrun
  rwa [ht.text] at hlt

namespace Agrees
variable {α β : Type} {D D' : List Char → List Char → Prop} {p : Production α}
  {f : α → Production β} {E E' : α → List Char → List Char → Prop}
  {F : β → List Char → List Char → Prop}

theorem mono (hp : Agrees D p E) (hD : ∀ text text', D' text text' → D text text')
    (hE : ∀ a text text', E a text text' → E' a text text') : Agrees D' p E' := by
  refine ⟨hp.grows, fun htext => ?_⟩
  cases hp.same (hD _ _ htext) with
  | reads h h' hrest => exact .reads h h' (hE _ _ _ hrest)
  | refuses h h' => exact .refuses h h'
  | exceeds h h' => exact .exceeds h h'

theorem narrow (hp : Agrees D p E) (hD : ∀ text text', D' text text' → D text text') :
    Agrees D' p E :=
  hp.mono hD fun _ _ _ htext => htext

theorem relax (hp : Agrees D p E) (hE : ∀ a text text', E a text text' → E' a text text') :
    Agrees D p E' :=
  hp.mono (fun _ _ htext => htext) hE

theorem pure {a : α} (h : ∀ text text', D text text' → E a text text') :
    Agrees D (Pure.pure a : Production α) E :=
  ⟨discipline_grown.pure a, fun htext => .reads (.pure a) (.pure a) (h _ _ htext)⟩

theorem fail (reason : Reason) : Agrees D (Production.fail reason : Production α) E := by
  refine ⟨discipline_grown.fail reason, fun _ => ?_⟩
  cases hr : reason.isFatal with
  | false => exact .refuses (refuses_fail hr) (refuses_fail hr)
  | true => exact .exceeds (fun s _ => ⟨reason, s, rfl, hr⟩) (fun s _ => ⟨reason, s, rfl, hr⟩)

theorem or (hp : Agrees D p E) (hp' : Agrees D' p E) :
    Agrees (fun text text' => D text text' ∨ D' text text') p E :=
  ⟨hp.grows, fun htext => htext.elim hp.same hp'.same⟩

theorem bind (hp : Agrees D p E) (hf : ∀ a, Agrees (E a) (f a) F) : Agrees D (p >>= f) F :=
  ⟨discipline_grown.bind hp.grows fun a => (hf a).grows,
    fun htext => (hp.same htext).bind fun a _ _ _ hrest => (hf a).same hrest⟩

theorem map {last : List Char → List Char → Prop} (hp : Agrees D p fun _ => last) (g : α → β) :
    Agrees D (p >>= fun a => Pure.pure (g a)) fun _ => last :=
  hp.bind fun _ => .pure fun _ _ htext => htext

/-- A production that goes by what it sees of the text. -/
theorem remaining_bind {f : List Char → Production β}
    (hsame : ∀ text text', D text text' → f text' = f text) (hf : ∀ text, Agrees D (f text) F) :
    Agrees D (remaining >>= f) F := by
  refine ⟨discipline_grown.bind discipline_grown.remaining fun text => (hf text).grows,
    fun {depth text text'} htext => ?_⟩
  cases (hf text).same htext with
  | reads h h' hrest =>
    exact .reads (reads_remaining.bind h) (reads_remaining.bind (hsame _ _ htext ▸ h')) hrest
  | refuses h h' =>
    exact .refuses (.bind_next reads_remaining h)
      (.bind_next reads_remaining (hsame _ _ htext ▸ h'))
  | exceeds h h' =>
    exact .exceeds (.bind_next reads_remaining h)
      (.bind_next reads_remaining (hsame _ _ htext ▸ h'))

/-- What is refused is left as it is. -/
theorem attempt (hp : Agrees D p E) : Agrees D (attempt p) fun found => found.elim D E :=
  ⟨discipline_grown.attempt hp.grows, fun htext => (hp.same htext).attempt hp.grows htext⟩

theorem attemptOr (default : α) (hp : Agrees D p E)
    (hdefault : ∀ text text', D text text' → E default text text') :
    Agrees D (attemptOr default p) E := by
  refine hp.attempt.bind fun found => .pure fun text text' htext => ?_
  cases found with
  | some a => exact htext
  | none => exact hdefault text text' htext

/-- One alternative or the other, whichever can be read. -/
theorem alternative {f : Option α → Production β} (hp : Agrees D p E)
    (hsome : ∀ a, Agrees (E a) (f (some a)) F) (hnone : Agrees D (f none) F) :
    Agrees D (Production.attempt p >>= f) F := by
  refine hp.attempt.bind fun found => ?_
  cases found with
  | some a => exact hsome a
  | none => exact hnone

theorem firstOf {alternatives : List (Production α)} (h : ∀ p ∈ alternatives, Agrees D p E) :
    Agrees D (firstOf alternatives) fun found => found.elim D E := by
  induction alternatives with
  | nil => exact .pure fun _ _ htext => htext
  | cons p alternatives ih =>
    refine (h p List.mem_cons_self).alternative (fun a => .pure fun _ _ htext => htext) ?_
    exact ih fun q hq => h q (List.mem_cons_of_mem p hq)

theorem record (kind : TokenKind) (hp : Agrees D p E) : Agrees D (record kind p) E := by
  refine ⟨follows_grown_record kind hp.grows, fun htext => ?_⟩
  cases hp.same htext with
  | reads h h' hrest => exact .reads h.record h'.record hrest
  | refuses h h' => exact .refuses h.record h'.record
  | exceeds h h' => exact .exceeds h.record h'.record

theorem nested (limit : Nat) (hp : Agrees D p E) : Agrees D (nested limit p) E := by
  refine ⟨discipline_grown.nested limit hp.grows, fun {depth text text'} htext => ?_⟩
  by_cases hd : depth < limit
  · exact (hp.same htext).nested hd
  · have hdeep : ∀ text, Exceeds (Production.nested limit p) depth text := by
      intro text s hs
      have hlimit : ¬s.depth < limit := by rwa [hs.depth]
      exact ⟨.tooDeep, s, by rw [Production.nested, if_neg hlimit], rfl⟩
    exact .exceeds (hdeep text) (hdeep text')

/-- Items go on from texts like those where the loop starts, until there is none. -/
theorem many {item : Production (Option α)} {last : List Char → List Char → Prop}
    (hc : Consumes item) (hp : Agrees D item fun found => found.elim last fun _ => D) :
    Agrees D (many item) fun _ => last := by
  refine ⟨discipline_grown.many hp.grows, fun {depth text text'} htext => ?_⟩
  induction hn : text.length using Nat.strongRecOn generalizing text text' with
  | ind length ih =>
    rw [funext (many_eq hc)]
    refine (hp.same htext).bind fun found rest rest' hread hrest => ?_
    cases found with
    | none => exact .reads (.pure []) (.pure []) hrest
    | some a =>
      have hlt := hc.length_lt hread
      have hothers := ih rest.length (hn ▸ hlt) hrest rfl
      exact hothers.bind fun as _ _ _ hlast => .reads (.pure _) (.pure _) hlast

/-- A chain goes on from where its operands end, and before each of them blanks are passed. -/
theorem chain {operand : Production α} {operator : Production Bool} {combine : α → α → α}
    {start between last : List Char → List Char → Prop} {E : Bool → List Char → List Char → Prop}
    (hc : Consumes (nextOperand operand operator)) (hskip : Agrees D skipBlanks fun _ => start)
    (hp : Agrees start operand fun _ => last) (hnext : Agrees last skipBlanks fun _ => between)
    (ho : Agrees between operator E) (hagain : Agrees (E true) skipBlanks fun _ => start) :
    Agrees D (chain operand operator combine) fun _ => E false := by
  have hitem : Agrees last (nextOperand operand operator) fun found =>
      found.elim (E false) fun _ => last := by
    refine hnext.bind fun _ => ho.bind fun found => ?_
    cases found with
    | true => exact hagain.bind fun _ => hp.bind fun _ => .pure fun _ _ h => h
    | false => exact .pure fun _ _ h => h
  exact hskip.bind fun _ => hp.bind fun _ => (many hc hitem).map _

end Agrees
end OutlineQuery.Grammar
