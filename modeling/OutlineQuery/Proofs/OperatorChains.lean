import OutlineQuery.Proofs.Joining

/-! Operators that group to the right. A loop reads a chain of operands, which are then taken off
the end one by one; this comes to the recursive rule, an operand and the rule again behind an
operator. The rule has no other meaning than that, since each time it is applied again less of the
text is left. -/

namespace OutlineQuery.Grammar
open Production Text

/-- The recursive rule, with what stands for the rule where it is applied again. -/
def rightRecursive {α : Type} (operand : Production α) (operator : Production Bool)
    (combine : α → α → α) (again : Production α) : Production α := do
  skipBlanks
  let first ← operand
  skipBlanks
  if ← operator then return combine first (← again)
  else return first

inductive OperandsRead {α : Type} (operand : Production α) (operator : Production Bool) :
    State → List α → α → State → Prop
  | last {s t u : State} {a : α} : (do skipBlanks; operand) s = .ok a t →
      (do skipBlanks; operator) t = .ok false u → OperandsRead operand operator s [] a u
  | more {s t u v : State} {a b : α} {others : List α} : (do skipBlanks; operand) s = .ok a t →
      (do skipBlanks; operator) t = .ok true u → OperandsRead operand operator u others b v →
      OperandsRead operand operator s (a :: others) b v

inductive IsChain (inner : Inner) : {α : Type} → Production α → Production α → Production Bool →
    (α → α → α) → Prop
  | union : IsChain inner (union inner) (exception inner) (word "union" .set) .union
  | exception : IsChain inner (exception inner) (intersection inner) (word "except" .set) .except
  | intersection :
      IsChain inner (intersection inner) (pathOperand inner) (word "intersect" .set) .intersect
  | disjunction : IsChain inner (disjunction inner) (conjunction inner) (word "or" .boolean) .or
  | conjunction : IsChain inner (conjunction inner) (negation inner) (word "and" .boolean) .and

section
variable {α : Type} {operand : Production α} {operator : Production Bool}
  {combine : α → α → α} {s t u v : State} {a b : α}

/-- Blanks belong to what stands behind them. -/
theorem rightRecursive_eq (again : Production α) :
    rightRecursive operand operator combine again = do
      let first ← (do skipBlanks; operand)
      let found ← (do skipBlanks; operator)
      if found then return combine first (← again) else return first := by
  simp only [bind_assoc]
  rfl

/-- What an application of the rule comes to when it succeeds: there is one operand, or another
application behind it. -/
theorem rightRecursive_ok {again : Production α}
    (h : rightRecursive operand operator combine again s = .ok b v) :
    ∃ a t, (do skipBlanks; operand) s = .ok a t ∧
      ((do skipBlanks; operator) t = .ok false v ∧ b = a ∨
        ∃ u c, (do skipBlanks; operator) t = .ok true u ∧ again u = .ok c v ∧
          b = combine a c) := by
  rw [rightRecursive_eq] at h
  obtain ⟨a, t, hoperand, h⟩ := bind_ok h
  obtain ⟨found, u, hoperator, h⟩ := bind_ok h
  refine ⟨a, t, hoperand, ?_⟩
  cases found with
  | false =>
    cases h
    exact .inl ⟨hoperator, rfl⟩
  | true =>
    obtain ⟨c, w, hagain, ⟨⟩⟩ := bind_ok h
    exact .inr ⟨u, c, hoperator, hagain, rfl⟩

/-- The rule from behind its first operand, if that can be read. -/
theorem rightRecursive_of_ok {again : Production α} {found : Bool}
    (hoperand : (do skipBlanks; operand) s = .ok a t)
    (hoperator : (do skipBlanks; operator) t = .ok found u) :
    rightRecursive operand operator combine again s =
      (if found then do return combine a (← again) else return a : Production α) u := by
  rw [rightRecursive_eq, bind_of_ok hoperand, bind_of_ok hoperator]

end

section
variable {α : Type} {operand : Production α} {word : String} {kind : TokenKind}
  {combine : α → α → α} {s t u v : State} {a b : α} (hw : word ≠ "")
  (hp : operand.Follows Grown)
include hw hp

theorem chain_eq_rightRecursive : chain operand (Grammar.word word kind) combine =
    rightRecursive operand (Grammar.word word kind) combine
      (chain operand (Grammar.word word kind) combine) :=
  chain_eq (consumes_nextOperand hw hp)

/-- Behind an operator less of the text is left. -/
theorem shorter_behind_operator (hoperand : (do skipBlanks; operand) s = .ok a t)
    (hoperator : (do skipBlanks; Grammar.word word kind) t = .ok true u) :
    u.cursor.rest.length < s.cursor.rest.length := by
  have hskip : skipBlanks.Follows Grown := follows_grown_of_silent silent_skipBlanks
  have hle : t.cursor.rest.length ≤ s.cursor.rest.length :=
    rest_length_le (discipline_grown.bind hskip fun _ => hp) hoperand
  obtain ⟨_, t', hskip', hword⟩ := bind_ok hoperator
  have hlt := word_shortens hw hword
  have hle' := rest_length_le hskip hskip'
  omega

/-- The recursive rule is met by one production only. -/
theorem eq_of_eq_rightRecursive {rule rule' : Production α}
    (h : rule = rightRecursive operand (Grammar.word word kind) combine rule)
    (h' : rule' = rightRecursive operand (Grammar.word word kind) combine rule') :
    rule = rule' := by
  funext s
  induction hn : s.cursor.rest.length using Nat.strongRecOn generalizing s with
  | ind length ih =>
    rw [h, h', rightRecursive_eq, rightRecursive_eq]
    cases hoperand : (do skipBlanks; operand) s with
    | error reason t => rw [bind_of_error hoperand, bind_of_error hoperand]
    | ok a t =>
      rw [bind_of_ok hoperand, bind_of_ok hoperand]
      cases hoperator : (do skipBlanks; Grammar.word word kind) t with
      | error reason u => rw [bind_of_error hoperator, bind_of_error hoperator]
      | ok found u =>
        rw [bind_of_ok hoperator, bind_of_ok hoperator]
        cases found with
        | false => rfl
        | true =>
          have hlt := shorter_behind_operator hw hp hoperand hoperator
          exact bind_congr_run (ih _ (hn ▸ hlt) u rfl) _

/-- A chain succeeds where operands can be read one behind the other, and groups them to the
right in the order in which they stand. -/
theorem chain_ok_iff : chain operand (Grammar.word word kind) combine s = .ok b v ↔
    ∃ init last, OperandsRead operand (Grammar.word word kind) s init last v ∧
      b = init.foldr combine last := by
  constructor
  · intro h
    induction hn : s.cursor.rest.length using Nat.strongRecOn generalizing s b with
    | ind length ih =>
      rw [chain_eq_rightRecursive hw hp] at h
      obtain ⟨a, t, hoperand, ⟨hoperator, rfl⟩ | ⟨u, c, hoperator, hagain, rfl⟩⟩ :=
        rightRecursive_ok h
      · exact ⟨[], b, .last hoperand hoperator, rfl⟩
      · have hlt := shorter_behind_operator hw hp hoperand hoperator
        obtain ⟨init, last, hread, rfl⟩ := ih _ (hn ▸ hlt) hagain rfl
        exact ⟨a :: init, last, .more hoperand hoperator hread, rfl⟩
  · rintro ⟨init, last, hread, rfl⟩
    induction hread with
    | last hoperand hoperator =>
      rw [chain_eq_rightRecursive hw hp, rightRecursive_of_ok hoperand hoperator]
      rfl
    | more hoperand hoperator _ ih =>
      rw [chain_eq_rightRecursive hw hp, rightRecursive_of_ok hoperand hoperator]
      exact bind_of_ok ih

end

/-- Each chain of the grammar is made of its operands by the loop, and its operands only go
onwards. -/
theorem IsChain.eq_chain {inner : Inner} (hi : inner.Follows Grown) {α : Type}
    {whole operand : Production α} {operator : Production Bool} {combine : α → α → α}
    (h : IsChain inner whole operand operator combine) :
    operand.Follows Grown ∧ ∃ (text : String) (kind : TokenKind), text ≠ "" ∧
      kind ≠ .comparison ∧ operator = word text kind ∧ whole = chain operand operator combine := by
  cases h with
  | union =>
    exact ⟨discipline_grown.follows_exception hi, _, _, by decide, by decide, rfl, rfl⟩
  | exception =>
    exact ⟨discipline_grown.follows_intersection hi, _, _, by decide, by decide, rfl, rfl⟩
  | intersection =>
    exact ⟨discipline_grown.follows_pathOperand hi, _, _, by decide, by decide, rfl, rfl⟩
  | disjunction =>
    exact ⟨discipline_grown.follows_conjunction hi, _, _, by decide, by decide, rfl, rfl⟩
  | conjunction =>
    exact ⟨discipline_grown.follows_negation hi, _, _, by decide, by decide, rfl, rfl⟩

/-- A chain is the recursive rule: it satisfies the rule in every state and nothing else does. It
succeeds where operands can be read with the operator between them, and groups them to the right in
the order in which they stand. -/
theorem chains_are_rightRecursive {limit levels : Nat} {α : Type} {whole operand : Production α}
    {operator : Production Bool} {combine : α → α → α}
    (h : IsChain (innerAt limit levels) whole operand operator combine) :
    whole = rightRecursive operand operator combine whole ∧
      (∀ rule, rule = rightRecursive operand operator combine rule → rule = whole) ∧
      ∀ s b v, whole s = .ok b v ↔ ∃ init last,
        OperandsRead operand operator s init last v ∧ b = init.foldr combine last := by
  obtain ⟨hp, text, kind, hw, -, rfl, rfl⟩ := h.eq_chain (discipline_grown.follows_innerAt _ _)
  have hrule : chain operand (word text kind) combine =
      rightRecursive operand (word text kind) combine (chain operand (word text kind) combine) :=
    chain_eq_rightRecursive hw hp
  exact ⟨hrule, fun _ hr => eq_of_eq_rightRecursive hw hp hr hrule,
    fun _ _ _ => chain_ok_iff hw hp⟩

/-- Three operands, the second of which stands behind line feeds. -/
theorem threeAlternatives_grouped :
    let start := State.start "* or\n\nnot * or @a".toList
    ∃ p v, disjunction (innerAt 1 0) start = .ok (.or .any (.or (.not .any) p)) v ∧
      rightRecursive (conjunction (innerAt 1 0)) (word "or" .boolean) .or
        (disjunction (innerAt 1 0)) start = .ok (.or .any (.or (.not .any) p)) v ∧
      ∃ init last,
        OperandsRead (conjunction (innerAt 1 0)) (word "or" .boolean) start init last v ∧
        .or .any (.or (.not .any) p) = init.foldr .or last := by
  intro start
  obtain ⟨p, v, hv⟩ : ∃ p v,
      disjunction (innerAt 1 0) start = .ok (.or .any (.or (.not .any) p)) v := by
    obtain ⟨_, v, hv, htest⟩ := exists_run (r := disjunction (innerAt 1 0) start)
      (q := (· matches .or .any (.or (.not .any) _))) (by decide +kernel)
    split at htest
    · exact ⟨_, v, hv⟩
    · cases htest
  have hchain : IsChain (innerAt 1 0) (disjunction (innerAt 1 0)) (conjunction (innerAt 1 0))
      (word "or" .boolean) .or := .disjunction
  obtain ⟨hrule, -, hok⟩ := chains_are_rightRecursive hchain
  exact ⟨p, v, hv, (congrFun hrule start).symm.trans hv, (hok start _ v).mp hv⟩

end OutlineQuery.Grammar
