import OutlineQuery.Evaluation.Evaluate
import OutlineQuery.Parse
import Mathlib.Logic.Basic

/-! Which locations can be evaluated. The comparisons of a location are listed from left to right,
and each has its faults: the constructs in it that have no meaning. The check finds the first fault
of all, so a location is refused if there is one. -/

namespace OutlineQuery

structure Comparison where
  left : Value
  relation : Option Relation
  modifier : Modifier
  right : Option Value

def Predicate.comparisons : Predicate → List Comparison
  | .any => []
  | .not inner => inner.comparisons
  | .and left right | .or left right => left.comparisons ++ right.comparisons
  | .comparison left relation modifier right => [⟨left, relation, modifier, right⟩]

def Location.comparisons : Location → List Comparison
  | .path p => p.steps.flatMap (·.predicate.comparisons)
  | .union left right | .except left right | .intersect left right =>
    left.comparisons ++ right.comparisons

def Expression.comparisons : Expression → List Comparison
  | .function f => f.argument.comparisons
  | .location l => l.comparisons

def Value.faults : Value → List Unsupported
  | .call f => [.function f.name]
  | _ => []

theorem Value.faults_ne_nil {v : Value} : v.faults ≠ [] ↔ ∃ f, v = .call f := by
  cases v <;> simp [faults]

namespace Relation

def unsupported : List Relation :=
  [.matches, .lessThan, .greaterThan, .lessThanOrEqual, .greaterThanOrEqual]

def faults (r : Relation) : List Unsupported := if r ∈ unsupported then [.relation r] else []

theorem faults_ne_nil {r : Relation} : r.faults ≠ [] ↔ r ∈ unsupported := by
  simp [faults]

end Relation

namespace Modifier

def unsupported : List Modifier := [.numericCompare, .dateCompare, .listCompare]

def faults (m : Modifier) : List Unsupported := if m ∈ unsupported then [.modifier m] else []

theorem faults_ne_nil {m : Modifier} : m.faults ≠ [] ↔ m ∈ unsupported := by
  simp [faults]

end Modifier

namespace Comparison

def HasCall (k : Comparison) : Prop := ∃ f, k.left = .call f ∨ k.right = some (.call f)

def HasUnsupportedRelation (k : Comparison) : Prop :=
  ∃ r ∈ Relation.unsupported, k.relation = some r

def HasUnsupportedModifier (k : Comparison) : Prop := k.modifier ∈ Modifier.unsupported

/-- The faults, those of the sides first. A modifier without a relation is no fault. -/
def faults (k : Comparison) : List Unsupported :=
  k.left.faults ++ k.right.toList.flatMap Value.faults ++
    match k.relation with
    | some r => r.faults ++ k.modifier.faults
    | none => []

theorem hasCall_iff (k : Comparison) :
    k.HasCall ↔ k.left.faults ≠ [] ∨ k.right.toList.flatMap Value.faults ≠ [] := by
  have hright : k.right.toList.flatMap Value.faults ≠ [] ↔ ∃ f, k.right = some (.call f) := by
    cases k.right <;> simp [Value.faults_ne_nil]
  rw [hright, Value.faults_ne_nil]
  exact exists_or

theorem faults_ne_nil (k : Comparison) : k.faults ≠ [] ↔
    k.HasCall ∨ k.HasUnsupportedRelation ∨ k.relation.isSome = true ∧ k.HasUnsupportedModifier := by
  have happend : ∀ us vs : List Unsupported, us ++ vs ≠ [] ↔ us ≠ [] ∨ vs ≠ [] := by
    intro us vs
    rw [ne_eq, List.append_eq_nil_iff, not_and_or]
  rw [faults, happend, happend, ← hasCall_iff]
  cases hrelation : k.relation with
  | none => simp [HasUnsupportedRelation, hrelation]
  | some r =>
    simp only [happend, Relation.faults_ne_nil, Modifier.faults_ne_nil]
    simp [HasUnsupportedRelation, HasUnsupportedModifier, hrelation]

end Comparison

def refuseFirst : List Unsupported → Except Unsupported Unit
  | [] => .ok ()
  | u :: _ => .error u

@[simp] theorem refuseFirst_nil : refuseFirst [] = pure () := rfl

@[simp] theorem refuseFirst_append (us vs : List Unsupported) :
    refuseFirst (us ++ vs) = (do refuseFirst us; refuseFirst vs) := by
  cases us <;> rfl

theorem Value.check_eq (v : Value) : v.check = refuseFirst v.faults := by
  cases v <;> rfl

theorem Relation.check_eq (r : Relation) : r.check = refuseFirst r.faults := by
  cases r <;> rfl

theorem Modifier.check_eq (m : Modifier) : m.check = refuseFirst m.faults := by
  cases m <;> rfl

theorem Predicate.check_eq (p : Predicate) :
    p.check = refuseFirst (p.comparisons.flatMap Comparison.faults) := by
  cases p with
  | any => rfl
  | not inner => exact inner.check_eq
  | and left right =>
    rw [check, comparisons, List.flatMap_append, refuseFirst_append, left.check_eq, right.check_eq]
  | or left right =>
    rw [check, comparisons, List.flatMap_append, refuseFirst_append, left.check_eq, right.check_eq]
  | comparison left relation modifier right =>
    have hpass : (.ok () : Except Unsupported Unit) = pure () := rfl
    cases right <;> cases relation <;>
      simp [check, comparisons, Comparison.faults, hpass, Value.check_eq, Relation.check_eq,
        Modifier.check_eq]

theorem checkSteps_eq (steps : List Step) : checkSteps steps =
    refuseFirst ((steps.flatMap (·.predicate.comparisons)).flatMap Comparison.faults) := by
  induction steps with
  | nil => rfl
  | cons s steps ih => simp [checkSteps, ih, Predicate.check_eq]

/-- The check goes through the comparisons from left to right and tells the first fault. -/
theorem Location.check_eq (l : Location) :
    l.check = refuseFirst (l.comparisons.flatMap Comparison.faults) := by
  cases l with
  | path p => exact checkSteps_eq p.steps
  | union left right => simp [check, comparisons, left.check_eq, right.check_eq]
  | except left right => simp [check, comparisons, left.check_eq, right.check_eq]
  | intersect left right => simp [check, comparisons, left.check_eq, right.check_eq]

theorem refuseFirst_eq_error {us : List Unsupported} {u : Unsupported} :
    refuseFirst us = .error u ↔ us.head? = some u := by
  cases us <;> simp [refuseFirst]

theorem Location.evaluate_eq_error (l : Location) (o : Outline) (context : RowId)
    (u : Unsupported) : (Expression.location l).evaluate o context = .error u ↔
      (l.comparisons.flatMap Comparison.faults).head? = some u := by
  rw [← refuseFirst_eq_error, ← l.check_eq]
  cases hcheck : l.check <;>
    simp [Expression.evaluate, hcheck, bind, Except.bind, pure, Except.pure]

/-- A location is refused, over whatever outline and from whatever row, if and only if it has a
comparison with a call, with a relation without a meaning, or with a modifier without a meaning
that is there for a relation. -/
theorem Location.refused_iff (l : Location) (o : Outline) (context : RowId) :
    (∃ u, (Expression.location l).evaluate o context = .error u) ↔
      ∃ k ∈ l.comparisons, k.HasCall ∨ k.HasUnsupportedRelation ∨
        k.relation.isSome = true ∧ k.HasUnsupportedModifier := by
  have hhead : (∃ u, (l.comparisons.flatMap Comparison.faults).head? = some u) ↔
      l.comparisons.flatMap Comparison.faults ≠ [] := by
    cases l.comparisons.flatMap Comparison.faults <;> simp
  simp only [l.evaluate_eq_error, hhead, ← Comparison.faults_ne_nil]
  simp [List.flatMap_eq_nil_iff]

/-- In `@done[n]` there is a modifier without a meaning, and it is evaluated for all that. -/
theorem presence_not_refused : ∃ l, (parse defaultLimit "@done[n]").result = .ok (.location l) ∧
    (∃ k ∈ l.comparisons, k.HasUnsupportedModifier) ∧
    ¬ ∃ u, (Expression.location l).evaluate .empty 0 = .error u := by
  obtain ⟨_ | l, hl, htest⟩ := exists_read (r := (parse defaultLimit "@done[n]").result)
    (q := fun e => e.isLocation &&
      (e.comparisons.any (·.modifier ∈ Modifier.unsupported) &&
        (e.comparisons.flatMap Comparison.faults).isEmpty)) (by decide +kernel)
  · cases htest
  obtain ⟨hsome, hnone⟩ := Bool.and_eq_true_iff.mp (Bool.and_eq_true_iff.mp htest).2
  obtain ⟨k, hk, hmodifier⟩ := List.any_eq_true.mp hsome
  refine ⟨l, hl, ⟨k, hk, (of_decide_eq_true hmodifier :
    k.modifier ∈ Modifier.unsupported)⟩, ?_⟩
  rintro ⟨u, hrefused⟩
  have hfaults : l.comparisons.flatMap Comparison.faults = [] := List.isEmpty_iff.mp hnone
  rw [Location.evaluate_eq_error, hfaults] at hrefused
  cases hrefused

end OutlineQuery
