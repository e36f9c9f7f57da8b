import OutlineQuery.Proofs.Support

/-! What is asked of the rows in an evaluation. The evaluation is followed with a list of its
questions: which text a value is for a row, and whether a relation holds under a modifier. It has
the same answer as without the list, and where the check has passed all questions have a meaning. -/

namespace OutlineQuery
open Outline

inductive Question where
  | resolve (value : Value)
  | compare (relation : Relation) (modifier : Modifier)

def Question.Implemented : Question → Prop
  | .resolve v => ∀ f, v ≠ .call f
  | .compare r m =>
    r ∈ [Relation.beginsWith, .endsWith, .contains, .equal, .notEqual] ∧
      m ∈ [Modifier.caseSensitive, .caseInsensitive]

structure Asked (α : Type) where
  answer : α
  questions : List Question

namespace Asked
variable {α β : Type}

instance : Monad Asked where
  pure a := ⟨a, []⟩
  bind x f := ⟨(f x.answer).answer, x.questions ++ (f x.answer).questions⟩

@[simp] theorem answer_pure (a : α) : (pure a : Asked α).answer = a := rfl

@[simp] theorem questions_pure (a : α) : (pure a : Asked α).questions = [] := rfl

@[simp] theorem answer_bind (x : Asked α) (f : α → Asked β) :
    (x >>= f).answer = (f x.answer).answer := rfl

@[simp] theorem questions_bind (x : Asked α) (f : α → Asked β) :
    (x >>= f).questions = x.questions ++ (f x.answer).questions := rfl

def filter (p : α → Asked Bool) : List α → Asked (List α)
  | [] => pure []
  | a :: as => do
    let keep ← p a
    let kept ← filter p as
    return if keep then a :: kept else kept

def collect (f : α → Asked (List β)) : List α → Asked (List β)
  | [] => pure []
  | a :: as => do return (← f a) ++ (← collect f as)

@[simp] theorem answer_filter (p : α → Asked Bool) (as : List α) :
    (filter p as).answer = as.filter (p · |>.answer) := by
  induction as with
  | nil => rfl
  | cons a as ih => simp [filter, List.filter_cons, ih]

@[simp] theorem answer_collect (f : α → Asked (List β)) (as : List α) :
    (collect f as).answer = as.flatMap (f · |>.answer) := by
  induction as with
  | nil => rfl
  | cons a as ih => simp [collect, ih]

def Sound (x : Asked α) : Prop := ∀ q ∈ x.questions, q.Implemented

theorem sound_pure (a : α) : (pure a : Asked α).Sound := by
  intro q hq
  cases hq

theorem Sound.bind {x : Asked α} {f : α → Asked β} (hx : x.Sound) (hf : ∀ a, (f a).Sound) :
    (x >>= f).Sound := by
  intro q hq
  rw [questions_bind, List.mem_append] at hq
  cases hq with
  | inl hq => exact hx q hq
  | inr hq => exact hf x.answer q hq

theorem sound_filter {p : α → Asked Bool} (hp : ∀ a, (p a).Sound) (as : List α) :
    (filter p as).Sound := by
  induction as with
  | nil => exact sound_pure []
  | cons a as ih => exact (hp a).bind fun keep => ih.bind fun kept => sound_pure _

theorem sound_collect {f : α → Asked (List β)} (hf : ∀ a, (f a).Sound) (as : List α) :
    (collect f as).Sound := by
  induction as with
  | nil => exact sound_pure []
  | cons a as ih => exact (hf a).bind fun found => ih.bind fun others => sound_pure _

end Asked

def Value.ask (row : Row) (v : Value) : Asked (Option String) := ⟨v.resolve row, [.resolve v]⟩

@[simp] theorem Value.ask_answer (row : Row) (v : Value) : (v.ask row).answer = v.resolve row := rfl

def Relation.ask (r : Relation) (m : Modifier) (left right : String) : Asked Bool :=
  ⟨r.holds (m.fold left) (m.fold right), [.compare r m]⟩

@[simp] theorem Relation.ask_answer (r : Relation) (m : Modifier) (left right : String) :
    (r.ask m left right).answer = r.holds (m.fold left) (m.fold right) := rfl

/-- What comes behind the first false side of a conjunction or the first true side of a
disjunction is not asked. -/
def Predicate.ask (row : Row) : Predicate → Asked Bool
  | .any => pure true
  | .not inner => do return !(← inner.ask row)
  | .and left right => do if ← left.ask row then right.ask row else return false
  | .or left right => do if ← left.ask row then return true else right.ask row
  | .comparison left relation modifier right => do
    match ← left.ask row with
    | none => return false
    | some leftText =>
      match relation, right with
      | some r, some right =>
        match ← right.ask row with
        | none => return false
        | some rightText => r.ask modifier leftText rightText
      | _, _ => return true

@[simp] theorem Predicate.ask_answer (row : Row) (p : Predicate) :
    (p.ask row).answer = p.holds row := by
  cases p with
  | any => rfl
  | not inner => simp [ask, holds, inner.ask_answer row]
  | and left right =>
    cases hleft : left.holds row <;>
      simp [ask, holds, left.ask_answer row, right.ask_answer row, hleft]
  | or left right =>
    cases hleft : left.holds row <;>
      simp [ask, holds, left.ask_answer row, right.ask_answer row, hleft]
  | comparison left relation modifier right =>
    cases hleft : left.resolve row with
    | none => simp [ask, holds, hleft]
    | some leftText =>
      cases relation with
      | none => simp [ask, holds, hleft]
      | some r =>
        cases right with
        | none => simp [ask, holds, hleft]
        | some right => cases hright : right.resolve row <;> simp [ask, holds, hleft, hright]

theorem Value.ask_sound {v : Value} (row : Row) (h : v.faults = []) : (v.ask row).Sound := by
  intro q hq
  cases List.mem_singleton.mp hq
  intro f hcall
  simp [hcall, faults] at h

theorem Relation.ask_sound {r : Relation} {m : Modifier} (left right : String)
    (hr : r.faults = []) (hm : m.faults = []) : (r.ask m left right).Sound := by
  intro q hq
  cases List.mem_singleton.mp hq
  constructor
  · cases r <;> simp_all [faults, unsupported]
  · cases m <;> simp_all [Modifier.faults, Modifier.unsupported]

theorem Predicate.ask_sound (row : Row) (p : Predicate)
    (h : ∀ k ∈ p.comparisons, k.faults = []) : (p.ask row).Sound := by
  cases p with
  | any => exact Asked.sound_pure true
  | not inner => exact (inner.ask_sound row h).bind fun b => Asked.sound_pure !b
  | and left right =>
    have hleft := left.ask_sound row fun k hk => h k (List.mem_append_left _ hk)
    have hright := right.ask_sound row fun k hk => h k (List.mem_append_right _ hk)
    apply hleft.bind
    intro b
    cases b with
    | false => exact Asked.sound_pure false
    | true => exact hright
  | or left right =>
    have hleft := left.ask_sound row fun k hk => h k (List.mem_append_left _ hk)
    have hright := right.ask_sound row fun k hk => h k (List.mem_append_right _ hk)
    apply hleft.bind
    intro b
    cases b with
    | false => exact hright
    | true => exact Asked.sound_pure true
  | comparison left relation modifier right =>
    have hfaults := h _ List.mem_cons_self
    simp only [Comparison.faults, List.append_eq_nil_iff] at hfaults
    obtain ⟨⟨hleft, hright⟩, hrelation⟩ := hfaults
    apply (Value.ask_sound row hleft).bind
    intro leftText?
    cases leftText? with
    | none => exact Asked.sound_pure false
    | some leftText =>
      cases relation with
      | none => exact Asked.sound_pure true
      | some r =>
        cases right with
        | none => exact Asked.sound_pure true
        | some right =>
          simp only [Option.toList_some, List.flatMap_cons, List.flatMap_nil,
            List.append_nil] at hright
          simp only [List.append_eq_nil_iff] at hrelation
          apply (Value.ask_sound row hright).bind
          intro rightText?
          cases rightText? with
          | none => exact Asked.sound_pure false
          | some rightText => exact Relation.ask_sound leftText rightText hrelation.1 hrelation.2

namespace Step

def askAt (s : Step) (o : Outline) (id : RowId) : Asked Bool :=
  match o.row? id with
  | none => pure false
  | some row => if s.type.accepts row then s.predicate.ask row else pure false

def askFrom (s : Step) (ix : Index) (id : RowId) : Asked (List RowId) := do
  let found ← Asked.filter (s.askAt ix.outline) (ix.along s.axis id)
  match s.slice with
  | some slice => return slice.select found
  | none => return found

def askFollow (ix : Index) : List Step → List RowId → Asked (List RowId)
  | [], contexts => pure contexts
  | s :: steps, contexts => do
    let found ← Asked.collect (s.askFrom ix) contexts
    askFollow ix steps (ix.inOrder found)

@[simp] theorem askAt_answer (s : Step) (o : Outline) (id : RowId) :
    (s.askAt o id).answer = s.acceptsAt o id := by
  rw [askAt, acceptsAt]
  cases o.row? id with
  | none => rfl
  | some row => cases htype : s.type.accepts row <;> simp [accepts, htype]

@[simp] theorem askFrom_answer (s : Step) (ix : Index) (id : RowId) :
    (s.askFrom ix id).answer = s.fromRow ix id := by
  cases hslice : s.slice <;> simp [askFrom, fromRow, hslice]

@[simp] theorem askFollow_answer (ix : Index) (steps : List Step) (contexts : List RowId) :
    (askFollow ix steps contexts).answer = follow ix steps contexts := by
  induction steps generalizing contexts with
  | nil => rfl
  | cons s steps ih => simp [askFollow, follow, found, ih]

theorem askAt_sound {s : Step} (h : ∀ k ∈ s.predicate.comparisons, k.faults = []) (o : Outline)
    (id : RowId) : (s.askAt o id).Sound := by
  rw [askAt]
  cases o.row? id with
  | none => exact Asked.sound_pure false
  | some row =>
    by_cases htype : s.type.accepts row
    · simpa [htype] using s.predicate.ask_sound row h
    · simpa [htype] using Asked.sound_pure false

theorem askFrom_sound {s : Step} (h : ∀ k ∈ s.predicate.comparisons, k.faults = []) (ix : Index)
    (id : RowId) : (s.askFrom ix id).Sound := by
  apply (Asked.sound_filter (askAt_sound h ix.outline) _).bind
  intro found
  cases s.slice <;> exact Asked.sound_pure _

theorem askFollow_sound {steps : List Step}
    (h : ∀ k ∈ steps.flatMap (·.predicate.comparisons), k.faults = []) (ix : Index)
    (contexts : List RowId) : (askFollow ix steps contexts).Sound := by
  induction steps generalizing contexts with
  | nil => exact Asked.sound_pure contexts
  | cons s steps ih =>
    have hs : ∀ k ∈ s.predicate.comparisons, k.faults = [] :=
      fun k hk => h k (List.mem_append_left _ hk)
    have hsteps := ih fun k hk => h k (List.mem_append_right _ hk)
    exact (Asked.sound_collect (askFrom_sound hs ix) contexts).bind fun found => hsteps _

end Step

namespace Location

def ask (ix : Index) (context : RowId) : Location → Asked (List RowId)
  | .path p => Step.askFollow ix p.steps (p.start ix context)
  | .union left right => do
    let first ← left.ask ix context
    return ix.inOrder (first ++ (← right.ask ix context))
  | .except left right => do
    let dropped ← right.ask ix context
    return (← left.ask ix context).filter (!dropped.contains ·)
  | .intersect left right => do
    let kept ← right.ask ix context
    return (← left.ask ix context).filter kept.contains

@[simp] theorem ask_answer (ix : Index) (context : RowId) (l : Location) :
    (l.ask ix context).answer = l.rows ix context := by
  cases l with
  | path p => exact Step.askFollow_answer ix p.steps _
  | union left right => simp [ask, rows, left.ask_answer, right.ask_answer]
  | except left right => simp [ask, rows, left.ask_answer, right.ask_answer]
  | intersect left right => simp [ask, rows, left.ask_answer, right.ask_answer]

theorem ask_sound (ix : Index) (context : RowId) (l : Location)
    (h : ∀ k ∈ l.comparisons, k.faults = []) : (l.ask ix context).Sound := by
  cases l with
  | path p => exact Step.askFollow_sound h ix _
  | union left right =>
    have hleft := left.ask_sound ix context fun k hk => h k (List.mem_append_left _ hk)
    have hright := right.ask_sound ix context fun k hk => h k (List.mem_append_right _ hk)
    exact hleft.bind fun _ => hright.bind fun _ => Asked.sound_pure _
  | except left right | intersect left right =>
    have hleft := left.ask_sound ix context fun k hk => h k (List.mem_append_left _ hk)
    have hright := right.ask_sound ix context fun k hk => h k (List.mem_append_right _ hk)
    exact hright.bind fun _ => hleft.bind fun _ => Asked.sound_pure _

end Location

namespace Expression

def ask (e : Expression) (o : Outline) (context : RowId) :
    Asked (Except Unsupported (List RowId)) :=
  match e with
  | .function f => pure (.error (.function f.name))
  | .location l =>
    match l.check with
    | .error u => pure (.error u)
    | .ok _ => do return .ok (← l.ask (.around o context) context)

@[simp] theorem ask_answer (e : Expression) (o : Outline) (context : RowId) :
    (e.ask o context).answer = e.evaluate o context := by
  cases e with
  | function f => rfl
  | location l =>
    rw [ask, evaluate]
    cases l.check with
    | error u => rfl
    | ok _ =>
      rw [Asked.answer_bind, Location.ask_answer]
      rfl

def FirstFault (u : Unsupported) : Expression → Prop
  | .function f => u = .function f.name
  | .location l => ∃ before k behind, l.comparisons = before ++ k :: behind ∧
    (∀ k' ∈ before, k'.faults = []) ∧ k.faults.head? = some u

theorem evaluate_eq_error {e : Expression} {o : Outline} {context : RowId} {u : Unsupported} :
    e.evaluate o context = .error u ↔ e.FirstFault u := by
  cases e with
  | function f => simp [evaluate, FirstFault, eq_comm]
  | location l =>
    rw [Location.evaluate_eq_error, FirstFault, List.head?_flatMap, List.findSome?_eq_some_iff]
    simp only [List.head?_eq_none_iff]
    constructor
    · rintro ⟨before, k, behind, hsplit, hk, hbefore⟩
      exact ⟨before, k, behind, hsplit, hbefore, hk⟩
    · rintro ⟨before, k, behind, hsplit, hbefore, hk⟩
      exact ⟨before, k, behind, hsplit, hk, hbefore⟩

theorem ask_sound (e : Expression) (o : Outline) (context : RowId) : (e.ask o context).Sound := by
  cases e with
  | function f => exact Asked.sound_pure _
  | location l =>
    rw [ask]
    cases hcheck : l.check with
    | error u => exact Asked.sound_pure _
    | ok _ =>
      have hfaults : l.comparisons.flatMap Comparison.faults = [] := by
        rw [l.check_eq] at hcheck
        cases hnone : l.comparisons.flatMap Comparison.faults with
        | nil => rfl
        | cons u us => simp [hnone, refuseFirst] at hcheck
      rw [List.flatMap_eq_nil_iff] at hfaults
      exact (l.ask_sound _ context hfaults).bind fun rows => Asked.sound_pure _

/-- Whether an expression is refused, and for what, does not depend on the outline or the context.
If it is not, all that is asked of the rows of whatever outline has a meaning. -/
theorem refused_or_sound (e : Expression) (o : Outline) (context : RowId) :
    (∀ u, e.evaluate o context = .error u →
      e.FirstFault u ∧ ∀ o' context', e.evaluate o' context' = .error u) ∧
    ∀ rows, e.evaluate o context = .ok rows → ∀ o' context',
      (∃ rows', e.evaluate o' context' = .ok rows') ∧
        (e.ask o' context').answer = e.evaluate o' context' ∧
        ∀ q ∈ (e.ask o' context').questions, q.Implemented := by
  constructor
  · intro u hu
    have hfault := evaluate_eq_error.mp hu
    exact ⟨hfault, fun o' context' => evaluate_eq_error.mpr hfault⟩
  · intro rows hrows o' context'
    refine ⟨?_, e.ask_answer o' context', e.ask_sound o' context'⟩
    cases heval : e.evaluate o' context' with
    | ok rows' => exact ⟨rows', rfl⟩
    | error u =>
      have hrefused : e.evaluate o context = .error u :=
        evaluate_eq_error.mpr (evaluate_eq_error.mp heval)
      rw [hrows] at hrefused
      cases hrefused

def doneOrMilk : Expression :=
  .location (.path ⟨true, [⟨.child, .any,
    .or (.presence (.attribute "done") .numericCompare)
      (.textContains (.literal "milk") .caseSensitive), none⟩]⟩)

def beforeMilk : Expression :=
  .location (.path ⟨true, [⟨.child, .any,
    .not (.and (.comparison .text (some .lessThan) .caseSensitive (some (.literal "milk")))
      (.comparison .text (some .matches) .dateCompare (some (.literal "milk")))), none⟩]⟩)

theorem milk_asked :
    (∀ o context, beforeMilk.evaluate o context = .error (.relation .lessThan)) ∧
      (doneOrMilk.ask (Outline.empty.append 0 "milk") 0).answer = .ok [1] ∧
      (doneOrMilk.ask (Outline.empty.append 0 "milk") 0).questions.length = 4 ∧
      ∀ q ∈ (doneOrMilk.ask (Outline.empty.append 0 "milk") 0).questions, q.Implemented := by
  obtain ⟨hrefused, -⟩ := refused_or_sound beforeMilk .empty 0
  obtain ⟨-, hsound⟩ := refused_or_sound doneOrMilk .empty 0
  have hnone : doneOrMilk.evaluate .empty 0 = .ok [] :=
    congrArg Except.ok (by decide +kernel : _ = [])
  have hmilk : doneOrMilk.evaluate (Outline.empty.append 0 "milk") 0 = .ok [1] :=
    congrArg Except.ok (by decide +kernel : _ = [1])
  obtain ⟨-, hanswer, hquestions⟩ := hsound [] hnone (Outline.empty.append 0 "milk") 0
  exact ⟨(hrefused (.relation .lessThan) rfl).2, hanswer.trans hmilk, rfl, hquestions⟩

end Expression
end OutlineQuery
