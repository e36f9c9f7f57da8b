import OutlineQuery.Proofs.Selection

/-! Every axis can be gone back, and an axis in its short form leads to the same rows as in its
long form. So an expression selects the same whichever form its axes have. -/

namespace OutlineQuery

mutual

def Value.longForm : Value → Value
  | .literal text => .literal text
  | .attribute name => .attribute name
  | .call f => .call f.longForm

def Function.longForm : Function → Function
  | ⟨name, argument⟩ => ⟨name, argument.longForm⟩

def Predicate.longForm : Predicate → Predicate
  | .any => .any
  | .not p => .not p.longForm
  | .and p q => .and p.longForm q.longForm
  | .or p q => .or p.longForm q.longForm
  | .comparison left r m none => .comparison left.longForm r m none
  | .comparison left r m (some right) => .comparison left.longForm r m (some right.longForm)

def Step.longForm : Step → Step
  | ⟨a, type, p, slice⟩ => ⟨a.normalized, type, p.longForm, slice⟩

def Path.longForm : Path → Path
  | ⟨absolute, steps⟩ => ⟨absolute, stepsLongForm steps⟩

def stepsLongForm : List Step → List Step
  | [] => []
  | step :: steps => step.longForm :: stepsLongForm steps

def Location.longForm : Location → Location
  | .path p => .path p.longForm
  | .union l m => .union l.longForm m.longForm
  | .except l m => .except l.longForm m.longForm
  | .intersect l m => .intersect l.longForm m.longForm

end

def Expression.longForm : Expression → Expression
  | .function f => .function f.longForm
  | .location l => .location l.longForm

theorem Function.longForm_eq (f : Function) : f.longForm = ⟨f.name, f.argument.longForm⟩ := by
  cases f
  rfl

theorem Step.longForm_eq (s : Step) :
    s.longForm = ⟨s.axis.normalized, s.type, s.predicate.longForm, s.slice⟩ := by
  cases s
  rfl

theorem Path.longForm_eq (p : Path) : p.longForm = ⟨p.absolute, stepsLongForm p.steps⟩ := by
  cases p
  rfl

theorem Value.check_longForm (v : Value) : v.longForm.check = v.check := by
  cases v with
  | literal text => rfl
  | «attribute» name => rfl
  | call f => rw [longForm, f.longForm_eq, check, check]

theorem Predicate.check_longForm (p : Predicate) : p.longForm.check = p.check := by
  cases p with
  | any => rfl
  | not p => exact p.check_longForm
  | and p q => rw [longForm, check, check, p.check_longForm, q.check_longForm]
  | or p q => rw [longForm, check, check, p.check_longForm, q.check_longForm]
  | comparison left r m right =>
    cases right with
    | none => simp only [longForm, check, left.check_longForm]
    | some right => simp only [longForm, check, left.check_longForm, right.check_longForm]

theorem checkSteps_longForm (steps : List Step) :
    checkSteps (stepsLongForm steps) = checkSteps steps := by
  induction steps with
  | nil => rfl
  | cons step steps ih =>
    rw [stepsLongForm, checkSteps, checkSteps, step.longForm_eq, Predicate.check_longForm, ih]

theorem Location.check_longForm (l : Location) : l.longForm.check = l.check := by
  cases l with
  | path p => rw [longForm, p.longForm_eq, check, check, checkSteps_longForm]
  | union l m => rw [longForm, check, check, l.check_longForm, m.check_longForm]
  | except l m => rw [longForm, check, check, l.check_longForm, m.check_longForm]
  | intersect l m => rw [longForm, check, check, l.check_longForm, m.check_longForm]

theorem Value.resolve_longForm (row : Row) (v : Value) :
    v.longForm.resolve row = v.resolve row := by
  cases v <;> rfl

theorem Predicate.holds_longForm (row : Row) (p : Predicate) :
    p.longForm.holds row = p.holds row := by
  cases p with
  | any => rfl
  | not p => rw [longForm, holds, holds, p.holds_longForm row]
  | and p q => rw [longForm, holds, holds, p.holds_longForm row, q.holds_longForm row]
  | or p q => rw [longForm, holds, holds, p.holds_longForm row, q.holds_longForm row]
  | comparison left r m right =>
    cases right with
    | none => cases r <;> simp only [longForm, holds, left.resolve_longForm row]
    | some right =>
      cases r <;>
        simp only [longForm, holds, left.resolve_longForm row, right.resolve_longForm row]

theorem Step.acceptsAt_longForm (s : Step) (o : Outline) :
    s.longForm.acceptsAt o = s.acceptsAt o := by
  have haccepts : s.longForm.accepts = s.accepts := by
    funext row
    rw [s.longForm_eq, accepts, accepts, Predicate.holds_longForm]
  funext id
  rw [acceptsAt, acceptsAt, haccepts]

namespace Outline
variable {o : Outline} {context x y : Nat}

/-- The short forms are no directions of their own. -/
theorem Index.along_normalized (ix : Index) (a : Axis) (id : RowId) :
    ix.along a.normalized id = ix.along a id := by
  cases a <;> rfl

theorem onAxis_inverse (o : Outline) (a : Axis) (x y : RowId) :
    o.OnAxis a.inverse y x ↔ o.OnAxis a x y := by
  have hswap : ∀ {p q : RowId → Prop} {r : RowId → Prop},
      (∃ parent, p parent ∧ q parent ∧ r parent) ↔ ∃ parent, q parent ∧ p parent ∧ r parent :=
    exists_congr fun _ => and_left_comm
  cases a with
  | child | parent | parentShortcut | ancestor | descendant | descendantShortcut | following
  | preceding => exact Iff.rfl
  | self | selfShortcut => exact eq_comm
  | ancestorOrSelf | descendantOrSelf | descendantOrSelfShortcut =>
    exact or_congr_right eq_comm
  | followingSibling | precedingSibling => exact hswap

theorem IsTree.mem_along_inverse (h : o.IsTree) (hc : o.has context = true) (hx : o.has x = true)
    (hy : o.has y = true) (a : Axis) :
    x ∈ (Index.around o context).along a.inverse y ↔ y ∈ (Index.around o context).along a x := by
  rw [h.mem_along hc hy, h.mem_along hc hx]
  exact o.onAxis_inverse a x y

end Outline

open Outline

theorem Step.fromRow_longForm (s : Step) (ix : Index) (id : RowId) :
    s.longForm.fromRow ix id = s.fromRow ix id := by
  have haxis : s.longForm.axis = s.axis.normalized := by rw [s.longForm_eq]
  have hslice : s.longForm.slice = s.slice := by rw [s.longForm_eq]
  rw [fromRow, fromRow, haxis, hslice, ix.along_normalized, s.acceptsAt_longForm]

theorem Step.found_longForm (s : Step) (ix : Index) (contexts : List RowId) :
    s.longForm.found ix contexts = s.found ix contexts := by
  rw [found, found, funext (s.fromRow_longForm ix)]

theorem Step.follow_longForm (ix : Index) (steps : List Step) (contexts : List RowId) :
    follow ix (stepsLongForm steps) contexts = follow ix steps contexts := by
  induction steps generalizing contexts with
  | nil => rfl
  | cons s steps ih => rw [stepsLongForm, follow, follow, s.found_longForm, ih]

theorem Location.rows_longForm (ix : Index) (context : RowId) (l : Location) :
    l.longForm.rows ix context = l.rows ix context := by
  cases l with
  | path p =>
    rw [longForm, p.longForm_eq, rows, rows]
    exact Step.follow_longForm ix p.steps (p.start ix context)
  | union l m => rw [longForm, rows, rows, l.rows_longForm, m.rows_longForm]
  | except l m => simp only [longForm, rows, l.rows_longForm, m.rows_longForm]
  | intersect l m => simp only [longForm, rows, l.rows_longForm, m.rows_longForm]

theorem Expression.evaluate_longForm (e : Expression) (o : Outline) (context : RowId) :
    e.longForm.evaluate o context = e.evaluate o context := by
  cases e with
  | function f => rw [longForm, f.longForm_eq, evaluate, evaluate]
  | location l => rw [longForm, evaluate, evaluate, l.check_longForm, l.rows_longForm]

/-- In every outline that can be made, an axis leads from one row to another if and only if its
inverse leads back, whichever row the index is made around. The long form of an axis leads to the
same rows as the axis itself. So an expression selects the same when all of its axes are put in
their long forms, and likewise when some are, which leaves the long form of the whole as it is. -/
theorem inverse_leads_back {o : Outline} (ho : o.Reachable) {context : RowId}
    (hc : o.has context = true) :
    (∀ (a : Axis) (x y : RowId), o.has x = true → o.has y = true →
      (y ∈ (Index.around o context).along a x ↔
        x ∈ (Index.around o context).along a.inverse y)) ∧
    (∀ (a : Axis) (x : RowId),
      (Index.around o context).along a x = (Index.around o context).along a.normalized x) ∧
    (∀ e : Expression, e.longForm.evaluate o context = e.evaluate o context) ∧
    ∀ e e' : Expression, e'.longForm = e.longForm →
      e'.evaluate o context = e.evaluate o context := by
  refine ⟨fun a x y hx hy => (ho.isTree.mem_along_inverse hc hx hy a).symm,
    fun a x => ((Index.around o context).along_normalized a x).symm,
    fun e => e.evaluate_longForm o context, fun e e' heq => ?_⟩
  rw [← e'.evaluate_longForm, heq, e.evaluate_longForm]

def upAndDown (a : Axis) : Expression :=
  .location (.path ⟨false, [⟨.parentShortcut, .any, .any, none⟩, ⟨a, .any, .any, none⟩]⟩)

/-- One of two short axes is put in its long form. -/
theorem upAndDown_written :
    (lateChild.has 2 = true ∧ lateChild.has 3 = true ∧ lateChild.has 4 = true) ∧
    2 ∈ (Index.around lateChild 3).along .following 4 ∧
    4 ∈ (Index.around lateChild 3).along .preceding 2 ∧
    (upAndDown .descendantOrSelf).longForm = (upAndDown .descendantOrSelfShortcut).longForm ∧
    (upAndDown .descendantOrSelf).evaluate lateChild 3 = .ok [2, 3] ∧
    (upAndDown .descendantOrSelfShortcut).evaluate lateChild 3 = .ok [2, 3] := by
  obtain ⟨hback, -, -, hsame⟩ :=
    inverse_leads_back lateChild_reachable (rfl : lateChild.has 3 = true)
  have hfollowing : 2 ∈ (Index.around lateChild 3).along .following 4 := by decide +kernel
  have hshort : (upAndDown .descendantOrSelfShortcut).evaluate lateChild 3 = .ok [2, 3] := by cbv
  exact ⟨⟨rfl, rfl, rfl⟩, hfollowing, (hback .following 4 2 rfl rfl).mp hfollowing, rfl,
    (hsame _ _ rfl).trans hshort, hshort⟩

end OutlineQuery
