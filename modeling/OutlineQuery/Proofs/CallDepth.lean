import OutlineQuery.Proofs.WellFormed

/-! How deep calls are nested in an expression. A call takes two levels of nesting, one for its
parentheses and one for the location between them, and a location outside of all calls takes one. -/

namespace OutlineQuery

mutual

def Value.callDepth : Value → Nat
  | .literal _ => 0
  | .attribute _ => 0
  | .call f => f.callDepth

def Function.callDepth : Function → Nat
  | ⟨_, argument⟩ => argument.callDepth + 1

def Predicate.callDepth : Predicate → Nat
  | .any => 0
  | .not p => p.callDepth
  | .and p q => max p.callDepth q.callDepth
  | .or p q => max p.callDepth q.callDepth
  | .comparison left _ _ none => left.callDepth
  | .comparison left _ _ (some right) => max left.callDepth right.callDepth

def Step.callDepth : Step → Nat
  | ⟨_, _, p, _⟩ => p.callDepth

def Path.callDepth : Path → Nat
  | ⟨_, steps⟩ => stepsCallDepth steps

def stepsCallDepth : List Step → Nat
  | [] => 0
  | step :: steps => max step.callDepth (stepsCallDepth steps)

def Location.callDepth : Location → Nat
  | .path p => p.callDepth
  | .union l m => max l.callDepth m.callDepth
  | .except l m => max l.callDepth m.callDepth
  | .intersect l m => max l.callDepth m.callDepth

end

theorem Function.callDepth_pos (f : Function) : 0 < f.callDepth := by
  obtain ⟨name, argument⟩ := f
  exact Nat.succ_pos argument.callDepth

def Expression.callLevels : Expression → Nat
  | .function f => 2 * f.callDepth
  | .location l => 2 * l.callDepth + 1

def Value.Fits (levels : Nat) (v : Value) : Prop := v.WellFormed ∧ 2 * v.callDepth ≤ levels

def Function.Fits (levels : Nat) (f : Function) : Prop :=
  f.WellFormed ∧ 2 * f.callDepth ≤ levels

def Predicate.Fits (levels : Nat) (p : Predicate) : Prop :=
  p.WellFormed ∧ 2 * p.callDepth ≤ levels

def Step.Fits (levels : Nat) (s : Step) : Prop := s.WellFormed ∧ 2 * s.callDepth ≤ levels

def Path.Fits (levels : Nat) (p : Path) : Prop := p.WellFormed ∧ 2 * p.callDepth ≤ levels

def Location.Fits (levels : Nat) (l : Location) : Prop := l.WellFormed ∧ 2 * l.callDepth ≤ levels

section
variable {levels : Nat}

theorem two_mul_max_le {m n : Nat} (hm : 2 * m ≤ levels) (hn : 2 * n ≤ levels) :
    2 * max m n ≤ levels := by
  omega

namespace Predicate
variable {p q : Predicate} {left right : Value}

theorem Fits.mono {more : Nat} (hp : p.Fits levels) (h : levels ≤ more) : p.Fits more :=
  ⟨hp.1, Nat.le_trans hp.2 h⟩

theorem fits_any : Predicate.any.Fits levels := ⟨trivial, Nat.zero_le _⟩

theorem Fits.not (hp : p.Fits levels) : (Predicate.not p).Fits levels := hp

theorem Fits.and (hp : p.Fits levels) (hq : q.Fits levels) : (Predicate.and p q).Fits levels :=
  ⟨⟨hp.1, hq.1⟩, two_mul_max_le hp.2 hq.2⟩

theorem Fits.or (hp : p.Fits levels) (hq : q.Fits levels) : (Predicate.or p q).Fits levels :=
  ⟨⟨hp.1, hq.1⟩, two_mul_max_le hp.2 hq.2⟩

theorem fits_comparison (hleft : left.Fits levels) (hno : ¬left.LooksNegated)
    (hright : right.Fits levels) (r : Relation) (m : Modifier) :
    (Predicate.comparison left (some r) m (some right)).Fits levels :=
  ⟨⟨hno, hleft.1, hright.1⟩, two_mul_max_le hleft.2 hright.2⟩

theorem fits_presence {name : String} (h : (Value.attribute name).Fits levels) (m : Modifier) :
    (presence (.attribute name) m).Fits levels :=
  ⟨⟨trivial, h.1⟩, h.2⟩

/-- The text of the row on the left side is no call. -/
theorem fits_textLeft (hright : right.Fits levels) (r : Relation) (m : Modifier) :
    (Predicate.comparison .text (some r) m (some right)).Fits levels := by
  have hname : IsIdentifier textAttribute.toList := by decide +kernel
  have htext : Value.text.Fits levels := ⟨hname, Nat.zero_le _⟩
  exact fits_comparison htext (fun h => h) hright r m

end Predicate

theorem Step.fits_mk {p : Predicate} {slice : Option Slice} (hp : p.Fits levels)
    (hs : ∀ s ∈ slice, s.WellFormed) (a : Axis) (type : RowType) :
    (Step.mk a type p slice).Fits levels :=
  ⟨⟨hp.1, hs⟩, hp.2⟩

theorem fits_steps {steps : List Step} (h : ∀ s ∈ steps, s.Fits levels) :
    stepsWellFormed steps ∧ 2 * stepsCallDepth steps ≤ levels := by
  induction steps with
  | nil => exact ⟨trivial, Nat.zero_le _⟩
  | cons step steps ih =>
    have hstep := h step List.mem_cons_self
    have hsteps := ih fun s hs => h s (List.mem_cons_of_mem step hs)
    exact ⟨⟨hstep.1, hsteps.1⟩, two_mul_max_le hstep.2 hsteps.2⟩

theorem Path.fits_mk {absolute : Bool} {first : Step} {others : List Step}
    (hfirst : first.Fits levels) (hstart : absolute = false → first.axis.StartsRelative)
    (hothers : ∀ s ∈ others, s.Fits levels) : (Path.mk absolute (first :: others)).Fits levels := by
  have hsteps : ∀ s ∈ first :: others, s.Fits levels := by
    intro s hs
    obtain rfl | hs := List.mem_cons.mp hs
    · exact hfirst
    · exact hothers s hs
  obtain ⟨hformed, hdepth⟩ := fits_steps hsteps
  refine ⟨⟨List.cons_ne_nil first others, fun h s hs => ?_, hformed⟩, hdepth⟩
  cases hs
  exact hstart h

namespace Location
variable {l m : Location}

theorem Fits.intersect (hl : l.Fits levels) (hm : m.Fits levels) (hleft : l.rank = 0)
    (hright : m.rank ≤ 1) : (Location.intersect l m).Fits levels :=
  ⟨⟨hleft, hright, hl.1, hm.1⟩, two_mul_max_le hl.2 hm.2⟩

theorem Fits.except (hl : l.Fits levels) (hm : m.Fits levels) (hleft : l.rank ≤ 1)
    (hright : m.rank ≤ 2) : (Location.except l m).Fits levels :=
  ⟨⟨hleft, hright, hl.1, hm.1⟩, two_mul_max_le hl.2 hm.2⟩

theorem Fits.union (hl : l.Fits levels) (hm : m.Fits levels) (hleft : l.rank ≤ 2) :
    (Location.union l m).Fits levels :=
  ⟨⟨hleft, hl.1, hm.1⟩, two_mul_max_le hl.2 hm.2⟩

end Location
end
end OutlineQuery
