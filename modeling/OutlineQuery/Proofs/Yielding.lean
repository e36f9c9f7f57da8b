import Mathlib.Data.List.Forall2
import OutlineQuery.Proofs.Productions

/-! What runs add to the state, one after the other, and how it hangs together with what they
return. It does not matter here what is added, only that a run of two parts adds what the first
does and then what the second does. An alternative that is given up has added nothing. -/

namespace OutlineQuery.Grammar
open Production

structure Additive {γ : Type} (adds : State → State → List γ → Prop) : Prop where
  refl (s : State) : adds s s []
  trans {s t u : State} {new more : List γ} : adds s t new → adds t u more →
    adds s u (new ++ more)
  deeper {s t : State} {new : List γ} : adds { s with depth := s.depth + 1 } t new →
    adds s { t with depth := t.depth - 1 } new

structure Yields {γ α : Type} (adds : State → State → List γ → Prop) (p : Production α)
    (told : α → List γ → Prop) : Prop where
  grows : p.Follows Grown
  yields {s : State} {a : α} {t : State} : p s = .ok a t → ∃ new, adds s t new ∧ told a new

abbrev YieldsNothing {γ α : Type} (adds : State → State → List γ → Prop) (p : Production α) :
    Prop :=
  Yields adds p fun _ new => new = []

def IfFound {γ α : Type} (told : α → List γ → Prop) : Option α → List γ → Prop
  | some a, new => told a new
  | none, new => new = []

theorem Yields.fail {γ α : Type} {adds : State → State → List γ → Prop} {told : α → List γ → Prop}
    (reason : Reason) : Yields adds (Production.fail reason : Production α) told :=
  ⟨follows_grown_of_silent (.fail reason), fun hok => nomatch hok⟩

theorem Yields.mono {γ α : Type} {adds : State → State → List γ → Prop} {p : Production α}
    {told less : α → List γ → Prop} (hp : Yields adds p told)
    (h : ∀ a new, told a new → less a new) : Yields adds p less := by
  refine ⟨hp.grows, fun hok => ?_⟩
  obtain ⟨new, hnew, ha⟩ := hp.yields hok
  exact ⟨new, hnew, h _ _ ha⟩

namespace Additive
variable {γ α β : Type} {adds : State → State → List γ → Prop} (hA : Additive adds)
  {p : Production α} {f : α → Production β} {told : α → List γ → Prop}
  {told' : β → List γ → Prop}
include hA

theorem pure {a : α} (h : told a []) : Yields adds (Pure.pure a : Production α) told := by
  refine ⟨follows_grown_of_silent (.pure a), fun {s b t} hok => ?_⟩
  cases hok
  exact ⟨[], hA.refl s, h⟩

theorem remaining : YieldsNothing adds Production.remaining := by
  refine ⟨follows_grown_of_silent silent_remaining, fun {s a t} hok => ?_⟩
  cases hok
  exact ⟨[], hA.refl s, rfl⟩

/-- The second production goes on from what the first has added. -/
theorem bind (hp : Yields adds p told)
    (hf : ∀ a new, told a new → Yields adds (f a) fun b more => told' b (new ++ more)) :
    Yields adds (p >>= f) told' := by
  constructor
  · intro s
    have h₁ := hp.grows s
    cases h : p s with
    | ok a t =>
      obtain ⟨new, -, ha⟩ := hp.yields h
      rw [finish_of_ok h] at h₁
      rw [finish, bind_of_ok h]
      exact h₁.trans ((hf a new ha).grows t)
    | error reason t =>
      rw [finish_of_error h] at h₁
      rw [finish_of_error (bind_of_error h)]
      exact h₁
  · intro s b u hok
    obtain ⟨a, t, h₁, h₂⟩ := bind_ok hok
    obtain ⟨new, hnew, ha⟩ := hp.yields h₁
    obtain ⟨more, hmore, hb⟩ := (hf a new ha).yields h₂
    exact ⟨new ++ more, hA.trans hnew hmore, hb⟩

theorem quiet_bind (hp : YieldsNothing adds p) (hf : ∀ a, Yields adds (f a) told') :
    Yields adds (p >>= f) told' := by
  refine hA.bind hp fun a new hnew => ?_
  subst hnew
  exact hf a

/-- A tree made of the one that was read. -/
theorem map (hp : Yields adds p told) {g : α → β} (h : ∀ a new, told a new → told' (g a) new) :
    Yields adds (p >>= fun a => Pure.pure (g a)) told' := by
  refine hA.bind hp fun a new ha => hA.pure ?_
  rw [List.append_nil]
  exact h a new ha

theorem attempt (hp : Yields adds p told) : Yields adds (attempt p) (IfFound told) := by
  refine ⟨discipline_grown.attempt hp.grows, fun {s found t} hok => ?_⟩
  obtain ⟨a, rfl, ha⟩ | ⟨rfl, rfl, -⟩ := attempt_ok (hp.grows s) hok
  · exact hp.yields ha
  · exact ⟨[], hA.refl t, rfl⟩

theorem attemptOr (default : α) (hp : YieldsNothing adds p) :
    YieldsNothing adds (attemptOr default p) := by
  refine hA.map (hA.attempt hp) fun found new hnew => ?_
  cases found with
  | some a => exact hnew
  | none => exact hnew

/-- One alternative or the other, whichever can be read. -/
theorem alternative {f : Option α → Production β} (hp : Yields adds p told)
    (hsome : ∀ a new, told a new → Yields adds (f (some a)) fun b more => told' b (new ++ more))
    (hnone : Yields adds (f none) told') : Yields adds (Production.attempt p >>= f) told' := by
  refine hA.bind (hA.attempt hp) fun found new hnew => ?_
  cases found with
  | some a => exact hsome a new hnew
  | none =>
    subst hnew
    exact hnone

theorem firstOf {alternatives : List (Production α)} (h : ∀ p ∈ alternatives, Yields adds p told) :
    Yields adds (firstOf alternatives) (IfFound told) := by
  induction alternatives with
  | nil => exact hA.pure rfl
  | cons p alternatives ih =>
    refine hA.alternative (h p List.mem_cons_self) (fun a new ha => hA.pure ?_) ?_
    · rw [List.append_nil]
      exact ha
    · exact ih fun q hq => h q (List.mem_cons_of_mem p hq)

theorem nested (limit : Nat) (hp : Yields adds p told) : Yields adds (nested limit p) told := by
  refine ⟨discipline_grown.nested limit hp.grows, fun {s a t} hok => ?_⟩
  obtain ⟨-, u, hu, rfl⟩ := nested_ok hok
  obtain ⟨new, hnew, ha⟩ := hp.yields hu
  exact ⟨new, hA.deeper hnew, ha⟩

/-- Items one after another, each with what it adds. -/
theorem manyWithin {item : Production (Option α)} (hp : Yields adds item (IfFound told))
    (bound : List Char) : Yields adds (manyWithin item bound) fun as new =>
      ∃ parts, new = parts.flatten ∧ List.Forall₂ told as parts := by
  induction bound with
  | nil => exact hA.pure ⟨[], rfl, .nil⟩
  | cons c bound ih =>
    refine hA.bind hp fun found new hnew => ?_
    cases found with
    | none =>
      subst hnew
      exact hA.pure ⟨[], rfl, .nil⟩
    | some a =>
      refine hA.map ih fun as more hmore => ?_
      obtain ⟨parts, rfl, hparts⟩ := hmore
      exact ⟨new :: parts, rfl, .cons hnew hparts⟩

theorem many {item : Production (Option α)} (hp : Yields adds item (IfFound told)) :
    Yields adds (many item) fun as new =>
      ∃ parts, new = parts.flatten ∧ List.Forall₂ told as parts :=
  hA.quiet_bind hA.remaining fun bound => hA.manyWithin hp bound

theorem many_quiet {item : Production (Option α)} (hp : YieldsNothing adds item) :
    YieldsNothing adds (Production.many item) := by
  have hitem : Yields adds item (IfFound fun _ new => new = []) :=
    hp.mono fun found new h => by cases found <;> exact h
  refine (hA.many hitem).mono fun as new hnew => ?_
  obtain ⟨parts, rfl, hparts⟩ := hnew
  induction hparts with
  | nil => rfl
  | cons hpart _ ih => rw [List.flatten_cons, hpart, ih, List.append_nil]

/-- Operands add what they do in the order of the text, each but the first behind what its operator
adds; the tree holds them in the same order, whichever way it leans. -/
theorem chain {operand : Production α} {operator : Production Bool} {combine : α → α → α}
    {between : List γ} (hblanks : YieldsNothing adds skipBlanks) (hp : Yields adds operand told)
    (ho : Yields adds operator fun found new => new = if found then between else [])
    (hc : ∀ a b new more, told a new → told b more →
      told (combine a b) (new ++ (between ++ more))) :
    Yields adds (chain operand operator combine) told := by
  have hitem : Yields adds (nextOperand operand operator)
      (IfFound fun a new => ∃ more, new = between ++ more ∧ told a more) := by
    refine hA.quiet_bind hblanks fun _ => hA.bind ho fun found new hnew => ?_
    subst hnew
    cases found with
    | true =>
      refine hA.quiet_bind hblanks fun _ => ?_
      exact hA.map hp fun a more ha => ⟨more, rfl, ha⟩
    | false => exact hA.pure rfl
  have hgroup : ∀ (a : α) (as : List α) (new : List γ) (parts : List (List γ)), told a new →
      List.Forall₂ (fun a part => ∃ more, part = between ++ more ∧ told a more) as parts →
      told (groupRight combine a as) (new ++ parts.flatten) := by
    intro a as new parts ha hparts
    induction hparts generalizing a new with
    | nil =>
      rw [groupRight_nil, List.flatten_nil, List.append_nil]
      exact ha
    | cons hb _ ih =>
      obtain ⟨more, rfl, hb⟩ := hb
      have hrest := hc a _ new _ ha (ih _ _ hb)
      rw [groupRight_cons, List.flatten_cons, List.append_assoc]
      exact hrest
  refine hA.quiet_bind hblanks fun _ => hA.bind hp fun first new hfirst => ?_
  refine hA.map (hA.many hitem) fun others more hmore => ?_
  obtain ⟨parts, rfl, hparts⟩ := hmore
  exact hgroup first others new parts hfirst hparts

end Additive
end OutlineQuery.Grammar
