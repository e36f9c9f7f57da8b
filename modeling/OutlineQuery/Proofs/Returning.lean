import Mathlib.Data.List.DropRight
import OutlineQuery.Proofs.ReadingBack

/-! What a production returns, and what it leaves of the text, whenever it succeeds. `Reads` says of
one text what becomes of it; here the text is any, and what is known of its beginning is assumed. -/

namespace OutlineQuery.Grammar
open Production Text

def Returns {α : Type} (p : Production α) (text : List Char) (good : α → List Char → Prop) : Prop :=
  ∀ (s : State) (a : α) (t : State), s.cursor.rest = text → p s = .ok a t →
    good a t.cursor.rest

def GoodIfFound {α : Type} (good : α → List Char → Prop) (text : List Char) :
    Option α → List Char → Prop
  | some a, rest => good a rest
  | none, rest => rest = text

namespace Returns
variable {α β : Type} {p : Production α} {f : α → Production β} {text : List Char}
  {good : α → List Char → Prop} {good' : β → List Char → Prop}

theorem mono {less : α → List Char → Prop} (hp : Returns p text good)
    (h : ∀ a rest, good a rest → less a rest) : Returns p text less :=
  fun s a t hs hok => h a _ (hp s a t hs hok)

theorem any : Returns p text fun _ _ => True := fun _ _ _ _ _ => trivial

theorem pure {a : α} (h : good a text) : Returns (Pure.pure a) text good := by
  intro s b t hs hok
  cases hok
  rw [hs]
  exact h

theorem fail (reason : Reason) : Returns (Production.fail reason) text good :=
  fun _ _ _ _ hok => nomatch hok

theorem bind (hp : Returns p text good) (hf : ∀ a rest, good a rest → Returns (f a) rest good') :
    Returns (p >>= f) text good' := by
  intro s b u hs hok
  obtain ⟨a, t, h₁, h₂⟩ := bind_ok hok
  exact hf a _ (hp s a t hs h₁) t b u rfl h₂

/-- What is good does not depend on what was read before. -/
theorem bind_any (hf : ∀ a rest, Returns (f a) rest good') : Returns (p >>= f) text good' :=
  any.bind fun a rest _ => hf a rest

theorem map (hp : Returns p text good) {g : α → β} (h : ∀ a rest, good a rest → good' (g a) rest) :
    Returns (p >>= fun a => Pure.pure (g a)) text good' :=
  hp.bind fun a rest ha => pure (h a rest ha)

theorem remaining_bind {f : List Char → Production β} (hf : Returns (f text) text good') :
    Returns (remaining >>= f) text good' := by
  intro s b t hs hok
  rw [remaining_bind_run, hs] at hok
  exact hf s b t hs hok

theorem pass_bind {f : Unit → Production β} (n : Nat) (hf : Returns (f ()) (text.drop n) good') :
    Returns (pass n >>= f) text good' := by
  intro s b t hs hok
  rw [pass_bind_run] at hok
  exact hf _ b t (by rw [rest_pass, hs]) hok

theorem attempt (hg : p.Follows Grown) (hp : Returns p text good) :
    Returns (attempt p) text (GoodIfFound good text) := by
  intro s found t hs hok
  obtain ⟨a, rfl, ha⟩ | ⟨rfl, rfl, -⟩ := attempt_ok (hg s) hok
  · exact hp s a t hs ha
  · exact hs

/-- One alternative or the other, both from the same text. -/
theorem alternative {f : Option α → Production β} (hg : p.Follows Grown) (hp : Returns p text good)
    (hsome : ∀ a rest, good a rest → Returns (f (some a)) rest good')
    (hnone : Returns (f none) text good') : Returns (Production.attempt p >>= f) text good' := by
  refine (attempt hg hp).bind fun found rest hfound => ?_
  cases found with
  | some a => exact hsome a rest hfound
  | none =>
    subst hfound
    exact hnone

theorem firstOf {alternatives : List (Production α)} (hg : ∀ p ∈ alternatives, p.Follows Grown)
    (h : ∀ p ∈ alternatives, Returns p text good) :
    Returns (firstOf alternatives) text fun found rest => ∀ a ∈ found, good a rest := by
  intro s found t hs hok a ha
  cases ha
  obtain ⟨p, hp, hrun⟩ := firstOf_some hg hok
  exact h p hp s a t hs hrun

theorem record {kind : TokenKind} (hp : Returns p text good) :
    Returns (record kind p) text good := by
  intro s a t hs hok
  obtain ⟨u, hu, rfl⟩ := record_ok hok
  exact hp s a u hs hu

theorem nested (limit : Nat) (hp : Returns p text good) : Returns (nested limit p) text good := by
  intro s a t hs hok
  obtain ⟨-, u, hu, rfl⟩ := nested_ok hok
  exact hp { s with depth := s.depth + 1 } a u hs hu

theorem manyWithin {item : Production (Option α)} {goodItem : α → Prop}
    (hp : ∀ text, Returns item text fun found _ => ∀ a ∈ found, goodItem a) (bound : List Char)
    (text : List Char) : Returns (manyWithin item bound) text fun as _ => ∀ a ∈ as, goodItem a := by
  induction bound generalizing text with
  | nil => exact pure nofun
  | cons c bound ih =>
    refine (hp text).bind fun found rest hfound => ?_
    cases found with
    | none => exact pure nofun
    | some a =>
      refine (ih rest).map fun as _ has b hb => ?_
      obtain rfl | hb := List.mem_cons.mp hb
      · exact hfound b rfl
      · exact has b hb

theorem many {item : Production (Option α)} {goodItem : α → Prop}
    (hp : ∀ text, Returns item text fun found _ => ∀ a ∈ found, goodItem a) (text : List Char) :
    Returns (many item) text fun as _ => ∀ a ∈ as, goodItem a :=
  remaining_bind (manyWithin hp text text)

/-- A loop ends where there is no item. -/
theorem many_rest {item : Production (Option α)} {ended : List Char → Prop} (hc : Consumes item)
    (hp : ∀ text, Returns item text fun found rest => found = none → ended rest)
    (text : List Char) : Returns (Production.many item) text fun _ rest => ended rest := by
  induction hn : text.length using Nat.strongRecOn generalizing text with
  | ind n ih =>
    intro s as t hs hok
    obtain ⟨-, hnone⟩ | ⟨a, others, u, -, hitem, hothers⟩ := many_ok hc hok
    · exact hp text s none t hs hnone rfl
    · have hlt := hc.shorter hitem
      rw [hs, hn] at hlt
      exact ih _ hlt _ rfl u others t rfl hothers

theorem nextOperand {operand : Production α} {operator : Production Bool} {goodOperand : α → Prop}
    (hp : ∀ text, Returns operand text fun a _ => goodOperand a) (text : List Char) :
    Returns (nextOperand operand operator) text fun found _ => ∀ a ∈ found, goodOperand a := by
  refine bind_any fun _ _ => bind_any fun found _ => ?_
  cases found with
  | true =>
    refine bind_any fun _ rest => (hp rest).map fun a _ ha b hb => ?_
    cases hb
    exact ha
  | false => exact pure nofun

/-- Operands of one kind make a tree of another, which may be put to the right of an operand. -/
theorem chain {operand : Production α} {operator : Production Bool} {combine : α → α → α}
    {goodOperand goodTree : α → Prop} (hp : ∀ text, Returns operand text fun a _ => goodOperand a)
    (hone : ∀ a, goodOperand a → goodTree a)
    (hc : ∀ a b, goodOperand a → goodTree b → goodTree (combine a b)) (text : List Char) :
    Returns (chain operand operator combine) text fun a _ => goodTree a := by
  have hgroup : ∀ (a : α) (as : List α), goodOperand a → (∀ b ∈ as, goodOperand b) →
      goodTree (groupRight combine a as) := by
    intro a as ha has
    induction as generalizing a with
    | nil => exact hone a ha
    | cons b as ih =>
      have hb := has b List.mem_cons_self
      rw [groupRight_cons]
      exact hc a _ ha (ih b hb fun c hc => has c (List.mem_cons_of_mem b hc))
  refine bind_any fun _ rest => (hp rest).bind fun first rest hfirst => ?_
  exact (many (nextOperand hp) rest).map fun others _ hothers => hgroup first others hfirst hothers

end Returns

section
variable {word : String} {kind : TokenKind} (text : List Char)

theorem head_dropWhile (p : Char → Bool) : (text.dropWhile p).head?.any p = false := by
  have hstop := List.head?_dropWhile_not p text
  cases h : text.dropWhile p with
  | nil => rfl
  | cons c rest => simpa [h] using hstop

theorem trim_trim : trim (trim text) = trim text := by
  have hfront : (trim text).head?.any isBlank = false := by
    have hprefix : trim text <+: text.dropWhile isBlank :=
      List.rdropWhile_prefix isBlank (text.dropWhile isBlank)
    have hstart := head_dropWhile text isBlank
    cases htrim : trim text with
    | nil => rfl
    | cons c rest =>
      rw [htrim] at hprefix
      obtain ⟨more, hmore⟩ := hprefix
      rw [← hmore] at hstart
      exact hstart
  calc trim (trim text) = ((trim text).dropWhile isBlank).rdropWhile isBlank := rfl
    _ = (trim text).rdropWhile isBlank := by rw [dropWhile_blank hfront]
    _ = trim text := List.rdropWhile_idempotent isBlank (text.dropWhile isBlank)

theorem returns_skipBlanks :
    Returns skipBlanks text fun _ rest => rest = text.dropWhile isBlank := by
  intro s _ t hs hok
  cases hok
  rw [rest_pass, hs, drop_takeWhile]

/-- Where no blank comes next the text stays as it is. -/
theorem Returns.skipBlanks_bind {α : Type} {f : Unit → Production α} {text : List Char}
    {good : α → List Char → Prop} (hblank : text.head?.any isBlank = false)
    (hf : Returns (f ()) text good) : Returns (skipBlanks >>= f) text good := by
  refine (returns_skipBlanks text).bind fun _ rest hrest => ?_
  rw [dropWhile_blank hblank] at hrest
  rw [hrest]
  exact hf

/-- No blank comes next any more. -/
theorem returns_noBlank :
    Returns skipBlanks text fun _ rest => rest.head?.any isBlank = false := by
  refine (returns_skipBlanks text).mono fun _ rest hrest => ?_
  rw [hrest]
  exact head_dropWhile text isBlank

theorem returns_skip : Returns (skip word) text fun found rest => found = false → rest = text := by
  refine Returns.remaining_bind ?_
  split
  · exact Returns.pass_bind _ (.pure nofun)
  · exact .pure fun _ => rfl

theorem returns_word : Returns (Grammar.word word kind) text fun found rest =>
    found = false → rest = text ∧ startsWithWord word text = false := by
  intro s found t hs hok hfound
  subst hfound
  rw [word_run] at hok
  by_cases h : startsWithWord word s.cursor.rest = true
  · rw [if_pos h] at hok
    cases hok
  · rw [if_neg h] at hok
    cases hok
    rw [hs] at h ⊢
    exact ⟨rfl, Bool.eq_false_iff.mpr h⟩

theorem returns_operator : Returns (Grammar.operator word kind) text fun found rest =>
    found = false → rest = text ∧ word.toList.isPrefixOf text = false := by
  intro s found t hs hok hfound
  subst hfound
  rw [operator_run] at hok
  by_cases h : word.toList.isPrefixOf s.cursor.rest = true
  · rw [if_pos h] at hok
    cases hok
  · rw [if_neg h] at hok
    cases hok
    rw [hs] at h ⊢
    exact ⟨rfl, Bool.eq_false_iff.mpr h⟩

/-- An identifier goes on as far as it can. -/
theorem returns_identifier : Returns identifier text fun name rest =>
    IsIdentifier name ∧ text = name ++ rest ∧ rest.head?.any isRest = false := by
  refine Returns.remaining_bind ?_
  cases text with
  | nil => exact .fail _
  | cons c text =>
    dsimp only
    split
    · rename_i hc
      have hname : IsIdentifier (c :: text.takeWhile isRest) :=
        ⟨hc, fun d hd => List.mem_takeWhile_imp hd⟩
      refine Returns.pass_bind _ (.pure ⟨hname, ?_⟩)
      rw [List.length_cons, List.drop_succ_cons, drop_takeWhile, List.cons_append,
        List.takeWhile_append_dropWhile]
      exact ⟨rfl, head_dropWhile text isRest⟩
    · exact .fail _

end
end OutlineQuery.Grammar
