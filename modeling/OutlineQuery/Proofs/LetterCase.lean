import OutlineQuery.Proofs.Composition

/-! A comparison that does not regard case accepts what one that regards it accepts, but for the
capital sigma: its lower case depends on the characters around it, so a text can have another lower
case where it stands in a longer one. -/

namespace OutlineQuery
namespace Text
variable {before behind text pattern : List Char}

/-- The lower case of a text between two others, the first of which is listed from its end. -/
def lowerBetween (before behind : List Char) : List Char → List Char
  | [] => []
  | c :: text =>
    (if c = '\u03a3' then
      [if meetsCased before && !meetsCased (text ++ behind) then '\u03c2' else '\u03c3']
      else lowerChar c) ++ lowerBetween (c :: before) behind text

def KeepsCase (before text behind : List Char) : Prop :=
  lowerBetween before.reverse behind text = lower text

theorem lowerAfter_append (before text behind : List Char) : lowerAfter before (text ++ behind) =
    lowerBetween before behind text ++ lowerAfter (text.reverse ++ before) behind := by
  induction text generalizing before with
  | nil => rfl
  | cons c text ih =>
    rw [List.cons_append, lowerAfter, lowerBetween, ih, List.append_assoc, List.reverse_cons,
      List.append_assoc, List.singleton_append]

theorem lowerAfter_eq (before text : List Char) :
    lowerAfter before text = lowerBetween before [] text := by
  have happend := lowerAfter_append before text []
  rwa [List.append_nil, lowerAfter, List.append_nil] at happend

theorem lower_append (text behind : List Char) : lower (text ++ behind) =
    lowerBetween [] behind text ++ lowerBetween text.reverse [] behind := by
  rw [lower, lowerAfter_append, List.append_nil, lowerAfter_eq]

theorem length_lowerBetween (before behind text : List Char) :
    (lowerBetween before behind text).length = (lower text).length := by
  have hany : ∀ before' behind', (lowerBetween before behind text).length =
      (lowerBetween before' behind' text).length := by
    induction text generalizing before with
    | nil => exact fun _ _ => rfl
    | cons c text ih =>
      intro before' behind'
      rw [lowerBetween, lowerBetween, List.length_append, List.length_append,
        ih (c :: before) (c :: before') behind']
      split <;> rfl
  rw [lower, lowerAfter_eq]
  exact hany [] []

/-- Only the sigma looks at what stands around it. -/
theorem lowerBetween_of_no_sigma (h : '\u03a3' ∉ text) (before behind before' behind' : List Char) :
    lowerBetween before behind text = lowerBetween before' behind' text := by
  induction text generalizing before before' with
  | nil => rfl
  | cons c text ih =>
    obtain ⟨hc, htext⟩ := not_or.mp (mt List.mem_cons.mpr h)
    rw [lowerBetween, lowerBetween, if_neg (Ne.symm hc), if_neg (Ne.symm hc),
      ih htext (c :: before) (c :: before')]

theorem keepsCase_of_no_sigma (h : '\u03a3' ∉ text) (before behind : List Char) :
    KeepsCase before text behind := by
  rw [KeepsCase, lower, lowerAfter_eq]
  exact lowerBetween_of_no_sigma h _ _ _ _

theorem lower_prefix_iff : lower text <+: lower (text ++ behind) ↔ KeepsCase [] text behind := by
  have hlength : (lower text).length = (lowerBetween [] behind text).length :=
    (length_lowerBetween [] behind text).symm
  rw [lower_append]
  constructor
  · rintro ⟨more, hmore⟩
    exact (List.append_inj_left hmore hlength).symm
  · intro hkeeps
    exact ⟨_, congrArg (· ++ _) hkeeps.symm⟩

theorem lower_suffix_iff : lower text <:+ lower (before ++ text) ↔ KeepsCase before text [] := by
  have hlength : (lower text).length = (lowerBetween before.reverse [] text).length :=
    (length_lowerBetween before.reverse [] text).symm
  rw [lower_append]
  constructor
  · rintro ⟨more, hmore⟩
    exact (List.append_inj_right' hmore hlength).symm
  · intro hkeeps
    exact ⟨_, congrArg (_ ++ ·) hkeeps.symm⟩

theorem lower_infix (h : KeepsCase before text behind) :
    lower text <:+: lower (before ++ text ++ behind) := by
  have hlower : lower (before ++ text ++ behind) = lowerBetween [] (text ++ behind) before ++
      (lower text ++ lowerAfter (text.reverse ++ before.reverse) behind) := by
    rw [List.append_assoc, lower, lowerAfter_append, List.append_nil, lowerAfter_append, h]
  rw [hlower]
  exact ⟨_, _, List.append_assoc _ _ _⟩

theorem occurs_iff : occurs pattern text = true ↔ pattern <:+: text := by
  induction text with
  | nil => rw [occurs, List.isEmpty_iff, List.infix_nil]
  | cons c text ih =>
    rw [occurs, Bool.or_eq_true, List.isPrefixOf_iff_prefix, ih, List.infix_cons_iff]

end Text

namespace Relation
variable {r : Relation} {left right : List Char}

def KeepsCase (left right : List Char) : Relation → Prop
  | .beginsWith => ∀ behind, left = right ++ behind → Text.KeepsCase [] right behind
  | .endsWith => ∀ before, left = before ++ right → Text.KeepsCase before right []
  | .contains => right <:+: left → ∃ before behind, left = before ++ right ++ behind ∧
    Text.KeepsCase before right behind
  | _ => True

theorem keepsCase_of_no_sigma (h : r = .equal ∨ '\u03a3' ∉ right) : r.KeepsCase left right := by
  obtain rfl | h := h
  · trivial
  have hkeeps := Text.keepsCase_of_no_sigma h
  cases r with
  | beginsWith => exact fun behind _ => hkeeps [] behind
  | endsWith => exact fun before _ => hkeeps before []
  | contains =>
    rintro ⟨before, behind, rfl⟩
    exact ⟨before, behind, rfl, hkeeps before behind⟩
  | _ => trivial

def IsPositive (r : Relation) : Prop := r ∈ [.beginsWith, .contains, .endsWith, .equal]

theorem holds_lower (hr : r.IsPositive) (h : r.holds left right = true)
    (hkeeps : r.KeepsCase left right) : r.holds (Text.lower left) (Text.lower right) = true := by
  cases r with
  | beginsWith =>
    obtain ⟨behind, rfl⟩ := List.isPrefixOf_iff_prefix.mp h
    exact List.isPrefixOf_iff_prefix.mpr (Text.lower_prefix_iff.mpr (hkeeps behind rfl))
  | endsWith =>
    obtain ⟨before, rfl⟩ := List.isSuffixOf_iff_suffix.mp h
    exact List.isSuffixOf_iff_suffix.mpr (Text.lower_suffix_iff.mpr (hkeeps before rfl))
  | contains =>
    obtain ⟨before, behind, rfl, hbetween⟩ := hkeeps (Text.occurs_iff.mp h)
    exact Text.occurs_iff.mpr (Text.lower_infix hbetween)
  | equal =>
    obtain rfl : left = right := by simpa [holds] using h
    simp [holds]
  | _ => simp [IsPositive] at hr

/-- At the two ends of a text there is no other place where it could be found. -/
theorem keepsCase_of_holds_lower (hr : r = .beginsWith ∨ r = .endsWith)
    (h : r.holds (Text.lower left) (Text.lower right) = true) : r.KeepsCase left right := by
  obtain rfl | rfl := hr
  · rintro behind rfl
    exact Text.lower_prefix_iff.mp (List.isPrefixOf_iff_prefix.mp h)
  · rintro before rfl
    exact Text.lower_suffix_iff.mp (List.isSuffixOf_iff_suffix.mp h)

end Relation

def Modifier.insensitive : Modifier → Modifier
  | .caseSensitive => .caseInsensitive
  | m => m

namespace Predicate

def insensitive : Predicate → Predicate
  | .any => .any
  | .not inner => .not inner.insensitive
  | .and left right => .and left.insensitive right.insensitive
  | .or left right => .or left.insensitive right.insensitive
  | .comparison left relation modifier right => .comparison left relation modifier.insensitive right

def IsPositive : Predicate → Prop
  | .any => True
  | .not _ => False
  | .and left right | .or left right => left.IsPositive ∧ right.IsPositive
  | .comparison _ relation _ _ => ∀ r ∈ relation, r.IsPositive

def KeepsCase (row : Row) : Predicate → Prop
  | .any => True
  | .not inner => inner.KeepsCase row
  | .and left right | .or left right => left.KeepsCase row ∧ right.KeepsCase row
  | .comparison left relation _ right => ∀ r ∈ relation, ∀ text ∈ left.resolve row,
    ∀ value ∈ right, ∀ pattern ∈ value.resolve row, r.KeepsCase text.toList pattern.toList

theorem holds_fold_insensitive {r : Relation} {m : Modifier} {left right : String}
    (hr : r.IsPositive) (h : r.holds (m.fold left) (m.fold right) = true)
    (hkeeps : r.KeepsCase left.toList right.toList) :
    r.holds (m.insensitive.fold left) (m.insensitive.fold right) = true := by
  cases m with
  | caseSensitive => exact Relation.holds_lower hr h hkeeps
  | _ => exact h

theorem holds_insensitive {row : Row} (p : Predicate) (hp : p.IsPositive)
    (hkeeps : p.KeepsCase row) (h : p.holds row = true) : p.insensitive.holds row = true := by
  match p with
  | .any => rfl
  | .not inner => exact hp.elim
  | .and left right =>
    rw [holds, Bool.and_eq_true] at h
    rw [insensitive, holds, Bool.and_eq_true]
    exact ⟨left.holds_insensitive hp.1 hkeeps.1 h.1, right.holds_insensitive hp.2 hkeeps.2 h.2⟩
  | .or left right =>
    rw [holds, Bool.or_eq_true] at h
    rw [insensitive, holds, Bool.or_eq_true]
    exact h.imp (left.holds_insensitive hp.1 hkeeps.1) (right.holds_insensitive hp.2 hkeeps.2)
  | .comparison left none modifier right => exact h
  | .comparison left (some r) modifier none => exact h
  | .comparison left (some r) modifier (some right) =>
    cases hleft : left.resolve row with
    | none =>
      rw [holds, hleft] at h
      cases h
    | some text =>
      cases hright : right.resolve row with
      | none =>
        rw [holds, hleft] at h
        dsimp only at h
        rw [hright] at h
        cases h
      | some pattern =>
        have hfound := hkeeps r rfl text hleft right rfl pattern hright
        rw [holds, hleft] at h
        rw [insensitive, holds, hleft]
        dsimp only at h ⊢
        rw [hright] at h ⊢
        exact holds_fold_insensitive (hp r rfl) h hfound

theorem check_insensitive (p : Predicate) : p.insensitive.check = p.check := by
  cases p with
  | any => rfl
  | not inner => rw [insensitive, check, check, inner.check_insensitive]
  | and left right =>
    rw [insensitive, check, check, left.check_insensitive, right.check_insensitive]
  | or left right =>
    rw [insensitive, check, check, left.check_insensitive, right.check_insensitive]
  | comparison left relation modifier right =>
    have hmodifier : modifier.insensitive.check = modifier.check := by cases modifier <;> rfl
    simp only [insensitive, check, hmodifier]

end Predicate

def Step.insensitive (s : Step) : Step := { s with predicate := s.predicate.insensitive }

def Path.insensitive (p : Path) : Path := { p with steps := p.steps.map Step.insensitive }

structure Step.IsPositive (s : Step) : Prop where
  slice : s.slice = none
  predicate : s.predicate.IsPositive

def Step.KeepsCase (s : Step) (o : Outline) : Prop :=
  ∀ id row, o.row? id = some row → s.predicate.KeepsCase row

theorem checkSteps_insensitive (steps : List Step) :
    checkSteps (steps.map Step.insensitive) = checkSteps steps := by
  induction steps with
  | nil => rfl
  | cons s steps ih =>
    rw [List.map_cons, checkSteps, checkSteps, ih]
    exact congrArg (· >>= _) s.predicate.check_insensitive

namespace Step
variable {s : Step} {o : Outline} {steps : List Step} {ix : Outline.Index}
  {contexts contexts' : List RowId} {id : RowId}

theorem acceptsAt_insensitive (hs : s.IsPositive) (hkeeps : s.KeepsCase o)
    (h : s.acceptsAt o id = true) : s.insensitive.acceptsAt o id = true := by
  rw [acceptsAt] at h ⊢
  cases hrow : o.row? id with
  | none => rw [hrow] at h; cases h
  | some row =>
    rw [hrow, Option.any_some, accepts, Bool.and_eq_true] at h
    rw [Option.any_some, accepts, Bool.and_eq_true]
    exact ⟨h.1, s.predicate.holds_insensitive hs.predicate (hkeeps id row hrow) h.2⟩

theorem fromRow_insensitive (hs : s.IsPositive) (hkeeps : s.KeepsCase ix.outline) (id : RowId) :
    s.fromRow ix id ⊆ s.insensitive.fromRow ix id := by
  have hslice : s.insensitive.slice = none := hs.slice
  intro found hfound
  rw [fromRow, hs.slice] at hfound
  rw [fromRow, hslice]
  obtain ⟨hmem, haccepts⟩ := List.mem_filter.mp hfound
  exact List.mem_filter.mpr ⟨hmem, acceptsAt_insensitive hs hkeeps haccepts⟩

theorem follow_insensitive (hsteps : ∀ s ∈ steps, s.IsPositive ∧ s.KeepsCase ix.outline)
    (hcontexts : contexts ⊆ contexts') :
    follow ix steps contexts ⊆ follow ix (steps.map insensitive) contexts' := by
  induction steps generalizing contexts contexts' with
  | nil => exact hcontexts
  | cons s steps ih =>
    obtain ⟨hs, hkeeps⟩ := hsteps s List.mem_cons_self
    refine ih (fun s' hs' => hsteps s' (List.mem_cons_of_mem s hs')) fun found hfound => ?_
    rw [Outline.IsTree.mem_inOrder, mem_found] at hfound ⊢
    obtain ⟨id, hid, hfrom⟩ := hfound
    exact ⟨id, hcontexts hid, fromRow_insensitive hs hkeeps id hfrom⟩

end Step

theorem Location.check_of_selects {l : Location} {o : Outline} {context : RowId}
    {rows : List RowId} (h : l.Selects o context rows) : l.check = .ok () := by
  rw [Selects, Expression.evaluate] at h
  cases hcheck : l.check with
  | error u => rw [hcheck] at h; cases h
  | ok _ => rfl

/-- What a relation accepts it accepts without regard to case, if the text that is found has the
same lower case there as alone. At the two ends of a text it accepts nothing else, and only a
capital sigma can make a difference. So a path without slices and negations loses no rows where case
is no longer regarded, unless it looks for such a sigma. -/
theorem insensitive_accepts (r : Relation) (left right : String) (o : Outline) (context : RowId)
    (p : Path) (rows : List RowId) :
    (r.IsPositive →
      r.holds (Modifier.caseSensitive.fold left) (Modifier.caseSensitive.fold right) = true →
        (r.KeepsCase left.toList right.toList → r.holds (Modifier.caseInsensitive.fold left)
          (Modifier.caseInsensitive.fold right) = true) ∧
        (r = .beginsWith ∨ r = .endsWith → r.holds (Modifier.caseInsensitive.fold left)
          (Modifier.caseInsensitive.fold right) = true → r.KeepsCase left.toList right.toList) ∧
        (r = .equal ∨ '\u03a3' ∉ right.toList → r.KeepsCase left.toList right.toList)) ∧
    ((∀ s ∈ p.steps, s.IsPositive ∧ s.KeepsCase o) → (Location.path p).Selects o context rows →
      ∃ rows', (Location.path p.insensitive).Selects o context rows' ∧ rows ⊆ rows') := by
  refine ⟨fun hr h => ⟨Relation.holds_lower hr h, Relation.keepsCase_of_holds_lower,
    Relation.keepsCase_of_no_sigma⟩, fun hsteps h => ?_⟩
  have hcheck : (Location.path p.insensitive).check = .ok () :=
    (checkSteps_insensitive p.steps).trans (Location.check_of_selects h)
  refine ⟨_, Location.selects_rows hcheck, ?_⟩
  obtain ⟨_, ⟨⟩, rfl⟩ := Expression.evaluate_ok h
  have hfollow : Step.follow (.around o context) p.steps (p.start (.around o context) context) ⊆
      Step.follow (.around o context) (p.steps.map Step.insensitive)
        (p.start (.around o context) context) :=
    Step.follow_insensitive hsteps (List.Subset.refl _)
  exact hfollow

def capitals : Outline := (Outline.empty.append 0 "ΟΔΟΣΑ").append 0 "ΟΔΟΣ"

def beginningWith (text : String) : Path :=
  ⟨false, [⟨.child, .any,
    .comparison .text (some .beginsWith) .caseSensitive (some (.literal text)), none⟩]⟩

theorem capitals_selected :
    (∀ s ∈ (beginningWith "ΟΔΟ").steps, s.IsPositive ∧ s.KeepsCase capitals) ∧
      (Location.path (beginningWith "ΟΔΟ")).Selects capitals 0 [1, 2] ∧
      (∃ rows, (Location.path (beginningWith "ΟΔΟ").insensitive).Selects capitals 0 rows ∧
        [1, 2] ⊆ rows) ∧
      Relation.beginsWith.holds (Modifier.caseInsensitive.fold "ΟΔΟΣΑ")
        (Modifier.caseInsensitive.fold "ΟΔΟ") = true := by
  have hsteps : ∀ s ∈ (beginningWith "ΟΔΟ").steps, s.IsPositive ∧ s.KeepsCase capitals := by
    intro s hs
    obtain rfl := List.mem_singleton.mp hs
    refine ⟨⟨rfl, fun r hr => ?_⟩, fun id row _ r hr text _ value hvalue pattern hpattern => ?_⟩
    · cases hr
      exact List.mem_cons_self
    · cases hvalue
      cases hpattern
      exact Relation.keepsCase_of_no_sigma (.inr (by decide))
  have hselects : (Location.path (beginningWith "ΟΔΟ")).Selects capitals 0 [1, 2] := by cbv
  obtain ⟨hrelation, hpath⟩ := insensitive_accepts .beginsWith "ΟΔΟΣΑ" "ΟΔΟ" capitals 0
    (beginningWith "ΟΔΟ") [1, 2]
  obtain ⟨hinsensitive, -, hkeeps⟩ := hrelation List.mem_cons_self (by decide +kernel)
  exact ⟨hsteps, hselects, hpath hsteps hselects, hinsensitive (hkeeps (.inr (by decide)))⟩

/-- The text that is looked for ends in a final sigma in lower case, and the row has another one
there. -/
theorem finalSigma_lost :
    (Location.path (beginningWith "ΟΔΟΣ")).Selects capitals 0 [1, 2] ∧
      (Location.path (beginningWith "ΟΔΟΣ").insensitive).Selects capitals 0 [2] := by
  refine ⟨by cbv, ?_⟩
  unfold Location.Selects
  decide +kernel

end OutlineQuery
