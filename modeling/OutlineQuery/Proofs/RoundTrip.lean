import OutlineQuery.Parse
import OutlineQuery.Proofs.ReadingBack

/-! Every expression that is well-formed can be written so that it is read back, under any limit
that allows two levels of nesting for each of its nodes. -/

namespace OutlineQuery.Grammar
open Production Text

def stepEnds : List Char := [')', '/', 'u', 'e', 'i']

section
variable {depth size : Nat} {inner : Inner} {rest : List Char}

theorem reads_stepPredicate (hi : inner.ReadsBack depth size) {p : Predicate}
    (hp : p.WellFormed) (hn : p.nodes ≤ size) (hrest : StartsIn ('[' :: stepEnds) rest) :
    Reads (disjunction inner) depth (' ' :: '(' :: (p.written ++ ')' :: rest)) p rest := by
  have hnegation := reads_groupNegation (hi.predicate p rest hp hn)
  have hread : Reads (disjunction inner) depth ('(' :: (p.written ++ ')' :: rest)) p rest :=
    reads_disjunction hi.follows hnegation rfl hrest (by decide) (by decide) (by decide)
  exact hread.chain_blank

theorem reads_stepTest (hi : inner.ReadsBack depth size) (type : RowType) {p : Predicate}
    (hp : p.WellFormed) (hn : p.nodes ≤ size) (hrest : StartsIn ('[' :: stepEnds) rest) :
    Reads (stepTest inner) depth
      (type.written ++ ' ' :: '(' :: (p.written ++ ')' :: rest)) (type, p) rest := by
  have hpredicate := reads_stepPredicate hi hp hn hrest
  cases type with
  | heading =>
    have hword : Reads (word "heading" .type) depth
        ("heading".toList ++ ' ' :: '(' :: (p.written ++ ')' :: rest)) true
        (' ' :: '(' :: (p.written ++ ')' :: rest)) := reads_word rfl rfl
    have htype : Reads headingType depth
        ("heading".toList ++ ' ' :: '(' :: (p.written ++ ')' :: rest)) .heading
        (' ' :: '(' :: (p.written ++ ')' :: rest)) := hword.bind (.pure RowType.heading)
    have htest : Reads (headingTest inner) depth
        ("heading".toList ++ ' ' :: '(' :: (p.written ++ ')' :: rest)) (.heading, p) rest :=
      htype.bind (hpredicate.bind (.pure _))
    exact htest.firstOf.bind (.pure (RowType.heading, p))
  | any => exact reads_stepTest_any hi.follows rfl hpredicate

theorem axisAt?_written (a : Axis) (type : RowType) (rest : List Char) :
    axisAt? (a.spelling.toList ++ (type.written ++ ' ' :: rest)) = some a := by
  cases type with
  | any => exact (axisAt?_spelling a rest).1
  | heading => exact (axisAt?_spelling a ("eading".toList ++ ' ' :: rest)).2

theorem reads_step (hi : inner.ReadsBack depth size) {st : Step} (hst : st.WellFormed)
    (hn : st.nodes ≤ size + 1) (hrest : StartsIn stepEnds rest) :
    Reads (step inner) depth (st.written ++ rest) st rest := by
  obtain ⟨a, type, p, slice⟩ := st
  obtain ⟨hp, hslice⟩ := hst
  have hsize : p.nodes ≤ size := Nat.le_of_succ_le_succ hn
  have htext : (Step.mk a type p slice).written ++ rest = a.spelling.toList ++
      (type.written ++ ' ' :: '(' :: (p.written ++ ')' :: (sliceText slice ++ rest))) := by
    simp [Step.written]
  have haxis : Reads (attemptOr Axis.child axis) depth _ a
      (type.written ++ ' ' :: '(' :: (p.written ++ ')' :: (sliceText slice ++ rest))) :=
    (reads_axis (axisAt?_written a type _)).attemptOr
  rw [htext]
  refine haxis.bind ?_
  cases slice with
  | some s =>
    obtain ⟨text, hs⟩ := s.written_starts
    have hstart : StartsIn ('[' :: stepEnds) (s.written ++ rest) := by
      rw [hs]
      exact startsIn_cons List.mem_cons_self _
    have hbracket : ['['].isPrefixOf (s.written ++ rest) = true := by
      rw [hs]
      rfl
    refine (reads_stepTest hi type hp hsize hstart).bind (Reads.remaining_bind ?_)
    rw [if_pos hbracket]
    exact (reads_slice (hslice s rfl)).bind (.pure _)
  | none =>
    have hstart : StartsIn ('[' :: stepEnds) rest := hrest.mono (List.subset_cons_self _ _)
    have hbracket : ['['].isPrefixOf rest = false :=
      isPrefixOf_cons_false (hrest.head_ne (by decide)) []
    refine (reads_stepTest hi type hp hsize hstart).bind (Reads.remaining_bind ?_)
    rw [if_neg (by simp [hbracket])]
    exact .pure _

theorem consumes_nextStep (hi : inner.Follows Grown) : Consumes (nextStep inner) where
  shorter {s t a} h := by
    obtain ⟨found, u, h₁, h₂⟩ := bind_ok h
    cases found with
    | false => cases h₂
    | true =>
      obtain ⟨b, v, h₃, h₄⟩ := bind_ok h₂
      cases h₄
      have hslash := operator_shortens (by decide) h₁
      have hstep := rest_length_le (discipline_grown.follows_step hi) h₃
      omega
  ending {s} hs := by
    have hslash : operator "/" .axis s = .ok false s := by
      rw [operator_run, hs]
      rfl
    exact bind_of_ok hslash

def pathEnds : List Char := [')', 'u', 'e', 'i']

theorem startsIn_steps {steps : List Step} (hrest : StartsIn pathEnds rest) :
    StartsIn stepEnds (stepsText steps ++ rest) := by
  cases steps with
  | nil => exact hrest.mono (by decide)
  | cons st steps => exact startsIn_cons (by decide) _

theorem reads_steps (hi : inner.ReadsBack depth size) {steps : List Step}
    (hs : stepsWellFormed steps) (hn : stepsNodes steps ≤ size + 1)
    (hrest : StartsIn pathEnds rest) :
    Reads (many (nextStep inner)) depth (stepsText steps ++ rest) steps rest := by
  induction steps with
  | nil =>
    have hslash : "/".toList.isPrefixOf rest = false :=
      isPrefixOf_cons_false (hrest.head_ne (by decide)) []
    have hnone : Reads (operator "/" .axis) depth rest false rest := reads_operator_false hslash
    exact .many_none (consumes_nextStep hi.follows) (hnone.bind (.pure none))
  | cons st steps ih =>
    obtain ⟨hst, hsteps⟩ := hs
    simp only [stepsNodes] at hn
    have htext : stepsText (st :: steps) ++ rest =
        '/' :: (st.written ++ (stepsText steps ++ rest)) := by
      simp [stepsText]
    have hslash : Reads (operator "/" .axis) depth
        ('/' :: (st.written ++ (stepsText steps ++ rest))) true
        (st.written ++ (stepsText steps ++ rest)) := reads_operator rfl
    have hstep : Reads (step inner) depth (st.written ++ (stepsText steps ++ rest)) st
        (stepsText steps ++ rest) := reads_step hi hst (by omega) (startsIn_steps hrest)
    have hnext : Reads (nextStep inner) depth ('/' :: (st.written ++ (stepsText steps ++ rest)))
        (some st) (stepsText steps ++ rest) := hslash.bind (hstep.bind (.pure (some st)))
    rw [htext]
    exact .many_some (consumes_nextStep hi.follows) hnext (ih hsteps (by omega))

theorem no_slash {a : Axis} (h : a.StartsRelative) (text : List Char) :
    "/".toList.isPrefixOf (a.spelling.toList ++ text) = false := by
  obtain ⟨hone, htwo⟩ := h
  cases a <;> first | rfl | contradiction

theorem reads_path (hi : inner.ReadsBack depth size) {p : Path} (hp : p.WellFormed)
    (hn : p.nodes ≤ size + 1) (hrest : StartsIn pathEnds rest) :
    Reads (path inner) depth (p.written ++ rest) p rest := by
  obtain ⟨absolute, steps⟩ := p
  obtain ⟨hsome, hfirst, hsteps⟩ := hp
  cases steps with
  | nil => exact absurd rfl hsome
  | cons st steps =>
    simp only [Path.nodes, stepsNodes] at hn
    have hstep : Reads (step inner) depth (st.written ++ (stepsText steps ++ rest)) st
        (stepsText steps ++ rest) := reads_step hi hsteps.1 (by omega) (startsIn_steps hrest)
    have hothers : Reads (many (nextStep inner)) depth (stepsText steps ++ rest) steps rest :=
      reads_steps hi hsteps.2 (by omega) hrest
    cases absolute with
    | true =>
      have htext : (Path.mk true (st :: steps)).written ++ rest =
          '/' :: (st.written ++ (stepsText steps ++ rest)) := by
        simp [Path.written, stepsText]
      have hslash : Reads (operator "/" .axis) depth
          ('/' :: (st.written ++ (stepsText steps ++ rest))) true
          (st.written ++ (stepsText steps ++ rest)) := reads_operator rfl
      rw [htext]
      exact hslash.bind (hstep.bind (hothers.bind (.pure _)))
    | false =>
      have htext : (Path.mk false (st :: steps)).written ++ rest =
          st.written ++ (stepsText steps ++ rest) := by
        simp [Path.written, stepsText]
      have hno : "/".toList.isPrefixOf (st.written ++ (stepsText steps ++ rest)) = false := by
        have haxis := no_slash (hfirst rfl st rfl)
        obtain ⟨a, type, p, slice⟩ := st
        rw [Step.written, List.append_assoc]
        exact haxis _
      have hslash : Reads (operator "/" .axis) depth (st.written ++ (stepsText steps ++ rest))
          false (st.written ++ (stepsText steps ++ rest)) := reads_operator_false hno
      rw [htext]
      exact hslash.bind (hstep.bind (hothers.bind (.pure _)))

theorem written_noBlank (p : Path) (hp : p.WellFormed) (rest : List Char) :
    (p.written ++ rest).head?.any isBlank = false := by
  obtain ⟨absolute, steps⟩ := p
  obtain ⟨hsome, -, -⟩ := hp
  cases steps with
  | nil => exact absurd rfl hsome
  | cons st steps =>
    obtain ⟨a, type, p, slice⟩ := st
    cases absolute with
    | true => rfl
    | false => cases a <;> rfl

theorem reads_pathOperand (hi : inner.ReadsBack depth size) {p : Path} (hp : p.WellFormed)
    (hn : p.nodes ≤ size + 1) (hrest : StartsIn pathEnds rest) :
    Reads (pathOperand inner) depth (p.written ++ rest) (.path p) rest :=
  (reads_noBlanks (written_noBlank p hp rest)).bind ((reads_path hi hp hn hrest).bind (.pure _))

theorem written_firstPath : ∀ (l : Location), l.WellFormed →
    ∃ (p : Path) (text : List Char), p.WellFormed ∧ l.written = p.written ++ text
  | .path p, hl => ⟨p, [], hl, (List.append_nil _).symm⟩
  | .union l m, hl => by
    obtain ⟨p, text, hp, htext⟩ := written_firstPath l hl.2.1
    exact ⟨p, _, hp, by rw [Location.written, htext, List.append_assoc]⟩
  | .except l m, hl => by
    obtain ⟨p, text, hp, htext⟩ := written_firstPath l hl.2.2.1
    exact ⟨p, _, hp, by rw [Location.written, htext, List.append_assoc]⟩
  | .intersect l m, hl => by
    obtain ⟨p, text, hp, htext⟩ := written_firstPath l hl.2.2.1
    exact ⟨p, _, hp, by rw [Location.written, htext, List.append_assoc]⟩

theorem location_noBlank (l : Location) (hl : l.WellFormed) (rest : List Char) :
    (l.written ++ rest).head?.any isBlank = false := by
  obtain ⟨p, text, hp, htext⟩ := written_firstPath l hl
  rw [htext, List.append_assoc]
  exact written_noBlank p hp _

theorem reads_intersection (hi : inner.ReadsBack depth size) : ∀ (l : Location), l.WellFormed →
    l.rank ≤ 1 → l.nodes ≤ size + 1 → ∀ rest, StartsIn [')', 'u', 'e'] rest →
    Reads (intersection inner) depth (l.written ++ rest) l rest
  | .path p, hl, _, hn, rest, hrest => by
    have hpath := reads_pathOperand hi hl hn (hrest.mono (by decide))
    exact hpath.chain_last (discipline_grown.follows_pathOperand hi.follows) (by decide)
      (written_noBlank p hl rest) (hrest.head_any (by decide))
      (hrest.startsWithWord rfl (by decide))
  | .intersect (.path p) m, hl, _, hn, rest, hrest => by
    obtain ⟨-, hrank, hp, hm⟩ := hl
    simp only [Location.nodes] at hn
    have htext : (Location.intersect (.path p) m).written ++ rest =
        p.written ++ ("intersect".toList ++ ' ' :: (m.written ++ rest)) := by
      simp [Location.written]
    have hword : StartsIn ['i'] ("intersect".toList ++ ' ' :: (m.written ++ rest)) :=
      startsIn_cons (List.mem_singleton_self 'i') _
    have hpath := reads_pathOperand hi hp (by omega) (hword.mono (by decide))
    have hright := reads_intersection hi m hm hrank (by omega) rest hrest
    rw [htext]
    exact hpath.chain_more (discipline_grown.follows_pathOperand hi.follows) (by decide)
      (written_noBlank p hp _) rfl rfl hright.chain_blank
  | .intersect (.union _ _) _, hl, _, _, _, _ => by cases hl.1
  | .intersect (.except _ _) _, hl, _, _, _, _ => by cases hl.1
  | .intersect (.intersect _ _) _, hl, _, _, _, _ => by cases hl.1
  | .except _ _, _, hrank, _, _, _ => by simp [Location.rank] at hrank
  | .union _ _, _, hrank, _, _, _ => by simp [Location.rank] at hrank

/-- Without an `except` at its top a location is an operand of one. -/
theorem reads_exception_one (hi : inner.ReadsBack depth size) {l : Location} (hl : l.WellFormed)
    (hrank : l.rank ≤ 1) (hn : l.nodes ≤ size + 1) (hrest : StartsIn [')', 'u'] rest) :
    Reads (exception inner) depth (l.written ++ rest) l rest :=
  (reads_intersection hi l hl hrank hn rest (hrest.mono (by decide))).chain_last
    (discipline_grown.follows_intersection hi.follows) (by decide) (location_noBlank l hl rest)
    (hrest.head_any (by decide)) (hrest.startsWithWord rfl (by decide))

theorem reads_exception (hi : inner.ReadsBack depth size) : ∀ (l : Location), l.WellFormed →
    l.rank ≤ 2 → l.nodes ≤ size + 1 → ∀ rest, StartsIn [')', 'u'] rest →
    Reads (exception inner) depth (l.written ++ rest) l rest
  | .path p, hl, _, hn, _, hrest => reads_exception_one hi hl (Nat.zero_le 1) hn hrest
  | .intersect l m, hl, _, hn, _, hrest => reads_exception_one hi hl (Nat.le_refl 1) hn hrest
  | .except l m, hl, _, hn, rest, hrest => by
    obtain ⟨hleft, hright, hl, hm⟩ := hl
    simp only [Location.nodes] at hn
    have htext : (Location.except l m).written ++ rest =
        l.written ++ ("except".toList ++ ' ' :: (m.written ++ rest)) := by
      simp [Location.written]
    have hword : StartsIn ['e'] ("except".toList ++ ' ' :: (m.written ++ rest)) :=
      startsIn_cons (List.mem_singleton_self 'e') _
    have hfirst := reads_intersection hi l hl hleft (by omega) _ (hword.mono (by decide))
    have hagain := reads_exception hi m hm hright (by omega) rest hrest
    rw [htext]
    exact hfirst.chain_more (discipline_grown.follows_intersection hi.follows) (by decide)
      (location_noBlank l hl _) rfl rfl hagain.chain_blank
  | .union _ _, _, hrank, _, _, _ => by simp [Location.rank] at hrank

theorem reads_union_one (hi : inner.ReadsBack depth size) {l : Location} (hl : l.WellFormed)
    (hrank : l.rank ≤ 2) (hn : l.nodes ≤ size + 1) (hrest : StartsIn [')'] rest) :
    Reads (union inner) depth (l.written ++ rest) l rest :=
  (reads_exception hi l hl hrank hn rest (hrest.mono (by decide))).chain_last
    (discipline_grown.follows_exception hi.follows) (by decide) (location_noBlank l hl rest)
    (hrest.head_any (by decide)) (hrest.startsWithWord rfl (by decide))

theorem reads_union (hi : inner.ReadsBack depth size) : ∀ (l : Location), l.WellFormed →
    l.nodes ≤ size + 1 → ∀ rest, StartsIn [')'] rest →
    Reads (union inner) depth (l.written ++ rest) l rest
  | .path p, hl, hn, _, hrest => reads_union_one hi hl (Nat.zero_le 2) hn hrest
  | .intersect l m, hl, hn, _, hrest => reads_union_one hi hl (Nat.le_succ 1) hn hrest
  | .except l m, hl, hn, _, hrest => reads_union_one hi hl (Nat.le_refl 2) hn hrest
  | .union l m, hl, hn, rest, hrest => by
    obtain ⟨hleft, hl, hm⟩ := hl
    simp only [Location.nodes] at hn
    have htext : (Location.union l m).written ++ rest =
        l.written ++ ("union".toList ++ ' ' :: (m.written ++ rest)) := by
      simp [Location.written]
    have hword : StartsIn ['u'] ("union".toList ++ ' ' :: (m.written ++ rest)) :=
      startsIn_cons (List.mem_singleton_self 'u') _
    have hfirst := reads_exception hi l hl hleft (by omega) _ (hword.mono (by decide))
    have hagain := reads_union hi m hm (by omega) rest hrest
    rw [htext]
    exact hfirst.chain_more (discipline_grown.follows_exception hi.follows) (by decide)
      (location_noBlank l hl _) rfl rfl hagain.chain_blank

end

theorem Predicate.nodes_pos (p : Predicate) : 0 < p.nodes := by
  match p with
  | .any => simp [Predicate.nodes]
  | .not q => simp [Predicate.nodes]
  | .and q r => simp [Predicate.nodes]
  | .or q r => simp [Predicate.nodes]
  | .comparison left r m none => simp [Predicate.nodes]
  | .comparison left r m (some right) => simp [Predicate.nodes]

theorem Location.nodes_pos (l : Location) : 0 < l.nodes := by
  match l with
  | .path ⟨absolute, steps⟩ => simp [Location.nodes, Path.nodes]
  | .union l m => simp [Location.nodes]
  | .except l m => simp [Location.nodes]
  | .intersect l m => simp [Location.nodes]

/-- With `levels` left all is read back that has at most half as many nodes. A predicate takes one
level, and an argument two, the second of which its location enters. -/
theorem reads_levels (limit levels : Nat) : ∀ depth, depth + levels = limit →
    (∀ (l : Location) (rest : List Char), l.WellFormed → 2 * l.nodes ≤ levels + 1 →
      StartsIn [')'] rest → Reads (location limit levels) depth (l.written ++ rest) l rest) ∧
    ∀ size, 2 * size ≤ levels → (innerAt limit levels).ReadsBack depth size := by
  induction levels with
  | zero =>
    intro depth _
    refine ⟨?_, ?_⟩
    · intro l rest _ hn _
      have hpos := Location.nodes_pos l
      omega
    · -- Every predicate and every location has a node, so nothing is to be read back here.
      intro size hsize
      refine ⟨discipline_grown.follows_innerAt limit 0, ?_, ?_⟩
      · intro p rest _ hn
        have hpos := Predicate.nodes_pos p
        omega
      · intro l rest _ hn
        have hpos := Location.nodes_pos l
        omega
  | succ levels ih =>
    intro depth hdepth
    obtain ⟨hlocation, hinner⟩ := ih (depth + 1) (by omega)
    have hlimit : depth < limit := by omega
    refine ⟨?_, ?_⟩
    · intro l rest hl hn hrest
      have hpos := Location.nodes_pos l
      have hi := hinner (l.nodes - 1) (by omega)
      have hunion := reads_union hi l hl (by omega) rest hrest
      rw [location_succ]
      exact ((reads_noBlanks (location_noBlank l hl rest)).bind hunion).nested hlimit
    · intro size hsize
      refine ⟨discipline_grown.follows_innerAt limit (levels + 1), ?_, ?_⟩
      · intro p rest hp hn
        have hpos := Predicate.nodes_pos p
        have hi := hinner (p.nodes - 1) (by omega)
        rw [innerAt_succ]
        exact (reads_writtenPredicate hi hp (by omega) rest).nested hlimit
      · intro l rest hl hn
        rw [innerAt_succ]
        exact (hlocation l _ hl (by omega) (startsIn_close rest)).nested hlimit

theorem reads_expectEnd {depth : Nat} : Reads expectEnd depth [] () [] := by
  have hend : Reads atEnd depth [] true [] := reads_remaining.bind (.pure true)
  exact (reads_noBlanks rfl).bind (hend.bind (.pure ()))

theorem reads_wholeCall {limit : Nat} {f : Function} (hf : f.WellFormed)
    (hn : 2 * f.nodes ≤ limit + 2) : Reads (wholeCall limit) 0 f.written f [] := by
  obtain ⟨-, hinner⟩ := reads_levels limit limit 0 (Nat.zero_add limit)
  have hpos : 0 < f.nodes := by
    cases f
    simp [Function.nodes]
  have hcall := reads_function (hinner (f.nodes - 1) (by omega)) hf (by omega) []
  have hblank := no_blank (written_starts (v := .call f) hf [])
  rw [List.append_nil] at hcall hblank
  exact (reads_noBlanks hblank).bind (hcall.bind (reads_expectEnd.bind (.pure f)))

/-- What a step starts with is one identifier up to the blank, or starts none. -/
theorem stepWord (a : Axis) (type : RowType) :
    IsIdentifier (a.spelling.toList ++ type.written) ∨
      (a.spelling.toList ++ type.written).head?.any isStart = false := by
  cases a <;> cases type <;> decide

/-- A location is no function, since no parenthesis follows its first word at once. -/
theorem refuses_function_step {inner : Inner} {depth : Nat} (st : Step) (rest : List Char) :
    Refuses (function inner) depth (st.written ++ rest) := by
  obtain ⟨a, type, p, slice⟩ := st
  have htext : (Step.mk a type p slice).written ++ rest = (a.spelling.toList ++ type.written) ++
      ' ' :: '(' :: (p.written ++ ')' :: (sliceText slice ++ rest)) := by
    simp [Step.written]
  rw [htext]
  obtain hword | hword := stepWord a type
  · have hname : Reads identifier depth _ (a.spelling.toList ++ type.written)
        (' ' :: '(' :: (p.written ++ ')' :: (sliceText slice ++ rest))) :=
      reads_identifier hword rfl
    exact .bind_next hname.record (.bind_first (refuses_expect rfl))
  · cases hopening : a.spelling.toList ++ type.written with
    | nil => exact refuses_function rfl
    | cons c text =>
      rw [hopening] at hword
      exact refuses_function hword

theorem refuses_wholeCall {limit : Nat} {l : Location} (hl : l.WellFormed) :
    Refuses (wholeCall limit) 0 l.written := by
  have hblank := location_noBlank l hl []
  rw [List.append_nil] at hblank
  refine .bind_next (reads_noBlanks hblank) (.bind_first ?_)
  obtain ⟨⟨absolute, steps⟩, text, ⟨hsome, -, -⟩, htext⟩ := written_firstPath l hl
  rw [htext]
  cases steps with
  | nil => exact absurd rfl hsome
  | cons st steps =>
    cases absolute with
    | true => exact refuses_function rfl
    | false =>
      have hfirst : (Path.mk false (st :: steps)).written ++ text =
          st.written ++ (stepsText steps ++ text) := by
        simp [Path.written, stepsText]
      rw [hfirst]
      exact refuses_function_step st _

theorem reads_wholeLocation {limit : Nat} {l : Location} (hl : l.WellFormed)
    (hn : 2 * l.nodes ≤ limit + 1) : Reads (wholeLocation limit) 0 l.written l [] := by
  obtain ⟨hlocation, -⟩ := reads_levels limit limit 0 (Nat.zero_add limit)
  have hread := hlocation l [] hl hn (startsIn_nil _)
  have hblank := location_noBlank l hl []
  rw [List.append_nil] at hread hblank
  exact (reads_noBlanks hblank).bind hread

theorem reads_expression {limit : Nat} {e : Expression} (he : e.WellFormed)
    (hn : 2 * e.nodes ≤ limit + 1) : Reads (expression limit) 0 e.written e [] := by
  cases e with
  | function f =>
    have hcall : Reads (wholeCall limit) 0 f.written f [] :=
      reads_wholeCall he (Nat.le_succ_of_le hn)
    exact hcall.attempt.bind (.pure (Expression.function f))
  | location l =>
    have hno : Reads (attempt (wholeCall limit)) 0 l.written none l.written :=
      (refuses_wholeCall he).attempt (discipline_grown.follows_wholeCall limit)
    have hlocation : Reads (wholeLocation limit) 0 l.written l [] := reads_wholeLocation he hn
    exact hno.bind (hlocation.attempt.bind (reads_expectEnd.bind (.pure (Expression.location l))))

end OutlineQuery.Grammar

namespace OutlineQuery
open Grammar

/-- An expression that is well-formed is read back from what is written for it, under every limit
that allows two levels of nesting for each of its nodes. -/
theorem parse_written (e : Expression) (he : e.WellFormed) (limit : Nat)
    (hlimit : 2 * e.nodes + 2 ≤ limit) :
    (parse limit (String.ofList e.written)).result = .ok e := by
  have hread : Reads (expression limit) 0 e.written e [] := reads_expression he (by omega)
  have hstart : (State.start e.written).At 0 e.written := ⟨rfl, rfl⟩
  obtain ⟨t, hrun, -⟩ := hread _ hstart
  rw [parse, String.toList_ofList, hrun]

def refusals : Predicate :=
  .not (.comparison (.attribute "done") (some .equal) .caseSensitive (some (.literal "say \"no\"")))

def countRefusals : Expression :=
  .function ⟨"count", .path ⟨true, [⟨.child, .heading, refusals, some (.index 2)⟩]⟩⟩

theorem countRefusals_read : countRefusals.WellFormed ∧
    String.ofList countRefusals.written =
      "count(/child::heading (not(@done =[s]\"say \\\"no\\\"\"))[2])" ∧
    (parse 32 (String.ofList countRefusals.written)).result = .ok countRefusals := by
  have hrefusals : refusals.WellFormed := by
    simp only [refusals, Predicate.WellFormed, Value.WellFormed]
    exact ⟨id, by decide, by decide⟩
  have hslice : ∀ s ∈ some (Slice.index 2), s.WellFormed := by
    rintro s ⟨⟩
    exact .inl ⟨2, rfl⟩
  have hwell : countRefusals.WellFormed := by
    simp only [countRefusals, Expression.WellFormed, Function.WellFormed, Location.WellFormed,
      Path.WellFormed, stepsWellFormed, Step.WellFormed]
    refine ⟨by decide, by decide, List.cons_ne_nil _ _, ?_, ⟨hrefusals, hslice⟩, trivial⟩
    intro h
    cases h
  exact ⟨hwell, by decide, parse_written countRefusals hwell 32 (by decide)⟩

end OutlineQuery
