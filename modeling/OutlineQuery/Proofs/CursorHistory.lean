import Mathlib.Data.List.Induction
import OutlineQuery.Proofs.FailureReports

/-! A cursor that goes forward and comes back to where it has been, as often as it likes. Its three
counters always describe one place of the text, and what it shows is the text around that place. -/

namespace OutlineQuery
open Text

/-- One thing done with a cursor. To look ahead leaves it where it is; a visit is numbered from the
last one back. -/
inductive Operation where
  | peek
  | startsWith (text : List Char)
  | next
  | skip (n : Nat)
  | seek (visit : Nat)

structure History where
  cursor : Cursor
  visits : List Position

namespace History

def start (text : List Char) : History := ⟨.ofText text, [.start]⟩

def goTo (h : History) (k : Cursor) : History := ⟨k, k.position :: h.visits⟩

def perform (h : History) : Operation → History
  | .peek | .startsWith _ => h
  | .next => h.goTo (h.cursor.advance 1)
  | .skip n => h.goTo (h.cursor.advance n)
  | .seek visit =>
    match h.visits[visit]? with
    | some p => h.goTo (h.cursor.seek p)
    | none => h

def run (text : List Char) (operations : List Operation) : History :=
  operations.foldl perform (start text)

end History

theorem Position.offset_start_past (before : List Char) :
    (start.past before).offset = byteSize before :=
  (offset_past start before).trans (Nat.zero_add _)

namespace Cursor
variable {k : Cursor} {before behind passed : List Char}

theorem seek_back (hk : k.Coherent) (hseen : k.seen.reverse = before ++ passed) :
    k.seek (.past .start before) = ⟨before.reverse, passed ++ k.rest, .past .start before⟩ := by
  have hreverse : k.seen = passed.reverse ++ before.reverse := by
    rw [← List.reverse_append, ← hseen, List.reverse_reverse]
  have hoffset : k.offset = byteSize before + byteSize passed.reverse := by
    rw [hk.offset_eq, hseen, byteSize_append, byteSize_reverse]
  have hback : k.offset - byteSize before = byteSize passed.reverse := by
    rw [hoffset, Nat.add_sub_cancel_left]
  have hle : byteSize before ≤ k.offset := by
    rw [hoffset]
    exact Nat.le_add_right _ _
  rw [seek, Position.offset_start_past, if_pos hle, hback, hreverse]
  simp only [rewind_append, List.reverse_reverse]

theorem seek_ahead (hk : k.Coherent) (hrest : k.rest = passed ++ behind) (hne : passed ≠ []) :
    k.seek (.past .start (k.seen.reverse ++ passed)) =
      ⟨passed.reverse ++ k.seen, behind, .past .start (k.seen.reverse ++ passed)⟩ := by
  have hpos := byteSize_pos hne
  have hoffset : byteSize (k.seen.reverse ++ passed) = k.offset + byteSize passed := by
    rw [byteSize_append, hk.offset_eq]
  have hahead : byteSize (k.seen.reverse ++ passed) - k.offset = byteSize passed := by
    rw [hoffset, Nat.add_sub_cancel_left]
  have hlt : ¬byteSize (k.seen.reverse ++ passed) ≤ k.offset := by
    rw [hoffset]
    omega
  rw [seek, Position.offset_start_past, if_neg hlt, hahead, hrest]
  simp only [takeBytes_append, dropBytes_append]

/-- A cursor finds every place of its text, before it or behind it. -/
theorem seek_past (hk : k.Coherent) (hsource : k.source = before ++ behind) :
    k.seek (.past .start before) = ⟨before.reverse, behind, .past .start before⟩ := by
  obtain ⟨passed, rfl, hrest⟩ | ⟨passed, hseen, rfl⟩ := List.append_eq_append_iff.mp hsource
  · cases passed with
    | nil =>
      rw [List.append_nil, seek_back hk (List.append_nil _).symm, hrest]
      rfl
    | cons c passed =>
      rw [seek_ahead hk hrest (List.cons_ne_nil c passed), List.reverse_append,
        List.reverse_reverse]
  · exact seek_back hk hseen

end Cursor

def Position.IsIn (p : Position) (text : List Char) : Prop :=
  ∃ before behind, text = before ++ behind ∧ p = .past .start before

namespace History

structure IsOver (h : History) (text : List Char) : Prop where
  source : h.cursor.source = text
  coherent : h.cursor.Coherent
  visits {p : Position} : p ∈ h.visits → p.IsIn text

variable {h : History} {text : List Char}

theorem isOver_start (text : List Char) : (start text).IsOver text where
  source := rfl
  coherent := Cursor.coherent_ofText text
  visits hp := by
    rw [List.mem_singleton.mp hp]
    exact ⟨[], text, rfl, rfl⟩

theorem IsOver.goTo (hh : h.IsOver text) {k : Cursor} (hsource : k.source = text)
    (hk : k.Coherent) : (h.goTo k).IsOver text where
  source := hsource
  coherent := hk
  visits hp := by
    obtain rfl | hp := List.mem_cons.mp hp
    · exact ⟨_, _, hsource.symm, hk⟩
    · exact hh.visits hp

theorem IsOver.perform (hh : h.IsOver text) (operation : Operation) :
    (h.perform operation).IsOver text := by
  have hadvance (n : Nat) : (h.goTo (h.cursor.advance n)).IsOver text :=
    hh.goTo ((Cursor.source_advance n _).trans hh.source) (hh.coherent.advance n)
  cases operation with
  | peek => exact hh
  | startsWith _ => exact hh
  | next => exact hadvance 1
  | skip n => exact hadvance n
  | seek visit =>
    rw [History.perform]
    cases hvisit : h.visits[visit]? with
    | none => exact hh
    | some p =>
      obtain ⟨before, behind, hsplit, rfl⟩ := hh.visits (List.mem_of_getElem? hvisit)
      have hseek := Cursor.seek_past hh.coherent (hh.source.trans hsplit)
      refine hh.goTo ?_ ?_
      · rw [hseek, Cursor.source, List.reverse_reverse, hsplit]
      · rw [hseek, Cursor.Coherent, List.reverse_reverse]

theorem isOver_run (text : List Char) (operations : List Operation) :
    (run text operations).IsOver text := by
  induction operations using List.reverseRecOn with
  | nil => exact isOver_start text
  | append_singleton operations operation ih =>
    rw [run, List.foldl_append]
    exact ih.perform operation

end History

/-- A text has one first part of each size. -/
theorem Text.eq_of_byteSize {before behind before' behind' : List Char}
    (h : before ++ behind = before' ++ behind') (hsize : byteSize before = byteSize before') :
    before = before' := by
  calc before = takeBytes (byteSize before) (before ++ behind) := (takeBytes_append _ _).symm
    _ = takeBytes (byteSize before') (before' ++ behind') := by rw [h, hsize]
    _ = before' := takeBytes_append _ _

/-- The positions in one text are in the order of their offsets. -/
theorem Position.IsIn.order_eq {p q : Position} {text : List Char} (hp : p.IsIn text)
    (hq : q.IsIn text) : p.order q = compare p.offset q.offset := by
  obtain ⟨before, behind, rfl, rfl⟩ := hp
  obtain ⟨before', behind', hsplit, rfl⟩ := hq
  rw [order]
  cases h : compare (start.past before).offset (start.past before').offset with
  | lt => rfl
  | gt => rfl
  | eq =>
    have hoffset := Nat.compare_eq_eq.mp h
    rw [offset_start_past, offset_start_past] at hoffset
    obtain rfl := eq_of_byteSize hsplit hoffset
    simp

structure Cursor.StandsBetween (k : Cursor) (text before behind : List Char) : Prop where
  split : text = before ++ behind
  position : k.position.Behind before
  rest : k.rest = behind
  atEnd_iff : k.atEnd = true ↔ k.offset = byteSize text
  peek?_iff : k.peek? = none ↔ k.offset = byteSize text
  line : LineAround before behind k.lineText

theorem Cursor.Coherent.standsBetween {k : Cursor} (h : k.Coherent) :
    k.StandsBetween k.source k.seen.reverse k.rest := by
  have hend : k.rest = [] ↔ k.offset = byteSize k.source := by
    rw [h.offset_eq, source, byteSize_append]
    constructor
    · intro hnil
      rw [hnil]
      rfl
    · intro hsize
      by_contra hne
      have hpos := byteSize_pos hne
      omega
  exact ⟨rfl, h.behind, rfl, List.isEmpty_iff.trans hend, List.head?_eq_none_iff.trans hend,
    k.lineAround_lineText⟩

/-- Whatever has been done with a cursor, it stands at one place of the text, and the positions
where it has been are in the order of their offsets. -/
theorem cursor_stands_in_text (text : List Char) (operations : List Operation) :
    (∃ before behind, (History.run text operations).cursor.StandsBetween text before behind) ∧
    ∀ p ∈ (History.run text operations).visits, ∀ q ∈ (History.run text operations).visits,
      p.order q = compare p.offset q.offset := by
  have hover := History.isOver_run text operations
  have hstands := hover.coherent.standsBetween
  rw [hover.source] at hstands
  exact ⟨⟨_, _, hstands⟩, fun p hp q hq => (hover.visits hp).order_eq (hover.visits hq)⟩

/-- Back from the end to the place behind the first character, and on over the line feed. -/
example : (History.run "é\nb".toList [.next, .skip 2, .seek 1, .next]).cursor =
    ⟨['\n', 'é'], ['b'], ⟨3, 2, 0⟩⟩ := by decide

end OutlineQuery
