import OutlineQuery.Cursor

/-! A cursor that goes forward can come back exactly, and its position is always the one behind
the characters that it has passed. -/

namespace OutlineQuery
open Text

def Position.past (p : Position) (text : List Char) : Position := text.foldl Position.after p

theorem Position.past_append (p : Position) (left right : List Char) :
    p.past (left ++ right) = (p.past left).past right := by
  simp [past, List.foldl_append]

theorem Position.offset_past (p : Position) (text : List Char) :
    (p.past text).offset = p.offset + byteSize text := by
  induction text generalizing p with
  | nil => simp [past, byteSize]
  | cons c text ih =>
    have hc : (p.after c).offset = p.offset + c.utf8Size := by
      unfold after
      split <;> rfl
    have h := ih (p.after c)
    rw [hc] at h
    simpa [past, byteSize, Nat.add_assoc] using h

theorem Text.byteSize_reverse (text : List Char) : byteSize text.reverse = byteSize text := by
  induction text with
  | nil => rfl
  | cons c text ih =>
    simp only [List.reverse_cons, byteSize_append, ih, byteSize]
    omega

theorem Text.byteSize_pos {text : List Char} (h : text ≠ []) : 0 < byteSize text := by
  cases text with
  | nil => exact absurd rfl h
  | cons c text =>
    have := c.utf8Size_pos
    simp only [byteSize]
    omega

namespace Cursor

theorem advance_eq (n : Nat) (k : Cursor) : advance n k =
    ⟨(k.rest.take n).reverse ++ k.seen, k.rest.drop n, k.position.past (k.rest.take n)⟩ := by
  induction n generalizing k with
  | zero => simp [advance, Position.past]
  | succ n ih =>
    obtain ⟨seen, _ | ⟨c, rest⟩, p⟩ := k
    · simp [advance, Position.past]
    · rw [advance, ih]
      simp [Position.past]

theorem offset_advance (n : Nat) (k : Cursor) :
    (advance n k).offset = k.offset + byteSize (k.rest.take n) := by
  rw [advance_eq]
  exact Position.offset_past _ _

theorem offset_le_advance (n : Nat) (k : Cursor) : k.offset ≤ (advance n k).offset := by
  rw [offset_advance]
  exact Nat.le_add_right _ _

/-- Characters that are there to be passed move the offset. -/
theorem offset_lt_advance {n : Nat} {k : Cursor} (hn : 0 < n) (hk : k.rest ≠ []) :
    k.offset < (advance n k).offset := by
  have h : 0 < byteSize (k.rest.take n) := byteSize_pos (by simp [hk]; omega)
  rw [offset_advance]
  omega

theorem advance_advance (m n : Nat) (k : Cursor) :
    advance m (advance n k) = advance (n + m) k := by
  have h : k.rest.take (n + m) = k.rest.take n ++ (k.rest.drop n).take m := List.take_add
  simp only [advance_eq, h, Position.past_append, List.reverse_append, List.append_assoc,
    List.drop_drop]

theorem rewind_append (passed seen rest : List Char) :
    rewind (byteSize passed) (passed ++ seen) rest = (seen, passed.reverse ++ rest) := by
  induction passed generalizing rest with
  | nil => cases seen <;> simp [byteSize, rewind]
  | cons c passed ih =>
    have hc := c.utf8Size_pos
    have hn : byteSize (c :: passed) ≠ 0 := by simp only [byteSize]; omega
    have hs : byteSize (c :: passed) - c.utf8Size = byteSize passed := by
      simp only [byteSize]; omega
    rw [List.cons_append, rewind, if_neg hn, hs, ih]
    simp

/-- Going back undoes going forward. -/
theorem seek_advance (n : Nat) (k : Cursor) : (advance n k).seek k.position = k := by
  have hle : k.position.offset ≤ (advance n k).offset := offset_le_advance n k
  have hd : (advance n k).offset - k.position.offset = byteSize (k.rest.take n).reverse := by
    rw [offset_advance, byteSize_reverse]
    exact Nat.add_sub_cancel_left _ _
  rw [seek, if_pos hle, hd, advance_eq]
  simp only [rewind_append, List.reverse_reverse, List.take_append_drop]

/-- The text between a cursor and where it goes is the text that it passes. -/
theorem since_advance (n : Nat) (k : Cursor) : k.since (advance n k) = k.rest.take n := by
  have hd : (advance n k).offset - k.offset = byteSize (k.rest.take n) := by
    rw [offset_advance]
    exact Nat.add_sub_cancel_left _ _
  have h := takeBytes_append (k.rest.take n) (k.rest.drop n)
  rw [List.take_append_drop] at h
  rw [since, hd, h]

def Coherent (k : Cursor) : Prop := k.position = Position.start.past k.seen.reverse

theorem coherent_ofText (text : List Char) : (ofText text).Coherent := rfl

theorem Coherent.advance {k : Cursor} (h : k.Coherent) (n : Nat) :
    (Cursor.advance n k).Coherent := by
  rw [advance_eq, Coherent, h]
  simp [Position.past_append]

theorem Coherent.offset_eq {k : Cursor} (h : k.Coherent) : k.offset = byteSize k.seen.reverse := by
  have h' := congrArg Position.offset h
  rw [Position.offset_past] at h'
  simpa [Position.start, offset] using h'

end Cursor
end OutlineQuery
