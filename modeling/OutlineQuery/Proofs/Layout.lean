import OutlineQuery.Parse
import OutlineQuery.Proofs.Productions

/-! How the tokens of a reading lie in the text: each is a piece of it, ends never go back, and of
two tokens the later one lies behind the other or is a comparison around it. -/

namespace OutlineQuery
open Text Grammar Production

theorem Text.utf8ByteSize_ofList (text : List Char) :
    (String.ofList text).utf8ByteSize = byteSize text := by
  induction text with
  | nil => rfl
  | cons c text ih =>
    have h : String.ofList (c :: text) = String.singleton c ++ String.ofList text := by
      rw [String.singleton_eq_ofList, ← String.ofList_append, List.singleton_append]
    rw [h, String.utf8ByteSize_append, ih, String.utf8ByteSize_singleton, byteSize]

theorem Text.utf8ByteSize_eq (text : String) : text.utf8ByteSize = byteSize text.toList := by
  rw [← utf8ByteSize_ofList, String.ofList_toList]

namespace Token

def IsSliceOf (t : Token) (source : String) : Prop :=
  ∃ before after : String, source = before ++ t.text ++ after ∧
    t.start = before.utf8ByteSize ∧ t.stop = (before ++ t.text).utf8ByteSize

def Precedes (a b : Token) : Prop :=
  a.stop ≤ b.stop ∧ (a.stop ≤ b.start ∨ b.kind = .comparison ∧ b.start ≤ a.start)

end Token

structure LaidOut (source : List Char) (lo hi : Nat) (tokens : List Token) : Prop where
  slices : ∀ t ∈ tokens, t.IsSliceOf (String.ofList source)
  bounds : ∀ t ∈ tokens, lo ≤ t.start ∧ t.start < t.stop ∧ t.stop ≤ hi
  order : tokens.Pairwise Token.Precedes

namespace LaidOut
variable {source : List Char} {lo mid hi : Nat} {left right : List Token}

theorem nil : LaidOut source lo hi [] := ⟨by simp, by simp, List.Pairwise.nil⟩

/-- What is read first lies before what is read next. -/
theorem append (hl : LaidOut source lo mid left) (hr : LaidOut source mid hi right)
    (hlo : lo ≤ mid) (hhi : mid ≤ hi) : LaidOut source lo hi (left ++ right) := by
  refine ⟨?_, ?_, ?_⟩
  · intro t ht
    rcases List.mem_append.mp ht with h | h
    · exact hl.slices t h
    · exact hr.slices t h
  · intro t ht
    rcases List.mem_append.mp ht with h | h
    · have := hl.bounds t h
      omega
    · have := hr.bounds t h
      omega
  · refine List.pairwise_append.mpr ⟨hl.order, hr.order, ?_⟩
    intro a ha b hb
    have hab := hl.bounds a ha
    have hbb := hr.bounds b hb
    exact ⟨by omega, .inl (by omega)⟩

/-- A comparison token goes around all that was recorded since it began. -/
theorem enclose (h : LaidOut source lo hi left) {t : Token}
    (hs : t.IsSliceOf (String.ofList source))
    (hk : t.kind = .comparison) (hlo : t.start = lo) (hhi : t.stop = hi) (hlt : lo < hi) :
    LaidOut source lo hi (left ++ [t]) := by
  refine ⟨?_, ?_, ?_⟩
  · intro a ha
    rcases List.mem_append.mp ha with ha | ha
    · exact h.slices a ha
    · rw [List.mem_singleton.mp ha]
      exact hs
  · intro a ha
    rcases List.mem_append.mp ha with ha | ha
    · exact h.bounds a ha
    · rw [List.mem_singleton.mp ha]
      omega
  · refine List.pairwise_append.mpr ⟨h.order, List.pairwise_singleton _ _, ?_⟩
    intro a ha b hb
    rw [List.mem_singleton.mp hb]
    have hab := h.bounds a ha
    exact ⟨by omega, .inr ⟨hk, by omega⟩⟩

end LaidOut

/-- The token for what a coherent cursor passes. -/
theorem Cursor.Coherent.isSliceOf {k : Cursor} (h : k.Coherent) (kind : TokenKind) (n : Nat) :
    Token.IsSliceOf ⟨kind, k.offset, (k.advance n).offset,
      String.ofList (k.since (k.advance n))⟩ (String.ofList k.source) := by
  refine ⟨String.ofList k.seen.reverse, String.ofList (k.rest.drop n), ?_, ?_, ?_⟩
  · rw [since_advance, ← String.ofList_append, ← String.ofList_append, List.append_assoc,
      List.take_append_drop]
    rfl
  · rw [utf8ByteSize_ofList]
    exact h.offset_eq
  · rw [since_advance, ← String.ofList_append, utf8ByteSize_ofList, byteSize_append,
      ← h.offset_eq]
    exact offset_advance n k

def Records (s t : State) : Prop :=
  ∃ new, t.tokens.toList = s.tokens.toList ++ new ∧
    LaidOut s.cursor.source s.cursor.offset t.cursor.offset new

theorem discipline_records :
    Discipline fun s t => Grown s t ∧ (s.cursor.Coherent → Records s t) where
  refl s := ⟨.refl s, fun _ => ⟨[], by simp, .nil⟩⟩
  trans {s t u} h h' := by
    refine ⟨h.1.trans h'.1, fun hs => ?_⟩
    obtain ⟨n, hn⟩ := h.1.cursor
    have ht : t.cursor.Coherent := by
      rw [hn]
      exact hs.advance n
    obtain ⟨left, htokens, hleft⟩ := h.2 hs
    obtain ⟨right, hutokens, hright⟩ := h'.2 ht
    have hsource : t.cursor.source = s.cursor.source := by
      rw [hn]
      exact Cursor.source_advance n s.cursor
    rw [hsource] at hright
    refine ⟨left ++ right, by rw [hutokens, htokens, List.append_assoc], ?_⟩
    exact hleft.append hright h.1.offset_le h'.1.offset_le
  grown h := h.1
  deeper h := ⟨h.1.deeper, h.2⟩
  pass s n := ⟨.pass s n, fun _ => ⟨[], (List.append_nil _).symm, .nil⟩⟩
  lexeme {s n kind} _ hlt := by
    refine ⟨(Grown.pass s n).emit kind s.cursor, fun hs => ?_⟩
    refine ⟨[_], TokenLog.toList_push _ _, ?_⟩
    refine ⟨?_, ?_, List.pairwise_singleton _ _⟩
    · intro t ht
      rw [List.mem_singleton.mp ht]
      exact hs.isSliceOf kind n
    · intro t ht
      rw [List.mem_singleton.mp ht]
      exact ⟨Nat.le_refl _, hlt, Nat.le_refl _⟩
  enclosing {s t} h hlt := by
    refine ⟨h.1.emit .comparison s.cursor, fun hs => ?_⟩
    obtain ⟨new, htokens, hnew⟩ := h.2 hs
    obtain ⟨n, hn⟩ := h.1.cursor
    have hslice := hs.isSliceOf .comparison n
    rw [← hn] at hslice
    refine ⟨new ++ [⟨.comparison, s.cursor.offset, t.cursor.offset,
      String.ofList (s.cursor.since t.cursor)⟩], ?_, ?_⟩
    · rw [State.emit, TokenLog.toList_push, htokens, List.append_assoc]
    · exact hnew.enclose hslice rfl rfl rfl hlt

/-- Whether or not a query can be read, each of its tokens is a piece of its text and is not empty,
tokens end in the order in which they are recorded, and two of them overlap only where the later
one is a comparison that the other is a part of. -/
theorem tokens_nested_or_disjoint (limit : Nat) (text : String) :
    (∀ t ∈ (parse limit text).tokens,
      t.start < t.stop ∧ t.stop ≤ text.utf8ByteSize ∧ t.IsSliceOf text) ∧
    (parse limit text).tokens.Pairwise fun a b =>
      a.stop ≤ b.stop ∧
        (a.stop ≤ b.start ∨ b.kind = .comparison ∧ b.start ≤ a.start ∧ a.stop ≤ b.stop) := by
  have hfinish : (parse limit text).tokens =
      ((expression limit).finish (.start text.toList)).tokens.toList := by
    rw [parse, finish]
    cases expression limit (.start text.toList) <;> rfl
  have hrun := discipline_records.follows_expression limit (.start text.toList)
  obtain ⟨new, htokens, hnew⟩ := hrun.2 (Cursor.coherent_ofText text.toList)
  have hsource : String.ofList (State.start text.toList).cursor.source = text :=
    String.ofList_toList
  rw [hfinish, htokens]
  refine ⟨?_, ?_⟩
  · intro t ht
    have hslice := hnew.slices t ht
    rw [hsource] at hslice
    refine ⟨(hnew.bounds t ht).2.1, ?_, hslice⟩
    obtain ⟨before, after, htext, -, hstop⟩ := hslice
    rw [htext, String.utf8ByteSize_append, hstop]
    exact Nat.le_add_right _ _
  · refine hnew.order.imp ?_
    rintro a b ⟨hstop, hbehind | ⟨hk, hstart⟩⟩
    · exact ⟨hstop, .inl hbehind⟩
    · exact ⟨hstop, .inr ⟨hk, hstart, hstop⟩⟩

/-- In `f(a)=b` the comparison is around the tokens of the call and the relation. -/
theorem comparison_around_call :
    (⟨.comparison, 0, 6, "f(a)=b"⟩ : Token) ∈ (parse 32 "f(a)=b").tokens ∧
      Token.IsSliceOf ⟨.comparison, 0, 6, "f(a)=b"⟩ "f(a)=b" := by
  have h : (⟨.comparison, 0, 6, "f(a)=b"⟩ : Token) ∈ (parse 32 "f(a)=b").tokens := by
    decide +kernel
  exact ⟨h, ((tokens_nested_or_disjoint 32 "f(a)=b").1 _ h).2.2⟩

end OutlineQuery
