import OutlineQuery.Proofs.LoneStrings

/-! Words alone. A word is tried as an axis, a type, a call, `not` and a relation before it is a
string. Each of these asks for all of an identifier or for a character that no identifier starts
with, the named axes apart, so only the reserved words and what starts with an axis are no searches
for themselves. -/

namespace OutlineQuery
open Grammar Production Text

namespace Text

/-- A word that an identifier starts with is all of it. -/
theorem eq_of_startsWithWord {word : String} {name : List Char}
    (hname : ∀ c ∈ name, isRest c = true) (h : startsWithWord word name = true) :
    name = word.toList := by
  rw [startsWithWord, Bool.and_eq_true, List.isPrefixOf_iff_prefix] at h
  obtain ⟨⟨more, rfl⟩, hend⟩ := h
  cases more with
  | nil => rw [List.append_nil]
  | cons c more =>
    have hc : isRest c = true := hname c (by simp)
    rw [drop_text] at hend
    simp [hc] at hend

theorem trim_of_noBlank {text : List Char} (h : ∀ c ∈ text, isBlank c = false) :
    trim text = text := by
  have hfront : text.dropWhile isBlank = text :=
    dropWhile_blank (by cases text with | nil => rfl | cons c text => exact h c (by simp))
  have hback : text.reverse.dropWhile isBlank = text.reverse := by
    refine dropWhile_blank ?_
    cases hreverse : text.reverse with
    | nil => rfl
    | cons c more => exact h c (List.mem_reverse.mp (hreverse ▸ List.mem_cons_self))
  rw [trim, hfront, hback, List.reverse_reverse]

/-- No reserved word starts with another one. -/
theorem reservedWords_apart : ∀ word ∈ reservedWords, ∀ other ∈ reservedWords,
    word.toList <+: other.toList → word = other := by
  decide

end Text

theorem not_isSymbol_of_isStart {c : Char} (h : isStart c = true) : isSymbol c = false := by
  have hall : symbols.all (!isStart ·) = true := by decide +kernel
  refine Bool.eq_false_iff.mpr fun hmem => ?_
  have hno : isStart c = false := by
    simpa using List.all_eq_true.mp hall c (List.contains_iff_mem.mp hmem)
  cases hno.symm.trans h

namespace Grammar

section
variable {name : List Char} (hname : IsIdentifier name)
include hname

/-- No identifier starts with a character that starts none. -/
theorem head_ne_of_not_isStart {c : Char} (hc : isStart c = false) : name.head? ≠ some c := by
  cases name with
  | nil => nofun
  | cons d more =>
    rintro ⟨⟩
    cases hc.symm.trans hname.1

/-- An identifier where nothing reserved stands is read to its end. -/
theorem string_identifier (hreserved : startsReserved name = false) {s : State}
    (hs : s.cursor.rest = name) :
    string s = .ok name (s.behind (some .unquotedString) name.length) := by
  have hread : readSymbol name = some (name, name.length) := by
    cases name with
    | nil => cases hname
    | cons c more =>
      have hmore : more.takeWhile isRest = more := List.takeWhile_eq_self_iff.mpr hname.2
      have hsymbol : ¬isSymbol c = true := by simp [not_isSymbol_of_isStart hname.1]
      rw [readSymbol, if_neg hsymbol, readName, if_pos hname.1, hmore]
      rfl
  have hquote : ['"'].isPrefixOf s.cursor.rest = false := by
    rw [hs]
    exact isPrefixOf_cons_false (head_ne_of_not_isStart hname rfl) []
  have hunquoted : unquoted s = .ok name (s.pass name.length) := by
    rw [unquoted, remaining_bind_run, hs, hreserved]
    exact isLexeme_symbolOrIdentifier.found (hs ▸ hread)
  rw [string, remaining_bind_run, hquote]
  exact record_of_ok hunquoted

section
variable (hword : ∀ word ∈ reservedWords, name ≠ word.toList)
include hword

theorem startsWithWord_reserved : ∀ word ∈ reservedWords, startsWithWord word name = false :=
  fun word hmem => Bool.eq_false_iff.mpr fun h =>
    hword word hmem (eq_of_startsWithWord (IsIdentifier.all_isRest hname) h)

theorem startsReserved_identifier : startsReserved name = false := by
  have hoperators : ∀ word ∈ reservedOperators, word.toList.isPrefixOf name = false := by
    simp only [reservedOperators, List.mem_cons, List.not_mem_nil, or_false]
    rintro word (rfl | rfl | rfl | rfl | rfl | rfl) <;>
      exact isPrefixOf_cons_false (head_ne_of_not_isStart hname rfl) _
  rw [startsReserved, List.any_eq_false.mpr, List.any_eq_false.mpr]
  · rfl
  · exact fun word hmem => by simp [startsWithWord_reserved hname hword word hmem]
  · exact fun word hmem => by simp [hoperators word hmem]

end

/-- The short spellings of the axes start no identifier. -/
theorem axisAt?_identifier
    (haxis : ∀ a : Axis, a.normalized = a → ¬a.spelling.toList <+: name) : axisAt? name = none := by
  have hspelling : ∀ a : Axis, a.normalized = a ∨
      ∃ c more, a.spelling.toList = c :: more ∧ isStart c = false := by
    intro a
    cases a <;> first | exact .inl rfl | exact .inr ⟨_, _, rfl, rfl⟩
  refine List.find?_eq_none.mpr fun a _ hstarts => ?_
  obtain hlong | ⟨c, more, hshort, hc⟩ := hspelling a
  · exact haxis a hlong (List.isPrefixOf_iff_prefix.mp hstarts)
  · rw [hshort, isPrefixOf_cons_false (head_ne_of_not_isStart hname hc)] at hstarts
    cases hstarts

theorem refuses_function_identifier {inner : Inner} {depth : Nat} :
    Refuses (function inner) depth name := by
  have hcall : Refuses (function inner) depth (name ++ []) :=
    refuses_function_name hname rfl nofun
  rwa [List.append_nil] at hcall

theorem starts_identifier (hblank : ∀ c ∈ name, isBlank c = false) :
    name.head?.any (fun c => isBlank c || c == '(' || c == '*') = false := by
  cases name with
  | nil => rfl
  | cons c more =>
    have hne {d : Char} (hd : isStart d = false) : c ≠ d := fun h =>
      head_ne_of_not_isStart hname hd (congrArg some h)
    have hgroup : c ≠ '(' := hne rfl
    have hstar : c ≠ '*' := hne rfl
    simp [hblank c List.mem_cons_self, hgroup, hstar]

theorem isLoneString_identifier (hblank : ∀ c ∈ name, isBlank c = false)
    (haxis : ∀ a : Axis, a.normalized = a → ¬a.spelling.toList <+: name)
    (hword : ∀ word ∈ reservedWords, name ≠ word.toList) :
    IsLoneString .unquotedString name name where
  string := string_identifier hname (startsReserved_identifier hname hword)
  function := refuses_function_identifier hname
  atSign := head_ne_of_not_isStart hname rfl
  starts := starts_identifier hname hblank
  notWord := startsWithWord_reserved hname hword _ (by decide)
  opens := ⟨⟨no_blank (starts_identifier hname hblank),
      isPrefixOf_cons_false (head_ne_of_not_isStart hname rfl) []⟩,
    axisAt?_identifier hname haxis, startsWithWord_reserved hname hword _ (by decide)⟩

end
end Grammar

/-- An identifier that is no reserved word and does not start with a named axis searches for itself.
That goes for every identifier that merely starts with a reserved word. -/
theorem word_searches (limit : Nat) (w : String) (hlimit : 1 ≤ limit) (hw : IsIdentifier w.toList)
    (hblank : ∀ c ∈ w.toList, isBlank c = false)
    (haxis : ∀ a : Axis, a.normalized = a → ¬a.spelling.toList <+: w.toList) :
    (w ∉ reservedWords → Searches limit w .unquotedString w) ∧
    ∀ word ∈ reservedWords, ∀ more, more ≠ "" → w = word ++ more →
      Searches limit w .unquotedString w := by
  have hsearch (hno : w ∉ reservedWords) : Searches limit w .unquotedString w := by
    have hword : ∀ word ∈ reservedWords, w.toList ≠ word.toList := by
      rintro word hmem heq
      exact hno (String.toList_inj.mp heq ▸ hmem)
    have hfound := (isLoneString_identifier hw hblank haxis hword).searches hlimit
    rwa [trim_of_noBlank hblank, String.ofList_toList] at hfound
  refine ⟨hsearch, ?_⟩
  rintro word hmem more hmore rfl
  refine hsearch fun hother => hmore ?_
  have hsame : word = word ++ more := by
    refine reservedWords_apart word hmem _ hother ?_
    rw [String.toList_append]
    exact List.prefix_append _ _
  have hlists := congrArg String.toList hsame
  rw [String.toList_append, List.self_eq_append_right] at hlists
  exact String.toList_eq_nil_iff.mp hlists

/-- `uniontown` starts with a reserved word, and so does `notself::`, in which the name of an axis
stands behind it. -/
theorem word_searches_uniontown :
    Searches 1 "uniontown" .unquotedString "uniontown" ∧
      Searches 1 "notself::" .unquotedString "notself::" := by
  have haxis : ∀ w ∈ ["uniontown", "notself::"], ∀ a : Axis, a.normalized = a →
      ¬a.spelling.toList <+: w.toList := by
    intro w hw a _
    revert w
    cases a <;> decide
  have hblank : ∀ w ∈ ["uniontown", "notself::"], ∀ c ∈ w.toList, isBlank c = false := by
    have hall : ["uniontown", "notself::"].all (·.toList.all (!isBlank ·)) = true := by
      decide +kernel
    intro w hw c hc
    simpa using List.all_eq_true.mp (List.all_eq_true.mp hall w hw) c hc
  have hunion := word_searches 1 "uniontown" (Nat.le_refl 1) (by decide +kernel)
    (hblank _ (by decide)) (haxis _ (by decide))
  have hnot := word_searches 1 "notself::" (Nat.le_refl 1) (by decide +kernel)
    (hblank _ (by decide)) (haxis _ (by decide))
  exact ⟨hunion.1 (by decide), hnot.2 "not" (by decide) "self::" (by decide) (by decide)⟩

end OutlineQuery
