import OutlineQuery.Proofs.InContext
import OutlineQuery.Proofs.Uncovered

/-! Names, strings, slices and modifiers side by side with themselves in a longer text. A string
between quotes must be closed within the text, and a string that joins with another one must find it
there. -/

namespace OutlineQuery
open Grammar Production Text

def readName : List Char → Option (List Char × Nat)
  | [] => none
  | c :: text =>
    if isStart c then some (c :: text.takeWhile isRest, (text.takeWhile isRest).length + 1)
    else none

def readSymbol : List Char → Option (List Char × Nat)
  | [] => none
  | c :: text => if isSymbol c then some ([c], 1) else readName (c :: text)

def readQuoted : List Char → Option (List Char × Nat)
  | [] => none
  | c :: text =>
    if c = '"' then
      match quotedBody text with
      | (n, .ok held) => some (held, n + 1)
      | (_, .error _) => none
    else none

theorem isLexeme_identifier : IsLexeme identifier none readName none where
  grows := follows_grown_of_silent silent_identifier
  found {s a n} h := by
    simp only [identifier, remaining_bind_run]
    cases hrest : s.cursor.rest with
    | nil => rw [hrest] at h; cases h
    | cons c text =>
      rw [hrest, readName] at h
      split at h
      · rename_i hstart
        cases h
        simp only [if_pos hstart]
        rfl
      · cases h
  missing {s} h := by
    simp only [identifier, remaining_bind_run]
    cases hrest : s.cursor.rest with
    | nil => exact ⟨_, s, rfl, rfl⟩
    | cons c text =>
      rw [hrest, readName] at h
      split at h
      · cases h
      · rename_i hstart
        simp only [if_neg hstart]
        exact ⟨_, s, rfl, rfl⟩

theorem isLexeme_symbolOrIdentifier : IsLexeme symbolOrIdentifier none readSymbol none where
  grows := follows_grown_of_silent silent_symbolOrIdentifier
  found {s a n} h := by
    simp only [symbolOrIdentifier, remaining_bind_run]
    cases hrest : s.cursor.rest with
    | nil => rw [hrest] at h; cases h
    | cons c text =>
      rw [hrest, readSymbol] at h
      split at h
      · rename_i hsymbol
        cases h
        simp only [if_pos hsymbol]
        rfl
      · rename_i hsymbol
        simp only [if_neg hsymbol]
        exact isLexeme_identifier.found (by rw [hrest, h])
  missing {s} h := by
    simp only [symbolOrIdentifier, remaining_bind_run]
    cases hrest : s.cursor.rest with
    | nil => exact isLexeme_identifier.missing (by rw [hrest]; rfl)
    | cons c text =>
      rw [hrest, readSymbol] at h
      split at h
      · cases h
      · rename_i hsymbol
        simp only [if_neg hsymbol]
        exact isLexeme_identifier.missing (by rw [hrest, h])

section
variable {r : Nat × Except Reason (List Char)} {c : Char} {k n : Nat}

/-- A body that goes on behind its first character holds that character before the rest. -/
theorem held_longer {held : List Char} (h : (r.1 + k, r.2.map (c :: ·)) = (n, .ok held)) :
    ∃ inner m, r = (m, .ok inner) ∧ n = m + k ∧ held = c :: inner := by
  obtain ⟨m, result⟩ := r
  cases result with
  | error reason => cases h
  | ok inner =>
    cases h
    exact ⟨inner, m, rfl, rfl, rfl⟩

theorem broken_longer {reason : Reason}
    (h : (r.1 + k, r.2.map (c :: ·)) = (n, .error reason)) : ∃ m, r = (m, .error reason) := by
  obtain ⟨m, result⟩ := r
  cases result with
  | error reason =>
    cases h
    exact ⟨m, rfl⟩
  | ok inner => cases h

end

inductive SpellsBody : List Char → List Char → Prop
  | close : SpellsBody ['"'] []
  | escape {e d : Char} {body held : List Char} : unescape? e = some d → SpellsBody body held →
      SpellsBody ('\\' :: e :: body) (d :: held)
  | plain {c : Char} {body held : List Char} : c ≠ '"' → c ≠ '\\' → SpellsBody body held →
      SpellsBody (c :: body) (c :: held)

namespace SpellsBody
variable {body held : List Char}

theorem quotedBody_eq (h : SpellsBody body held) (rest : List Char) :
    quotedBody (body ++ rest) = (body.length, .ok held) := by
  induction h with
  | close => exact quotedBody_quote rest
  | escape he _ ih =>
    rw [List.cons_append, List.cons_append, quotedBody_escape he, ih]
    rfl
  | plain hquote hslash _ ih =>
    rw [List.cons_append, quotedBody_plain hquote hslash, ih]
    rfl

theorem closed (h : SpellsBody body held) : ∃ inside, body = inside ++ ['"'] := by
  induction h with
  | close => exact ⟨[], rfl⟩
  | @escape e d body held _ _ ih =>
    obtain ⟨inside, rfl⟩ := ih
    exact ⟨'\\' :: e :: inside, rfl⟩
  | @plain c body held _ _ _ ih =>
    obtain ⟨inside, rfl⟩ := ih
    exact ⟨c :: inside, rfl⟩

theorem of_quotedBody {text : List Char} {n : Nat} (h : quotedBody text = (n, .ok held)) :
    ∃ body rest, text = body ++ rest ∧ n = body.length ∧ SpellsBody body held := by
  induction text using quotedBody.induct generalizing n held with
  | case1 => rw [quotedBody] at h; cases h
  | case2 text =>
    rw [quotedBody_quote] at h
    cases h
    exact ⟨['"'], text, rfl, rfl, .close⟩
  | case3 => rw [quotedBody.eq_def] at h; cases h
  | case4 e text hnone =>
    rw [quotedBody.eq_def] at h
    simp [hnone] at h
  | case5 e text d hd body ih =>
    rw [quotedBody_escape hd] at h
    obtain ⟨inner, m, hbody, rfl, rfl⟩ := held_longer h
    obtain ⟨body, rest, rfl, rfl, hspells⟩ := ih hbody
    exact ⟨'\\' :: e :: body, rest, rfl, rfl, .escape hd hspells⟩
  | case6 c text hquote hslash ih =>
    rw [quotedBody_plain hquote hslash] at h
    obtain ⟨inner, m, hbody, rfl, rfl⟩ := held_longer h
    obtain ⟨body, rest, rfl, rfl, hspells⟩ := ih hbody
    exact ⟨c :: body, rest, rfl, rfl, .plain hquote hslash hspells⟩

/-- A string that is closed is closed by none of the blanks behind the text. -/
theorem of_blanks {text blanks : List Char} {n : Nat} (hblanks : ∀ c ∈ blanks, isBlank c = true)
    (h : quotedBody (text ++ blanks) = (n, .ok held)) : quotedBody text = (n, .ok held) := by
  obtain ⟨body, rest, hsplit, rfl, hspells⟩ := of_quotedBody h
  obtain ⟨more, rfl, hmore⟩ | ⟨more, rfl, -⟩ := List.append_eq_append_iff.mp hsplit
  · obtain ⟨inside, hclosed⟩ := hspells.closed
    cases List.eq_nil_or_concat more with
    | inl hnil =>
      rw [hnil, List.append_nil] at hspells ⊢
      simpa using hspells.quotedBody_eq []
    | inr hconcat =>
      obtain ⟨init, c, rfl⟩ := hconcat
      rw [List.concat_eq_append, ← List.append_assoc] at hclosed
      obtain ⟨-, hlast⟩ := List.append_inj' hclosed rfl
      cases hlast
      have hquote := hblanks '"' (by simp [hmore])
      exact absurd hquote (by decide)
  · exact hspells.quotedBody_eq more

end SpellsBody

theorem isFatal_of_quotedBody {text : List Char} {n : Nat} {reason : Reason}
    (h : quotedBody text = (n, .error reason)) : reason.isFatal = false := by
  induction text using quotedBody.induct generalizing n with
  | case1 => rw [quotedBody] at h; cases h; rfl
  | case2 text => rw [quotedBody_quote] at h; cases h
  | case3 => rw [quotedBody.eq_def] at h; cases h; rfl
  | case4 e text hnone =>
    rw [quotedBody.eq_def] at h
    simp only [hnone] at h
    cases h
    rfl
  | case5 e text d hd body ih =>
    rw [quotedBody_escape hd] at h
    obtain ⟨m, hbody⟩ := broken_longer h
    exact ih hbody
  | case6 c text hquote hslash ih =>
    rw [quotedBody_plain hquote hslash] at h
    obtain ⟨m, hbody⟩ := broken_longer h
    exact ih hbody

theorem quoted_run {s : State} {text : List Char} (h : s.cursor.rest = '"' :: text) :
    quoted s = match (quotedBody text).2 with
      | .ok held => .ok held (s.pass ((quotedBody text).1 + 1))
      | .error reason => .error reason (s.pass ((quotedBody text).1 + 1)) := by
  have hopen : expect "\"" s = .ok () (s.pass 1) := by
    rw [expect_run, h]
    rfl
  have hrest : (s.pass 1).cursor.rest = text := by
    rw [rest_pass, h]
    rfl
  rw [Grammar.quoted, bind_of_ok hopen]
  simp only [remaining_bind_run, pass_bind_run, hrest, pass_pass, Nat.add_comm 1]
  cases (quotedBody text).2 <;> rfl

theorem isLexeme_quoted : IsLexeme quoted none readQuoted none where
  grows := follows_grown_of_silent silent_quoted
  found {s a n} h := by
    cases hrest : s.cursor.rest with
    | nil => rw [hrest] at h; cases h
    | cons c text =>
      rw [hrest, readQuoted] at h
      split at h
      · rename_i hc
        subst hc
        rw [quoted_run hrest]
        cases hbody : quotedBody text with
        | mk m result =>
          rw [hbody] at h
          cases result with
          | ok held => cases h; rfl
          | error reason => cases h
      · cases h
  missing {s} h := by
    cases hrest : s.cursor.rest with
    | nil =>
      have hno : expect "\"" s = .error (.text "\"") s := by
        rw [expect_run, hrest]
        rfl
      exact ⟨_, s, bind_of_error hno, rfl⟩
    | cons c text =>
      rw [hrest, readQuoted] at h
      split at h
      · rename_i hc
        subst hc
        cases hbody : quotedBody text with
        | mk m result =>
          rw [hbody] at h
          cases result with
          | ok held => cases h
          | error reason =>
            refine ⟨reason, s.pass (m + 1), ?_, isFatal_of_quotedBody hbody⟩
            rw [quoted_run hrest, hbody]
      · rename_i hc
        have hno : expect "\"" s = .error (.text "\"") s := by
          rw [expect_run, hrest, if_neg (by simp [List.isPrefixOf, Ne.symm hc])]
        exact ⟨_, s, bind_of_error hno, rfl⟩

theorem readName_take {text name : List Char} {n : Nat} (h : readName text = some (name, n)) :
    n ≤ text.length ∧ ∀ last m, Closes last m text ↔ Closes last m (text.drop n) := by
  cases text with
  | nil => cases h
  | cons c text =>
    rw [readName] at h
    split at h
    · rename_i hstart
      cases h
      have hlength := (List.takeWhile_prefix (l := text) isRest).length_le
      refine ⟨Nat.succ_le_succ hlength, fun last m => ?_⟩
      rw [List.drop_succ_cons, drop_takeWhile, closes_plain (isPlain_of_isStart hstart)]
      exact closes_dropWhile fun _ => isPlain_of_isRest
    · cases h

theorem readSymbol_take {text name : List Char} {n : Nat} (h : readSymbol text = some (name, n)) :
    n ≤ text.length ∧ ∀ last m, Closes last m text ↔ Closes last m (text.drop n) := by
  cases text with
  | nil => cases h
  | cons c text =>
    rw [readSymbol] at h
    split at h
    · rename_i hsymbol
      cases h
      exact ⟨Nat.succ_le_succ (Nat.zero_le _),
        fun last m => closes_plain (isPlain_of_isSymbol hsymbol)⟩
    · exact readName_take h

theorem readQuoted_take {text held : List Char} {n : Nat} (h : readQuoted text = some (held, n)) :
    n ≤ text.length ∧ ∀ last m, Closes last m text ↔ Closes last m (text.drop n) := by
  cases text with
  | nil => cases h
  | cons c text =>
    rw [readQuoted] at h
    split at h
    · rename_i hc
      subst hc
      cases hbody : quotedBody text with
      | mk k result =>
        rw [hbody] at h
        cases result with
        | error reason => cases h
        | ok inside =>
          cases h
          refine ⟨?_, fun last m => closes_quoted hbody⟩
          obtain ⟨body, rest, rfl, rfl, -⟩ := SpellsBody.of_quotedBody hbody
          rw [List.length_cons, List.length_append]
          omega
    · cases h

section
variable {E : Embedding} (hE : E.Apart) {i : Nat}
include hE

theorem Embedding.Apart.readName_behind (text : List Char) :
    readName (text ++ E.behind) = readName text := by
  cases text with
  | cons c text =>
    rw [List.cons_append, readName, readName, hE.takeWhile_behind fun _ _ hc => hc]
  | nil =>
    rw [List.nil_append]
    cases hbehind : E.behind with
    | nil => rfl
    | cons c behind =>
      have hrest := (hE.edge c (by rw [hbehind]; rfl)).2
      have hstart : ¬isStart c = true := fun h => by rw [isRest_of_isStart h] at hrest; cases hrest
      exact if_neg hstart

theorem Embedding.Apart.readSymbol_behind (text : List Char) :
    readSymbol (text ++ E.behind) = readSymbol text := by
  cases text with
  | cons c text =>
    have hname := hE.readName_behind (c :: text)
    rw [List.cons_append] at hname ⊢
    rw [readSymbol, readSymbol, hname]
  | nil =>
    have hname := hE.readName_behind []
    rw [List.nil_append] at hname ⊢
    cases hbehind : E.behind with
    | nil => rfl
    | cons c behind =>
      have hedge := (hE.edge c (by rw [hbehind]; rfl)).1
      have hsymbol : ¬isSymbol c = true := fun h => by
        have hno : symbols.all (!isEdge ·) = true := by decide +kernel
        have hc := List.all_eq_true.mp hno c (List.contains_iff_mem.mp h)
        rw [hedge] at hc
        cases hc
      rw [hbehind] at hname
      exact (if_neg hsymbol).trans hname

/-- A string that is closed is closed within the text. Otherwise nothing closes the parentheses
around it, so only blanks may follow. -/
theorem Embedding.Apart.readQuoted_behind {text : List Char} (hg : E.Guarded i text) :
    readQuoted (text ++ E.behind) = readQuoted text := by
  cases text with
  | nil =>
    rw [List.nil_append]
    cases hbehind : E.behind with
    | nil => rfl
    | cons c behind =>
      have hedge := (hE.edge c (by rw [hbehind]; rfl)).1
      have hquote : c ≠ '"' := by rintro rfl; exact absurd hedge (by decide)
      exact if_neg hquote
  | cons c text =>
    rw [List.cons_append, readQuoted, readQuoted]
    by_cases hc : c = '"'
    · subst hc
      rw [if_pos rfl, if_pos rfl]
      cases hbody : quotedBody text with
      | mk n result =>
        cases result with
        | ok held =>
          obtain ⟨body, rest, rfl, rfl, hspells⟩ := SpellsBody.of_quotedBody hbody
          rw [List.append_assoc, hspells.quotedBody_eq]
        | error reason =>
          obtain hnext | ⟨outer, hcloses⟩ := hg
          · have hblanks : ∀ c ∈ E.behind, isBlank c = true := List.dropWhile_eq_nil_iff.mp hnext
            cases hlonger : quotedBody (text ++ E.behind) with
            | mk m result' =>
              cases result' with
              | ok held =>
                rw [SpellsBody.of_blanks hblanks hlonger] at hbody
                cases hbody
              | error reason' => rfl
          · exact absurd hcloses (not_closes_unclosed hbody)
    · rw [if_neg hc, if_neg hc]

end

namespace Parallel
variable {E : Embedding} (hE : E.Apart) {i : Nat}
include hE

theorem identifier : Parallel E false false i i identifier :=
  isLexeme_identifier.parallel
    (fun _ _ _ h => (readName_take h).imp_right fun h last m => h last (m + i)) nofun
    (fun text _ => hE.readName_behind text) nofun

theorem symbolOrIdentifier : Parallel E false false i i symbolOrIdentifier :=
  isLexeme_symbolOrIdentifier.parallel
    (fun _ _ _ h => (readSymbol_take h).imp_right fun h last m => h last (m + i)) nofun
    (fun text _ => hE.readSymbol_behind text) nofun

theorem quoted : Parallel E false false i i Grammar.quoted :=
  isLexeme_quoted.parallel
    (fun _ _ _ h => (readQuoted_take h).imp_right fun h last m => h last (m + i)) nofun
    (fun _ => hE.readQuoted_behind) nofun

theorem unquoted : Parallel E false false i i unquoted := by
  refine remaining_bind (fun rest => ?_) (fun rest => ?_) nofun
  · split
    · exact fail _
    · exact symbolOrIdentifier hE
  · rw [hE.startsReserved_behind]

theorem string : Parallel E true false i i string := by
  refine of_refuses (remaining_bind (fun rest => ?_) (fun rest => ?_) nofun) (fun _ => ?_) hE.string
  · split
    · exact (quoted hE).record advances_quoted
    · exact (unquoted hE).record advances_unquoted
  · rw [hE.isPrefixOf_behind (by decide)]
  · exact Refuses.string nofun (refuses_unquoted rfl rfl)

/-- Behind the end of the text there is no string, so the blanks there are no part of one. -/
theorem piece : Parallel E true false i i piece := by
  have hstring : Parallel E true false i i Grammar.string := string hE
  have hrun (s : State) : blanks s = .ok (s.cursor.rest.takeWhile isBlank)
      (s.pass (s.cursor.rest.takeWhile isBlank).length) := rfl
  have hlevel (s : State) (last : List Char) (n : Nat) : Closes last (n + i) s.cursor.rest ↔
      Closes last (n + i) (s.pass (s.cursor.rest.takeWhile isBlank).length).cursor.rest :=
    (skipBlanks (E := E)).level skipBlanks_run last n
  refine ⟨discipline_grown.follows_piece, fun {s a t} hok last n => ?_,
    fun {crossed s s'} _ hs hg => ?_⟩
  · obtain ⟨gap, u, h₁, h₂⟩ := bind_ok hok
    cases h₁
    obtain ⟨text, v, h₃, ⟨⟩⟩ := bind_ok h₂
    exact (hlevel s last n).trans (hstring.level h₃ last n)
  · -- Where only blanks are left the two runs pass different ones, but then both find no string.
    by_cases hblank : ∀ c ∈ s.cursor.rest, isBlank c = true
    · have hnext := (hs.cross hblank).place.2.1
      rw [rest_pass, drop_takeWhile] at hnext
      have hend : Refuses Grammar.piece s.depth s.cursor.rest := by
        refine refuses_piece ?_
        rw [List.dropWhile_eq_nil_iff.mpr hblank]
        exact Refuses.string nofun (refuses_unquoted rfl rfl)
      have hafter : Refuses Grammar.piece s'.depth s'.cursor.rest := by
        refine refuses_piece ?_
        rw [hnext]
        exact hE.string _
      obtain ⟨reason, t, h, hr⟩ := hend s ⟨rfl, rfl⟩
      obtain ⟨reason', t', h', hr'⟩ := hafter s' ⟨rfl, rfl⟩
      rw [h, h']
      exact ⟨hr'.trans hr.symm, fun hfatal => by rw [hr] at hfatal; cases hfatal⟩
    · obtain ⟨rfl, hsame, hpassed⟩ := hs.passBlanks hblank
      have hrun' := hrun s'
      rw [hsame] at hrun'
      rw [Grammar.piece, bind_of_ok (hrun s), bind_of_ok hrun']
      exact (hstring.map _).runs nofun hpassed (hg.of_level (hlevel s))

end Parallel

def Recoverable {α : Type} (p : Production α) : Prop :=
  ∀ (s : State) (reason : Reason) (t : State), p s = .error reason t → reason.isFatal = false

namespace Recoverable
variable {α β : Type} {p : Production α} {f : α → Production β}

theorem pure (a : α) : Recoverable (Pure.pure a : Production α) := nofun

theorem fail {reason : Reason} (hr : reason.isFatal = false) :
    Recoverable (Production.fail reason : Production α) := by
  intro s _ t h
  cases h
  exact hr

theorem remaining : Recoverable remaining := fun _ _ _ h => nomatch h

theorem pass (n : Nat) : Recoverable (pass n) := fun _ _ _ h => nomatch h

theorem bind (hp : Recoverable p) (hf : ∀ a, Recoverable (f a)) : Recoverable (p >>= f) := by
  intro s reason u h
  cases hs : p s with
  | ok a t => exact hf a t reason u ((bind_of_ok hs).symm.trans h)
  | error reason' t =>
    rw [bind_of_error hs] at h
    cases h
    exact hp s reason u hs

theorem attempt (hp : Recoverable p) : Recoverable (attempt p) := by
  intro s reason u h
  cases hs : p s with
  | ok a t => rw [attempt_of_ok hs] at h; cases h
  | error reason' t =>
    rw [Production.attempt, hs] at h
    simp only [hp s reason' t hs] at h
    cases h

theorem expect (text : String) : Recoverable (expect text) := by
  intro s reason t h
  rw [expect_run] at h
  split at h
  · cases h
  · cases h
    rfl

theorem integer : Recoverable integer := by
  have hskip : Recoverable (skip "-") := by
    intro s reason t h
    rw [skip_run] at h
    split at h <;> cases h
  refine hskip.bind fun negative => remaining.bind fun rest => ?_
  dsimp only
  split
  · exact fail rfl
  · refine (pass _).bind fun _ => ?_
    generalize (if negative = true then _ else _ : Int) = n
    split
    · exact pure _
    · exact fail rfl

theorem slice : Recoverable slice := by
  have hindex : Recoverable indexSlice :=
    (expect "[").bind fun _ => integer.bind fun _ => (expect "]").bind fun _ => pure _
  refine hindex.attempt.bind fun found => ?_
  cases found with
  | some s => exact pure s
  | none =>
    exact (expect "[").bind fun _ => integer.attempt.bind fun _ => (expect ":").bind fun _ =>
      integer.attempt.bind fun _ => (expect "]").bind fun _ => pure _

theorem bracketedLetter : Recoverable bracketedLetter := by
  refine (expect "[").bind fun _ => remaining.bind fun rest => ?_
  cases rest with
  | nil => exact fail rfl
  | cons c text =>
    dsimp only
    cases Modifier.ofLetter? c with
    | none => exact fail rfl
    | some m => exact (pass 1).bind fun _ => (expect "]").bind fun _ => pure m

end Recoverable
theorem solid_of_all {text : List Char}
    (h : text.all (fun c => isPlain c && !isBlank c) = true) :
    ∀ c ∈ text, isPlain c = true ∧ isBlank c = false := by
  intro c hc
  have hboth := List.all_eq_true.mp h c hc
  rwa [Bool.and_eq_true, Bool.not_eq_true'] at hboth

theorem passes_bracketedLetter :
    Yields Passes bracketedLetter fun m text => text = m.written := by
  refine ⟨follows_grown_of_silent silent_bracketedLetter, fun {s m t} hok => ?_⟩
  obtain ⟨_, u, hopen, hletter⟩ := bind_ok hok
  obtain ⟨opening, hopening, rfl⟩ := (passes_expect "[").yields hopen
  rw [remaining_bind_run] at hletter
  cases hrest : u.cursor.rest with
  | nil => rw [hrest] at hletter; cases hletter
  | cons c text =>
    rw [hrest] at hletter
    dsimp only at hletter
    cases hm : Modifier.ofLetter? c with
    | none => rw [hm] at hletter; cases hletter
    | some m' =>
      rw [hm] at hletter
      dsimp only at hletter
      rw [pass_bind_run] at hletter
      obtain ⟨_, v, hclose, ⟨⟩⟩ := bind_ok hletter
      obtain ⟨closing, hclosing, rfl⟩ := (passes_expect "]").yields hclose
      have hc : m.letter = c := by simpa using List.find?_some hm
      have hpassed : Passes u (u.pass 1) [c] := ⟨rfl, by rw [rest_pass, hrest]; rfl⟩
      refine ⟨_, additive_passes.trans hopening (additive_passes.trans hpassed hclosing), ?_⟩
      rw [← hc]
      rfl

section
variable {E : Embedding} (hE : E.Apart) {i : Nat}
include hE

/-- A text without blanks and parentheses ends where the text behind starts, at the latest. -/
theorem Embedding.Apart.within_text {text rest more : List Char}
    (htext : ∀ c ∈ text, isEdge c = false) (h : rest ++ E.behind = text ++ more) :
    ∃ others, rest = text ++ others := by
  obtain ⟨others, rfl, hbehind⟩ | ⟨others, hrest, -⟩ := List.append_eq_append_iff.mp h
  · cases others with
    | nil => exact ⟨[], by rw [List.append_nil, List.append_nil]⟩
    | cons c others =>
      have hedge := (hE.edge c (by rw [hbehind]; rfl)).1
      rw [htext c (by simp)] at hedge
      cases hedge
  · exact ⟨others, hrest⟩

/-- A text that has no blanks and is read whatever follows is read within the text or not at all. -/
theorem Parallel.spelled {α : Type} {p : Production α} {spells : α → List Char → Prop}
    (hp : Yields Passes p spells) (hr : Recoverable p)
    (hreads : ∀ a text, spells a text → ∀ depth rest, Reads p depth (text ++ rest) a rest)
    (hchars : ∀ a text, spells a text → ∀ c ∈ text, isPlain c = true ∧ isBlank c = false) :
    Parallel E false false i i p := by
  refine ⟨hp.grows, fun {s a t} hok last n => ?_, fun {crossed s s'} hw hs _ => ?_⟩
  · obtain ⟨text, ⟨-, hsplit⟩, hspells⟩ := hp.yields hok
    rw [hsplit]
    exact closes_plains (List.all_eq_true.mpr fun c hc => (hchars a text hspells c hc).1)
  · obtain rfl : crossed = false := Bool.eq_false_iff.mpr fun h => Bool.false_ne_true (hw h)
    cases hrun : p s with
    | ok a t =>
      obtain ⟨text, ⟨rfl, hsplit⟩, hspells⟩ := hp.yields hrun
      have hat : s'.At s'.depth (text ++ ((s.pass text.length).cursor.rest ++ E.behind)) := by
        refine ⟨rfl, ?_⟩
        rw [hs.place.1, ← List.append_assoc, ← hsplit]
      obtain ⟨t', hrun', hat'⟩ := hreads a text hspells _ _ s' hat
      obtain ⟨text', ⟨rfl, hsplit'⟩, -⟩ := hp.yields hrun'
      rw [hat.text, hat'.text] at hsplit'
      obtain rfl : text = text' := List.append_cancel_right hsplit'
      have hlength : text.length ≤ s.cursor.rest.length := by
        rw [hsplit, List.length_append]
        exact Nat.le_add_right _ _
      rw [hrun']
      exact ⟨rfl, (hs.pass hlength).ends⟩
    | error reason t =>
      have hopen := hr s reason t hrun
      cases hrun' : p s' with
      | error reason' t' =>
        exact ⟨(hr s' reason' t' hrun').trans hopen.symm, fun h => by rw [hopen] at h; cases h⟩
      | ok a t' =>
        -- What is read in the longer text has no blanks, so it lies in the text and is read there.
        obtain ⟨text, ⟨-, hsplit⟩, hspells⟩ := hp.yields hrun'
        rw [hs.place.1] at hsplit
        have hedge (c : Char) (hc : c ∈ text) : isEdge c = false :=
          isEdge_eq_false (hchars a text hspells c hc).1 (hchars a text hspells c hc).2
        obtain ⟨others, hothers⟩ := hE.within_text hedge hsplit
        obtain ⟨u, hu, -⟩ := hreads a text hspells s.depth others s ⟨rfl, hothers⟩
        rw [hrun] at hu
        cases hu

/-- Where no bracket comes next there is neither a modifier nor a slice. -/
theorem Embedding.Apart.refuses_bracket {α : Type} {f : Unit → Production α} {text : List Char}
    (htext : text = [] ∨ text = E.next) (depth : Nat) : Refuses (expect "[" >>= f) depth text := by
  refine .bind_first (refuses_expect ?_)
  obtain rfl | rfl := htext
  · rfl
  · exact hE.unread _ (by decide)

theorem Parallel.bracketedLetter : Parallel E true false i i bracketedLetter := by
  have hwithin : Parallel E false false i i Grammar.bracketedLetter := by
    refine .spelled hE passes_bracketedLetter .bracketedLetter ?_ ?_
    · rintro m _ rfl depth rest
      exact reads_bracketedLetter m rest
    · rintro m _ rfl
      exact solid_of_all (by cases m <;> decide)
  exact hwithin.of_refuses (hE.refuses_bracket (.inl rfl)) (hE.refuses_bracket (.inr rfl))

theorem Parallel.slice : Parallel E true false i i slice := by
  have hwithin : Parallel E false false i i Grammar.slice := by
    refine .spelled hE passes_slice .slice (fun s text hs depth rest => hs.reads) ?_
    intro s text hs c hc
    rcases hs.chars c hc with hmem | hdigit
    · have hall : ['[', ']', ':', '-'].all (fun c => isPlain c && !isBlank c) = true := by decide
      exact solid_of_all hall c hmem
    · exact ⟨isPlain_of_isDigit hdigit, isBlank_eq_false_of_isDigit hdigit⟩
  have hrefuses (text : List Char) (htext : text = [] ∨ text = E.next) (depth : Nat) :
      Refuses Grammar.slice depth text :=
    .bind_next ((hE.refuses_bracket htext depth).attempt
      (follows_grown_of_silent silent_indexSlice)) (hE.refuses_bracket htext depth)
  exact hwithin.of_refuses (hrefuses [] (.inl rfl)) (hrefuses E.next (.inr rfl))

theorem Parallel.attributeValue : Parallel E true false i i attributeValue := by
  have hat : Parallel E true false i i (expect "@") :=
    (isLexeme_expect "@").plain hE (by decide) (by decide) (by decide) fun _ =>
      hE.unread _ (by decide)
  have hname : Parallel E true false i i attributeName :=
    hat.bind_behind (advances_expect (by decide)) fun _ => .identifier hE
  exact (hname.record advances_attributeName).map _

end
end OutlineQuery
