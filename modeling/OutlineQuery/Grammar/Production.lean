import OutlineQuery.Cursor
import OutlineQuery.Grammar.Reason
import OutlineQuery.Token

/-!
Productions read a part of a query from where the cursor stands and record tokens on the way.
A production that fails keeps the state in which it failed; `attempt` rewinds the cursor and drops
the tokens recorded since, unless the failure is fatal.
-/

namespace OutlineQuery.Grammar

structure State where
  cursor : Cursor
  tokens : TokenLog
  /-- The levels of nesting around the place where the cursor stands. -/
  depth : Nat
deriving DecidableEq

structure Snapshot where
  position : Position
  recorded : Nat
deriving DecidableEq

namespace State

def start (text : List Char) : State := ⟨.ofText text, .empty, 0⟩

def snapshot (s : State) : Snapshot := ⟨s.cursor.position, s.tokens.size⟩

def restore (s : State) (m : Snapshot) : State :=
  { s with cursor := s.cursor.seek m.position, tokens := s.tokens.truncate m.recorded }

def pass (s : State) (n : Nat) : State := { s with cursor := s.cursor.advance n }

def emit (s : State) (kind : TokenKind) (start : Cursor) : State :=
  let token := ⟨kind, start.offset, s.cursor.offset, String.ofList (start.since s.cursor)⟩
  { s with tokens := s.tokens.push token }

end State

abbrev Production := EStateM Reason State

namespace Production

variable {α : Type}

def fail (reason : Reason) : Production α := fun s => .error reason s

def here : Production Cursor := fun s => .ok s.cursor s

def remaining : Production (List Char) := fun s => .ok s.cursor.rest s

def snapshot : Production Snapshot := fun s => .ok s.snapshot s

def restore (m : Snapshot) : Production Unit := fun s => .ok () (s.restore m)

def pass (n : Nat) : Production Unit := fun s => .ok () (s.pass n)

def emit (kind : TokenKind) (start : Cursor) : Production Unit :=
  fun s => .ok () (s.emit kind start)

def record (kind : TokenKind) (p : Production α) : Production α := do
  let start ← here
  let a ← p
  emit kind start
  return a

def attempt (p : Production α) : Production (Option α) := fun s =>
  let before := s.snapshot
  match p s with
  | .ok a s' => .ok (some a) s'
  | .error reason s' =>
    if reason.isFatal then .error reason s' else .ok none (s'.restore before)

def nested (limit : Nat) (p : Production α) : Production α := fun s =>
  if s.depth < limit then
    match p { s with depth := s.depth + 1 } with
    | .ok a s' => .ok a { s' with depth := s'.depth - 1 }
    | .error reason s' => .error reason { s' with depth := s'.depth - 1 }
  else .error .tooDeep s

def attemptOr (default : α) (p : Production α) : Production α := do
  return (← attempt p).getD default

def firstOf : List (Production α) → Production (Option α)
  | [] => pure none
  | p :: alternatives => do
    match ← attempt p with
    | some a => return some a
    | none => firstOf alternatives

def firstRead (read : α → Production Bool) : List α → Production (Option α)
  | [] => pure none
  | a :: others => do
    if ← read a then return some a else firstRead read others

def manyWithin (item : Production (Option α)) : List Char → Production (List α)
  | [] => pure []
  | _ :: bound => do
    match ← item with
    | some a => return a :: (← manyWithin item bound)
    | none => pure []

/-- Reads items until one is absent. An item that is there takes up at least one character, so
the text that remains is long enough for a bound. -/
def many (item : Production (Option α)) : Production (List α) := do
  manyWithin item (← remaining)

/-- Groups operands to the right. They are taken off the end, each of them to the left of what the
ones behind it have come to, and the first one last. -/
def groupRight (combine : α → α → α) (first : α) (others : List α) : α :=
  match others.reverse with
  | [] => first
  | last :: earlier => combine first (earlier.foldl (fun folded left => combine left folded) last)

variable {β : Type} {f : α → Production β} {s : State}

@[simp] theorem pure_run (a : α) : (pure a : Production α) s = .ok a s := rfl

@[simp] theorem fail_run (reason : Reason) :
    (fail reason : Production α) s = .error reason s := rfl

@[simp] theorem pass_run (n : Nat) : pass n s = .ok () (s.pass n) := rfl

@[simp] theorem pure_bind_run (a : α) : ((pure a : Production α) >>= f) s = f a s := rfl

@[simp] theorem here_bind_run {f : Cursor → Production β} : (here >>= f) s = f s.cursor s := rfl

@[simp] theorem snapshot_bind_run {f : Snapshot → Production β} :
    (snapshot >>= f) s = f s.snapshot s := rfl

@[simp] theorem remaining_bind_run {f : List Char → Production β} :
    (remaining >>= f) s = f s.cursor.rest s := rfl

@[simp] theorem pass_bind_run {f : Unit → Production β} (n : Nat) :
    (pass n >>= f) s = f () (s.pass n) := rfl

@[simp] theorem bind_bind_run {γ : Type} {p : Production α} {g : β → Production γ} :
    ((p >>= f) >>= g) s = (p >>= fun a => f a >>= g) s := by
  simp only [bind, EStateM.bind]
  cases p s <;> rfl

/-- A run whose result passes a test has succeeded. -/
theorem exists_run {r : EStateM.Result Reason State α} {q : α → Bool}
    (h : (match r with | .ok a _ => q a | .error _ _ => false) = true) :
    ∃ a t, r = .ok a t ∧ q a = true := by
  cases r with
  | ok a t => exact ⟨a, t, rfl, h⟩
  | error reason t => cases h

section
variable (combine : α → α → α) (a b : α)

@[simp] theorem groupRight_nil : groupRight combine a [] = a := rfl

theorem groupRight_concat (operands : List α) :
    groupRight combine a (operands ++ [b]) = combine a (operands.foldr combine b) := by
  rw [groupRight, List.reverse_append, List.reverse_singleton, List.singleton_append]
  exact congrArg (combine a) List.foldl_reverse

/-- To take the operands off the end is to nest them to the right. -/
@[simp] theorem groupRight_cons (operands : List α) :
    groupRight combine a (b :: operands) = combine a (groupRight combine b operands) := by
  obtain rfl | ⟨init, last, rfl⟩ := operands.eq_nil_or_concat
  · rfl
  · rw [List.concat_eq_append]
    calc groupRight combine a (b :: (init ++ [last]))
        = combine a ((b :: init).foldr combine last) := groupRight_concat combine a last (b :: init)
      _ = combine a (groupRight combine b (init ++ [last])) := by
        rw [groupRight_concat, List.foldr_cons]

end

end Production
end OutlineQuery.Grammar
