import OutlineQuery.Text.Bytes

/-!
A cursor walks over a text and knows the byte, the line and the column where it stands.
It keeps the text split in two, so `source` is the same wherever it stands.
-/

namespace OutlineQuery
open Text

structure Position where
  offset : Nat
  line : Nat
  column : Nat
deriving DecidableEq

namespace Position

def start : Position := ⟨0, 1, 0⟩

def after (p : Position) (c : Char) : Position :=
  if c = '\n' then ⟨p.offset + c.utf8Size, p.line + 1, 0⟩
  else ⟨p.offset + c.utf8Size, p.line, p.column + 1⟩

def order (a b : Position) : Ordering :=
  (compare a.offset b.offset).then
    ((compare a.line b.line).then (compare a.column b.column))

end Position

structure Cursor where
  /-- The characters passed, the last one first. -/
  seen : List Char
  rest : List Char
  position : Position
deriving DecidableEq

namespace Cursor

def ofText (text : List Char) : Cursor := ⟨[], text, .start⟩

def source (k : Cursor) : List Char := k.seen.reverse ++ k.rest

def offset (k : Cursor) : Nat := k.position.offset

def peek? (k : Cursor) : Option Char := k.rest.head?

def atEnd (k : Cursor) : Bool := k.rest.isEmpty

def startsWith (k : Cursor) (text : List Char) : Bool := text.isPrefixOf k.rest

def advance : Nat → Cursor → Cursor
  | n + 1, ⟨seen, c :: rest, p⟩ => advance n ⟨c :: seen, rest, p.after c⟩
  | _, k => k

/-- Moves `n` bytes back: the text before the place that is reached, backwards, and the text
from there on. -/
def rewind : Nat → List Char → List Char → List Char × List Char
  | _, [], rest => ([], rest)
  | n, c :: seen, rest =>
    if n = 0 then (c :: seen, rest) else rewind (n - c.utf8Size) seen (c :: rest)

def seek (k : Cursor) (p : Position) : Cursor :=
  if p.offset ≤ k.offset then
    let (seen, rest) := rewind (k.offset - p.offset) k.seen k.rest
    ⟨seen, rest, p⟩
  else
    let ahead := p.offset - k.offset
    ⟨(takeBytes ahead k.rest).reverse ++ k.seen, dropBytes ahead k.rest, p⟩

def since (start k : Cursor) : List Char :=
  takeBytes (k.offset - start.offset) start.rest

def between? (k : Cursor) (start stop : Position) : Option (List Char) :=
  if start.offset ≤ stop.offset then
    some (takeBytes (stop.offset - start.offset) (dropBytes start.offset k.source))
  else none

def lineText (k : Cursor) : List Char :=
  (k.seen.takeWhile (· ≠ '\n')).reverse ++ k.rest.takeWhile (· ≠ '\n')

@[simp] theorem source_ofText (text : List Char) : (ofText text).source = text := rfl

theorem source_advance (n : Nat) (k : Cursor) : (advance n k).source = k.source := by
  fun_induction advance n k with
  | case1 n seen c rest p ih => rw [ih]; simp [source]
  | case2 => rfl

theorem rest_advance (n : Nat) (k : Cursor) : (advance n k).rest = k.rest.drop n := by
  induction n generalizing k with
  | zero => simp [advance]
  | succ n ih =>
    obtain ⟨seen, _ | ⟨c, rest⟩, p⟩ := k
    · simp [advance]
    · simp [advance, ih]

end Cursor
end OutlineQuery
