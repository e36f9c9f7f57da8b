import OutlineQuery.Json.Basic
import OutlineQuery.Text.Escaped

/-!
Tokens for highlighting: what a stretch of the query text is, and where it stands.
-/

namespace OutlineQuery

inductive TokenKind where
  | axis | type | attribute | functionName | relation | quotedString | unquotedString
  | boolean | set | modifier | comparison
deriving DecidableEq

def TokenKind.name : TokenKind → String
  | .axis => "axis"
  | .type => "type"
  | .attribute => "attribute"
  | .functionName => "function-name"
  | .relation => "relation"
  | .quotedString => "quoted-string"
  | .unquotedString => "unquoted-string"
  | .boolean => "boolean"
  | .set => "set"
  | .modifier => "modifier"
  | .comparison => "comparison"

def TokenKind.all : List TokenKind :=
  [.axis, .type, .attribute, .functionName, .relation, .quotedString, .unquotedString,
    .boolean, .set, .modifier, .comparison]

def TokenKind.ofName? (name : String) : Option TokenKind := all.find? (·.name = name)

structure Token where
  kind : TokenKind
  start : Nat
  stop : Nat
  text : String
deriving DecidableEq

namespace Token

def line (t : Token) : String :=
  let start := toString t.start
  let stop := toString t.stop
  "".pushn ' ' (4 - start.length) ++ start ++ ".." ++ stop.pushn ' ' (4 - stop.length) ++ " " ++
    t.kind.name ++ " " ++ Text.quoted t.text

def toJson (t : Token) : Json :=
  .obj [("type", .str t.kind.name), ("range", .obj [("start", .int t.start), ("end", .int t.stop)]),
    ("value", .str t.text)]

end Token

structure TokenLog where
  newestFirst : List Token
  size : Nat := newestFirst.length
  size_eq : size = newestFirst.length := by rfl
deriving DecidableEq

namespace TokenLog

def empty : TokenLog := { newestFirst := [] }

def toList (log : TokenLog) : List Token := log.newestFirst.reverse

def push (log : TokenLog) (t : Token) : TokenLog where
  newestFirst := t :: log.newestFirst
  size := log.size + 1
  size_eq := by simp [log.size_eq]

def truncate (log : TokenLog) (n : Nat) : TokenLog where
  newestFirst := log.newestFirst.drop (log.size - n)
  size := min n log.size
  size_eq := by simp only [List.length_drop, ← log.size_eq]; omega

@[simp] theorem toList_empty : empty.toList = [] := rfl

@[simp] theorem toList_push (log : TokenLog) (t : Token) :
    (log.push t).toList = log.toList ++ [t] := by
  simp [toList, push]

theorem size_eq_length (log : TokenLog) : log.size = log.toList.length := by
  simp [toList, log.size_eq]

theorem toList_truncate (log : TokenLog) (n : Nat) :
    (log.truncate n).toList = log.toList.take n := by
  simp [toList, truncate, log.size_eq, List.take_reverse]

/-- A log is determined by its tokens. -/
theorem eq_of_toList {log log' : TokenLog} (h : log.toList = log'.toList) : log = log' := by
  obtain ⟨tokens, size, hsize⟩ := log
  obtain ⟨tokens', size', hsize'⟩ := log'
  obtain rfl : tokens = tokens' := List.reverse_inj.mp h
  subst hsize hsize'
  rfl

/-- Tokens behind those of an older log are all that its size cuts off. -/
theorem truncate_size {log older : TokenLog} (h : older.toList <+: log.toList) :
    log.truncate older.size = older := by
  apply eq_of_toList
  rw [toList_truncate, size_eq_length]
  exact (List.prefix_iff_eq_take.mp h).symm

end TokenLog
end OutlineQuery
