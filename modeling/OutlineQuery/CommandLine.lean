import OutlineQuery.Diagnostic.Format
import OutlineQuery.Expression.Inspect
import OutlineQuery.Expression.Json

/-!
The command line: a command with options and one expression, which stands behind `--` if it could
be taken for an option.
-/

namespace OutlineQuery.CommandLine

inductive Command where
  | parse (json quiet : Bool)
  | tokens (json : Bool)
  | validate (format : Diagnostic.Format)

structure Invocation where
  command : Command
  limit : Nat
  expression : String

structure Outcome where
  exit : UInt32
  stdout : String
  stderr : String

structure Arguments where
  json : Bool
  quiet : Bool
  format : Option String
  limit : Option String
  others : List String

namespace Arguments

def none : Arguments := ⟨false, false, .none, .none, []⟩

def setFormat (a : Arguments) (value : String) : Option Arguments :=
  if a.format.isSome then .none else some { a with format := some value }

def setLimit (a : Arguments) (value : String) : Option Arguments :=
  if a.limit.isSome then .none else some { a with limit := some value }

def addSingle (a : Arguments) (argument : String) : Option Arguments :=
  if argument = "--json" ∨ argument = "-j" then
    if a.json then .none else some { a with json := true }
  else if argument = "--quiet" ∨ argument = "-q" then
    if a.quiet then .none else some { a with quiet := true }
  else if argument.startsWith "--format=" then
    a.setFormat (String.ofList (argument.toList.drop 9))
  else if argument.startsWith "--max-depth=" then
    a.setLimit (String.ofList (argument.toList.drop 12))
  else if argument.startsWith "-" ∧ argument ≠ "-" then .none
  else some { a with others := a.others ++ [argument] }

def read (a : Arguments) : List String → Option Arguments
  | [] => some a
  | "--" :: rest => some { a with others := a.others ++ rest }
  | "--format" :: value :: rest => (a.setFormat value).bind (read · rest)
  | "-f" :: value :: rest => (a.setFormat value).bind (read · rest)
  | "--max-depth" :: value :: rest => (a.setLimit value).bind (read · rest)
  | argument :: rest => (a.addSingle argument).bind (read · rest)

def limit? (a : Arguments) : Option Nat :=
  match a.limit with
  | .none => some defaultLimit
  | some text =>
    let digits := text.toList
    if digits.isEmpty ∨ !digits.all Char.isDigit then .none
    else
      let n := Grammar.digitsValue digits
      if 1 ≤ n ∧ n < 0x100000000 then some n else .none

def command? (a : Arguments) (name : String) : Option Command :=
  match name, a.json, a.quiet, a.format with
  | "parse", json, quiet, .none => some (.parse json quiet)
  | "tokens", json, false, .none => some (.tokens json)
  | "validate", false, false, .none => some (.validate .text)
  | "validate", false, false, some format => (Diagnostic.Format.ofName? format).map .validate
  | _, _, _, _ => .none

def invocation? (a : Arguments) : Option Invocation :=
  match a.others with
  | [name, expression] => do return ⟨← a.command? name, ← a.limit?, expression⟩
  | _ => .none

end Arguments

def usage : String :=
  "usage: parse|tokens|validate [--max-depth=N] [--json] [--quiet] [--format=F] -- EXPRESSION\n"

def showExpression (e : Expression) (json : Bool) : String :=
  (if json then e.toJson.pretty else e.form.indented) ++ "\n"

def showTokens (tokens : List Token) (json : Bool) : String :=
  if json then (Json.arr (tokens.map Token.toJson)).pretty ++ "\n"
  else String.join (tokens.map (·.line ++ "\n"))

def Invocation.run (i : Invocation) : Outcome :=
  let reading := parse i.limit i.expression
  match i.command, reading.result with
  | .parse json quiet, .ok e =>
    ⟨0, showExpression e json, if quiet then "" else "Expression: " ++ i.expression ++ "\n"⟩
  | .parse _ _, .error e => ⟨1, "", e.render ++ "\n"⟩
  | .tokens json, .ok _ => ⟨0, showTokens reading.tokens json, ""⟩
  | .tokens json, .error e => ⟨1, showTokens reading.tokens json, e.render ++ "\n"⟩
  | .validate format, .ok _ => ⟨0, if format = .json then "[]\n" else "VALID\n", ""⟩
  | .validate format, .error e => ⟨1, e.toDiagnostic.format format true ++ "\n", ""⟩

def run (arguments : List String) : Outcome :=
  match (Arguments.none.read arguments).bind (·.invocation?) with
  | some invocation => invocation.run
  | none => ⟨2, "", usage⟩

end OutlineQuery.CommandLine
