/-!
Why a production cannot go on. All reasons but one leave the other alternatives open.
-/

namespace OutlineQuery.Grammar

inductive Reason where
  | axis | stepType | stepTest | comparison | relation
  | modifierAtEnd | modifier (c : Char)
  | identifierAtEnd | identifier | keyword
  | text (expected : String)
  | escapeAtEnd | escape (c : Char)
  | digit | integerRange
  | endOfInput | expression
  | tooDeep
deriving DecidableEq

namespace Reason

def isFatal : Reason → Bool
  | .tooDeep => true
  | _ => false

def message : Reason → String
  | .axis => "expected axis"
  | .stepType => "expected step type"
  | .stepTest => "expected step type or predicate"
  | .comparison => "expected comparison predicate"
  | .relation => "expected relation"
  | .modifierAtEnd => "expected modifier, got EOF"
  | .modifier c => "invalid modifier: " ++ c.toString
  | .identifierAtEnd => "expected identifier, got EOF"
  | .identifier => "expected identifier"
  | .keyword => "unexpected keyword"
  | .text expected => "expected '" ++ expected ++ "'"
  | .escapeAtEnd => "expected character after '\\'"
  | .escape c => "invalid escape sequence '\\" ++ c.toString ++ "'"
  | .digit => "expected digit"
  | .integerRange => "integer out of range"
  | .endOfInput => "expected end of input"
  | .expression => "expected location expression or function call"
  | .tooDeep => "expression nested too deeply"

end Reason
end OutlineQuery.Grammar
