import OutlineQuery.Text.Ranges

/-!
Identifiers, symbols and reserved words of the query language.
An identifier is one `isStart` character followed by `isRest` characters.
-/

namespace OutlineQuery.Text

def identifierStart : Ranges := #[
  (0x3A, 0x3A), (0x41, 0x5A), (0x5F, 0x5F), (0x61, 0x7A), (0xC0, 0xD6), (0xD8, 0xF6),
  (0xF8, 0x2FF), (0x370, 0x37D), (0x37F, 0x1FFF), (0x200C, 0x200D), (0x2070, 0x218F),
  (0x2C00, 0x2FEF), (0x3001, 0xD7FF), (0xF900, 0xFDCF), (0xFDF0, 0xFFFD)]

def identifierExtra : Ranges := #[
  (0x2D, 0x2E), (0x30, 0x39), (0xB7, 0xB7), (0x300, 0x36F), (0x203F, 0x2040)]

def isStart (c : Char) : Bool := identifierStart.covers c.toNat

def isRest (c : Char) : Bool := isStart c || identifierExtra.covers c.toNat

def symbols : List Char :=
  "0123456789~`!#$%^&*-+=\x7b\x7d|\\;',.?".toList

def isSymbol (c : Char) : Bool := symbols.contains c

def reservedWords : List String :=
  ["beginswith", "endswith", "contains", "matches", "heading", "union", "except", "intersect",
    "and", "or", "not"]

def reservedOperators : List String := ["=", "!=", "<=", ">=", "<", ">"]

def startsWithWord (word : String) (text : List Char) : Bool :=
  word.toList.isPrefixOf text && !((text.drop word.length).head?.any isRest)

def startsReserved (text : List Char) : Bool :=
  reservedOperators.any (·.toList.isPrefixOf text) || reservedWords.any (startsWithWord · text)

end OutlineQuery.Text
