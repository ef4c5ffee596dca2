import CurriedScript.Text.Letter
import CurriedScript.Text.Numeric
import CurriedScript.Token

/-!
# Classes of characters

What a character can do at the start of a token and inside one. Letters are
alphabetic in any script, and number characters of any script count as parts of
a name, but only the ASCII digits make numbers.
-/

namespace CurriedScript

def isBlank (c : Char) : Bool := c = ' ' || c = '\t' || c = '\r' || c = '\n' || c = '\x0c'

def punctuation? : Char → Option TokenKind
  | ';' => some .semicolon
  | ',' => some .comma
  | '(' => some .openParen
  | ')' => some .closeParen
  | '{' => some .openBrace
  | '}' => some .closeBrace
  | _ => none

def isNameChar (c : Char) : Bool :=
  Text.isAlphabetic c || Text.isNumeric c || c = '\'' || c = '_'

/-- The characters beyond ASCII whose UTF-8 encoding starts with the same byte as that
of some letter or number character. The first bytes left out are CC, EE and F1 to F4. -/
def nameLeadRanges : Text.Ranges := [(0x80, 0x2FF), (0x340, 0xDFFF), (0xF000, 0x3FFFF)]

/-- The first byte of the character does not tell it from a character of a name. -/
def startsLikeNameChar (c : Char) : Bool := nameLeadRanges.has c.toNat

def isNumberChar (c : Char) : Bool := c.isDigit || c = '.'

def isSymbolChar (c : Char) : Bool :=
  !(isBlank c || (punctuation? c).isSome || c = '"' || Text.isAlphabetic c || Text.isNumeric c)

def isCommentMark (c d : Char) : Bool := (c = '/' && d = '*') || (c = '*' && d = '/')

def newlines (text : List Char) : Nat := text.count '\n'

end CurriedScript
