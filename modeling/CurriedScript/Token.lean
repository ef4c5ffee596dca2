import CurriedScript.Literal

/-!
# Tokens

A token is a piece of source text with its kind, the literal it stands for if
it stands for one, and the line on which it ends.
-/

namespace CurriedScript

inductive TokenKind where
  | semicolon
  | comma
  | colon
  | pipe
  | bang
  | openBrace
  | closeBrace
  | openParen
  | closeParen
  | leftArrow
  | rightArrow
  | symbolic
  | useWord
  | letWord
  | endWord
  | condWord
  | identifier
  | typename
  | string
  | integer
  | float
  | builtin
  | eof
  deriving DecidableEq

def TokenKind.name : TokenKind → String
  | .semicolon => "Semicolon"
  | .comma => "Comma"
  | .colon => "Colon"
  | .pipe => "Pipe"
  | .bang => "Bang"
  | .openBrace => "OpenBrace"
  | .closeBrace => "CloseBrace"
  | .openParen => "OpenParen"
  | .closeParen => "CloseParen"
  | .leftArrow => "LeftArrow"
  | .rightArrow => "RightArrow"
  | .symbolic => "Symbolic"
  | .useWord => "Use"
  | .letWord => "Let"
  | .endWord => "End"
  | .condWord => "Cond"
  | .identifier => "Identifier"
  | .typename => "Typename"
  | .string => "String"
  | .integer => "Integer"
  | .float => "Float"
  | .builtin => "Builtin"
  | .eof => "Eof"

structure Token where
  kind : TokenKind
  lexeme : String
  literal : Option Literal
  line : Nat
  deriving DecidableEq

def Token.display (t : Token) : String :=
  let start := t.kind.name ++ " '" ++ t.lexeme ++ "'"
  match t.literal with
  | some literal => start ++ " " ++ literal.display
  | none => start

def Token.eof (line : Nat) : Token := ⟨.eof, "", none, line⟩

end CurriedScript
