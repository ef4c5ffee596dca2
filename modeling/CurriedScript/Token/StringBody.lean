import CurriedScript.Error

/-!
# String bodies

A string runs from its opening quote to the next quote that no backslash
escapes. The body is cut into pieces, each a character that stands for itself or
an escape; the first bad piece is the fault of the whole.
-/

namespace CurriedScript

structure StringBody where
  value : List Char
  text : List Char
  rest : List Char

def StringBody.cons (value : Char) (piece : List Char) (body : StringBody) : StringBody :=
  ⟨value :: body.value, piece ++ body.text, body.rest⟩

def shortEscape? : Char → Option Char
  | 'n' => some '\n'
  | 'r' => some '\r'
  | 't' => some '\t'
  | '\\' => some '\\'
  | '"' => some '"'
  | _ => none

def hexValue? (c : Char) : Option Nat :=
  if c.isDigit then some (c.toNat - '0'.toNat)
  else if 'a' ≤ c ∧ c ≤ 'f' then some (c.toNat - 'a'.toNat + 10)
  else if 'A' ≤ c ∧ c ≤ 'F' then some (c.toNat - 'A'.toNat + 10)
  else none

def hexEscape (a b c d : Char) : Except LexFault Char :=
  match hexValue? a, hexValue? b, hexValue? c, hexValue? d with
  | some a, some b, some c, some d =>
    let n := ((a * 16 + b) * 16 + c) * 16 + d
    if n.isValidChar then .ok (Char.ofNat n) else .error (.invalidCodePoint n)
  | _, _, _, _ => .error .truncatedEscape

def stringBody : List Char → Except LexFault StringBody
  | [] => .error .unterminatedString
  | '"' :: rest => .ok ⟨[], ['"'], rest⟩
  | '\\' :: 'x' :: a :: b :: c :: d :: rest => do
    let value ← hexEscape a b c d
    let body ← stringBody rest
    return body.cons value ['\\', 'x', a, b, c, d]
  | '\\' :: 'x' :: _ => .error .truncatedEscape
  | ['\\'] => .error .unterminatedString
  | '\\' :: letter :: rest =>
    match shortEscape? letter with
    | none => .error (.invalidEscape letter)
    | some value => do
      let body ← stringBody rest
      return body.cons value ['\\', letter]
  | c :: rest => do
    let body ← stringBody rest
    return body.cons c [c]

end CurriedScript
