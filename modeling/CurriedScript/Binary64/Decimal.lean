import CurriedScript.Binary64.Basic

/-!
# Reading decimal text

A decimal has an optional sign, digits with at most one point among or around
them, and an optional exponent of ten; `inf`, `infinity` and `nan` are read in
any case. The result is the number nearest to the decimal.
-/

namespace CurriedScript.Binary64

/-- The number nearest to `digits * 10 ^ exponent`. Decimals far outside the
range are settled without forming the power. -/
def ofDecimal (negative : Bool) (digits : Nat) (exponent : Int) : Binary64 :=
  if digits = 0 then zero negative
  else if 400 ≤ exponent then .infinite negative
  else if exponent + digits.log2 < -401 then zero negative
  else round negative (digits * Nat.pow 10 exponent.toNat * one) (Nat.pow 10 (-exponent).toNat)

def spanDigits (text : List Char) : List Char × List Char :=
  (text.takeWhile Char.isDigit, text.dropWhile Char.isDigit)

def wholeDigits? (text : List Char) : Option Nat :=
  if text.isEmpty || text.any (!·.isDigit) then none else some (Nat.ofDigitChars 10 text 0)

def exponent? : List Char → Option Int
  | [] => some 0
  | e :: text =>
    if e = 'e' ∨ e = 'E' then
      match text with
      | '-' :: digits => (wholeDigits? digits).map fun n => -(n : Int)
      | '+' :: digits => (wholeDigits? digits).map Int.ofNat
      | digits => (wholeDigits? digits).map Int.ofNat
    else none

def unsigned? (negative : Bool) (text : List Char) : Option Binary64 :=
  let (whole, rest) := spanDigits text
  let (fraction, rest) :=
    match rest with
    | '.' :: rest => spanDigits rest
    | rest => ([], rest)
  if whole.isEmpty && fraction.isEmpty then none
  else (exponent? rest).map fun exponent =>
    ofDecimal negative (Nat.ofDigitChars 10 (whole ++ fraction) 0) (exponent - fraction.length)

def magnitude? (negative : Bool) (text : List Char) : Option Binary64 :=
  match text.map Char.toLower with
  | ['i', 'n', 'f'] | ['i', 'n', 'f', 'i', 'n', 'i', 't', 'y'] => some (.infinite negative)
  | ['n', 'a', 'n'] => some .nan
  | _ => unsigned? negative text

def ofText? : List Char → Option Binary64
  | '-' :: text => magnitude? true text
  | '+' :: text => magnitude? false text
  | text => magnitude? false text

end CurriedScript.Binary64
