import CurriedScript.Binary64.Basic

/-!
# Shortest decimal text

A finite number is written with the fewest digits that read back as it; of two
such decimals the nearer one, and the upper one of two that are equally near.
Numbers from 1e-4 up to 1e16 are written with a point and at least one digit
after it, others with an exponent.
-/

namespace CurriedScript.Binary64

/-- The decimals that round to a number, in quarters of a unit. The ends belong
to them if `closed`. -/
structure Interval where
  lower : Nat
  upper : Nat
  closed : Bool

/-- Half way to each neighbour. Below a power of two the neighbour is nearer. -/
def interval (units : Nat) : Interval :=
  let step := quantum units
  let narrow := units = Nat.pow 2 52 * step ∧ 1 < step
  ⟨4 * units - (if narrow then step else 2 * step), 4 * units + 2 * step, units / step % 2 = 0⟩

/-- Powers of ten are counted from here, so that none is a fraction. -/
def deepest : Nat := 400

def Interval.has (i : Interval) (coefficient place : Nat) : Bool :=
  let decimal := 4 * coefficient * Nat.pow 10 place * one
  let lower := i.lower * Nat.pow 10 deepest
  let upper := i.upper * Nat.pow 10 deepest
  if i.closed then lower ≤ decimal && decimal ≤ upper else lower < decimal && decimal < upper

/-- The coefficient at `place` that reads back as `units`, the nearer of two. -/
def onGrid? (units place : Nat) : Option Nat :=
  let step := Nat.pow 10 place * one
  let value := units * Nat.pow 10 deepest
  let below := value / step
  match (interval units).has below place, (interval units).has (below + 1) place with
  | true, true => some (if 2 * (value % step) < step then below else below + 1)
  | true, false => some below
  | false, true => some (below + 1)
  | false, false => none

def leadingPlace (units : Nat) : Nat :=
  (Nat.toDigits 10 (units * Nat.pow 10 deepest / one)).length - 1

/-- Coefficient and place of the shortest decimal. Seventeen digits are always enough. -/
def shortest (units : Nat) : Nat × Nat :=
  let top := leadingPlace units
  ((List.range 17).findSome? fun n => (onGrid? units (top - n)).map (·, top - n)).getD (0, deepest)

def zeros (n : Nat) : List Char := List.replicate n '0'

def positional (digits : List Char) (point : Int) : List Char :=
  if point ≤ 0 then ['0', '.'] ++ zeros (-point).toNat ++ digits
  else if digits.length ≤ point.toNat then digits ++ zeros (point.toNat - digits.length) ++ ['.', '0']
  else digits.take point.toNat ++ '.' :: digits.drop point.toNat

def scientific (digits : List Char) (exponent : Int) : List Char :=
  let coefficient :=
    match digits with
    | first :: second :: rest => first :: '.' :: second :: rest
    | digits => digits
  coefficient ++ 'e' :: exponent.repr.toList

def significant (coefficient : Nat) : List Char :=
  ((Nat.toDigits 10 coefficient).reverse.dropWhile (· = '0')).reverse

def magnitudeText (units : Nat) : List Char :=
  if units = 0 then ['0', '.', '0']
  else
    let (coefficient, place) := shortest units
    let point : Int := (Nat.toDigits 10 coefficient).length + place - deepest
    let digits := significant coefficient
    if -4 < point ∧ point ≤ 16 then positional digits point else scientific digits (point - 1)

def signText (negative : Bool) : List Char := if negative then ['-'] else []

def text : Binary64 → String
  | .nan => "NaN"
  | .infinite negative => String.ofList (signText negative ++ ['i', 'n', 'f'])
  | .finite negative units _ => String.ofList (signText negative ++ magnitudeText units)

end CurriedScript.Binary64
