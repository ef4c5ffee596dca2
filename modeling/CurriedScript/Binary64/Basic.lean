/-!
# Binary64 numbers

A finite number is a sign and a magnitude, a whole number of units of 2 ^ -1074
with at most 53 significant bits. Rounding goes to the nearest such magnitude,
a half to the even neighbour, and to infinity from 2 ^ 1024 on.
-/

namespace CurriedScript

namespace Binary64

/-- Units of 2 ^ -1074 that make up one. -/
def one : Nat := Nat.pow 2 1074

/-- Units from which on magnitudes are infinite. -/
def limit : Nat := Nat.pow 2 2098

/-- What separates the magnitudes with 53 significant bits around `units`. -/
def quantum (units : Nat) : Nat := Nat.pow 2 (units.log2 - 52)

def Representable (units : Nat) : Prop := quantum units ∣ units ∧ units < limit

end Binary64

inductive Binary64 where
  | nan
  | infinite (negative : Bool)
  | finite (negative : Bool) (units : Nat) (representable : Binary64.Representable units)
  deriving DecidableEq

namespace Binary64

/-- The whole number nearest to a quotient, the even one if two are. -/
def nearestEven (num den : Nat) : Nat :=
  if 2 * (num % den) < den then num / den
  else if den < 2 * (num % den) then num / den + 1
  else num / den + num / den % 2

def roundedUnits (num den : Nat) : Nat :=
  nearestEven num (den * quantum (num / den)) * quantum (num / den)

theorem quantum_dvd_of_le {m k : Nat} (h : m ≤ Nat.pow 2 53) :
    quantum (m * Nat.pow 2 k) ∣ m * Nat.pow 2 k := by
  simp only [quantum, Nat.pow_eq] at h ⊢
  by_cases hm : m = 0
  · simp [hm]
  have hpos : m * 2 ^ k ≠ 0 := Nat.mul_ne_zero hm (Nat.pos_iff_ne_zero.mp (Nat.two_pow_pos k))
  rcases Nat.lt_or_eq_of_le h with hlt | rfl
  · have hlog : (m * 2 ^ k).log2 < 53 + k := by
      rw [Nat.log2_lt hpos, Nat.pow_add]
      exact Nat.mul_lt_mul_of_pos_right hlt (Nat.two_pow_pos k)
    exact Nat.dvd_trans (Nat.pow_dvd_pow 2 (by omega)) (Nat.dvd_mul_left _ _)
  · rw [← Nat.pow_add, Nat.log2_two_pow]
    exact Nat.pow_dvd_pow 2 (by omega)

theorem nearestEven_le {num den : Nat} : nearestEven num den ≤ num / den + 1 := by
  unfold nearestEven
  split
  · omega
  · split <;> omega

theorem div_quantum_lt (units : Nat) : units / quantum units < Nat.pow 2 53 := by
  refine Nat.div_lt_of_lt_mul ?_
  rw [quantum, Nat.pow_eq, Nat.pow_eq, ← Nat.pow_add]
  exact Nat.lt_of_lt_of_le Nat.lt_log2_self (Nat.pow_le_pow_right (by omega) (by omega))

theorem quantum_dvd_roundedUnits (num den : Nat) :
    quantum (roundedUnits num den) ∣ roundedUnits num den := by
  refine quantum_dvd_of_le ?_
  have h := div_quantum_lt (num / den)
  rw [Nat.div_div_eq_div_mul] at h
  exact Nat.le_trans nearestEven_le h

def round (negative : Bool) (num den : Nat) : Binary64 :=
  if h : roundedUnits num den < limit then
    .finite negative (roundedUnits num den) ⟨quantum_dvd_roundedUnits num den, h⟩
  else .infinite negative

theorem limit_pos : 0 < limit := by
  unfold limit
  generalize 2098 = k
  exact Nat.two_pow_pos k

theorem representable_zero : Representable 0 := ⟨by decide, limit_pos⟩

def zero (negative : Bool) : Binary64 := .finite negative 0 representable_zero

def ofInt (n : Int) : Binary64 := round (n < 0) (n.natAbs * one) 1

def signed (negative : Bool) (units : Nat) : Int := if negative then -units else units

def neg : Binary64 → Binary64
  | .nan => .nan
  | .infinite negative => .infinite !negative
  | .finite negative units h => .finite (!negative) units h

/-- The exact sum, rounded once. A sum of zero is negative only if both terms are. -/
def add : Binary64 → Binary64 → Binary64
  | .nan, _ | _, .nan => .nan
  | .infinite a, .infinite b => if a = b then .infinite a else .nan
  | .infinite a, .finite .. => .infinite a
  | .finite .., .infinite b => .infinite b
  | .finite a m _, .finite b n _ =>
    let sum := signed a m + signed b n
    if sum = 0 then zero (a && b) else round (sum < 0) sum.natAbs 1

def sub (x y : Binary64) : Binary64 := add x y.neg

/-- Numeric order; nothing is below or above a NaN. -/
def lt : Binary64 → Binary64 → Bool
  | .nan, _ | _, .nan => false
  | .infinite a, .infinite b => a && !b
  | .infinite a, .finite .. => a
  | .finite .., .infinite b => !b
  | .finite a m _, .finite b n _ => signed a m < signed b n

/-- Numeric equality: the zeros are equal, a NaN equals nothing. -/
def equals : Binary64 → Binary64 → Bool
  | .infinite a, .infinite b => a = b
  | .finite a m _, .finite b n _ => signed a m = signed b n
  | _, _ => false

def equalsInt : Binary64 → Int → Bool
  | .finite negative units _, n => signed negative units = n * one
  | _, _ => false

end Binary64

end CurriedScript
