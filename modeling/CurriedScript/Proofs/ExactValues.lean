import CurriedScript.Value
import Mathlib

/-!
# Exact values

What numbers are worth exactly, as extended reals: `Binary64.worth?`. Binary64 numbers
are ordered and equal as these are. Values are equal if they are the same datum, in which
a number is what it is worth, whatever its kind (`equals_iff_datum`). So equality is a
partial equivalence.
-/

namespace CurriedScript

namespace Binary64

theorem one_pos : 0 < one := by
  unfold one
  generalize 1074 = k
  exact Nat.two_pow_pos k

noncomputable def ofUnits (k : Int) : EReal := ((k / one : ℝ) : EReal)

theorem ofUnits_lt_ofUnits {j k : Int} : ofUnits j < ofUnits k ↔ j < k := by
  have hone : (0 : ℝ) < one := by exact_mod_cast one_pos
  unfold ofUnits
  rw [EReal.coe_lt_coe_iff, div_lt_div_iff_of_pos_right hone, Int.cast_lt]

theorem ofUnits_strictMono : StrictMono ofUnits := fun _ _ h => ofUnits_lt_ofUnits.mpr h

theorem ofUnits_mul_one (n : Int) : ofUnits (n * one) = ((n : ℝ) : EReal) := by
  have hone : (one : ℝ) ≠ 0 := by exact_mod_cast one_pos.ne'
  unfold ofUnits
  rw [Int.cast_mul, Int.cast_natCast, mul_div_cancel_right₀ _ hone]

noncomputable def worth? : Binary64 → Option EReal
  | .nan => none
  | .infinite true => some ⊥
  | .infinite false => some ⊤
  | .finite negative units _ => some (ofUnits (signed negative units))

theorem bot_lt_ofUnits (k : Int) : ⊥ < ofUnits k := EReal.bot_lt_coe _

theorem ofUnits_lt_top (k : Int) : ofUnits k < ⊤ := EReal.coe_lt_top _

theorem lt_iff {x y : Binary64} {p q : EReal} (hp : x.worth? = some p) (hq : y.worth? = some q) :
    x.lt y ↔ p < q := by
  cases x with
  | nan => cases hp
  | infinite a =>
    cases y with
    | nan => cases hq
    | infinite b => cases a <;> cases b <;> cases hp <;> cases hq <;> simp [lt]
    | finite b n hn => cases a <;> cases hp <;> cases hq <;> simp [lt, bot_lt_ofUnits]
  | finite a m hm =>
    cases y with
    | nan => cases hq
    | infinite b => cases b <;> cases hp <;> cases hq <;> simp [lt, ofUnits_lt_top]
    | finite b n hn =>
      cases hp
      cases hq
      simp [lt, ofUnits_lt_ofUnits]

theorem equals_iff {x y : Binary64} : x.equals y ↔ ∃ q, x.worth? = some q ∧ y.worth? = some q := by
  cases x with
  | nan => simp [equals, worth?]
  | infinite a =>
    cases y with
    | nan => simp [equals, worth?]
    | infinite b => cases a <;> cases b <;> simp [equals, worth?]
    | finite b n hn =>
      cases a <;> simp [equals, worth?, (bot_lt_ofUnits _).ne', (ofUnits_lt_top _).ne]
  | finite a m hm =>
    cases y with
    | nan => simp [equals, worth?]
    | infinite b => cases b <;> simp [equals, worth?, (bot_lt_ofUnits _).ne, (ofUnits_lt_top _).ne']
    | finite b n hn => simp [equals, worth?, ofUnits_strictMono.injective.eq_iff, eq_comm]

theorem equalsInt_iff {x : Binary64} {n : Int} : x.equalsInt n ↔ x.worth? = some ((n : ℝ) : EReal) := by
  cases x with
  | nan => exact iff_of_false Bool.false_ne_true nofun
  | infinite a =>
    refine iff_of_false Bool.false_ne_true ?_
    cases a <;> simp [worth?]
  | finite a m hm =>
    rw [worth?, ← ofUnits_mul_one, Option.some_inj, ofUnits_strictMono.injective.eq_iff]
    exact decide_eq_true_iff

theorem worth?_eq_none {x : Binary64} : x.worth? = none ↔ x = .nan := by
  cases x with
  | infinite a => cases a <;> simp [worth?]
  | _ => simp [worth?]

end Binary64

/-! ## Data -/

/-- What equality compares. -/
inductive Datum where
  | string (text : String)
  | number (worth : EReal)
  | boolean (b : Bool)
  | bang
  | nothing

namespace Value

noncomputable def datum? : Value → Option Datum
  | .string text => some (.string text)
  | .integer n => some (.number ((n : ℝ) : EReal))
  | .float x => x.worth?.map .number
  | .boolean b => some (.boolean b)
  | .bang => some .bang
  | .nothing => some .nothing
  | .closure .. => none
  | .builtin _ => none

/-- Values are equal if they are the same datum. -/
theorem equals_iff_datum {a b : Value} : a.equals b ↔ ∃ d, a.datum? = some d ∧ b.datum? = some d := by
  cases a <;> cases b <;> simp [equals, datum?, Binary64.equals_iff, Binary64.equalsInt_iff] <;> exact eq_comm

theorem datum?_eq_none {a : Value} : a.datum? = none ↔ a.kind = .function ∨ a.kind = .builtin ∨
    a = .float .nan := by
  cases a <;> simp [datum?, kind, Binary64.worth?_eq_none]

end Value

/-- **Equality is a partial equivalence.** It is symmetric, it is transitive across all
kinds of numbers, and a value is equal to itself unless it is a function, a builtin or
a NaN. -/
theorem equals_partialEquivalence :
    (∀ a b : Value, a.equals b = b.equals a) ∧
      (∀ a b c : Value, a.equals b → b.equals c → a.equals c) ∧
      ∀ a : Value, a.equals a ↔ a.kind ≠ .function ∧ a.kind ≠ .builtin ∧ a ≠ .float .nan := by
  refine ⟨fun a b => ?_, fun a b c hab hbc => ?_, fun a => ?_⟩
  · rw [Bool.eq_iff_iff, Value.equals_iff_datum, Value.equals_iff_datum]
    exact exists_congr fun d => and_comm
  · obtain ⟨d, ha, hb⟩ := Value.equals_iff_datum.mp hab
    obtain ⟨e, hb', hc⟩ := Value.equals_iff_datum.mp hbc
    cases hb.symm.trans hb'
    exact Value.equals_iff_datum.mpr ⟨d, ha, hc⟩
  · have hdatum : a.equals a ↔ a.datum? ≠ none := by
      rw [Value.equals_iff_datum, Option.ne_none_iff_exists']
      simp
    rw [hdatum, Ne, Value.datum?_eq_none]
    simp only [not_or, ne_eq]

/-- The zeros are equal because both equal the whole number. -/
theorem signedZeros_equal :
    (Value.float (.zero true)).equals (.integer 0) ∧ (Value.integer 0).equals (.float (.zero false)) ∧
      (Value.float (.zero true)).equals (.float (.zero false)) := by
  have hnegative : (Value.float (.zero true)).equals (.integer 0) := by decide +kernel
  have hpositive : (Value.integer 0).equals (.float (.zero false)) := by decide +kernel
  exact ⟨hnegative, hpositive, equals_partialEquivalence.2.1 _ _ _ hnegative hpositive⟩

end CurriedScript
