import CurriedScript.Builtin.Run
import CurriedScript.Proofs.ExactValues

/-!
# Order of numbers

Two numbers are compared by what they are worth, but a whole number is rounded before
it is compared with a float. Rounding does not go past a binary64 number
(`worth_rounded`), so it can only make two numbers level that are not equal
(`gt_decided`).
-/

namespace CurriedScript

namespace Binary64

/-! ## Rounding -/

variable {u N : Nat}

theorem quantum_pos (N : Nat) : 0 < quantum N := Nat.two_pow_pos _

theorem quantum_dvd_of_log2_le (hu : quantum u ∣ u) (h : N.log2 ≤ u.log2) : quantum N ∣ u :=
  (Nat.pow_dvd_pow 2 (Nat.sub_le_sub_right h 52)).trans hu

theorem nearestEven_of_dvd {num den : Nat} (hden : 0 < den) (h : den ∣ num) : nearestEven num den = num / den := by
  unfold nearestEven
  rw [Nat.mod_eq_zero_of_dvd h, Nat.mul_zero, if_pos hden]

theorem div_le_nearestEven (num den : Nat) : num / den ≤ nearestEven num den := by
  unfold nearestEven
  split
  · exact Nat.le_refl _
  · split
    · exact Nat.le_succ _
    · exact Nat.le_add_right _ _

theorem roundedUnits_one (N : Nat) : roundedUnits N 1 = nearestEven N (quantum N) * quantum N := by
  rw [roundedUnits, Nat.div_one, Nat.one_mul]

/-- Rounding up stops at the next multiple of the quantum. -/
theorem roundedUnits_le (hu : quantum u ∣ u) (h : N ≤ u) : roundedUnits N 1 ≤ u := by
  have hlog : N.log2 ≤ u.log2 := by
    rw [Nat.log2_eq_log_two, Nat.log2_eq_log_two]
    exact Nat.log_mono_right h
  obtain ⟨k, hk⟩ := quantum_dvd_of_log2_le hu hlog
  have hq := quantum_pos N
  rw [roundedUnits_one]
  by_cases hdvd : quantum N ∣ N
  · rw [nearestEven_of_dvd hq hdvd, Nat.div_mul_cancel hdvd]
    exact h
  · have hne : N ≠ quantum N * k := fun heq => hdvd ⟨k, heq⟩
    have hlt : N / quantum N < k := by
      rw [Nat.div_lt_iff_lt_mul hq, Nat.mul_comm]
      omega
    calc
      nearestEven N (quantum N) * quantum N ≤ k * quantum N := Nat.mul_le_mul_right _ (nearestEven_le.trans hlt)
      _ = u := by rw [hk, Nat.mul_comm]

/-- A multiple of the quantum of a smaller number is below the power of two at which the
quantum grows. -/
theorem le_roundedUnits (hu : quantum u ∣ u) (h : u ≤ N) : u ≤ roundedUnits N 1 := by
  have hdown : ∀ v ≤ N, quantum N ∣ v → v ≤ roundedUnits N 1 := fun v hv hdvd => calc
    v = v / quantum N * quantum N := (Nat.div_mul_cancel hdvd).symm
    _ ≤ N / quantum N * quantum N := Nat.mul_le_mul_right _ (Nat.div_le_div_right hv)
    _ ≤ nearestEven N (quantum N) * quantum N := Nat.mul_le_mul_right _ (div_le_nearestEven _ _)
    _ = roundedUnits N 1 := (roundedUnits_one N).symm
  by_cases hN : N = 0
  · omega
  by_cases hlog : N.log2 ≤ u.log2
  · exact hdown u h (quantum_dvd_of_log2_le hu hlog)
  · have hpower : u < 2 ^ N.log2 := by
      by_cases hzero : u = 0
      · rw [hzero]
        exact Nat.two_pow_pos _
      · exact (Nat.log2_lt hzero).mp (Nat.lt_of_not_le hlog)
    refine hpower.le.trans (hdown _ (Nat.log2_self_le hN) ?_)
    exact Nat.pow_dvd_pow 2 (Nat.sub_le _ 52)

theorem signed_natAbs (n : Int) : signed (n < 0) (n.natAbs * one) = n * one := by
  unfold signed
  split
  · next h => rw [Int.natCast_mul, Int.ofNat_natAbs_of_nonpos (of_decide_eq_true h).le, Int.neg_mul, Int.neg_neg]
  · next h => rw [Int.natCast_mul, Int.natAbs_of_nonneg (by simpa using h)]

theorem signed_rounded (negative sign : Bool) (N : Nat) (hu : quantum u ∣ u) :
    (signed negative N ≤ signed sign u → signed negative (roundedUnits N 1) ≤ signed sign u) ∧
      (signed sign u ≤ signed negative N → signed sign u ≤ signed negative (roundedUnits N 1)) := by
  have hup : N ≤ u → roundedUnits N 1 ≤ u := roundedUnits_le hu
  have hdown : u ≤ N → u ≤ roundedUnits N 1 := le_roundedUnits hu
  generalize roundedUnits N 1 = R at hup hdown
  cases negative <;> cases sign <;> simp only [signed, Bool.false_eq_true, if_false, if_true] <;> omega

theorem round_eq_finite {negative sign : Bool} {num den u : Nat} {hu : Representable u}
    (h : round negative num den = .finite sign u hu) : negative = sign ∧ roundedUnits num den = u := by
  unfold round at h
  split at h
  · cases h
    exact ⟨rfl, rfl⟩
  · cases h

/-- The float of a whole number is finite. -/
theorem floatOf_eq_ok {n : Int} {y : Binary64} (h : Primitive.floatOf n = .ok y) :
    ofInt n = y ∧ ∃ sign u hu, y = .finite sign u hu := by
  obtain ⟨f, hf⟩ : ∃ f, f = Primitive.floatOf := ⟨_, rfl⟩
  rw [← hf] at h
  -- unfolded without its argument, with which the kernel would compute
  delta Primitive.floatOf at hf
  subst hf
  dsimp only at h
  generalize ofInt n = x at h ⊢
  cases x with
  | finite sign u hu =>
    cases h
    exact ⟨rfl, sign, u, hu, rfl⟩
  | _ => cases h

theorem floatOf_of_equalsInt {n m : Int} (h : (ofInt n).equalsInt m) : Primitive.floatOf n = .ok (ofInt n) := by
  obtain ⟨f, hf⟩ : ∃ f, f = Primitive.floatOf := ⟨_, rfl⟩
  rw [← hf]
  delta Primitive.floatOf at hf
  subst hf
  dsimp only
  generalize ofInt n = x at h ⊢
  cases x with
  | finite => rfl
  | _ => cases h

theorem units_of_floatOf {n : Int} {y : Binary64} (h : Primitive.floatOf n = .ok y) :
    ∃ hu, y = .finite (n < 0) (roundedUnits (n.natAbs * one) 1) hu := by
  obtain ⟨rfl, sign, u, hu, hy⟩ := floatOf_eq_ok h
  obtain ⟨rfl, rfl⟩ := round_eq_finite hy
  exact ⟨hu, hy⟩

/-- A whole number stays on its side of every binary64 number when it is rounded, or
comes to be that number. -/
theorem worth_rounded {n : Int} {x y : Binary64} {p q : EReal} (h : Primitive.floatOf n = .ok y)
    (hp : y.worth? = some p) (hq : x.worth? = some q) :
    (((n : ℝ) : EReal) ≤ q → p ≤ q) ∧ (q ≤ ((n : ℝ) : EReal) → q ≤ p) := by
  obtain ⟨hr, rfl⟩ := units_of_floatOf h
  cases hp
  cases x with
  | nan => cases hq
  | infinite sign => cases sign <;> cases hq <;> simp
  | finite sign u hu =>
    cases hq
    rw [← ofUnits_mul_one, ← signed_natAbs]
    simp only [ofUnits_strictMono.le_iff_le]
    exact signed_rounded _ sign _ hu.1

theorem exists_worth_of_floatOf {n : Int} {y : Binary64} (h : Primitive.floatOf n = .ok y) :
    ∃ p, y.worth? = some p := by
  obtain ⟨hr, rfl⟩ := units_of_floatOf h
  exact ⟨_, rfl⟩

end Binary64

/-! ## Comparison -/

def RoundsTo (n : Int) (x : Binary64) : Prop := ∃ y, Primitive.floatOf n = .ok y ∧ y.equals x ∧ ¬ x.equalsInt n

section
variable {n : Int} {x y : Binary64} {p q : EReal} (h : Primitive.floatOf n = .ok y) (hp : y.worth? = some p)
  (hq : x.worth? = some q)
include h hp hq

theorem roundsTo_iff : RoundsTo n x ↔ p = q ∧ q ≠ ((n : ℝ) : EReal) := by
  have hn : x.equalsInt n ↔ q = ((n : ℝ) : EReal) := by rw [Binary64.equalsInt_iff, hq, Option.some_inj]
  have hx : y.equals x ↔ p = q := by
    rw [Binary64.equals_iff, hp, hq]
    simp [eq_comm]
  constructor
  · rintro ⟨z, hz, hzx, hne⟩
    cases h.symm.trans hz
    exact ⟨hx.mp hzx, mt hn.mpr hne⟩
  · rintro ⟨heq, hne⟩
    exact ⟨y, h, hx.mpr heq, mt hn.mp hne⟩

theorem lt_rounded : x.lt y ↔ q < ((n : ℝ) : EReal) ∧ ¬ RoundsTo n x := by
  obtain ⟨hup, hdown⟩ := Binary64.worth_rounded h hp hq
  rw [Binary64.lt_iff hq hp, roundsTo_iff h hp hq]
  constructor
  · intro hlt
    exact ⟨lt_of_not_ge fun hle => hlt.not_ge (hup hle), fun hr => hlt.ne' hr.1⟩
  · rintro ⟨hlt, hr⟩
    exact lt_of_le_of_ne (hdown hlt.le) fun heq => hr ⟨heq.symm, hlt.ne⟩

theorem rounded_lt : y.lt x ↔ ((n : ℝ) : EReal) < q ∧ ¬ RoundsTo n x := by
  obtain ⟨hup, hdown⟩ := Binary64.worth_rounded h hp hq
  rw [Binary64.lt_iff hp hq, roundsTo_iff h hp hq]
  constructor
  · intro hlt
    exact ⟨lt_of_not_ge fun hle => hlt.not_ge (hdown hle), fun hr => hlt.ne hr.1⟩
  · rintro ⟨hlt, hr⟩
    exact lt_of_le_of_ne (hup hlt.le) fun heq => hr ⟨heq, hlt.ne'⟩

end

namespace Value

/-- The value is a number worth so much, and either a float or a whole number that can be
rounded to one. -/
inductive Measures : Value → EReal → Prop
  | integer {n : Int} {y : Binary64} : Primitive.floatOf n = .ok y → Measures (.integer n) ((n : ℝ) : EReal)
  | float {x : Binary64} {q : EReal} : x.worth? = some q → Measures (.float x) q

inductive Level : Value → Value → Prop
  | integer {n : Int} {x : Binary64} : RoundsTo n x → Level (.integer n) (.float x)
  | float {n : Int} {x : Binary64} : RoundsTo n x → Level (.float x) (.integer n)

variable {a b : Value} {p q : EReal}

theorem level_integer {n : Int} {x : Binary64} : Level (.integer n) (.float x) ↔ RoundsTo n x :=
  ⟨fun h => by cases h; assumption, .integer⟩

theorem level_float {n : Int} {x : Binary64} : Level (.float x) (.integer n) ↔ RoundsTo n x :=
  ⟨fun h => by cases h; assumption, .float⟩

theorem Level.symm (h : Level a b) : Level b a := by
  cases h with
  | integer h => exact .float h
  | float h => exact .integer h

theorem Level.not_equals (h : Level a b) : ¬ a.equals b := by
  cases h with
  | integer h => exact h.choose_spec.2.2
  | float h => exact h.choose_spec.2.2

theorem Measures.datum? (h : a.Measures p) : a.datum? = some (.number p) := by
  cases h with
  | integer _ => rfl
  | float hx => rw [Value.datum?, hx, Option.map_some]

theorem equals_iff_worth (ha : a.Measures p) (hb : b.Measures q) : a.equals b ↔ p = q := by
  rw [equals_iff_datum, ha.datum?, hb.datum?]
  simp [eq_comm]

/-- The first number is greater unless rounding makes them level. -/
theorem gt_iff (ha : a.Measures p) (hb : b.Measures q) :
    ∃ above : Bool, (∀ host, Primitive.gt.run host [a, b] = pure (.boolean above)) ∧
      (above ↔ q < p ∧ ¬ Level a b) := by
  cases ha with
  | @integer n y hn =>
    cases hb with
    | @integer m z hm =>
      have hlevel : ¬ Level (.integer n) (.integer m) := nofun
      refine ⟨m < n, fun _ => rfl, ?_⟩
      simp [hlevel]
    | @float x q hq =>
      obtain ⟨r, hr⟩ := Binary64.exists_worth_of_floatOf hn
      refine ⟨x.lt y, fun host => ?_, ?_⟩
      · simp only [Primitive.run, Primitive.gtValues, hn]
        rfl
      · rw [lt_rounded hn hr hq, level_integer]
  | @float x p hp =>
    cases hb with
    | @integer n y hn =>
      obtain ⟨r, hr⟩ := Binary64.exists_worth_of_floatOf hn
      refine ⟨y.lt x, fun host => ?_, ?_⟩
      · simp only [Primitive.run, Primitive.gtValues, hn]
        rfl
      · rw [rounded_lt hn hr hp, level_float]
    | @float w q hq =>
      have hlevel : ¬ Level (.float x) (.float w) := nofun
      refine ⟨w.lt x, fun _ => rfl, ?_⟩
      simp [hlevel, Binary64.lt_iff hq hp]

end Value

/-- Of three answers the one that two numbers call for is yes: the first is above the
second, it is below, they are the same. -/
inductive Decided (p q : EReal) : Bool → Bool → Bool → Prop
  | above : q < p → Decided p q true false false
  | below : p < q → Decided p q false true false
  | same : p = q → Decided p q false false true

/-- **Order agrees with equality,** but for rounding. Of two numbers either is greater or
they are equal, as what they are worth has it. If one is a whole number and the other a
float that it is rounded to without being equal to it, none of the three holds. -/
theorem gt_decided {a b : Value} {p q : EReal} (ha : a.Measures p) (hb : b.Measures q) (host : Host) :
    ∃ above below same : Bool,
      Primitive.gt.run host [a, b] = pure (.boolean above) ∧ Primitive.gt.run host [b, a] = pure (.boolean below) ∧
      Primitive.eq.run host [a, b] = pure (.boolean same) ∧
      (¬ a.Level b → Decided p q above below same) ∧
      (a.Level b → p ≠ q ∧ above = false ∧ below = false ∧ same = false) := by
  obtain ⟨above, habove, hgt⟩ := Value.gt_iff ha hb
  obtain ⟨below, hbelow, hlt⟩ := Value.gt_iff hb ha
  have heq := Value.equals_iff_worth ha hb
  refine ⟨above, below, a.equals b, habove host, hbelow host, rfl, fun hlevel => ?_, fun hlevel => ?_⟩
  · have hlevel' : ¬ b.Level a := mt Value.Level.symm hlevel
    rcases lt_trichotomy p q with hpq | hpq | hpq
    · obtain rfl : above = false := Bool.eq_false_iff.mpr fun h => hpq.not_gt (hgt.mp h).1
      obtain rfl : below = true := hlt.mpr ⟨hpq, hlevel'⟩
      rw [Bool.eq_false_iff.mpr fun h => hpq.ne (heq.mp h)]
      exact .below hpq
    · obtain rfl : above = false := Bool.eq_false_iff.mpr fun h => (hgt.mp h).1.ne' hpq
      obtain rfl : below = false := Bool.eq_false_iff.mpr fun h => (hlt.mp h).1.ne hpq
      rw [heq.mpr hpq]
      exact .same hpq
    · obtain rfl : above = true := hgt.mpr ⟨hpq, hlevel⟩
      obtain rfl : below = false := Bool.eq_false_iff.mpr fun h => hpq.not_gt (hlt.mp h).1
      rw [Bool.eq_false_iff.mpr fun h => hpq.ne' (heq.mp h)]
      exact .above hpq
  · have hne : ¬ a.equals b := hlevel.not_equals
    exact ⟨mt heq.mpr hne, Bool.eq_false_iff.mpr fun h => (hgt.mp h).2 hlevel,
      Bool.eq_false_iff.mpr fun h => (hlt.mp h).2 hlevel.symm, Bool.eq_false_iff.mpr hne⟩

/-- Half way between two floats a whole number is rounded up, and is greater than the lower
one of them. -/
theorem roundedUp_decided :
    let a := Value.integer 9007199254740995
    let b := Value.float (.ofInt 9007199254740994)
    ∃ p q, a.Measures p ∧ b.Measures q ∧ ¬ a.Level b ∧ q < p ∧
      ∀ host, Primitive.gt.run host [a, b] = pure (.boolean true) ∧
        Primitive.eq.run host [a, b] = pure (.boolean false) := by
  intro a b
  have ha : a.Measures ((9007199254740995 : Int) : ℝ) :=
    .integer (Binary64.floatOf_of_equalsInt (m := 9007199254740996) (by decide +kernel))
  have hb : b.Measures ((9007199254740994 : Int) : ℝ) := .float (Binary64.equalsInt_iff.mp (by decide +kernel))
  have hlevel : ¬ a.Level b := by
    intro h
    obtain ⟨y, hy, heq, _⟩ := Value.level_integer.mp h
    obtain rfl := (Binary64.floatOf_eq_ok hy).1
    exact absurd heq (by decide +kernel)
  have hlt : (((9007199254740994 : Int) : ℝ) : EReal) < ((9007199254740995 : Int) : ℝ) := by
    rw [EReal.coe_lt_coe_iff]
    norm_num
  refine ⟨_, _, ha, hb, hlevel, hlt, fun host => ?_⟩
  obtain ⟨above, below, same, hgt, _, heq, hdecided, _⟩ := gt_decided ha hb host
  cases hdecided hlevel with
  | above _ => exact ⟨hgt, heq⟩
  | below h => exact absurd h hlt.not_gt
  | same h => exact absurd h hlt.ne'

/-- One above a float that it is rounded to, a whole number is not greater than the float,
nor is it less or equal. -/
theorem roundedDown_undecided :
    let a := Value.integer 9007199254740993
    let b := Value.float (.ofInt 9007199254740992)
    ∃ p q, a.Measures p ∧ b.Measures q ∧ q < p ∧
      ∀ host, Primitive.gt.run host [a, b] = pure (.boolean false) ∧
        Primitive.gt.run host [b, a] = pure (.boolean false) ∧
        Primitive.eq.run host [a, b] = pure (.boolean false) := by
  intro a b
  have hfloat : Primitive.floatOf 9007199254740993 = .ok (.ofInt 9007199254740993) :=
    Binary64.floatOf_of_equalsInt (m := 9007199254740992) (by decide +kernel)
  have hlevel : a.Level b := .integer ⟨_, hfloat, by decide +kernel, by decide +kernel⟩
  have ha : a.Measures ((9007199254740993 : Int) : ℝ) := .integer hfloat
  have hb : b.Measures ((9007199254740992 : Int) : ℝ) := .float (Binary64.equalsInt_iff.mp (by decide +kernel))
  have hlt : (((9007199254740992 : Int) : ℝ) : EReal) < ((9007199254740993 : Int) : ℝ) := by
    rw [EReal.coe_lt_coe_iff]
    norm_num
  obtain ⟨above, habove, hgt⟩ := Value.gt_iff ha hb
  obtain ⟨below, hbelow, hless⟩ := Value.gt_iff hb ha
  obtain rfl : above = false := Bool.eq_false_iff.mpr fun h => (hgt.mp h).2 hlevel
  obtain rfl : below = false := Bool.eq_false_iff.mpr fun h => (hless.mp h).2 hlevel.symm
  refine ⟨_, _, ha, hb, hlt, fun host => ⟨habove host, hbelow host, ?_⟩⟩
  have heq : a.equals b = false := Bool.eq_false_iff.mpr hlevel.not_equals
  exact congrArg (fun same => (pure (.boolean same) : Run Value)) heq

end CurriedScript
