import Mathlib.Algebra.Order.Field.Basic
import Mathlib.Algebra.Order.Ring.Rat
import Mathlib.Order.WithBot
import Mathlib.Tactic.NormNum
import Mathlib.Tactic.Ring
import TermProximity.Position
import TermProximity.Proofs.Numeric.Shortest

/-!
# Scores in order — weights fall where scores rise

A score stands for a rational number, or for one of the two infinities; its weight is the negated
number in ten-millionths, rounded once and moved into the range of weights.  Neither step turns the
order round, and in the middle of the range numbers that are a ten-millionth apart keep different
weights.

* `roundHalfAway_mono`, `roundHalfAway_add_one_le`: rounding keeps the order, and whole steps apart;
* `Score.roundHalfUp_units_scaled`: the product with the scale is not rounded in 64-bit arithmetic;
* `Score.weight_le_of_value_le`: a score that is at least as high weighs no more;
* `Score.weight_lt_of_gap`: a score that is lower by a ten-millionth weighs more.
-/

namespace TermProximity

/-! ### Rounding -/

namespace Numeric

variable {den : Nat}

theorem roundHalfUp_zero (den : Nat) : roundHalfUp 0 den = 0 := by
  rw [roundHalfUp, Nat.mul_zero, Nat.zero_add, Nat.div_eq_zero_iff]
  omega

theorem roundHalfUp_mono {a b : Nat} (le : a ≤ b) (den : Nat) :
    roundHalfUp a den ≤ roundHalfUp b den :=
  Nat.div_le_div_right (Nat.add_le_add_right (Nat.mul_le_mul_left 2 le) den)

/-- Equal quotients are rounded alike. -/
theorem roundHalfUp_congr {a b den' : Nat} (positive : 0 < den) (positive' : 0 < den')
    (equal : a * den' = b * den) : roundHalfUp a den = roundHalfUp b den' := by
  have crossed : (2 * a + den) * den' = (2 * b + den') * den := by
    rw [Nat.add_mul, Nat.add_mul, Nat.mul_assoc, equal, Nat.mul_assoc, Nat.mul_comm den]
  calc (2 * a + den) / (2 * den)
      = (2 * a + den) * den' / (2 * den * den') := (Nat.mul_div_mul_right _ _ positive').symm
    _ = (2 * b + den') * den / (2 * den' * den) := by rw [crossed, Nat.mul_right_comm 2]
    _ = (2 * b + den') / (2 * den') := Nat.mul_div_mul_right _ _ positive

/-- A whole step more is rounded to one more. -/
theorem roundHalfUp_add_den (num : Nat) (positive : 0 < den) :
    roundHalfUp (num + den) den = roundHalfUp num den + 1 := by
  have step : 2 * (num + den) + den = 2 * num + den + 2 * den := by omega
  rw [roundHalfUp, step, Nat.add_div_right _ (Nat.mul_pos Nat.two_pos positive), roundHalfUp]

/-- Half a step is rounded up. -/
theorem one_le_roundHalfUp {num : Nat} (positive : 0 < den) (half : den ≤ 2 * num) :
    1 ≤ roundHalfUp num den := by
  rw [roundHalfUp, Nat.one_le_div_iff (Nat.mul_pos Nat.two_pos positive)]
  omega

/-- The integer nearest to `num / den`; an exact half goes away from zero. -/
def roundHalfAway (num : Int) (den : Nat) : Int :=
  if 0 ≤ num then roundHalfUp num.natAbs den else -(roundHalfUp num.natAbs den : Int)

theorem roundHalfAway_mono {a b : Int} (le : a ≤ b) (den : Nat) :
    roundHalfAway a den ≤ roundHalfAway b den := by
  unfold roundHalfAway
  by_cases ha : 0 ≤ a
  · rw [if_pos ha, if_pos (Int.le_trans ha le)]
    exact Int.ofNat_le.2 (roundHalfUp_mono (by omega) den)
  · rw [if_neg ha]
    by_cases hb : 0 ≤ b
    · rw [if_pos hb]
      omega
    · rw [if_neg hb]
      exact Int.neg_le_neg (Int.ofNat_le.2 (roundHalfUp_mono (by omega) den))

/-- Numbers that are a whole step apart are not rounded to the same integer. -/
theorem roundHalfAway_add_one_le {a b : Int} (positive : 0 < den) (apart : a + den ≤ b) :
    roundHalfAway a den + 1 ≤ roundHalfAway b den := by
  unfold roundHalfAway
  by_cases ha : 0 ≤ a
  · rw [if_pos ha, if_pos (by omega)]
    have := roundHalfUp_add_den a.natAbs positive
    have := roundHalfUp_mono (show a.natAbs + den ≤ b.natAbs by omega) den
    omega
  · rw [if_neg ha]
    by_cases hb : 0 ≤ b
    · -- One of the two lies half a step away from zero.
      rw [if_pos hb]
      rcases Nat.lt_or_ge (2 * a.natAbs) den with near | far
      · have := one_le_roundHalfUp positive (show den ≤ 2 * b.natAbs by omega)
        omega
      · have := one_le_roundHalfUp positive far
        omega
    · rw [if_neg hb]
      have := roundHalfUp_add_den b.natAbs positive
      have := roundHalfUp_mono (show b.natAbs + den ≤ a.natAbs by omega) den
      omega

theorem natAbs_roundHalfAway (num : Int) (den : Nat) :
    (roundHalfAway num den).natAbs = roundHalfUp num.natAbs den := by
  unfold roundHalfAway
  split
  · rfl
  · rw [Int.natAbs_neg, Int.natAbs_natCast]

/-- What lies between two whole numbers of steps is rounded to a number between them. -/
theorem natAbs_roundHalfAway_le {num : Int} {bound : Nat} (positive : 0 < den)
    (le : num.natAbs ≤ bound * den) : (roundHalfAway num den).natAbs ≤ bound := by
  rw [natAbs_roundHalfAway]
  exact (roundHalfUp_mono le den).trans_eq (roundHalfUp_mul bound den positive)

theorem Format.unitDen_eq_mul {fmt fmt' : Format} {more : Nat}
    (finer : fmt.halvings = more + fmt'.halvings) : fmt.unitDen = 2 ^ more * fmt'.unitDen := by
  rw [unitDen, unitDen, finer]
  exact Nat.pow_add 2 more _

end Numeric

namespace Score

open Numeric

/-! ### Numbers -/

/-- The magnitude of a score with its sign, counted in least units. -/
def signedUnits (s : Score) : Int :=
  if s.negative then -(Format.single.units s.magnitude : Int) else Format.single.units s.magnitude

/-- The number that a finite score stands for. -/
def number (s : Score) : ℚ := s.signedUnits / Format.single.unitDen

/-- The number that a score stands for, among the infinities. -/
def value (s : Score) : WithBot (WithTop ℚ) :=
  if s.isFinite then ((s.number : WithTop ℚ) : WithBot (WithTop ℚ))
  else if s.negative then ⊥ else ⊤

variable {s t : Score}

theorem value_of_isFinite (finite : s.isFinite = true) :
    s.value = ((s.number : WithTop ℚ) : WithBot (WithTop ℚ)) := if_pos finite

theorem value_of_not_isFinite (infinite : s.isFinite = false) :
    s.value = if s.negative then ⊥ else ⊤ := by
  rw [value, infinite, if_neg Bool.false_ne_true]

theorem number_le_iff : s.number ≤ t.number ↔ s.signedUnits ≤ t.signedUnits := by
  have positive : (0 : ℚ) < Format.single.unitDen := Nat.cast_pos.2 Format.single.unitDen_pos
  rw [number, number, div_le_div_iff_of_pos_right positive, Int.cast_le]

theorem isNaN_of_isFinite (finite : s.isFinite = true) : s.isNaN = false := by
  unfold isFinite at finite
  rw [isNaN, decide_eq_false_iff_not]
  rw [decide_eq_true_iff] at finite
  omega

/-! ### Products -/

/-- A finite magnitude times the scale, as 64-bit arithmetic has it. -/
def scaled (s : Score) : Nat :=
  Format.double.nearest (Format.single.units s.magnitude * scale) Format.single.unitDen

theorem exists_units_single_eq (finite : s.isFinite = true) :
    ∃ significand bits, Format.single.units s.magnitude = significand * 2 ^ bits ∧
      significand < 2 ^ 24 ∧ bits < 254 := by
  have leading : Format.single.leading = 2 ^ 23 := rfl
  have infinity : Format.single.infinity = 255 * 2 ^ 23 := rfl
  unfold isFinite at finite
  rw [decide_eq_true_iff, infinity] at finite
  unfold Format.units
  rw [leading]
  split
  · exact ⟨s.magnitude, 0, (Nat.mul_one _).symm, by omega, by omega⟩
  · exact ⟨_, _, rfl, by omega, by omega⟩

/-- 64-bit arithmetic has room for the product of a finite magnitude and the scale. -/
theorem units_scaled (finite : s.isFinite = true) :
    Format.double.units s.scaled * Format.single.unitDen =
      Format.single.units s.magnitude * scale * Format.double.unitDen := by
  obtain ⟨significand, bits, units, fits, few⟩ := exists_units_single_eq finite
  -- Kept apart from its value, so that no power of two is worked out.
  obtain ⟨more, more_le, halvings⟩ : ∃ more ≤ 1000,
      Format.double.halvings = more + Format.single.halvings := ⟨925, by decide, rfl⟩
  have leading : Format.double.leading = 2 ^ 52 := rfl
  have infinity : Format.double.infinity = 2047 * Format.double.leading := rfl
  have room : significand * 78125 < 2 * Format.double.leading := by omega
  obtain ⟨n, exact_units, small⟩ := Format.exists_units_eq room (bits + 7 + more)
  have product : Format.single.units s.magnitude * scale * Format.double.unitDen =
      Format.double.units n * Format.single.unitDen := by
    have scale_eq : scale = 78125 * 2 ^ 7 := rfl
    rw [units, exact_units, Format.unitDen_eq_mul halvings, scale_eq, Nat.pow_add, Nat.pow_add]
    ring
  have le : n ≤ Format.double.infinity := by
    rw [infinity]
    exact small.le.trans (Nat.mul_le_mul_right _ (by omega))
  have nearest : s.scaled = n :=
    Format.nearest_of_mul_eq (by decide) le Format.single.unitDen_pos product
  rw [nearest, product]

/-- So rounding the product as it is in 64-bit arithmetic is the one rounding there is. -/
theorem roundHalfUp_units_scaled (finite : s.isFinite = true) :
    roundHalfUp (Format.double.units s.scaled) Format.double.unitDen = s.wholeTenMillionths :=
  roundHalfUp_congr Format.double.unitDen_pos Format.single.unitDen_pos (units_scaled finite)

/-! ### Weights -/

theorem toInt_clampWeight (n : Int) :
    (clampWeight n).toInt = max Int64.minValue.toInt (min Int64.maxValue.toInt n) := by
  have least : Int64.minValue.toInt = -2 ^ 63 := rfl
  have greatest : Int64.maxValue.toInt = 2 ^ 63 - 1 := rfl
  rw [clampWeight, Int64.toInt_ofInt_of_le] <;> omega

theorem clampWeight_mono {m n : Int} (le : m ≤ n) : clampWeight m ≤ clampWeight n := by
  rw [Int64.le_iff_toInt_le, toInt_clampWeight, toInt_clampWeight]
  omega

/-- The weight of a finite score: the negated number, rounded and moved into the range. -/
theorem weight_of_isFinite (finite : s.isFinite = true) :
    s.weight = clampWeight (roundHalfAway (-(s.signedUnits * scale)) Format.single.unitDen) := by
  rw [weight, isNaN_of_isFinite finite, if_neg Bool.false_ne_true, if_pos finite]
  congr 1
  unfold signedUnits wholeTenMillionths roundHalfAway
  generalize Format.single.units s.magnitude = units
  have product : ((units : Int) * (scale : Int)).natAbs = units * scale := by
    rw [← Int.natCast_mul, Int.natAbs_natCast]
  cases s.negative with
  | true =>
    rw [if_pos rfl, if_pos rfl, Int.neg_mul, Int.neg_neg, if_pos (by positivity), product]
  | false =>
    rw [if_neg Bool.false_ne_true, if_neg Bool.false_ne_true, Int.natAbs_neg, product]
    split
    · rename_i nothing
      have zero : units * scale = 0 := by
        rw [← Int.natCast_mul] at nothing
        omega
      rw [zero, roundHalfUp_zero]
      rfl
    · rfl

/-- The infinities have the weights at the ends of the range. -/
theorem weight_of_not_isFinite (isNumber : s.isNaN = false) (infinite : s.isFinite = false) :
    s.weight = if s.negative then Int64.maxValue else Int64.minValue := by
  rw [weight, isNumber, infinite, if_neg Bool.false_ne_true, if_neg Bool.false_ne_true]

/-- A score that is at least as high weighs no more. -/
theorem weight_le_of_value_le (isNumber : s.isNaN = false) (isNumber' : t.isNaN = false)
    (le : t.value ≤ s.value) : s.weight ≤ t.weight := by
  cases finite : s.isFinite with
  | true =>
    rw [value_of_isFinite finite] at le
    cases finite' : t.isFinite with
    | true =>
      rw [value_of_isFinite finite', WithBot.coe_le_coe, WithTop.coe_le_coe, number_le_iff] at le
      rw [weight_of_isFinite finite, weight_of_isFinite finite']
      refine clampWeight_mono (roundHalfAway_mono ?_ _)
      exact Int.neg_le_neg (Int.mul_le_mul_of_nonneg_right le (Int.natCast_nonneg scale))
    | false =>
      rw [value_of_not_isFinite finite'] at le
      rw [weight_of_not_isFinite isNumber' finite']
      cases negative : t.negative with
      | true => exact Int64.le_maxValue _
      | false =>
        rw [negative, if_neg Bool.false_ne_true] at le
        exact absurd (WithBot.coe_le_coe.1 le) (not_le.2 (WithTop.coe_lt_top s.number))
  | false =>
    rw [value_of_not_isFinite finite] at le
    rw [weight_of_not_isFinite isNumber finite]
    cases negative : s.negative with
    | false => exact Int64.minValue_le _
    | true =>
      -- Nothing but the lower infinity is so low.
      rw [negative, if_pos rfl, le_bot_iff] at le
      cases finite' : t.isFinite with
      | true =>
        rw [value_of_isFinite finite'] at le
        exact absurd le WithBot.coe_ne_bot
      | false =>
        rw [weight_of_not_isFinite isNumber' finite']
        rw [value_of_not_isFinite finite'] at le
        cases negative' : t.negative with
        | true => exact Int64.le_refl _
        | false =>
          rw [negative', if_neg Bool.false_ne_true] at le
          exact absurd le top_ne_bot

section Bounded

variable {bound : Nat}

theorem natAbs_signedUnits_le (bounded : |s.number| ≤ bound) :
    s.signedUnits.natAbs ≤ bound * Format.single.unitDen := by
  have positive : (0 : ℚ) < Format.single.unitDen := Nat.cast_pos.2 Format.single.unitDen_pos
  rw [number, abs_div, abs_of_pos positive, div_le_iff₀ positive] at bounded
  have cast : (s.signedUnits.natAbs : ℚ) ≤ bound * Format.single.unitDen := by
    rwa [Nat.cast_natAbs, Int.cast_abs]
  exact_mod_cast cast

/-- Where the range has room for it, a weight is the rounded number itself. -/
theorem toInt_weight_of_bounded (room : bound * scale < 2 ^ 63) (finite : s.isFinite = true)
    (bounded : |s.number| ≤ bound) :
    s.weight.toInt = roundHalfAway (-(s.signedUnits * scale)) Format.single.unitDen := by
  have le : (-(s.signedUnits * scale)).natAbs ≤ bound * scale * Format.single.unitDen := by
    rw [Int.natAbs_neg, Int.natAbs_mul, Int.natAbs_natCast, Nat.mul_right_comm]
    exact Nat.mul_le_mul_right scale (natAbs_signedUnits_le bounded)
  have within := natAbs_roundHalfAway_le Format.single.unitDen_pos le
  have least : Int64.minValue.toInt = -2 ^ 63 := rfl
  have greatest : Int64.maxValue.toInt = 2 ^ 63 - 1 := rfl
  rw [weight_of_isFinite finite, toInt_clampWeight]
  omega

/-- A score that is lower by a ten-millionth weighs more, where the range has room for both. -/
theorem weight_lt_of_gap (room : bound * scale < 2 ^ 63) (finite : s.isFinite = true)
    (finite' : t.isFinite = true) (bounded : |s.number| ≤ bound) (bounded' : |t.number| ≤ bound)
    (gap : 1 / scale ≤ t.number - s.number) : t.weight < s.weight := by
  have positive : (0 : ℚ) < Format.single.unitDen := Nat.cast_pos.2 Format.single.unitDen_pos
  have positive' : (0 : ℚ) < scale := by norm_num [scale]
  have apart : -(t.signedUnits * scale) + Format.single.unitDen ≤ -(s.signedUnits * scale : Int) := by
    rw [number, number, ← sub_div, div_le_div_iff₀ positive' positive, one_mul] at gap
    have cast : (Format.single.unitDen : Int) ≤ (t.signedUnits - s.signedUnits) * scale := by
      exact_mod_cast gap
    rw [Int.sub_mul] at cast
    omega
  rw [Int64.lt_iff_toInt_lt, toInt_weight_of_bounded room finite bounded,
    toInt_weight_of_bounded room finite' bounded']
  exact Int.lt_of_add_one_le (roundHalfAway_add_one_le Format.single.unitDen_pos apart)

end Bounded

end Score

/-! ### Positions -/

namespace Position

variable {s t : Score}

theorem isWithin_withScore (p : Position) (limit : Weight) :
    (p.withScore s).isWithin limit = decide (s.weight ≤ limit) := rfl

/-- A position that scores at least a threshold is relevant enough for it. -/
theorem isWithin_of_value_le (p : Position) (isNumber : s.isNaN = false)
    (isNumber' : t.isNaN = false) (le : t.value ≤ s.value) :
    (p.withScore s).isWithin t.weight = true := by
  rw [isWithin_withScore, decide_eq_true_iff]
  exact Score.weight_le_of_value_le isNumber isNumber' le

/-- A position is relevant enough for every limit above one for which it is. -/
theorem isWithin_mono {p : Position} {limit limit' : Weight} (le : limit ≤ limit')
    (h : p.isWithin limit = true) : p.isWithin limit' = true := by
  unfold isWithin at h ⊢
  split at h
  · rfl
  · rw [decide_eq_true_iff] at h ⊢
    exact Int64.le_trans h le

end Position

end TermProximity
