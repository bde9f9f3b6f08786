import Mathlib.Algebra.Group.Nat.Defs
import TermProximity.Score

/-!
# Shortest decimals — what is written reads back

A magnitude of a binary format is its own nearest one, and on the finest power-of-ten grid every
magnitude lies; so the search for a shortest decimal always ends, and every decimal it can end with
reads back.  What a decimal is written as reads back digit by digit.

* `Format.nearest_of_mul_eq`: rounding keeps what can be represented;
* `Format.exists_units_eq`: what fits in a significand can be represented;
* `Decimal.magnitude_shortest`: the shortest decimal of a magnitude reads back to it;
* `Decimal.read?_write`: a decimal is read as it was written;
* `Score.read?_write`: so is a finite score, down to its bits.
-/

namespace TermProximity.Numeric

namespace Format

variable {fmt : Format}

theorem excessBits_of_lt {whole : Nat} (some_bits : 0 < fmt.precision)
    (small : whole < fmt.leading) : fmt.excessBits whole = 0 := by
  have bits : whole.log2 ≤ fmt.precision - 1 := by
    by_cases zero : whole = 0
    · rw [zero, Nat.log2_zero]
      exact Nat.zero_le _
    · exact Nat.le_of_lt ((Nat.log2_lt zero).2 small)
  rw [excessBits]
  omega

/-- A full significand, and how many bits follow it. -/
theorem excessBits_mul {significand : Nat} (excess : Nat) (some_bits : 0 < fmt.precision)
    (full : fmt.leading ≤ significand) (fits : significand < 2 * fmt.leading) :
    fmt.excessBits (significand * 2 ^ excess) = excess := by
  have positive : significand * 2 ^ excess ≠ 0 :=
    Nat.ne_of_gt (Nat.mul_pos (Nat.lt_of_lt_of_le fmt.leading_pos full) (Nat.two_pow_pos excess))
  have bits : (significand * 2 ^ excess).log2 = fmt.precision - 1 + excess := by
    rw [Nat.log2_eq_iff positive, Nat.pow_succ, Nat.pow_add, Nat.mul_right_comm]
    refine ⟨Nat.mul_le_mul_right _ full, Nat.mul_lt_mul_of_pos_right ?_ (Nat.two_pow_pos excess)⟩
    rwa [Nat.mul_comm]
  rw [excessBits, bits]
  omega

/-- A magnitude is a significand with some bits behind it, and numbered by the two. -/
theorem exists_significand (some_bits : 0 < fmt.precision) (n : Nat) :
    ∃ significand, fmt.units n = significand * 2 ^ fmt.excessBits (fmt.units n) ∧
      fmt.excessBits (fmt.units n) * fmt.leading + significand = n := by
  by_cases small : n < fmt.leading
  · have units : fmt.units n = n := if_pos small
    refine ⟨n, ?_⟩
    rw [units, excessBits_of_lt some_bits small]
    omega
  · let excess := n / fmt.leading - 1
    let significand := fmt.leading + n % fmt.leading
    have units : fmt.units n = significand * 2 ^ excess := if_neg small
    have below : n % fmt.leading < fmt.leading := Nat.mod_lt n fmt.leading_pos
    have bits : fmt.excessBits (significand * 2 ^ excess) = excess := by
      apply excessBits_mul excess some_bits <;> omega
    refine ⟨significand, ?_⟩
    rw [units, bits]
    refine ⟨rfl, ?_⟩
    have steps : 0 < n / fmt.leading := Nat.div_pos (Nat.not_lt.1 small) fmt.leading_pos
    calc excess * fmt.leading + significand
        = (excess + 1) * fmt.leading + n % fmt.leading := by rw [Nat.succ_mul, Nat.add_assoc]
      _ = fmt.leading * (n / fmt.leading) + n % fmt.leading := by
          rw [Nat.sub_add_cancel steps, Nat.mul_comm]
      _ = n := Nat.div_add_mod n fmt.leading

/-- The magnitude that a quotient is equal to is the one nearest to it. -/
theorem nearest_of_mul_eq {n num den : Nat} (some_bits : 0 < fmt.precision) (le : n ≤ fmt.infinity)
    (positive : 0 < den) (equal : num * fmt.unitDen = fmt.units n * den) :
    fmt.nearest num den = n := by
  obtain ⟨significand, units, number⟩ := exists_significand some_bits n
  have rounded : roundHalfEven (fmt.units n * den)
      (den * Nat.pow 2 (fmt.excessBits (fmt.units n))) = significand := by
    have whole : fmt.units n * den =
        significand * (den * 2 ^ fmt.excessBits (fmt.units n)) := by
      rw [Nat.mul_left_comm significand, ← units, Nat.mul_comm]
    rw [whole]
    exact roundHalfEven_mul significand _ (Nat.mul_pos positive (Nat.two_pow_pos _))
  rw [nearest, equal]
  simp only [Nat.mul_div_cancel _ positive]
  rw [rounded, number, Nat.min_eq_right le]

/-- A magnitude is the one nearest to itself. -/
theorem nearest_units {n k : Nat} (some_bits : 0 < fmt.precision) (le : n ≤ fmt.infinity)
    (positive : 0 < k) : fmt.nearest (fmt.units n * k) (fmt.unitDen * k) = n := by
  refine nearest_of_mul_eq some_bits le (Nat.mul_pos fmt.unitDen_pos positive) ?_
  rw [Nat.mul_assoc, Nat.mul_comm k]

/-- The magnitude of a full significand with some bits behind it. -/
theorem units_of_full {significand : Nat} (full : fmt.leading ≤ significand)
    (fits : significand < 2 * fmt.leading) (bits : Nat) :
    fmt.units ((bits + 1) * fmt.leading + (significand - fmt.leading)) = significand * 2 ^ bits := by
  have rest : significand - fmt.leading < fmt.leading := by omega
  have large : ¬ (bits + 1) * fmt.leading + (significand - fmt.leading) < fmt.leading :=
    Nat.not_lt.2 (Nat.le_add_right_of_le (Nat.le_mul_of_pos_left _ (Nat.succ_pos bits)))
  rw [units, if_neg large, Nat.mul_comm (bits + 1), Nat.mul_add_mod, Nat.mod_eq_of_lt rest,
    Nat.mul_add_div fmt.leading_pos, Nat.div_eq_of_lt rest, Nat.add_zero, Nat.add_sub_cancel,
    Nat.add_sub_cancel' full]
  rfl

/-- What fits in a significand is a magnitude, with any number of bits behind it. -/
theorem exists_units_eq {significand : Nat} (fits : significand < 2 * fmt.leading) (bits : Nat) :
    ∃ n, fmt.units n = significand * 2 ^ bits ∧ n < (bits + 2) * fmt.leading := by
  induction bits generalizing significand with
  | zero =>
    by_cases full : fmt.leading ≤ significand
    · refine ⟨_, units_of_full full fits 0, ?_⟩
      omega
    · refine ⟨significand, ?_, ?_⟩
      · rw [units, if_pos (Nat.not_le.1 full), Nat.pow_zero, Nat.mul_one]
      · omega
  | succ bits ih =>
    by_cases full : fmt.leading ≤ significand
    · refine ⟨_, units_of_full full fits (bits + 1), ?_⟩
      rw [Nat.succ_mul (bits + 1 + 1)]
      omega
    · have doubled : 2 * significand < 2 * fmt.leading := by omega
      obtain ⟨n, units, small⟩ := ih doubled
      refine ⟨n, ?_, Nat.lt_of_lt_of_le small (Nat.mul_le_mul_right _ (Nat.le_succ _))⟩
      rw [units, Nat.pow_succ, Nat.mul_comm 2, Nat.mul_assoc, Nat.mul_comm 2]

end Format

namespace Decimal

variable {fmt : Format} {n : Nat}

/-! ### Shortest decimals -/

theorem nearest_of_onGrid? {stepNum stepDen steps : Nat}
    (found : onGrid? fmt n stepNum stepDen = some steps) :
    fmt.nearest (steps * stepNum) stepDen = n := by
  simp only [onGrid?] at found
  split at found
  · rename_i below above
    rw [beq_iff_eq] at below above
    cases found
    split
    · exact above
    · exact below
  · rename_i below _
    cases found
    exact beq_iff_eq.1 below
  · rename_i _ above
    cases found
    exact beq_iff_eq.1 above
  · contradiction

/-- A grid on which the magnitude itself lies has a point that reads back. -/
theorem isSome_onGrid? {stepNum stepDen : Nat}
    (below : fmt.nearest (fmt.units n * stepDen / (fmt.unitDen * stepNum) * stepNum) stepDen = n) :
    (onGrid? fmt n stepNum stepDen).isSome := by
  simp only [onGrid?, below, beq_self_eq_true]
  split <;> simp_all

/-- On the finest grid every magnitude lies. -/
theorem isSome_onGrid?_finest (some_bits : 0 < fmt.precision) (le : n ≤ fmt.infinity) :
    (onGrid? fmt n 1 (10 ^ fmt.halvings)).isSome := by
  have ten : 10 ^ fmt.halvings = fmt.unitDen * 5 ^ fmt.halvings := Nat.mul_pow 2 5 fmt.halvings
  apply isSome_onGrid?
  have exact : fmt.units n * 10 ^ fmt.halvings / (fmt.unitDen * 1) =
      fmt.units n * 5 ^ fmt.halvings := by
    rw [ten, Nat.mul_one, Nat.mul_left_comm, Nat.mul_div_cancel_left _ fmt.unitDen_pos]
  rw [exact, Nat.mul_one, ten]
  exact Format.nearest_units some_bits le (Nat.pow_pos (by decide))

/-- The decimal that reads back to a magnitude on the grid of a power of ten. -/
def onPowerOfTen? (fmt : Format) (n : Nat) (exponent : Int) : Option Decimal :=
  if 0 ≤ exponent then
    (onGrid? fmt n (10 ^ exponent.natAbs) 1).map fun steps =>
      ⟨false, steps * 10 ^ exponent.natAbs, 0⟩
  else (onGrid? fmt n 1 (10 ^ exponent.natAbs)).map fun steps => ⟨false, steps, exponent.natAbs⟩

theorem shortest_eq (fmt : Format) (n : Nat) :
    shortest fmt n = ((grids fmt).findSome? (onPowerOfTen? fmt n)).getD ⟨false, 0, 0⟩ := rfl

theorem magnitude_of_onPowerOfTen? {exponent : Int} {d : Decimal}
    (found : onPowerOfTen? fmt n exponent = some d) : d.magnitude fmt = n := by
  unfold onPowerOfTen? at found
  split at found
  · obtain ⟨steps, on_grid, rfl⟩ := Option.map_eq_some_iff.1 found
    exact nearest_of_onGrid? on_grid
  · obtain ⟨steps, on_grid, rfl⟩ := Option.map_eq_some_iff.1 found
    have reads_back := nearest_of_onGrid? on_grid
    rwa [Nat.mul_one] at reads_back

/-- The shortest decimal of a magnitude reads back to it. -/
theorem magnitude_shortest (some_bits : 0 < fmt.precision) (le : n ≤ fmt.infinity) :
    (shortest fmt n).magnitude fmt = n := by
  have finest : (-(fmt.halvings : Int)) ∈ grids fmt := by
    refine List.mem_map.2 ⟨2 * fmt.halvings, List.mem_range.2 (Nat.lt_succ_self _), ?_⟩
    omega
  have found : ((grids fmt).findSome? (onPowerOfTen? fmt n)).isSome := by
    refine List.findSome?_isSome_iff.2 ⟨_, finest, ?_⟩
    unfold onPowerOfTen?
    rw [Int.natAbs_neg, Int.natAbs_natCast]
    split
    · -- Then there is a single grid, that of the whole numbers.
      have whole : fmt.halvings = 0 := by omega
      have on_grid := isSome_onGrid?_finest some_bits le
      rw [whole] at on_grid ⊢
      rwa [Option.isSome_map]
    · rw [Option.isSome_map]
      exact isSome_onGrid?_finest some_bits le
  obtain ⟨d, found⟩ := Option.isSome_iff_exists.1 found
  obtain ⟨exponent, -, on_grid⟩ := List.exists_of_findSome?_eq_some found
  rw [shortest_eq, found, Option.getD_some]
  exact magnitude_of_onPowerOfTen? on_grid

/-! ### Reading what was written -/

theorem natOfDigits_append (s t : List Char) :
    natOfDigits (s ++ t) = 10 ^ t.length * natOfDigits s + natOfDigits t := by
  unfold natOfDigits
  rw [Nat.ofDigitChars_append, Nat.ofDigitChars_eq_ofDigitChars_zero]

theorem isDigit_of_mem_padded {width m : Nat} {c : Char} (h : c ∈ padded width m) :
    c.isDigit = true := by
  unfold padded List.leftpad at h
  rcases List.mem_append.1 h with h | h
  · rw [List.eq_of_mem_replicate h]
    rfl
  · exact isDigit_of_mem_digitsOfNat h

theorem natOfDigits_padded (width m : Nat) : natOfDigits (padded width m) = m := by
  unfold padded List.leftpad
  have zeros (k : Nat) : natOfDigits (List.replicate k '0') = 0 := Nat.ofDigitChars_replicate_zero
  rw [natOfDigits_append, zeros, natOfDigits_digitsOfNat, Nat.mul_zero, Nat.zero_add]

theorem length_padded {width m : Nat} (positive : 0 < width) (fits : m < 10 ^ width) :
    (padded width m).length = width := by
  have short : (digitsOfNat m).length ≤ width :=
    (Nat.length_toDigits_le_iff (by decide) positive).2 fits
  unfold padded
  rw [List.length_leftpad, Nat.max_eq_left short]

theorem splitSign_of_isDigit {c : Char} {rest : List Char} (digit : c.isDigit = true) :
    splitSign (c :: rest) = (false, c :: rest) := by
  unfold splitSign
  split
  · rename_i eq
    obtain ⟨rfl, -⟩ := List.cons_eq_cons.1 eq
    contradiction
  · rename_i eq
    obtain ⟨rfl, -⟩ := List.cons_eq_cons.1 eq
    contradiction
  · rfl

/-- What a numeral reads as, piece by piece. -/
theorem read?_of_splitSign {text whole tail fraction : List Char} {negative : Bool}
    (split : splitSign text = (negative, whole ++ tail)) (some_digit : whole ≠ [])
    (whole_digits : ∀ c ∈ whole, c.isDigit = true) (digits : ∀ c ∈ fraction, c.isDigit = true)
    (tail_eq : tail = [] ∧ fraction = [] ∨ tail = '.' :: fraction) :
    read? text = some ⟨negative, natOfDigits (whole ++ fraction), fraction.length⟩ := by
  have not_digit : tail.takeWhile Char.isDigit = [] ∧ tail.dropWhile Char.isDigit = tail := by
    rcases tail_eq with ⟨rfl, -⟩ | rfl
    · exact ⟨rfl, rfl⟩
    · exact ⟨rfl, rfl⟩
  have some_left : (whole ++ fraction).isEmpty = false := by
    rw [List.isEmpty_eq_false_iff]
    exact List.append_ne_nil_of_left_ne_nil some_digit fraction
  simp only [read?, split, List.takeWhile_append_of_pos whole_digits,
    List.dropWhile_append_of_pos whole_digits, not_digit.1, not_digit.2, List.append_nil]
  rcases tail_eq with ⟨rfl, rfl⟩ | rfl
  · simp only [some_left, Bool.false_eq_true, if_false]
  · have all_digits : fraction.all Char.isDigit = true := List.all_eq_true.2 digits
    simp only [all_digits, and_self, if_true, some_left, Bool.false_eq_true, if_false]

/-- The digits in front of the point. -/
def wholeDigits (d : Decimal) : List Char := digitsOfNat (d.steps / d.stepDen)

/-- The digits after the point. -/
def placeDigits (d : Decimal) : List Char :=
  if d.places = 0 then [] else padded d.places (d.steps % d.stepDen)

/-- The point with the digits after it, where there are any. -/
def pointed (d : Decimal) : List Char := if d.places = 0 then [] else '.' :: d.placeDigits

theorem write_eq (d : Decimal) :
    d.write = (if d.negative then ['-'] else []) ++ (d.wholeDigits ++ d.pointed) := by
  unfold write wholeDigits pointed placeDigits
  rw [List.append_assoc]
  by_cases none_after : d.places = 0
  · simp only [if_pos none_after]
  · simp only [if_neg none_after]

theorem isDigit_of_mem_placeDigits {d : Decimal} {c : Char} (h : c ∈ d.placeDigits) :
    c.isDigit = true := by
  unfold placeDigits at h
  split at h
  · contradiction
  · exact isDigit_of_mem_padded h

theorem pointed_eq (d : Decimal) :
    d.pointed = [] ∧ d.placeDigits = [] ∨ d.pointed = '.' :: d.placeDigits := by
  unfold pointed placeDigits
  split
  · exact .inl ⟨rfl, rfl⟩
  · exact .inr rfl

theorem length_placeDigits (d : Decimal) : d.placeDigits.length = d.places := by
  unfold placeDigits
  split
  · rename_i none_after
    exact none_after.symm
  · exact length_padded (by omega) (Nat.mod_lt _ (Nat.pow_pos (by decide)))

theorem natOfDigits_write (d : Decimal) : natOfDigits (d.wholeDigits ++ d.placeDigits) = d.steps := by
  have places : natOfDigits d.placeDigits = d.steps % d.stepDen := by
    unfold placeDigits
    split
    · rename_i none_after
      have one : d.stepDen = 1 := by rw [stepDen, none_after]
      rw [one, Nat.mod_one]
      rfl
    · exact natOfDigits_padded ..
  rw [natOfDigits_append, length_placeDigits, places, wholeDigits, natOfDigits_digitsOfNat]
  exact Nat.div_add_mod d.steps d.stepDen

theorem magnitude_of_negative (fmt : Format) (d : Decimal) (negative : Bool) :
    ({ d with negative := negative } : Decimal).magnitude fmt = d.magnitude fmt := rfl

/-- A decimal is read back as it was written. -/
theorem read?_write (d : Decimal) : read? d.write = some d := by
  have some_digit : d.wholeDigits ≠ [] := Nat.toDigits_ne_nil
  have whole_digits : ∀ c ∈ d.wholeDigits, c.isDigit = true := fun c => isDigit_of_mem_digitsOfNat
  have split : splitSign d.write = (d.negative, d.wholeDigits ++ d.pointed) := by
    rw [write_eq]
    cases d.negative with
    | true => rfl
    | false =>
      obtain ⟨c, rest, first⟩ := List.exists_cons_of_ne_nil some_digit
      have digit : c.isDigit = true := whole_digits c (first ▸ List.mem_cons_self)
      rw [first]
      exact splitSign_of_isDigit digit
  rw [read?_of_splitSign split some_digit whole_digits (fun c => isDigit_of_mem_placeDigits)
    d.pointed_eq, natOfDigits_write, length_placeDigits]

end Decimal

end TermProximity.Numeric

namespace TermProximity.Score

open Numeric

theorem ofMagnitude_magnitude (s : Score) : ofMagnitude s.negative s.magnitude = s := by
  have bits := s.bits.toNat_lt
  have sign : (if s.negative then signBit else 0) + s.magnitude = s.bits.toNat := by
    unfold negative magnitude signBit
    by_cases high : 0x80000000 ≤ s.bits.toNat
    · rw [if_pos (by simpa using high)]
      omega
    · rw [if_neg (by simpa using high)]
      omega
  rw [ofMagnitude, sign, UInt32.ofNat_toNat]

theorem write_of_isFinite {s : Score} (finite : s.isFinite = true) :
    s.write =
      ({ Decimal.shortest .single s.magnitude with negative := s.negative } : Decimal).write := by
  have not_nan : s.isNaN = false := by
    unfold isFinite at finite
    unfold isNaN
    rw [decide_eq_true_iff] at finite
    rw [decide_eq_false_iff_not]
    omega
  rw [write, not_nan, if_neg Bool.false_ne_true, if_pos finite]

/-- A finite score is read back as it was written. -/
theorem read?_write {s : Score} (finite : s.isFinite = true) : read? s.write = some s := by
  have le : s.magnitude ≤ Format.single.infinity := Nat.le_of_lt (of_decide_eq_true finite)
  have reads_back : (Decimal.shortest .single s.magnitude).magnitude .single = s.magnitude :=
    Decimal.magnitude_shortest (by decide) le
  rw [write_of_isFinite finite, read?, Decimal.read?_write, Option.map_some,
    Decimal.magnitude_of_negative, reads_back, ofMagnitude_magnitude]

end TermProximity.Score
