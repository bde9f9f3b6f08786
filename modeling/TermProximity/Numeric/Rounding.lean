/-!
# Rounding — the integer nearest to a quotient of natural numbers

The two functions differ only in what becomes of an exact half: `roundHalfEven` gives it to the
even neighbour, `roundHalfUp` to the upper one.  Both are exact: no intermediate value is rounded.
-/

namespace TermProximity.Numeric

/-- The integer nearest to `num / den`; an exact half goes to the even neighbour. -/
def roundHalfEven (num den : Nat) : Nat :=
  let quotient := num / den
  let remainder := num % den
  if 2 * remainder < den then quotient
  else if den < 2 * remainder then quotient + 1
  else quotient + quotient % 2

/-- The integer nearest to `num / den`; an exact half goes up. -/
def roundHalfUp (num den : Nat) : Nat :=
  (2 * num + den) / (2 * den)

/-! ### Both functions keep an integer as it is -/

theorem roundHalfEven_mul (n den : Nat) (h : 0 < den) : roundHalfEven (n * den) den = n := by
  simp [roundHalfEven, Nat.mul_div_cancel n h, h]

theorem roundHalfUp_mul (n den : Nat) (h : 0 < den) : roundHalfUp (n * den) den = n := by
  have split : 2 * (n * den) + den = den + 2 * den * n := by
    rw [Nat.mul_comm n den, Nat.mul_assoc]; omega
  rw [roundHalfUp, split, Nat.add_mul_div_left _ _ (by omega : 0 < 2 * den),
    Nat.div_eq_of_lt (by omega), Nat.zero_add]

end TermProximity.Numeric
