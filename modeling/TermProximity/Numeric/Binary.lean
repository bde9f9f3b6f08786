import TermProximity.Numeric.Rounding

/-!
# Binary formats — the finite magnitudes of a floating format, numbered from zero

A format keeps `precision` significant bits and has `exponentBits` bits of exponent.  Its finite
magnitudes are multiples of one least unit, and in increasing order they are numbered `0, 1, 2, …`:
the number of a magnitude is also its bit pattern without the sign.

* `Format.units`: the magnitude of a number, counted in least units;
* `Format.nearest`: the number of the magnitude nearest to a quotient, a half going to the even
  number, and what lies beyond the largest magnitude going to infinity.
-/

namespace TermProximity.Numeric

/-- The shape of a binary floating format. -/
structure Format where
  /-- Bits of a full significand, the leading one included. -/
  precision : Nat
  /-- Bits of the exponent field. -/
  exponentBits : Nat
  deriving DecidableEq

namespace Format

/-- The format of 32-bit numbers. -/
def single : Format := ⟨24, 8⟩

/-- The format of 64-bit numbers. -/
def double : Format := ⟨53, 11⟩

/-- The least significand with its leading bit set. -/
def leading (fmt : Format) : Nat := Nat.pow 2 (fmt.precision - 1)

/-- The number that stands for infinity, one above the largest finite magnitude. -/
def infinity (fmt : Format) : Nat := (Nat.pow 2 fmt.exponentBits - 1) * fmt.leading

/-- How many times one is halved to give the least unit. -/
def halvings (fmt : Format) : Nat := Nat.pow 2 (fmt.exponentBits - 1) + fmt.precision - 3

/-- The least unit is one part in `unitDen`. -/
def unitDen (fmt : Format) : Nat := Nat.pow 2 fmt.halvings

/-- The magnitude numbered `n`, counted in least units. -/
def units (fmt : Format) (n : Nat) : Nat :=
  if n < fmt.leading then n
  else (fmt.leading + n % fmt.leading) * Nat.pow 2 (n / fmt.leading - 1)

/-- How many low bits of `whole` exceed a full significand. -/
def excessBits (fmt : Format) (whole : Nat) : Nat := whole.log2 + 1 - fmt.precision

/--
The number of the magnitude nearest to `num / den`.  A half goes to the even number, and a quotient
beyond the largest magnitude by half a step or more goes to infinity.
-/
def nearest (fmt : Format) (num den : Nat) : Nat :=
  let scaled := num * fmt.unitDen
  let excess := fmt.excessBits (scaled / den)
  min fmt.infinity (excess * fmt.leading + roundHalfEven scaled (den * Nat.pow 2 excess))

theorem leading_pos (fmt : Format) : 0 < fmt.leading := Nat.two_pow_pos _

theorem unitDen_pos (fmt : Format) : 0 < fmt.unitDen := Nat.two_pow_pos _

@[simp] theorem units_zero (fmt : Format) : fmt.units 0 = 0 := by
  simp [units, fmt.leading_pos]

end Format

end TermProximity.Numeric
