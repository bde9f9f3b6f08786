import TermProximity.Numeric.Decimal

/-!
# Scores and weights — the relevance of a position, in its two forms

A score is a log probability kept as a 32-bit floating number; a weight is the whole number of
ten-millionths by which the score lies below zero, so a smaller weight means a more relevant
position.

* `Score.weight` is exact up to its one rounding (a half goes away from zero), and saturates at the
  ends of the 64-bit range; a score that is not a number weighs nothing;
* `Weight.score` divides in 64-bit arithmetic and then narrows to 32 bits, so it rounds three times.
-/

namespace TermProximity

open Numeric

/-- A stored term weight: a signed 64-bit number, smaller for more relevant positions. -/
abbrev Weight := Int64

/-- A position score, as the bit pattern of a 32-bit floating number. -/
structure Score where
  bits : UInt32
  deriving DecidableEq

namespace Score

/-- The highest of the 32 bits, which is the sign. -/
def signBit : Nat := 0x80000000

/-- A score is negative when its sign bit is set; zero comes with either sign. -/
def negative (s : Score) : Bool := signBit ≤ s.bits.toNat

/-- The number of the score's magnitude in its format. -/
def magnitude (s : Score) : Nat := s.bits.toNat % signBit

/-- The score with the given sign whose magnitude is numbered `n`. -/
def ofMagnitude (negative : Bool) (n : Nat) : Score :=
  ⟨UInt32.ofNat ((if negative then signBit else 0) + n)⟩

/-- A score is finite when it is neither an infinity nor a bit pattern that is no number. -/
def isFinite (s : Score) : Bool := s.magnitude < Format.single.infinity

/-- The bit patterns above infinity stand for no number. -/
def isNaN (s : Score) : Bool := Format.single.infinity < s.magnitude

/-- How many ten-millionths make up a score of one. -/
def scale : Nat := 10000000

/-- The weights that an integer beyond either end of the 64-bit range is moved to. -/
def clampWeight (n : Int) : Weight :=
  Int64.ofInt (max Int64.minValue.toInt (min Int64.maxValue.toInt n))

/-- The magnitude of a finite score in ten-millionths, rounded to a whole number. -/
def wholeTenMillionths (s : Score) : Nat :=
  roundHalfUp (Format.single.units s.magnitude * scale) Format.single.unitDen

/-- The weight of a score: its negation in ten-millionths. -/
def weight (s : Score) : Weight :=
  if s.isNaN then 0
  else if s.isFinite then
    clampWeight (if s.negative then s.wholeTenMillionths else -(s.wholeTenMillionths : Int))
  else if s.negative then Int64.maxValue else Int64.minValue

/-- The score that a numeral denotes: the nearest one, or an infinity when it is too large. -/
def read? (numeral : List Char) : Option Score :=
  (Decimal.read? numeral).map fun d => ofMagnitude d.negative (d.magnitude Format.single)

/-- The shortest numeral that reads back to the score. -/
def write (s : Score) : List Char :=
  if s.isNaN then "NaN".toList
  else if s.isFinite then
    { Decimal.shortest Format.single s.magnitude with negative := s.negative : Decimal }.write
  else if s.negative then "-inf".toList else "inf".toList

end Score

namespace Weight

/-- The score that a weight stands for. -/
def score (w : Weight) : Score :=
  let asDouble := Format.double.nearest w.toInt.natAbs 1
  let quotient :=
    Format.double.nearest (Format.double.units asDouble) (Format.double.unitDen * Score.scale)
  Score.ofMagnitude (0 ≤ w.toInt)
    (Format.single.nearest (Format.double.units quotient) Format.double.unitDen)

end Weight

end TermProximity
