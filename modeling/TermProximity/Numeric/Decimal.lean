import TermProximity.Numeric.Binary

/-!
# Decimal numerals — reading, writing, and the shortest numeral of a binary magnitude

A decimal is a sign, a count of steps and the number of places after the point: the step is one
part in `10 ^ places`.

* `Decimal.read?` reads an optional sign and digits with at most one point among them;
* `Decimal.write` never uses an exponent;
* `Decimal.shortest` is the decimal with the fewest digits that reads back to a given magnitude:
  the coarsest power-of-ten grid with such a point wins, on it the nearer of the two neighbours,
  and of two equally near ones the larger.
-/

namespace TermProximity.Numeric

/-- The decimal number `± steps / 10 ^ places`. -/
structure Decimal where
  negative : Bool
  steps : Nat
  places : Nat
  deriving DecidableEq

/-- The natural number that decimal digits write. -/
def natOfDigits (digits : List Char) : Nat := Nat.ofDigitChars 10 digits 0

/-- The digits of a natural number, without leading zeros. -/
def digitsOfNat (n : Nat) : List Char := Nat.toDigits 10 n

theorem natOfDigits_digitsOfNat (n : Nat) : natOfDigits (digitsOfNat n) = n :=
  Nat.ofDigitChars_toDigits (by decide) (by decide)

theorem isDigit_of_mem_digitsOfNat {n : Nat} {c : Char} (h : c ∈ digitsOfNat n) :
    c.isDigit = true :=
  Nat.isDigit_of_mem_toDigits (by decide) (by decide) h

/-- Splits an optional sign off a numeral; `true` stands for a minus. -/
def splitSign : List Char → Bool × List Char
  | '-' :: rest => (true, rest)
  | '+' :: rest => (false, rest)
  | rest => (false, rest)

/-- Reads an unsigned whole number in front of which a plus may stand. -/
def readWhole? (text : List Char) : Option Nat :=
  let digits := match text with
    | '+' :: rest => rest
    | rest => rest
  if digits.isEmpty || !digits.all Char.isDigit then none else some (natOfDigits digits)

namespace Decimal

/-- A step is one part in `stepDen`. -/
def stepDen (d : Decimal) : Nat := Nat.pow 10 d.places

/-- Reads a numeral: an optional sign, then digits with at most one point, at least one digit. -/
def read? (text : List Char) : Option Decimal :=
  let (negative, body) := splitSign text
  let whole := body.takeWhile Char.isDigit
  let fraction? : Option (List Char) := match body.dropWhile Char.isDigit with
    | [] => some []
    | c :: rest => if c = '.' ∧ rest.all Char.isDigit then some rest else none
  match fraction? with
  | none => none
  | some fraction =>
    if (whole ++ fraction).isEmpty then none
    else some ⟨negative, natOfDigits (whole ++ fraction), fraction.length⟩

/-- The digits of `n` with zeros in front up to `width` of them. -/
def padded (width n : Nat) : List Char := (digitsOfNat n).leftpad width '0'

/-- The numeral of a decimal: no exponent, and a point only where there are places after it. -/
def write (d : Decimal) : List Char :=
  let sign := if d.negative then ['-'] else []
  let fraction := if d.places = 0 then [] else '.' :: padded d.places (d.steps % d.stepDen)
  sign ++ digitsOfNat (d.steps / d.stepDen) ++ fraction

/-- The number of the magnitude of `fmt` that a decimal reads as. -/
def magnitude (fmt : Format) (d : Decimal) : Nat := fmt.nearest d.steps d.stepDen

/--
On the grid of step `stepNum / stepDen`, the neighbour of the magnitude numbered `n` that reads
back to it: the nearer one where both do, the upper one where they are equally near.  The result
counts steps.
-/
def onGrid? (fmt : Format) (n stepNum stepDen : Nat) : Option Nat :=
  let num := fmt.units n * stepDen
  let den := fmt.unitDen * stepNum
  let below := num / den
  let readsBack (steps : Nat) : Bool := fmt.nearest (steps * stepNum) stepDen == n
  match readsBack below, readsBack (below + 1) with
  | true, true => some (if den ≤ 2 * (num % den) then below + 1 else below)
  | true, false => some below
  | false, true => some (below + 1)
  | false, false => none

/-- The power-of-ten grids that can matter for a format, from the coarsest to the finest one. -/
def grids (fmt : Format) : List Int :=
  (List.range (2 * fmt.halvings + 1)).map fun i : Nat => (fmt.halvings : Int) - (i : Int)

/-- The unsigned decimal with the fewest digits that reads back to the magnitude numbered `n`. -/
def shortest (fmt : Format) (n : Nat) : Decimal :=
  let found := (grids fmt).findSome? fun exponent =>
    let step := Nat.pow 10 exponent.natAbs
    if 0 ≤ exponent then (onGrid? fmt n step 1).map fun steps => Decimal.mk false (steps * step) 0
    else (onGrid? fmt n 1 step).map fun steps => Decimal.mk false steps exponent.natAbs
  found.getD ⟨false, 0, 0⟩

end Decimal

end TermProximity.Numeric
