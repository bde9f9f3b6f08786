/-!
# Base sixteen — numbers written with the digits `0` to `9` and `a` to `f`

Writing uses lower-case letters; reading takes letters of either case.

* `WritesHex`: what so many digits write;
* `writesHex_leftpad`: with zeros in front and letters of either case, a number reads back from its
  digits.
-/

namespace TermProximity.Text

/-- The digits of a number in base sixteen. -/
def hexDigits (n : Nat) : List Char := Nat.toDigits 16 n

/-- The value of a digit in base sixteen. -/
def hexValue? (c : Char) : Option Nat :=
  if c.isDigit then some (c.toNat - '0'.toNat)
  else if 'a' ≤ c ∧ c ≤ 'f' then some (c.toNat - 'a'.toNat + 10)
  else if 'A' ≤ c ∧ c ≤ 'F' then some (c.toNat - 'A'.toNat + 10)
  else none

/-- The number that digits in base sixteen write. -/
def hexNumber? (digits : List Char) : Option Nat :=
  digits.foldlM (fun n c => (hexValue? c).map (16 * n + ·)) 0

/-- A number that digits in base sixteen write, of which there are `width`. -/
def WritesHex (digits : List Char) (width n : Nat) : Prop :=
  digits.length = width ∧ hexNumber? digits = some n

theorem hexValue?_digitChar : ∀ d < 16, hexValue? d.digitChar = some d := by decide

theorem hexValue?_toUpper_digitChar : ∀ d < 16, hexValue? d.digitChar.toUpper = some d := by decide

theorem hexNumber?_concat (digits : List Char) (c : Char) :
    hexNumber? (digits ++ [c]) =
      (hexNumber? digits).bind fun n => (hexValue? c).map (16 * n + ·) := by
  rw [hexNumber?, List.foldlM_append]
  exact congrArg _ (funext fun n => by simp)

/-- Digits read back to their number, also where the letters are changed to those of equal value. -/
theorem hexNumber?_map_hexDigits {change : Char → Char}
    (keeps : ∀ d < 16, hexValue? (change d.digitChar) = some d) (n : Nat) :
    hexNumber? ((hexDigits n).map change) = some n := by
  induction n using Nat.strongRecOn with
  | ind n ih =>
    by_cases small : n < 16
    · rw [hexDigits, Nat.toDigits_of_lt_base small]
      simp [hexNumber?, keeps n small]
    · have earlier := ih (n / 16) (by omega)
      have last := keeps (n % 16) (Nat.mod_lt n (by decide))
      rw [hexDigits, Nat.toDigits_of_base_le (by decide) (by omega), List.map_append, List.map_singleton,
        hexNumber?_concat, last]
      rw [hexDigits] at earlier
      rw [earlier]
      simp only [Option.bind_some, Option.map_some, Option.some_inj]
      omega

/-- Zeros in front of digits change nothing. -/
theorem hexNumber?_leftpad (width : Nat) (digits : List Char) :
    hexNumber? (digits.leftpad width '0') = hexNumber? digits := by
  rw [List.leftpad]
  generalize width - digits.length = zeros
  induction zeros with
  | zero => rfl
  | succ zeros ih => exact ih

theorem length_hexDigits_le_four {n : Nat} (small : n < 0x10000) : (hexDigits n).length ≤ 4 :=
  (Nat.length_toDigits_le_iff (by decide) (by decide)).2 small

/-- With zeros in front, a number of at most `width` digits has so many, and they read back to it. -/
theorem writesHex_leftpad {change : Char → Char}
    (keeps : ∀ d < 16, hexValue? (change d.digitChar) = some d) {n width : Nat}
    (short : (hexDigits n).length ≤ width) :
    WritesHex (((hexDigits n).map change).leftpad width '0') width n := by
  rw [WritesHex, List.length_leftpad, List.length_map, Nat.max_eq_left short, hexNumber?_leftpad,
    hexNumber?_map_hexDigits keeps]
  exact ⟨rfl, rfl⟩

end TermProximity.Text
