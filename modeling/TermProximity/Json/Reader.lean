import TermProximity.Json

/-!
# Reading JSON — the value that a text spells

Blanks may stand around every value, comma, colon, brace and bracket; nothing else may be added: no
comma after the last item, no leading zero, no control character in a string.  Minus zero is no
whole number.

The readers take characters off the front and return what is left, or nothing when the text breaks
the rules.  `value?` and its companions are given more steps than a text of its length can take.
-/

namespace TermProximity.Json

/-- Drops blanks from the front. -/
def skipGap (text : List Char) : List Char := text.dropWhile isGap

/-! ### Strings -/

/-- What one character or escape of a string says. -/
inductive Piece where
  | char (c : Char)
  /-- Half of a surrogate pair. -/
  | half (unit : Nat)

/-- What a 16-bit unit says. -/
def Piece.ofUnit (unit : Nat) : Piece :=
  if 0xd800 ≤ unit ∧ unit < 0xe000 then half unit else char (Char.ofNat unit)

/-- The character that a short escape stands for. -/
def shortEscape? (letter : Char) : Option Char :=
  if letter = '/' then some '/' else (shortEscapes.find? fun e => e.1 == letter).map (·.2)

/-- The pieces of a string up to its closing quote. -/
def pieces? : List Char → Option (List Piece × List Char)
  | [] => none
  | '"' :: rest => some ([], rest)
  | '\\' :: 'u' :: a :: b :: c :: d :: rest =>
    match Text.hexNumber? [a, b, c, d] with
    | none => none
    | some unit => (pieces? rest).map fun (ps, rest) => (.ofUnit unit :: ps, rest)
  | '\\' :: letter :: rest =>
    match shortEscape? letter with
    | none => none
    | some c => (pieces? rest).map fun (ps, rest) => (.char c :: ps, rest)
  | c :: rest =>
    if c.toNat < 0x20 ∨ c = '\\' then none
    else (pieces? rest).map fun (ps, rest) => (.char c :: ps, rest)

/-- The text of pieces, if every half of a pair is followed by the other half. -/
def textOf? : List Piece → Option (List Char)
  | [] => some []
  | .char c :: rest => (textOf? rest).map (c :: ·)
  | .half high :: .half low :: rest =>
    if high < 0xdc00 ∧ 0xdc00 ≤ low then
      let code := 0x10000 + (high - 0xd800) * 0x400 + (low - 0xdc00)
      (textOf? rest).map (Char.ofNat code :: ·)
    else none
  | .half _ :: _ => none

/-- Reads a string after its opening quote. -/
def string? (text : List Char) : Option (Option String × List Char) :=
  (pieces? text).map fun (ps, rest) => ((textOf? ps).map String.ofList, rest)

/-! ### Numbers -/

/-- Reads one digit or more. -/
def digits? (text : List Char) : Option (List Char × List Char) :=
  let digits := text.takeWhile Char.isDigit
  if digits.isEmpty then none else some (digits, text.dropWhile Char.isDigit)

/-- Drops a fraction; tells whether there was one. -/
def skipFraction? : List Char → Option (Bool × List Char)
  | '.' :: rest => (digits? rest).map fun (_, rest) => (true, rest)
  | text => some (false, text)

/-- Drops an exponent; tells whether there was one. -/
def skipExponent? : List Char → Option (Bool × List Char)
  | c :: rest =>
    if c = 'e' ∨ c = 'E' then
      let digits := match rest with
        | '+' :: digits | '-' :: digits => digits
        | digits => digits
      (digits? digits).map fun (_, rest) => (true, rest)
    else some (false, c :: rest)
  | [] => some (false, [])

/-- Reads a number. -/
def number? (text : List Char) : Option (Json × List Char) := do
  let (negative, text) := match text with
    | '-' :: rest => (true, rest)
    | rest => (false, rest)
  let (digits, rest) ← digits? text
  if digits.head? = some '0' ∧ digits.length ≠ 1 then none
  else
    let (fractional, rest) ← skipFraction? rest
    let (scaled, rest) ← skipExponent? rest
    let magnitude := Numeric.natOfDigits digits
    if fractional || scaled || (negative && magnitude == 0) then some (fraction, rest)
    else some (whole (if negative then -(magnitude : Int) else magnitude), rest)

/-! ### Values -/

/-- Drops a keyword from the front. -/
def keyword? (word : String) (text : List Char) : Option (List Char) :=
  if word.toList.isPrefixOf text then some (text.drop word.length) else none

mutual

/-- Reads a value; blanks in front of it are dropped. -/
def value? : Nat → List Char → Option (Json × List Char)
  | 0, _ => none
  | steps + 1, text =>
    match skipGap text with
    | '"' :: rest => (string? rest).map fun (text, rest) => (string text, rest)
    | '[' :: rest =>
      match skipGap rest with
      | ']' :: rest => some (array [], rest)
      | rest => (items? steps rest).map fun (items, rest) => (array items, rest)
    | '\x7b' :: rest =>
      match skipGap rest with
      | '\x7d' :: rest => some (object [], rest)
      | rest => (members? steps rest).map fun (members, rest) => (object members, rest)
    | 'n' :: rest => (keyword? "ull" rest).map (null, ·)
    | 't' :: rest => (keyword? "rue" rest).map (bool true, ·)
    | 'f' :: rest => (keyword? "alse" rest).map (bool false, ·)
    | text => number? text

/-- Reads the items of an array, of which there is one at least, and its closing bracket. -/
def items? : Nat → List Char → Option (List Json × List Char)
  | 0, _ => none
  | steps + 1, text => do
    let (item, rest) ← value? steps text
    match skipGap rest with
    | ',' :: rest => (items? steps rest).map fun (items, rest) => (item :: items, rest)
    | ']' :: rest => some ([item], rest)
    | _ => none

/-- Reads the members of an object, of which there is one at least, and its closing brace. -/
def members? : Nat → List Char → Option (List (Option String × Json) × List Char)
  | 0, _ => none
  | steps + 1, text =>
    match skipGap text with
    | '"' :: rest => do
      let (key, rest) ← string? rest
      match skipGap rest with
      | ':' :: rest => do
        let (value, rest) ← value? steps rest
        match skipGap rest with
        | ',' :: rest =>
          (members? steps rest).map fun (members, rest) => ((key, value) :: members, rest)
        | '\x7d' :: rest => some ([(key, value)], rest)
        | _ => none
      | _ => none
    | _ => none

end

/-- The value that a text spells. -/
def read? (text : String) : Option Json :=
  match value? (2 * text.length + 2) text.toList with
  | some (value, rest) => if (skipGap rest).isEmpty then some value else none
  | none => none

end TermProximity.Json
