import TermProximity.Numeric.Decimal
import TermProximity.Record
import TermProximity.Text.Hex

/-!
# JSON — the values that texts spell, and members as they are written

Two kinds of value are kept only as far as a record can ask about them: a number that is not written
as a whole number is just `fraction`, and a string in which an escape names half of a surrogate
pair spells no text.  What is written has no blanks, and escapes only what must be escaped.
-/

namespace TermProximity

/-- A JSON value. -/
inductive Json where
  | null
  | bool (value : Bool)
  /-- A number written as a whole number. -/
  | whole (value : Int)
  /-- Any other number. -/
  | fraction
  /-- A string; `none` where it spells no text. -/
  | string (text : Option String)
  | array (items : List Json)
  /-- Members in the order in which they are written; keys may come again. -/
  | object (members : List (Option String × Json))

namespace Json

/-- What a field holds, as JSON. -/
def ofScalar : Scalar → Json
  | .null => null
  | .truth value => bool value
  | .whole value => whole value
  | .text value => string (some value)

/-- What a field holds that a value is found for. -/
def scalar? : Json → Option Scalar
  | null => some .null
  | bool value => some (.truth value)
  | whole value => some (.whole value)
  | string text => text.map .text
  | _ => none

@[simp] theorem scalar?_ofScalar (v : Scalar) : (ofScalar v).scalar? = some v := by
  cases v <;> rfl

/-- The blanks between the parts of a text. -/
def isGap (c : Char) : Bool := c == ' ' || c == '\n' || c == '\t' || c == '\r'

/-- The letters of the short escapes, with the characters that they stand for. -/
def shortEscapes : List (Char × Char) :=
  [('"', '"'), ('\\', '\\'), ('b', '\x08'), ('f', '\x0c'), ('n', '\n'), ('r', '\r'), ('t', '\t')]

/-! ### Writing -/

/-- A character as it is written in a string. -/
def writeChar (c : Char) : List Char :=
  match shortEscapes.find? fun e => e.2 == c with
  | some (letter, _) => ['\\', letter]
  | none =>
    if c.toNat < 0x20 then ['\\', 'u'] ++ (Text.hexDigits c.toNat).leftpad 4 '0' else [c]

/-- A string as it is written. -/
def writeString (text : String) : List Char := '"' :: text.toList.flatMap writeChar ++ ['"']

/-- A whole number as it is written. -/
def writeWhole (n : Int) : List Char :=
  (if n < 0 then ['-'] else []) ++ Numeric.digitsOfNat n.natAbs

/-- What a field holds, as it is written. -/
def writeScalar : Scalar → List Char
  | .null => "null".toList
  | .truth value => if value then "true".toList else "false".toList
  | .whole value => writeWhole value
  | .text value => writeString value

/-- Members with a value for each name. -/
abbrev Members := List (String × Scalar)

/-- Members as they are written, with commas between them. -/
def writeMembers : Members → List Char
  | [] => []
  | [(name, value)] => writeString name ++ ':' :: writeScalar value
  | (name, value) :: rest => writeString name ++ ':' :: writeScalar value ++ ',' :: writeMembers rest

/-- The text of an object of members. -/
def Members.toText (members : Members) : String :=
  String.ofList ('\x7b' :: writeMembers members ++ ['\x7d'])

end Json

end TermProximity
