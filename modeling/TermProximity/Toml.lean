import TermProximity.Record
import TermProximity.Text.Hex

/-!
# TOML entries — the lines of a flat settings text

The part of TOML that a flat settings text needs: entries of a key and a value, which is a string
or a truth value.  A string may stand in single quotes, where every character stands for itself, or
in double quotes, where a backslash begins an escape, and in three quotes of either kind it may run
over several lines.

`writeString` chooses the plainest of these notations that the text admits.
-/

namespace TermProximity.Toml

/-- A key with its value. -/
abbrev Entry := String × Scalar

/-! ### Characters -/

/-- The letters of the short escapes, with the characters that they stand for. -/
def shortEscapes : List (Char × Char) :=
  [('b', '\x08'), ('t', '\t'), ('n', '\n'), ('f', '\x0c'), ('r', '\r'), ('"', '"'), ('\\', '\\')]

/-- A control character, the horizontal tab and the line feed included. -/
def isControl (c : Char) : Bool := c.toNat < 0x20 || c.toNat == 0x7f

/-- A space or a tab. -/
def isGap (c : Char) : Bool := c == ' ' || c == '\t'

/-- A character that may stand for itself between double quotes. -/
def isBasicChar (c : Char) : Bool := c == '\t' || !isControl c && c != '"' && c != '\\'

/-- A character that may stand between single quotes. -/
def isLiteralChar (c : Char) : Bool := c == '\t' || !isControl c && c != '\''

/-- A character that may stand in a comment. -/
def isCommentChar (c : Char) : Bool := c == '\t' || !isControl c

/-- A character of a key without quotes. -/
def isKeyChar (c : Char) : Bool := c.isAlphanum || c == '-' || c == '_'

/-! ### Choosing a notation -/

/-- The notations of a string. -/
inductive Notation where
  /-- One double quote on each side. -/
  | basic
  /-- One single quote on each side. -/
  | literal
  /-- Three double quotes on each side. -/
  | longBasic
  /-- Three single quotes on each side. -/
  | longLiteral
  deriving DecidableEq

namespace Notation

/-- Whether the notation has escapes. -/
def hasEscapes : Notation → Bool
  | basic | longBasic => true
  | literal | longLiteral => false

/-- Whether the notation may run over several lines. -/
def isLong : Notation → Bool
  | longBasic | longLiteral => true
  | basic | literal => false

/-- What stands on each side. -/
def delimiter : Notation → List Char
  | basic => ['"']
  | literal => ['\'']
  | longBasic => ['"', '"', '"']
  | longLiteral => ['\'', '\'', '\'']

end Notation

/-- The length of the longest run of a character, when `run` of them have just been seen. -/
def longestRun (c : Char) (run : Nat) : List Char → Nat
  | [] => run
  | d :: rest => if d = c then longestRun c (run + 1) rest else max run (longestRun c 0 rest)

/-- Whether a text has a control character that only an escape can write. -/
def needsEscapes (text : List Char) : Bool :=
  text.any fun c => isControl c && c != '\t' && c != '\n'

/-- The plainest notation that a text admits. -/
def notationOf (text : List Char) : Notation :=
  let escapes := needsEscapes text
  let backslash := text.contains '\\'
  let lines := text.contains '\n'
  let doubles := longestRun '"' 0 text
  let singles := longestRun '\'' 0 text
  if !escapes && !backslash && !lines && doubles == 0 then .basic
  else if !escapes && !lines && singles == 0 then .literal
  else if !escapes && !backslash && doubles ≤ 2 then .longBasic
  else if !escapes && singles ≤ 2 then .longLiteral
  else if lines then .longBasic
  else .basic

/-! ### Writing -/

/-- A character by its escape. -/
def escapeChar (c : Char) : List Char :=
  match shortEscapes.find? fun e => e.2 == c with
  | some (letter, _) => ['\\', letter]
  | none => ['\\', 'u'] ++ ((Text.hexDigits c.toNat).map Char.toUpper).leftpad 4 '0'

/--
A text in a notation with escapes, when `run` double quotes have just been written.  Between three
quotes on each side a line feed and up to two quotes together stand for themselves.
-/
def escapeText (long : Bool) (run : Nat) : List Char → List Char
  | [] => []
  | c :: rest =>
    if c = '"' then
      if long ∧ run < 2 then c :: escapeText long (run + 1) rest
      else escapeChar c ++ escapeText long 0 rest
    else if c = '\n' ∧ long then c :: escapeText long 0 rest
    else if isControl c ∨ c = '\\' then escapeChar c ++ escapeText long 0 rest
    else c :: escapeText long 0 rest

/-- A text in a notation; one of several lines begins on a line of its own. -/
def writeIn (style : Notation) (text : List Char) : List Char :=
  let opening := if style.isLong && text.contains '\n' then ['\n'] else []
  let body := if style.hasEscapes then escapeText style.isLong 0 text else text
  style.delimiter ++ opening ++ body ++ style.delimiter

/-- A string in the plainest notation that it admits. -/
def writeString (text : String) : List Char := writeIn (notationOf text.toList) text.toList

/-- A key, in quotes where it needs them. -/
def writeKey (key : String) : List Char :=
  if key ≠ "" ∧ key.toList.all isKeyChar then key.toList else writeIn .basic key.toList

/-- A value as it is written, if it is one that is read here. -/
def writeScalar? : Scalar → Option (List Char)
  | .text value => some (writeString value)
  | .truth value => some (if value then "true".toList else "false".toList)
  | _ => none

/-- An entry as it is written, on a line of its own. -/
def writeLine? (e : Entry) : Option (List Char) :=
  (writeScalar? e.2).map fun value => writeKey e.1 ++ " = ".toList ++ value ++ ['\n']

/-- Entries as they are written. -/
def write? (entries : List Entry) : Option (List Char) :=
  (entries.mapM writeLine?).map List.flatten

end TermProximity.Toml
