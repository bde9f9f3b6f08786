import TermProximity.Text.Extender
import TermProximity.Text.Hex
import TermProximity.Text.Hidden

/-!
# Escaped text — text with every invisible character made visible

Quotes and the backslash get a backslash, the common controls their letter, and hidden characters
their code point in braces.  An extender is shown by its code point only where it begins the text:
elsewhere it shows on the character before it.
-/

namespace TermProximity.Text

/-- A character written by its code point. -/
def escapeByCode (c : Char) : List Char :=
  ['\\', 'u', '\x7b'] ++ hexDigits c.toNat ++ ['\x7d']

/-- A character made visible; `first` tells whether it begins the text. -/
def escapeChar (first : Bool) (c : Char) : List Char :=
  if c = '\x00' then ['\\', '0']
  else if c = '\t' then ['\\', 't']
  else if c = '\n' then ['\\', 'n']
  else if c = '\r' then ['\\', 'r']
  else if c = '"' ∨ c = '\'' ∨ c = '\\' then ['\\', c]
  else if isHidden c || (first && isExtender c) then escapeByCode c
  else [c]

/-- A text with every invisible character made visible. -/
def escape (text : String) : String :=
  match text.toList with
  | [] => ""
  | c :: rest => String.ofList (escapeChar true c ++ rest.flatMap (escapeChar false))

end TermProximity.Text
