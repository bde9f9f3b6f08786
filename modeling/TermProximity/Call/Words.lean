import TermProximity.Failure
import TermProximity.Text.Blank
import TermProximity.Text.Letter
import TermProximity.Text.Numeral

/-!
# Words — cutting the text of a call into tokens

Blank characters only separate.  A name begins with a letter or an underscore and goes on with
letters, numerals, underscores and points; a numeral has an optional sign, then digits with at most
one point among them; a literal stands in single or double quotes, and in it a backslash stands for
the character after it.

* `wordAt`: the word that begins with a given character, and how far it reaches;
* `tokens`: the tokens of a text, or the first place at which no word can be read.
-/

namespace TermProximity.Call

open Text

/-- The number of bytes that characters take up. -/
def byteLength : List Char → Nat
  | [] => 0
  | c :: rest => c.utf8Size + byteLength rest

/-- Whether a name may begin with the character. -/
def isNameStart (c : Char) : Bool := isLetter c || c == '_'

/-- Whether a name may go on with the character. -/
def isNameRest (c : Char) : Bool := isLetter c || isNumeral c || c == '_' || c == '.'

/-- The digits at the front of a text, with at most one point among them. -/
def digitsAt (text : List Char) : List Char :=
  let whole := text.takeWhile Char.isDigit
  match text.dropWhile Char.isDigit with
  | '.' :: rest => whole ++ '.' :: rest.takeWhile Char.isDigit
  | _ => whole

/-- The numeral at the front of a text; it may lack digits. -/
def numeralAt : List Char → List Char
  | '-' :: rest => '-' :: digitsAt rest
  | '+' :: rest => '+' :: digitsAt rest
  | text => digitsAt text

/-- The number of characters up to the closing quote, which is counted, if the literal ends. -/
def literalLength? (quote : Char) : List Char → Option Nat
  | [] => none
  | '\\' :: _ :: rest => (literalLength? quote rest).map (· + 2)
  | c :: rest => if c = quote then some 1 else (literalLength? quote rest).map (· + 1)

/-- What stands in a literal, with every backslash dropped before the character it marks. -/
def unescape : List Char → List Char
  | [] => []
  | '\\' :: c :: rest => c :: unescape rest
  | c :: rest => c :: unescape rest

/--
The word that begins with `c`, where `rest` is what follows it, and the number of characters of
`rest` that belong to the word.
-/
def wordAt (c : Char) (rest : List Char) : Except SyntaxFault (Word × Nat) :=
  if c = '(' then .ok (.openParen, 0)
  else if c = ')' then .ok (.closeParen, 0)
  else if c = ',' then .ok (.comma, 0)
  else if c = ':' then .ok (.colon, 0)
  else if c = '|' then
    if rest.head? = some '|' then .ok (.bars, 1) else .error .loneBar
  else if c = '\'' ∨ c = '"' then
    match literalLength? c rest with
    | none => .error .unterminatedLiteral
    | some length => .ok (.literal (String.ofList (unescape (rest.take (length - 1)))), length)
  else if c.isDigit ∨ c = '-' ∨ c = '+' ∨ c = '.' then
    let numeral := numeralAt (c :: rest)
    if numeral.any Char.isDigit then .ok (.numeral (String.ofList numeral), numeral.length - 1)
    else .error .noDigits
  else if isNameStart c then
    let further := rest.takeWhile isNameRest
    .ok (.name (String.ofList (c :: further)), further.length)
  else .error (.strayCharacter c)

/-- The tokens of a text that begins at a byte offset. -/
def tokensFrom (byte : Nat) : List Char → Except Failure (List Token)
  | [] => .ok []
  | c :: rest =>
    if isBlank c then tokensFrom (byte + c.utf8Size) rest
    else
      match wordAt c rest with
      | .error fault => .error (.malformed byte fault)
      | .ok (word, further) =>
        (tokensFrom (byte + byteLength (c :: rest.take further)) (rest.drop further)).map
          (⟨word, byte⟩ :: ·)
termination_by text => text.length
decreasing_by all_goals simp only [List.length_drop, List.length_cons]; omega

/-- The tokens of a text. -/
def tokens (text : String) : Except Failure (List Token) := tokensFrom 0 text.toList

/-! ### Small laws of the readers -/

@[simp] theorem byteLength_nil : byteLength [] = 0 := rfl

@[simp] theorem byteLength_cons (c : Char) (rest : List Char) :
    byteLength (c :: rest) = c.utf8Size + byteLength rest := rfl

@[simp] theorem byteLength_append (s t : List Char) :
    byteLength (s ++ t) = byteLength s + byteLength t := by
  induction s with
  | nil => simp
  | cons c rest ih => simp [ih, Nat.add_assoc]

end TermProximity.Call
