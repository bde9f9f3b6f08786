/-!
# Tokens — the words of a call

A call is written with names, quoted literals, numerals and five marks.  A token carries the byte
offset at which it begins, which is what a complaint about it refers to.
-/

namespace TermProximity.Call

/-- A word of a call, with what it says. -/
inductive Word where
  /-- A bare name. -/
  | name (text : String)
  /-- A quoted literal, by the text it stands for. -/
  | literal (text : String)
  /-- A numeral, as written. -/
  | numeral (text : String)
  | openParen
  | closeParen
  | comma
  | colon
  /-- The two bars between the zones of a group. -/
  | bars
  deriving DecidableEq

/-- A word as a complaint names it. -/
def Word.describe : Word → String
  | name text => "identifier '" ++ text ++ "'"
  | literal text => "literal '" ++ text ++ "'"
  | numeral text => "number " ++ text
  | openParen => "'('"
  | closeParen => "')'"
  | comma => "','"
  | colon => "':'"
  | bars => "'||'"

/-- A word and the byte offset of its first character. -/
structure Token where
  word : Word
  byte : Nat
  deriving DecidableEq

end TermProximity.Call
