import TermProximity.Score
import TermProximity.Call.Token

/-!
# Failures — why a request, a call or a settings file is refused

A search that finds nothing is no failure.  Every failure is a cause with the data that it speaks
of; the wording is in `ArgumentFault.reason`, `SyntaxFault.message`, `SettingsFault.message` and
`Failure.message`.
-/

namespace TermProximity

open Call (Word)

/-- What is wrong with an argument of a request or a call. -/
inductive ArgumentFault where
  | zeroDistance
  | distanceMissing
  | distanceNotWhole (numeral : String) (byte : Nat)
  | thresholdNotFinite (threshold : Score)
  | thresholdMissing
  | thresholdNotNumber (numeral : String) (byte : Nat)
  | tooFewTerms (function : String) (given : Nat)
  | emptyTerm
  | unquotedTerm (byte : Nat)
  | noZoneName
  | blankZoneName
  | secondZone (byte : Nat)
  | secondNumber (numeral : String) (byte : Nat)
  | needlessNumber (numeral : String) (byte : Nat)
  | unknownNamespace (name : String)
  | unknownFunction (name : String) (byte : Nat)
  | variableQuoted (variableName : String)
  | variableMissing (variableName : String)
  deriving DecidableEq

namespace ArgumentFault

/-- The argument at fault. -/
def argument : ArgumentFault → String
  | zeroDistance | distanceMissing | distanceNotWhole .. => "distance"
  | thresholdNotFinite .. | thresholdMissing | thresholdNotNumber .. => "threshold"
  | tooFewTerms .. | emptyTerm | unquotedTerm .. => "terms"
  | noZoneName | blankZoneName | secondZone .. => "zone"
  | secondNumber .. | needlessNumber .. => "arguments"
  | unknownNamespace .. => "namespace"
  | unknownFunction .. => "function"
  | variableQuoted name | variableMissing name => name

/-- What is wrong with it. -/
def reason : ArgumentFault → String
  | zeroDistance => "distance must be positive"
  | distanceMissing => "within requires a distance"
  | distanceNotWhole numeral byte => s!"'{numeral}' at byte {byte} is not a positive integer"
  | thresholdNotFinite threshold =>
    "threshold must be finite, got " ++ String.ofList threshold.write
  | thresholdMissing => "scoredPhrase requires a threshold"
  | thresholdNotNumber numeral byte => s!"'{numeral}' at byte {byte} is not a number"
  | tooFewTerms function given => s!"{function} requires at least two terms, got {given}"
  | emptyTerm => "terms must not be empty"
  | unquotedTerm byte => s!"term at byte {byte} must be a quoted literal"
  | noZoneName => "zone list must not be empty"
  | blankZoneName => "zone name must not be blank"
  | secondZone byte => s!"unexpected second zone argument at byte {byte}"
  | secondNumber numeral byte => s!"unexpected extra number {numeral} at byte {byte}"
  | needlessNumber numeral byte => s!"unexpected number {numeral} at byte {byte}"
  | unknownNamespace name => s!"unknown namespace '{name}'"
  | unknownFunction name byte => s!"unknown content function '{name}' at byte {byte}"
  | variableQuoted _ => "term offset map variable must not be quoted"
  | variableMissing name => s!"missing term offset map variable '{name}'"

end ArgumentFault

/-- What the text of a call lacks at some place. -/
inductive Expected where
  | functionName
  | openParen
  | argument
  | zoneName
  /-- A comma or the closing parenthesis of the call. -/
  | nextArgument
  /-- Two bars or the closing parenthesis of a group. -/
  | nextZone
  deriving DecidableEq

/-- What is wrong with the text of a call. -/
inductive SyntaxFault where
  | loneBar
  | unterminatedLiteral
  | noDigits
  | strayCharacter (c : Char)
  /-- Something was expected and another word found; or nothing, at the end of the text. -/
  | expected (what : Expected) (found : Option Word)
  /-- A word stands after the end of the call. -/
  | afterCall (found : Word)
  deriving DecidableEq

namespace SyntaxFault

/-- The fault in words. -/
def message : SyntaxFault → String
  | loneBar => "expected '||'"
  | unterminatedLiteral => "unterminated literal"
  | noDigits => "expected digits"
  | strayCharacter c => "unexpected character '" ++ c.toString ++ "'"
  | expected .functionName none => "expected function name"
  | expected .functionName (some w) => "expected function name, found " ++ w.describe
  | expected .openParen none => "expected '(', found end of input"
  | expected .openParen (some w) => "expected '(', found " ++ w.describe
  | expected .argument none => "expected argument"
  | expected .argument (some w) => "expected argument, found " ++ w.describe
  | expected .zoneName none => "expected zone name"
  | expected .zoneName (some w) => "expected zone name, found " ++ w.describe
  | expected .nextArgument none => "expected ')', found end of input"
  | expected .nextArgument (some w) => "expected ',' or ')', found " ++ w.describe
  | expected .nextZone none => "expected ')'"
  | expected .nextZone (some w) => "expected '||' or ')', found " ++ w.describe
  | afterCall w => "unexpected " ++ w.describe ++ " after call"

end SyntaxFault

/-- What is wrong with settings. -/
inductive SettingsFault where
  /-- The variable of the settings is no identifier. -/
  | notIdentifier (variableName : String)
  /-- The settings cannot be written as text. -/
  | unwritable
  /-- The text is not a settings text. -/
  | unparsable
  /-- The file cannot be read as text. -/
  | unreadable
  deriving DecidableEq

namespace SettingsFault

/-- The fault in words. -/
def message : SettingsFault → String
  | notIdentifier name => "term_offset_map_variable '" ++ name ++ "' is not an identifier"
  | unwritable => "Failed to serialize config"
  | unparsable => "Failed to parse config"
  | unreadable => "Failed to read config file"

end SettingsFault

/-- Why something is refused. -/
inductive Failure where
  | argument (fault : ArgumentFault)
  /-- The text of a call is malformed at a byte offset. -/
  | malformed (byte : Nat) (fault : SyntaxFault)
  | settings (fault : SettingsFault)
  /-- A file cannot be written. -/
  | storage
  deriving DecidableEq

/-- The failure in words. -/
def Failure.message : Failure → String
  | argument fault => "Invalid argument '" ++ fault.argument ++ "': " ++ fault.reason
  | malformed byte fault => s!"Parse error at byte {byte}: " ++ fault.message
  | settings fault => "Configuration error: " ++ fault.message
  | storage => "I/O error"

end TermProximity
