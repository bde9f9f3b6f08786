import TermProximity.Failure

/-!
# Settings — what an evaluation does where the request leaves it open

Every setting has a default, so settings of which nothing is said are the standard ones.
-/

namespace TermProximity

/-- What an evaluation does where the request leaves it open. -/
structure Settings where
  /-- The name that stands between the leading arguments of a call and its terms. -/
  mapVariable : String := "termOffsetMap"
  /-- A request that names no zone asks only about fields set up for content expansion. -/
  expansionZonesOnly : Bool := true
  /-- Every phrase is recorded, and not only the first of a zone. -/
  everySpan : Bool := false
  /-- Spans of phrases are recorded at all. -/
  recordSpans : Bool := true
  deriving DecidableEq

namespace Settings

/-- The standard settings. -/
def standard : Settings := {}

/-- A plain identifier: ASCII letters, digits and underscores, not beginning with a digit. -/
def isIdentifier (name : String) : Bool :=
  match name.toList with
  | [] => false
  | c :: rest => (c.isAlpha || c == '_') && rest.all fun c => c.isAlphanum || c == '_'

/-- Refuses a variable that is no plain identifier. -/
def check (s : Settings) : Except SettingsFault Unit :=
  if isIdentifier s.mapVariable then .ok () else .error (.notIdentifier s.mapVariable)

end Settings

end TermProximity
