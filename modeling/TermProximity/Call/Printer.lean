import TermProximity.Call

/-!
# Printing calls — one way to write each call

A call is written with its namespace, the zones before the number, and literals in single quotes;
in a literal a backslash stands before each quote and each backslash.
-/

namespace TermProximity.Call

/-- A text as a literal in single quotes. -/
def quote (text : String) : List Char :=
  '\'' :: text.toList.flatMap (fun c => if c = '\'' ∨ c = '\\' then ['\\', c] else [c]) ++ ['\'']

/-- Parts with a separator between neighbours. -/
def joinWith (separator : List Char) : List (List Char) → List Char
  | [] => []
  | [part] => part
  | part :: rest => part ++ separator ++ joinWith separator rest

/-- The zones of a call as its first argument, if it names any. -/
def zonesText : Zone.Filter → List (List Char)
  | .all => []
  | .named name => [quote name]
  | .anyOf names => ['(' :: joinWith " || ".toList (names.entries.map quote) ++ [')']]

/-- The number of a call, if it has one. -/
def numberText : Arrangement → List (List Char)
  | .within distance => [Numeric.digitsOfNat distance.toNat]
  | .scoredPhrase threshold => [threshold.write]
  | .adjacent | .phrase => []

/-- The arguments of a call, one text for each. -/
def argumentTexts (c : Call) : List (List Char) :=
  zonesText c.request.zones ++ numberText c.request.arrangement ++ [c.mapVariable.toList] ++
    c.request.terms.map quote

/-- The call as it is written. -/
def render (c : Call) : List Char :=
  contentNamespace.toList ++ ':' :: c.request.arrangement.name.toList ++
    '(' :: joinWith ", ".toList c.argumentTexts ++ [')']

/-- The call as text. -/
def toText (c : Call) : String := String.ofList c.render

end TermProximity.Call
