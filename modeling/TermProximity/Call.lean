import TermProximity.Call.Form
import TermProximity.Call.Words
import TermProximity.Position
import TermProximity.Request
import TermProximity.Settings

/-!
# Calls — requests in the notation of content functions

In a call, the variable of the term offset map divides the arguments: those before it give, in any
order, the zones and the number of the request; those after it are the terms, and must be quoted.

* `Form.resolve`: what a form means, or why it means nothing;
* `Call.parse`: the call that a text spells.
-/

namespace TermProximity

/-- A request together with the variable under which its call names the term offset map. -/
structure Call where
  request : Request
  mapVariable : String
  deriving DecidableEq

namespace Call

/-- The functions of the notation. -/
inductive Function where
  | within
  | adjacent
  | phrase
  | scoredPhrase
  deriving DecidableEq

/-- The function of a name. -/
def Function.ofName? (name : String) : Option Function :=
  if name = "within" then some within
  else if name = "adjacent" then some adjacent
  else if name = "phrase" then some phrase
  else if name = "scoredPhrase" then some scoredPhrase
  else none

/-- What the arguments before the variable give: zones at most once, and at most one numeral. -/
structure Leading where
  zones : Option Zone.Filter := none
  /-- The numeral as written, and the byte offset at which it begins. -/
  numeral : Option (String × Nat) := none

namespace Leading

/-- Takes in the zones given by the argument at a byte offset. -/
def setZones (l : Leading) (zones : Zone.Filter) (byte : Nat) : Except ArgumentFault Leading :=
  if l.zones.isSome then .error (.secondZone byte)
  else zones.check.map fun _ => { l with zones := some zones }

/-- Takes in one more argument. -/
def add (l : Leading) : Argument → Except ArgumentFault Leading
  | .numeral text byte =>
    if l.numeral.isSome then .error (.secondNumber text byte)
    else .ok { l with numeral := some (text, byte) }
  | .name text byte | .literal text byte => l.setZones (.named text) byte
  | .group names byte =>
    match Zone.Filter.ofNames names with
    | .error fault => .error fault
    | .ok zones => l.setZones zones byte

end Leading

/-- The distance that a numeral gives: a whole number that a 32-bit number holds. -/
def distance? (numeral : String) : Option UInt32 :=
  match Numeric.readWhole? numeral.toList with
  | some n => if n ≤ maxOffset then some (UInt32.ofNat n) else none
  | none => none

/-- The arrangement that a function asks for with the numeral among its leading arguments. -/
def arrangement (function : Function) (numeral : Option (String × Nat)) :
    Except ArgumentFault Arrangement :=
  match function, numeral with
  | .within, none => .error .distanceMissing
  | .within, some (text, byte) =>
    match distance? text with
    | some distance => .ok (.within distance)
    | none => .error (.distanceNotWhole text byte)
  | .scoredPhrase, none => .error .thresholdMissing
  | .scoredPhrase, some (text, byte) =>
    match Score.read? text.toList with
    | some threshold => .ok (.scoredPhrase threshold)
    | none => .error (.thresholdNotNumber text byte)
  | .adjacent, none => .ok .adjacent
  | .phrase, none => .ok .phrase
  | .adjacent, some (text, byte) | .phrase, some (text, byte) =>
    .error (.needlessNumber text byte)

/-- The term that an argument gives. -/
def term : Argument → Except ArgumentFault String
  | .literal text _ => .ok text
  | a => .error (.unquotedTerm a.byte)

/-- Whether an argument is the variable, not quoted. -/
def isVariable (mapVariable : String) : Argument → Bool
  | .name text _ => text == mapVariable
  | _ => false

/-- Whether an argument is the variable in quotes. -/
def isQuotedVariable (mapVariable : String) : Argument → Bool
  | .literal text _ => text == mapVariable
  | _ => false

/-- The arguments before and after the variable. -/
def splitArguments (mapVariable : String) (arguments : List Argument) :
    Except ArgumentFault (List Argument × List Argument) :=
  match arguments.dropWhile (!isVariable mapVariable ·) with
  | _ :: terms => .ok (arguments.takeWhile (!isVariable mapVariable ·), terms)
  | [] =>
    if arguments.any (isQuotedVariable mapVariable) then .error (.variableQuoted mapVariable)
    else .error (.variableMissing mapVariable)

/-- The call that a form means when the term offset map goes by `mapVariable`. -/
def Form.resolve (form : Form) (mapVariable : String) : Except ArgumentFault Call := do
  let some function := Function.ofName? form.function
    | .error (.unknownFunction form.function form.byte)
  let (before, after) ← splitArguments mapVariable form.arguments
  let leading ← before.foldlM Leading.add {}
  let arrangement ← arrangement function leading.numeral
  let terms ← after.mapM term
  let request : Request := { arrangement, zones := leading.zones.getD .all, terms }
  request.check
  return ⟨request, mapVariable⟩

/-- The call of a request that makes sense, under the standard variable. -/
def ofRequest (request : Request) : Except ArgumentFault Call :=
  request.check.map fun _ => ⟨request, Settings.standard.mapVariable⟩

/-- The call that a text spells when the term offset map goes by `mapVariable`. -/
def parse (text mapVariable : String) : Except Failure Call := do
  let form ← Form.ofTokens text.utf8ByteSize (← tokens text)
  (form.resolve mapVariable).mapError .argument

end Call

end TermProximity
