import TermProximity.Failure
import TermProximity.Text.Blank
import TermProximity.Zone

/-!
# Zone filters — the zones that a request asks about

A filter admits every zone, the zones of one name, or those of several names.  Asking for every
zone can be narrowed to fields set up for content expansion; asking by name cannot.
-/

namespace TermProximity

/-- A name is its own key, and of equal names the first stays. -/
instance : Entry String String where
  key name := name
  join first _ := first
  key_join _ _ := rfl
  join_assoc _ _ _ := rfl

/-- A set of names in increasing order. -/
abbrev Names := KeyedList String

namespace Zone

/-- Which zones a request asks about. -/
inductive Filter where
  | all
  | named (name : String)
  | anyOf (names : Names)
  deriving DecidableEq

namespace Filter

/-- The names that a filter gives, in increasing order. -/
def names : Filter → List String
  | all => []
  | named name => [name]
  | anyOf names => names.entries

/-- Whether a filter asks about every zone. -/
def isAll : Filter → Bool
  | all => true
  | _ => false

/-- Refuses a blank name, and a set of names without any. -/
def check : Filter → Except ArgumentFault Unit
  | all => .ok ()
  | named name => if Text.isBlankText name then .error .blankZoneName else .ok ()
  | anyOf names =>
    if names.isEmpty then .error .noZoneName
    else if names.entries.any Text.isBlankText then .error .blankZoneName
    else .ok ()

/-- The filter that admits the given names, of which one alone gives `named`. -/
def ofNames (names : List String) : Except ArgumentFault Filter :=
  let set : Names := KeyedList.ofList names
  let filter := match set.entries with
    | [name] => named name
    | _ => anyOf set
  filter.check.map fun _ => filter

/-- Whether a zone takes part; `expansionOnly` narrows a filter without names. -/
def admits (filter : Filter) (expansionOnly : Bool) (zone : Zone) : Bool :=
  match filter with
  | all => !expansionOnly || zone.expansion
  | named name => zone.name == name
  | anyOf names => names.contains zone.name

/-- The filter as text. -/
def toText : Filter → String
  | all => "*"
  | named name => name
  | anyOf names => "(" ++ " || ".intercalate names.entries ++ ")"

end Filter

end Zone

end TermProximity
