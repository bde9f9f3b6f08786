import TermProximity.Json.Reader
import TermProximity.Span
import TermProximity.Zone

/-!
# JSON forms — positions, zones and spans as JSON

What these records have in common is in their shapes: a member for each field, in the order of the
fields.  A position without a weight has no member for it, and of a position only the offset may not be
missing.

`Json.library` writes records as objects.  It reads objects with their members in any order, and also
arrays of the fields in order.
-/

namespace TermProximity

/-! ### Shapes -/

instance : Record Position where
  shape.fields := [
    { name := "offset" },
    { name := "prev_skips", standard := some (.whole 0) },
    { name := "score", standard := some .null, omits := (· == .null) },
    { name := "zero_offset_match", standard := some (.truth true) }]
  values p :=
    [.ofWord p.offset, .ofWord p.skips, .ofWeight p.weight, .truth p.zeroHop]
  ofValues?
    | [offset, skips, weight, zeroHop] => do
      return ⟨← offset.word?, ← skips.word?, ← weight.weight?, ← zeroHop.truth?⟩
    | _ => none
  length_values _ := rfl
  ofValues?_values p := by simp [Scalar.truth?]

instance : Record Zone where
  shape.fields := [{ name := "name" }, { name := "content_expansion" }, { name := "document_id" }]
  values z := [.text z.name, .truth z.expansion, .text z.document]
  ofValues?
    | [name, expansion, document] => do
      return ⟨← name.text?, ← expansion.truth?, ← document.text?⟩
    | _ => none
  length_values _ := rfl
  ofValues?_values _ := rfl

instance : Record Span where
  shape.fields := [{ name := "start" }, { name := "end" }]
  values s := [.ofWord s.first, .ofWord s.last]
  ofValues?
    | [first, last] => do return ⟨← first.word?, ← last.word?⟩
    | _ => none
  length_values _ := rfl
  ofValues?_values s := by simp

/-! ### Reading and writing records -/

namespace Json

/-- Members whose names are all texts. -/
def named? (members : List (Option String × Json)) : Option (List (String × Json)) :=
  members.mapM fun m => m.1.map (·, m.2)

/-- The record that a value says: an object of members, or an array of the fields in order. -/
def record? {α : Type} [Record α] : Json → Option α
  | object members => (named? members).bind (Record.ofMembers? scalar?)
  | array items =>
    let fields := (Record.shape α).fields.length
    if items.length ≤ fields then
      Record.ofFound? scalar? (items.map some ++ List.replicate (fields - items.length) none)
    else none
  | _ => none

/-- Records as objects. -/
def library : Library where
  write a := some (Members.toText (Record.written a))
  read text := (read? text).bind record?

end Json

/-- The position as JSON. -/
def Position.toJson (p : Position) : Json.Members := Record.written p

/-- The position that JSON says. -/
def Position.ofJson? (j : Json) : Option Position := j.record?

/-- The zone as JSON. -/
def Zone.toJson (z : Zone) : Json.Members := Record.written z

/-- The zone that JSON says. -/
def Zone.ofJson? (j : Json) : Option Zone := j.record?

/-- The span as JSON. -/
def Span.toJson (s : Span) : Json.Members := Record.written s

/-- The span that JSON says. -/
def Span.ofJson? (j : Json) : Option Span := j.record?

end TermProximity
