import TermProximity.KeyedList
import TermProximity.Text.Escaped

/-!
# Zones — a field name within one document instance

A zone is told apart by its name and its document; the mark that its field takes part in content
expansion is carried along.  Two instances of one field in different documents are different zones.
-/

namespace TermProximity

/-- The name under which the spans of every zone are seen together. -/
def anyField : String := "_ANYFIELD_"

/-- A field within one document instance. -/
structure Zone where
  name : String
  /-- Whether the field is set up for content expansion. -/
  expansion : Bool
  document : String
  deriving DecidableEq

namespace Zone

/-- What tells one zone from another: field name and document. -/
structure Id where
  name : String
  document : String
  deriving DecidableEq

/-- Zones are ordered by field name, then by document. -/
instance : Ord Id := ⟨compareLex (compareOn Id.name) (compareOn Id.document)⟩

instance : Std.TransOrd Id :=
  inferInstanceAs (Std.TransCmp (compareLex (compareOn Id.name) (compareOn Id.document)))

instance : Std.LawfulEqOrd Id where
  eq_of_compare {a b} h := by
    obtain ⟨name, document⟩ := a
    obtain ⟨name', document'⟩ := b
    have h : (compare name name').then (compare document document') = .eq := h
    simp only [Ordering.then_eq_eq, Std.compare_eq_iff_eq] at h
    rw [h.1, h.2]

/-- What tells the zone from others. -/
def id (z : Zone) : Id := ⟨z.name, z.document⟩

/-- Zones in order; zones of one identity stay as they stood. -/
def sort (zones : List Zone) : List Zone :=
  zones.mergeSort fun a b => (compare a.id b.id).isLE

/-- The zone as text: its name, and its document with invisible characters made visible. -/
def toText (z : Zone) : String := z.name ++ "@" ++ Text.escape z.document

end Zone

end TermProximity
