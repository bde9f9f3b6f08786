import TermProximity.KeyedList.Lemmas
import TermProximity.Position
import TermProximity.Zone

/-!
# Occurrences — the positions of one term, zone by zone

Within a zone the positions stand in order of their offsets, and the first position given at an
offset stays; a zone is registered even when it is given no position, and keeps the mark it was
first given with.  All of this is what joining does: adding occurrences to others puts the older
ones in front.
-/

namespace TermProximity

/-- The positions of one term in one zone. -/
structure ZoneOccurrences where
  zone : Zone
  positions : KeyedList Position
  deriving DecidableEq

instance : Entry ZoneOccurrences Zone.Id where
  key e := e.zone.id
  join first second := ⟨first.zone, first.positions ++ second.positions⟩
  key_join _ _ := rfl
  join_assoc _ _ _ := congrArg _ (KeyedList.append_assoc ..)

/-- The positions of one term, in the order of the zones. -/
abbrev Occurrences := KeyedList ZoneOccurrences

namespace Occurrences

/-- Occurrences in a single zone, for positions in the order in which they were seen. -/
def inZone (zone : Zone) (positions : List Position) : Occurrences :=
  .single ⟨zone, .ofList positions⟩

/-- The occurrences with positions added in a zone. -/
def put (o : Occurrences) (zone : Zone) (positions : List Position) : Occurrences :=
  o ++ inZone zone positions

/-- The positions in a zone, in order; none in a zone that is not registered. -/
def positions (o : Occurrences) (zone : Zone.Id) : List Position :=
  match o.find? zone with
  | some found => found.positions.entries
  | none => []

/-- Whether the term has a position in the zone. -/
def hasPositions (o : Occurrences) (zone : Zone.Id) : Bool := !(o.positions zone).isEmpty

/-- The zones in which the term is registered, in order. -/
def zones (o : Occurrences) : List Zone := o.entries.map (·.zone)

/-- The number of positions in all zones. -/
def positionCount (o : Occurrences) : Nat := (o.entries.flatMap (·.positions.entries)).length

/-- Whether no zone holds a position. -/
def holdsNothing (o : Occurrences) : Bool := o.entries.all (·.positions.isEmpty)

/-- The largest number of skips of a position in the zone; zero where there is none. -/
def maxSkips (o : Occurrences) (zone : Zone.Id) : Nat :=
  (o.positions zone).foldl (fun most p => max most p.skips.toNat) 0

/-- Whether two terms occur alike: at the same positions of the same zones, whatever their marks. -/
def alike (o o' : Occurrences) : Bool :=
  o.entries.map (fun e => (e.zone.id, e.positions)) ==
    o'.entries.map (fun e => (e.zone.id, e.positions))

end Occurrences

end TermProximity
