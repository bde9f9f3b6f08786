import TermProximity.DocumentIndex

/-!
# Lineups — the terms of a request, resolved in one zone

A request has one slot for each of its terms, and a slot may take any of the positions that its
term has in the zone.  A term that stands in the request twice has two slots with the same
positions, and the two may not take the same one of them (`Lineup.Binding`).

A lineup exists only where every term has a usable position.  What a search wants to know besides
the positions is how low they reach from some place of the list on: `Slot.candidates` gives it for
every place, so that a search can stop as soon as no later position can be near enough.
-/

namespace TermProximity

/-- A slot of a request: a term with the positions it may take in the zone, in order. -/
structure Slot where
  term : String
  positions : List Position
  deriving DecidableEq

/-- The slots of a request in one zone. -/
structure Lineup where
  slots : List Slot
  deriving DecidableEq

/-- A position a slot may take, with its place in the list of the slot. -/
structure Candidate where
  index : Nat
  position : Position
  /-- The least `low` of this position and all later ones. -/
  lowAhead : Nat
  deriving DecidableEq

namespace Slot

/-- The positions as candidates, the first of them at place `index`. -/
def candidatesFrom (index : Nat) : List Position → List Candidate
  | [] => []
  | p :: rest =>
    let later := candidatesFrom (index + 1) rest
    let low := match later with
      | [] => p.low
      | c :: _ => min p.low c.lowAhead
    ⟨index, p, low⟩ :: later

@[simp] theorem map_position_candidatesFrom (index : Nat) (ps : List Position) :
    (candidatesFrom index ps).map (·.position) = ps := by
  induction ps generalizing index with
  | nil => rfl
  | cons p rest ih => simp [candidatesFrom, ih]

/-- The positions of a slot as candidates. -/
def candidates (s : Slot) : List Candidate := candidatesFrom 0 s.positions

@[simp] theorem map_position_candidates (s : Slot) :
    s.candidates.map (·.position) = s.positions := map_position_candidatesFrom 0 s.positions

/-- The least `low` from each place on; past the end of the list it is the largest offset. -/
def lowsAhead (s : Slot) : List Nat := s.candidates.map (·.lowAhead) ++ [maxOffset]

end Slot

namespace Lineup

/-- The positions of a term in a zone that are relevant enough, if there are any. -/
def slot? (postings : Postings) (zone : Zone.Id) (limit : Option Weight) (term : String) :
    Option Slot :=
  let usable := (postings.positions term zone).filter fun p => limit.all p.isWithin
  if usable.isEmpty then none else some ⟨term, usable⟩

/-- The slots of terms in a zone, if every term has a usable position there. -/
def resolve? (postings : Postings) (zone : Zone.Id) (limit : Option Weight)
    (terms : List String) : Option Lineup :=
  (terms.mapM (slot? postings zone limit)).map Lineup.mk

/-- The slots of different terms, each where its term comes first. -/
def distinct (l : Lineup) : List Slot := l.slots.eraseDupsBy fun a b => a.term == b.term

/-- The place of a term among the different terms. -/
def numberOf (l : Lineup) (term : String) : Nat := l.distinct.findIdx fun s => s.term == term

/-- The number of slots of a term. -/
def uses (l : Lineup) (term : String) : Nat := l.slots.countP fun s => s.term == term

/-- Whether one of `count` slots beginning with the one at place `first` is a slot of the term. -/
def usesBetween (l : Lineup) (first count : Nat) (term : String) : Bool :=
  ((l.slots.drop first).take count).any fun s => s.term == term

/-- Positions for slots from the first on, each out of its list, and for one term different ones. -/
structure PartialBinding (l : Lineup) (chosen : List Position) : Prop where
  length_le : chosen.length ≤ l.slots.length
  mem_positions : ∀ (i : Nat) (s : Slot) (p : Position),
    l.slots[i]? = some s → chosen[i]? = some p → p ∈ s.positions
  apart : ∀ (i j : Nat) (s t : Slot) (p q : Position), i < j →
    l.slots[i]? = some s → l.slots[j]? = some t → s.term = t.term →
    chosen[i]? = some p → chosen[j]? = some q → p ≠ q

/-- One position for each slot, out of its list, and for slots of one term different positions. -/
structure Binding (l : Lineup) (chosen : List Position) : Prop
    extends l.PartialBinding chosen where
  length_eq : chosen.length = l.slots.length

end Lineup

end TermProximity
