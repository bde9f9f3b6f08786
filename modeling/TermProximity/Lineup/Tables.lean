import TermProximity.Lineup

/-!
# Tables of a lineup — built in one pass over the terms

What a search looks up can be built while the terms are read.  A term that has not come before is given
the next number and a list of its usable positions, and the pass fails if there are none; every term is
counted under its number, which is kept for its slot.  How low the positions reach is gathered from the
end of each list.

`Lineup.tables` are the tables of a lineup, and `Tables.build?` is the pass.
-/

namespace TermProximity.Lineup

/-- What a search looks up; terms are told by their numbers. -/
structure Tables where
  /-- The positions of each term. -/
  lists : List (List Position)
  /-- The least `low` from each place of a list on, and the largest offset past its end. -/
  lows : List (List Nat)
  /-- The number of slots of each term. -/
  uses : List Nat
  /-- The number of the term of each slot. -/
  slots : List Nat
  deriving DecidableEq

/-- The tables of a lineup. -/
def tables (l : Lineup) : Tables where
  lists := l.distinct.map (·.positions)
  lows := l.distinct.map (·.lowsAhead)
  uses := l.distinct.map fun s => l.uses s.term
  slots := l.slots.map fun s => l.numberOf s.term

namespace Tables

/-- What is known while the terms are read. -/
structure Pass where
  /-- The terms that have come, with their numbers. -/
  numbers : List (String × Nat) := []
  lists : List (List Position) := []
  uses : List Nat := []
  slots : List Nat := []

namespace Pass

variable (postings : Postings) (zone : Zone.Id) (limit : Option Weight)

/-- The number of a term; one that has not come before is given the next. -/
def number? (t : Pass) (term : String) : Option (Nat × Pass) :=
  match t.numbers.lookup term with
  | some k => some (k, t)
  | none => (slot? postings zone limit term).map fun s =>
      (t.lists.length, { t with
        numbers := t.numbers ++ [(term, t.lists.length)]
        lists := t.lists ++ [s.positions]
        uses := t.uses ++ [0] })

/-- A term with the given number is read. -/
def use (t : Pass) (k : Nat) : Pass :=
  { t with uses := t.uses.modify k (· + 1), slots := t.slots ++ [k] }

/-- One more term is read. -/
def step? (t : Pass) (term : String) : Option Pass :=
  (t.number? postings zone limit term).map fun (k, t) => t.use k

end Pass

/-- The least `low` from each place on, gathered from the end, where it is the largest offset. -/
def gatherLows (positions : List Position) : List Nat :=
  positions.foldr (fun p later => min p.low (later.headD maxOffset) :: later) [maxOffset]

/-- The tables of terms in a zone, if every term has a usable position there. -/
def build? (postings : Postings) (zone : Zone.Id) (limit : Option Weight) (terms : List String) :
    Option Tables :=
  (terms.foldlM (Pass.step? postings zone limit) {}).map fun t =>
    ⟨t.lists, t.lists.map gatherLows, t.uses, t.slots⟩

end Tables

end TermProximity.Lineup
