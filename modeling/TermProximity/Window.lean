import TermProximity.Lineup

/-!
# Windows — the terms of a lineup close together, in any order

A choice of positions fits in a window of some width when no position reaches back less far than
the width from the offset of another: the largest `low` and the least offset are at most the width
apart.
-/

namespace TermProximity

/-- A binding of the slots whose positions lie within `width` of each other. -/
structure Lineup.Window (l : Lineup) (width : Nat) (chosen : List Position) : Prop
    extends l.Binding chosen where
  close : ∀ p ∈ chosen, ∀ q ∈ chosen, p.low ≤ q.offset.toNat + width

/-- The least offset of some positions, where a window that holds them begins. -/
def leastOffset? (ps : List Position) : Option Nat := (ps.map (·.offset.toNat)).min?

/-- Whether a window of some width that holds the lineup can begin at an offset. -/
def Lineup.BeginsWindow (l : Lineup) (width anchor : Nat) : Prop :=
  ∃ chosen, l.Window width chosen ∧ leastOffset? chosen = some anchor

end TermProximity
