import TermProximity.KeyedList
import TermProximity.Score

/-!
# Positions — one occurrence of a term in the token stream of a zone

Tokens that were collapsed in front of a position count as skips, so a position covers the closed
interval from `low` to its offset, and every distance is taken over that interval.  Positions are
told apart by their offset, and the first position given at an offset is the one that stays.
-/

namespace TermProximity

/-- One occurrence of a term. -/
structure Position where
  /-- Place of the token in the stream. -/
  offset : UInt32
  /-- Number of collapsed tokens immediately in front. -/
  skips : UInt32 := 0
  /-- Weight of the term here, if it was scored. -/
  weight : Option Weight := none
  /-- Whether a hop of no distance may start here. -/
  zeroHop : Bool := true
  deriving DecidableEq

/-- The largest offset there is. -/
def maxOffset : Nat := 0xffffffff

/-- The offset so far after another one; past the largest offset it is the largest. -/
def moveOn (offset distance : Nat) : Nat := min (offset + distance) maxOffset

namespace Position

/-- The least offset that a position reaches back to. -/
def low (p : Position) : Nat := p.offset.toNat - p.skips.toNat

/-- The score of a scored position. -/
def score (p : Position) : Option Score := p.weight.map Weight.score

/-- The position scored by a log probability. -/
def withScore (p : Position) (s : Score) : Position := { p with weight := some s.weight }

/-- Whether a position is at least as relevant as a weight asks; an unscored one always is. -/
def isWithin (p : Position) (limit : Weight) : Bool :=
  match p.weight with
  | none => true
  | some w => w ≤ limit

theorem low_le_offset (p : Position) : p.low ≤ p.offset.toNat := Nat.sub_le _ _

theorem offset_le_maxOffset (p : Position) : p.offset.toNat ≤ maxOffset :=
  Nat.le_sub_one_of_lt p.offset.toNat_lt

theorem low_le_maxOffset (p : Position) : p.low ≤ maxOffset :=
  Nat.le_trans p.low_le_offset p.offset_le_maxOffset

/-- Stopping at the largest offset leaves no position out of reach. -/
theorem low_le_moveOn (p : Position) {offset distance : Nat} :
    p.low ≤ moveOn offset distance ↔ p.low ≤ offset + distance := by
  have := p.low_le_maxOffset
  unfold moveOn
  omega

instance : Entry Position Nat where
  key p := p.offset.toNat
  join first _ := first
  key_join _ _ := rfl
  join_assoc _ _ _ := rfl

end Position

end TermProximity
