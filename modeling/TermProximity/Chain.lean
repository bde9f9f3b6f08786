import TermProximity.Lineup
import TermProximity.Span

/-!
# Chains — the terms of a lineup in order, each directly after the one before

A chain binds a position to every slot so that each hop, from the position of a slot to that of the
next one, goes forward and closes up: the next position reaches back at least to the offset after.
A hop of no distance, onto a position that reaches back to the offset itself, is allowed only where
the position it starts from says so.

Different terms at one offset may stand in either order: a phrase matches whether the two tokens
were meant as one place or as neighbours.
-/

namespace TermProximity

/-- A hop between the positions of neighbouring slots. -/
structure Position.Hop (p q : Position) : Prop where
  forward : p.offset.toNat ≤ q.offset.toNat
  near : q.low ≤ p.offset.toNat + 1
  allowed : q.low ≤ p.offset.toNat → p.zeroHop = true

instance (p q : Position) : Decidable (p.Hop q) :=
  decidable_of_iff
    (p.offset.toNat ≤ q.offset.toNat ∧ q.low ≤ p.offset.toNat + 1 ∧
      (q.low ≤ p.offset.toNat → p.zeroHop = true))
    ⟨fun ⟨f, n, a⟩ => ⟨f, n, a⟩, fun ⟨f, n, a⟩ => ⟨f, n, a⟩⟩

/-- Whether a position reaches back near enough for a hop, provided that the hop goes forward. -/
def Position.isClosedBy (p q : Position) : Bool :=
  q.low ≤ moveOn p.offset.toNat 1 && (p.offset.toNat < q.low || p.zeroHop)

theorem Position.hop_iff {p q : Position} :
    p.Hop q ↔ p.offset ≤ q.offset ∧ p.isClosedBy q = true := by
  rw [isClosedBy, Bool.and_eq_true, Bool.or_eq_true, decide_eq_true_iff, decide_eq_true_iff,
    low_le_moveOn, UInt32.le_iff_toNat_le]
  constructor
  · rintro ⟨forward, near, allowed⟩
    exact ⟨forward, near, (Nat.lt_or_ge _ _).imp id allowed⟩
  · rintro ⟨forward, near, apart | allowed⟩
    · exact ⟨forward, near, fun zero => absurd zero (Nat.not_le.2 apart)⟩
    · exact ⟨forward, near, fun _ => allowed⟩

namespace Lineup

/-- Positions for slots from the first on in which neighbours are joined by hops. -/
structure PartialChain (l : Lineup) (bound : List Position) : Prop
    extends l.PartialBinding bound where
  hops : ∀ (i : Nat) (p q : Position), bound[i]? = some p → bound[i + 1]? = some q → p.Hop q

/-- A binding of the slots in which neighbours are joined by hops. -/
structure Chain (l : Lineup) (chain : List Position) : Prop
    extends l.PartialChain chain, l.Binding chain

/-- A chain with a given beginning, whose offsets are the lexicographically least of all those. -/
structure LeastChain (l : Lineup) (bound chain : List Position) : Prop extends l.Chain chain where
  begins : bound <+: chain
  least : ∀ other, l.Chain other → bound <+: other →
    chain.map (·.offset) ≤ other.map (·.offset)

/--
The spans of a lineup: in order, one for each position that begins a chain, and up to the last offset
of the least chain from there.
-/
structure Spans (l : Lineup) (spans : List Span) : Prop where
  ascending : spans.Pairwise fun s t => s.first < t.first
  begun : ∀ p chain, l.Chain chain → [p] <+: chain → ∃ s ∈ spans, s.first = p.offset
  least : ∀ s ∈ spans, ∃ p chain, l.LeastChain [p] chain ∧ s.first = p.offset ∧
    chain.getLast?.map (·.offset) = some s.last

end Lineup

end TermProximity
