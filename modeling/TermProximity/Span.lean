import TermProximity.Position

/-!
# Spans — where a chain of terms begins and ends

A span holds the offsets of the first and the last position of a chain; spans are ordered by where
they begin, and then by where they end.
-/

namespace TermProximity

/-- The offsets of the first and the last position of a chain. -/
structure Span where
  first : UInt32
  last : UInt32
  deriving DecidableEq

namespace Span

/-- Spans are ordered by their first offset, then by their last. -/
instance : Ord Span := ⟨compareLex (compareOn Span.first) (compareOn Span.last)⟩

instance : Std.TransOrd Span :=
  inferInstanceAs (Std.TransCmp (compareLex (compareOn Span.first) (compareOn Span.last)))

instance : Std.LawfulEqOrd Span where
  eq_of_compare {a b} h := by
    obtain ⟨first, last⟩ := a
    obtain ⟨first', last'⟩ := b
    have h : (compare first first').then (compare last last') = .eq := h
    simp only [Ordering.then_eq_eq, Std.compare_eq_iff_eq] at h
    rw [h.1, h.2]

/-- A span is its own key. -/
instance : Entry Span Span where
  key s := s
  join first _ := first
  key_join _ _ := rfl
  join_assoc _ _ _ := rfl

/-- The number of offsets from the first to the last, both counted, if a 32-bit number holds it. -/
def width? (s : Span) : Option UInt32 :=
  let width := s.last.toNat - s.first.toNat + 1
  if width ≤ maxOffset then some (UInt32.ofNat width) else none

/-- The span as text. -/
def toText (s : Span) : String := s!"[{s.first.toNat}, {s.last.toNat}]"

end Span

end TermProximity
