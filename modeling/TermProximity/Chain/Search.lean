import Std.Data.HashSet
import TermProximity.Chain.Lane
import TermProximity.Span

/-!
# Chain search — the spans of the chains of a lineup

The search binds slot after slot, depth first, and tries the positions of a slot in order.  Where
it stands is a state: the slot bound last, the place of its position, and the slot at which the run
of slots bound to that offset begins.  Whether the remaining slots can be bound depends on the state
alone, because a position can be taken twice only within such a run; so a state that came to nothing
is noted (`Memo`) and never tried again, not even by a later search of the same lineup.

* `complete` binds the slots after a given position and returns the offset of the last one;
* `Lineup.search` returns the span of every position of the first slot that begins a chain, or only
  the first such span;
* `Lineup.inquire` answers one inquiry after another with a single memo.
-/

namespace TermProximity.ChainSearch

/-- Where a search stands. -/
structure State where
  /-- The slot bound last. -/
  slot : Nat
  /-- The place of its position in the list of the slot. -/
  index : Nat
  /-- The first slot of the run bound to the same offset. -/
  runStart : Nat
  deriving DecidableEq, Hashable

/-- What a search leaves behind: the states that came to nothing, and how many it looked at. -/
structure Memo where
  hopeless : Std.HashSet State := ∅
  /-- The number of candidates examined. -/
  visited : Nat := 0

namespace Memo

/-- Counts one more candidate. -/
def visit (m : Memo) : Memo := { m with visited := m.visited + 1 }

/-- Notes that a state came to nothing. -/
def giveUp (m : Memo) (s : State) : Memo := { m with hopeless := m.hopeless.insert s }

end Memo

/--
The slot at which the run begins that the slot after `slot` gets into when it takes the position
`next` for `term`, if it can.  On the offset of the position `here` before it goes on with the run
that begins at `runStart`, and then its term must not be in that run.
-/
def runAfter? (l : Lineup) (slot runStart : Nat) (term : String) (here next : Position) :
    Option Nat :=
  if here.isClosedBy next then
    if next.offset = here.offset then
      if l.usesBetween runStart (slot + 1 - runStart) term then none else some runStart
    else some (slot + 1)
  else none

/--
Tries candidates until an attempt returns the last offset of a chain; `enter?` says where the run
begins that a position gets into, if it can be taken.  Once no later candidate reaches back to
`reach`, the rest is not examined.
-/
def tryEach (reach : Nat) (enter? : Position → Option Nat)
    (attempt : Nat → Candidate → Memo → Option UInt32 × Memo) :
    List Candidate → Memo → Option UInt32 × Memo
  | [], memo => (none, memo)
  | next :: rest, memo =>
    if reach < next.lowAhead then (none, memo)
    else
      match enter? next.position with
      | none => tryEach reach enter? attempt rest memo.visit
      | some runStart =>
        match attempt runStart next memo.visit with
        | (some last, memo) => (some last, memo)
        | (none, memo) => tryEach reach enter? attempt rest memo

/--
Binds the remaining slots after `slot` was bound to the candidate `here`, in a run that begins at
the slot `runStart`.  Returns the offset of the last position.
-/
def complete (l : Lineup) :
    List Lane → Nat → Nat → Candidate → Memo → Option UInt32 × Memo
  | [], _, _, here, memo => (some here.position.offset, memo)
  | next :: rest, slot, runStart, here, memo =>
    let state : State := ⟨slot, here.index, runStart⟩
    if memo.hopeless.contains state then (none, memo)
    else
      match tryEach (moveOn here.position.offset.toNat 1)
          (runAfter? l slot runStart next.term here.position) (complete l rest (slot + 1))
          (next.candidatesFrom here.position.offset) memo with
      | (some last, memo) => (some last, memo)
      | (none, memo) => (none, memo.giveUp state)

/-- The spans that begin at the given candidates: every one, or only the first. -/
def spansFrom (every : Bool) (attempt : Candidate → Memo → Option UInt32 × Memo) :
    List Candidate → Memo → List Span × Memo
  | [], memo => ([], memo)
  | start :: rest, memo =>
    match attempt start memo with
    | (none, memo) => spansFrom every attempt rest memo
    | (some last, memo) =>
      let (others, memo) := if every then spansFrom every attempt rest memo else ([], memo)
      (⟨start.position.offset, last⟩ :: others, memo)

/-- What can be asked of a search that is kept. -/
inductive Inquiry where
  /-- For the first span alone, if there is one. -/
  | firstMatch
  /-- For every span. -/
  | allMatches
  /-- For every span, or for no more than the first. -/
  | search (every : Bool)
  deriving DecidableEq

end TermProximity.ChainSearch

namespace TermProximity

namespace Lineup

open ChainSearch

/--
The spans of the chains of a lineup, in the order of their first offsets, one for each position at
which a chain begins; with `every` off only the first of them.  The memo is that of earlier
searches of the same lineup.
-/
def search (l : Lineup) (every : Bool) (memo : Memo) : List Span × Memo :=
  match l.lanes with
  | [] => ([], memo)
  | first :: rest => spansFrom every (complete l rest 0 0) first.candidates memo

/-- Searches of the same lineup, one after another: what each finds, and the memo after it. -/
def searches (l : Lineup) : List Bool → Memo → List (List Span × Memo)
  | [], _ => []
  | every :: rest, memo =>
    let found := l.search every memo
    found :: l.searches rest found.2

/-- The first span of the chains of a lineup. -/
def firstMatch (l : Lineup) (memo : Memo) : Option Span × Memo :=
  let (spans, memo) := l.search false memo
  (spans.head?, memo)

/-- The spans that answer an inquiry, and the memo after it. -/
def answer (l : Lineup) : Inquiry → Memo → List Span × Memo
  | .firstMatch, memo =>
    let (first, memo) := l.firstMatch memo
    (first.toList, memo)
  | .allMatches, memo => l.search true memo
  | .search every, memo => l.search every memo

/-- The answers to inquiries made one after another. -/
def inquire (l : Lineup) : List Inquiry → Memo → List (List Span)
  | [], _ => []
  | inquiry :: rest, memo =>
    let (spans, memo) := l.answer inquiry memo
    spans :: l.inquire rest memo

end Lineup

end TermProximity
