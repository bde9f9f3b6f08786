import TermProximity.Window

/-!
# Window scan — the first offset at which all terms of a lineup fit in a window

Every offset at which some term stands is tried as the least offset of a window, in order.  A window
that begins there holds the lineup when every term has as many positions as it has slots among those
that stand at the offset or after it and reach back into the window.

Each term's list is cut off at the offset at which it was looked through last; that stops once
enough positions are found, or no later one reaches back into the window, and an offset is given up
at the first term that has too few.
-/

namespace TermProximity.WindowScan

/-- How many positions of a term are wanted, and those that stand ahead. -/
structure Demand where
  uses : Nat
  ahead : List Candidate

/-- The demand with the positions before an offset left out. -/
def Demand.skipTo (offset : Nat) (d : Demand) : Demand :=
  { d with ahead := d.ahead.dropWhile fun c => c.position.offset.toNat < offset }

/--
Whether `needed` of the candidates reach back to `bound`, and how many candidates were examined to
find out.
-/
def gather (bound : Nat) : Nat → List Candidate → Bool × Nat
  | _, [] => (false, 0)
  | needed, c :: rest =>
    if bound < c.lowAhead then (false, 0)
    else if c.position.low ≤ bound then
      if needed ≤ 1 then (true, 1)
      else
        let (enough, examined) := gather bound (needed - 1) rest
        (enough, examined + 1)
    else
      let (enough, examined) := gather bound needed rest
      (enough, examined + 1)

/--
Whether every demand can be met in the window that begins at `anchor` and ends at `bound`, how many
candidates were examined, and the demands cut off at `anchor`.  It stops at the first demand that
cannot be met, and leaves those after it as they are.
-/
def meetAll (anchor bound : Nat) : List Demand → Bool × Nat × List Demand
  | [] => (true, 0, [])
  | d :: rest =>
    let cut := d.skipTo anchor
    match gather bound cut.uses cut.ahead with
    | (false, examined) => (false, examined, cut :: rest)
    | (true, examined) =>
      let (met, more, later) := meetAll anchor bound rest
      (met, examined + more, cut :: later)

/-- What a scan finds. -/
structure Result where
  /-- The least offset at which a window that holds every slot begins. -/
  anchor : Option Nat
  /-- The number of positions examined. -/
  visited : Nat

/-- Tries the offsets in turn. -/
def scanFrom (width : Nat) : List Nat → List Demand → Nat → Result
  | [], _, visited => ⟨none, visited⟩
  | anchor :: later, demands, visited =>
    match meetAll anchor (moveOn anchor width) demands with
    | (true, examined, _) => ⟨some anchor, visited + examined⟩
    | (false, examined, demands) => scanFrom width later demands (visited + examined)

end TermProximity.WindowScan

namespace TermProximity.Lineup

open WindowScan

/-- What the different terms of a lineup ask for. -/
def demands (l : Lineup) : List Demand := l.distinct.map fun s => ⟨l.uses s.term, s.candidates⟩

/-- Every offset of a position of the lineup, once and in order. -/
def anchors (l : Lineup) : List Nat :=
  let offsets := l.distinct.flatMap fun s => s.positions.map fun p => p.offset.toNat
  (offsets.mergeSort fun a b => a ≤ b).eraseReps

/-- The first offset at which the slots of a lineup fit in a window of the given width. -/
def scan (l : Lineup) (width : UInt32) : Result := scanFrom width.toNat l.anchors l.demands 0

end TermProximity.Lineup
