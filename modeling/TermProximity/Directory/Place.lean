/-!
# Places — where a path leads, part by part

A path is cut into parts at its slashes.  From a place, an empty part and a single point lead
nowhere else, two points lead up, and any other part leads down by its name.  A place forgets the
detours of the path that led to it, so two paths to one file lead to one place.
-/

namespace TermProximity

/--
Where a file or a directory is, seen from a directory: as many `..` as lead up, then the names on
the way down.
-/
abbrev Place := List String

namespace Place

/-- Whether the place is the directory itself, or one of those that it lies in. -/
def isAbove (p : Place) : Bool := p.all (· == "..")

/-- The place of the directory that a place lies in. -/
def parent (p : Place) : Place := if p.isAbove then p ++ [".."] else p.dropLast

/-- Where a part of a path leads. -/
def enter (p : Place) (part : String) : Place :=
  if part = "" ∨ part = "." then p
  else if part = ".." then p.parent
  else p ++ [part]

/-- The parts of a path between its slashes, as characters. -/
def cutAtSlashes : List Char → List (List Char)
  | [] => [[]]
  | c :: rest =>
    if c = '/' then [] :: cutAtSlashes rest
    else
      match cutAtSlashes rest with
      | [] => [[c]]
      | part :: parts => (c :: part) :: parts

/-- The parts of a path between its slashes. -/
def partsOf (path : String) : List String := (cutAtSlashes path.toList).map String.ofList

end Place

end TermProximity
