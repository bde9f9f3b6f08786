import TermProximity.Directory.Place

/-!
# Directories — files of bytes and further directories, by path

A path leads from directory to directory: everything before its last part has to be a directory,
and what a slash or a point follows has to be one too.  So there are many paths to one file, and
none through a file.  No path holds a zero character, and neither a path nor a name in it can be
longer than a file system admits.
-/

namespace TermProximity

/-- What a path leads to. -/
inductive Node where
  | file (bytes : ByteArray)
  | directory

/-- The files and directories in a directory, each by its place. -/
structure Directory where
  nodes : List (Place × Node) := []

namespace Directory

/-- The most bytes of a name. -/
def maxNameBytes : Nat := 255

/-- The most bytes of a path, which leaves some of 4095 to the directory's own path. -/
def maxPathBytes : Nat := 4064

/-- What is at a place; the directory and those that it lies in are there. -/
def node? (d : Directory) (p : Place) : Option Node :=
  if p.isAbove then some .directory else (d.nodes.find? fun n => n.1 == p).map (·.2)

/-- Whether a directory is at a place. -/
def isDirectory (d : Directory) (p : Place) : Bool :=
  match d.node? p with
  | some .directory => true
  | _ => false

/-- The place to which parts of a path lead from a place, through directories only. -/
def walk? (d : Directory) (p : Place) : List String → Option Place
  | [] => some p
  | part :: rest =>
    if d.isDirectory p ∧ part.utf8ByteSize ≤ maxNameBytes then d.walk? (p.enter part) rest
    else none

/-- The place to which a path leads; there need not be anything yet. -/
def place? (d : Directory) (path : String) : Option Place :=
  if path.contains '\x00' ∨ maxPathBytes < path.utf8ByteSize then none
  else d.walk? [] (Place.partsOf path)

/-- What a path leads to, if anything. -/
def find? (d : Directory) (path : String) : Option Node := (d.place? path).bind d.node?

/-- The directory with nothing at a place. -/
def without (d : Directory) (p : Place) : Directory := ⟨d.nodes.filter fun n => n.1 != p⟩

/-- The directory with a file or a directory at a place, and nothing else there. -/
def put (d : Directory) (p : Place) (n : Node) : Directory := ⟨(p, n) :: (d.without p).nodes⟩

/-- The directory with bytes in the file of a path, if a file can be there. -/
def write? (d : Directory) (path : String) (bytes : ByteArray) : Option Directory :=
  match d.place? path with
  | none => none
  | some p => if d.isDirectory p then none else some (d.put p (.file bytes))

/-- A path without the slashes at its end. -/
def trimSlashes (path : String) : String :=
  String.ofList (path.toList.reverse.dropWhile (· == '/')).reverse

/-- The directory with a new directory at a path, if nothing is there; slashes may end the path. -/
def makeDirectory? (d : Directory) (path : String) : Option Directory :=
  match d.place? (trimSlashes path) with
  | none => none
  | some p => if (d.node? p).isSome then none else some (d.put p .directory)

/-- The directory without the file of a path, if there is one. -/
def removeFile? (d : Directory) (path : String) : Option Directory :=
  match d.place? path with
  | none => none
  | some p =>
    match d.node? p with
    | some (.file _) => some (d.without p)
    | _ => none

/-- The text of the file of a path, if it holds one. -/
def readText? (d : Directory) (path : String) : Option String :=
  match d.find? path with
  | some (.file bytes) => String.fromUTF8? bytes
  | _ => none

end Directory

end TermProximity
