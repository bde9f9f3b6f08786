import TermProximity.Directory
import TermProximity.Settings.Text

/-!
# Settings files — settings kept in a directory

Settings are loaded from a file that holds UTF-8 text; the standard settings are written only where
nothing has the path yet.
-/

namespace TermProximity

namespace Settings

/-- The name of the settings file. -/
def fileName : String := "proxima.toml"

/-- The settings kept at a path. -/
def load (d : Directory) (path : String) (library : Library := Toml.library) :
    Except Failure Settings :=
  match d.readText? path with
  | none => .error (.settings .unreadable)
  | some text => (ofText text library).mapError .settings

/-- The directory with a text in the file of a path. -/
def writeText (d : Directory) (path text : String) : Except Failure Directory :=
  match d.write? path text.toUTF8 with
  | some d => .ok d
  | none => .error .storage

/-- The directory with settings kept at a path. -/
def save (s : Settings) (d : Directory) (path : String) (library : Library := Toml.library) :
    Except Failure Directory :=
  match s.toText library with
  | .error fault => .error (.settings fault)
  | .ok text => writeText d path text

/-- The directory with the standard settings at a path, unless something is there. -/
def provide (d : Directory) (path : String) : Except Failure Directory :=
  if (d.find? path).isSome then .ok d else writeText d path standardText

end Settings

end TermProximity
