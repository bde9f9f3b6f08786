import TermProximity.Settings
import TermProximity.Toml.Reader

/-!
# Settings texts — settings as a flat TOML text

A settings text has an entry for each setting of which it says something.  Entries of other names,
of the wrong kind or twice are refused, and so is a variable that is no plain identifier; `toText`
writes all four settings, whatever the variable.

The settings say of themselves which entries they have and what a missing one means.  The rest is left
to a library for TOML, and everything here can be asked with any; without one it is `Toml.library`.
-/

namespace TermProximity.Settings

instance : Record Settings where
  shape := {
    fields := [
      { name := "term_offset_map_variable", standard := some (.text standard.mapVariable) },
      { name := "content_expansion_only", standard := some (.truth standard.expansionZonesOnly) },
      { name := "gather_all_spans", standard := some (.truth standard.everySpan) },
      { name := "record_spans", standard := some (.truth standard.recordSpans) }]
    closed := true }
  values s :=
    [.text s.mapVariable, .truth s.expansionZonesOnly, .truth s.everySpan, .truth s.recordSpans]
  ofValues?
    | [mapVariable, expansionZonesOnly, everySpan, recordSpans] => do
      return ⟨← mapVariable.text?, ← expansionZonesOnly.truth?, ← everySpan.truth?,
        ← recordSpans.truth?⟩
    | _ => none
  length_values _ := rfl
  ofValues?_values _ := rfl

/-- The settings of a text. -/
def ofText (text : String) (library : Library := Toml.library) : Except SettingsFault Settings :=
  match (library.read text : Option Settings) with
  | none => .error .unparsable
  | some s => s.check.map fun _ => s

/-- The text of settings. -/
def toText (s : Settings) (library : Library := Toml.library) : Except SettingsFault String :=
  match library.write s with
  | none => .error .unwritable
  | some text => .ok text

/-- The lines of the text of the standard settings, with an explanation of each setting. -/
def standardLines : List String :=
  ["# Proxima evaluation configuration",
    "#",
    "# Identifier separating leading arguments (zone, distance, threshold)",
    "# from terms in content function calls.",
    "term_offset_map_variable = \"termOffsetMap\"",
    "",
    "# When a call names no zone, only evaluate zones whose field is a",
    "# content expansion field (default: true).",
    "content_expansion_only = true",
    "",
    "# Record every phrase match instead of only the earliest one per zone",
    "# (default: false).",
    "gather_all_spans = false",
    "",
    "# Record phrase spans for highlighting (default: true).",
    "record_spans = true"]

/-- The text of the standard settings. -/
def standardText : String := String.join (standardLines.map (· ++ "\n"))

end TermProximity.Settings
