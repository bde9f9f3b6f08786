import TermProximity.Proofs.Call.RoundTrip
import TermProximity.Proofs.Directory
import TermProximity.Proofs.Toml.Writing
import TermProximity.Settings.Files

/-!
# Settings files — what is kept is what is loaded

Settings are written whatever their variable, but read only with a variable that is an identifier.  So a
file of settings loads exactly if they pass their check, and whatever is loaded can be used in calls.
This holds with every library for TOML, since all four settings are written.

* `exists_toText`: settings have a text, which reads back if they pass their check;
* `load_of_save`: what is loaded where they are kept;
* `load_save`: what is and what is not loaded.
-/

namespace TermProximity.Settings

variable {library : Library} {s : Settings} {d kept : Directory} {path text : String}

/-- No setting is left unwritten. -/
theorem faithful : (Record.shape Settings).Faithful :=
  Shape.faithful_of_omits (by simp [Record.shape])

theorem holds_values (s : Settings) : ∀ v ∈ Record.values s, Toml.Holds v := by
  intro v mem
  simp only [Record.values, List.mem_cons, List.not_mem_nil, or_false] at mem
  rcases mem with rfl | rfl | rfl | rfl <;> trivial

/-- Settings have a text, which reads back if they pass their check, and fails as the check does otherwise. -/
theorem exists_toText (implements : library.Implements Toml.format) (s : Settings) :
    ∃ text, s.toText library = .ok text ∧ ofText text library = s.check.map fun _ => s := by
  obtain ⟨text, written, read⟩ := Record.read_of_write implements faithful s.holds_values
  exact ⟨text, by rw [toText, written], by rw [ofText, read]⟩

/-- Settings are kept as their text. -/
theorem exists_of_save (saves : s.save d path library = .ok kept) :
    ∃ text, s.toText library = .ok text ∧ writeText d path text = .ok kept := by
  unfold save at saves
  split at saves
  · contradiction
  · rename_i text written
    exact ⟨text, written, saves⟩

theorem load_of_writeText (writes : writeText d path text = .ok kept) :
    load kept path library = (ofText text library).mapError .settings := by
  unfold writeText at writes
  split at writes
  · rename_i written
    cases writes
    rw [load, Directory.readText?_of_write? written]
  · contradiction

/-- Settings that are kept load if they pass their check, and fail as the check does otherwise. -/
theorem load_of_save (implements : library.Implements Toml.format)
    (saves : s.save d path library = .ok kept) :
    load kept path library = (s.check.map fun _ => s).mapError .settings := by
  obtain ⟨text, written, writes⟩ := exists_of_save saves
  obtain ⟨text', written', read⟩ := exists_toText implements s
  obtain rfl : text = text' := Except.ok.inj (written.symm.trans written')
  rw [load_of_writeText writes, read]

/-- What is saved has a text, so only the directory can refuse it. -/
theorem eq_storage_of_save (implements : library.Implements Toml.format) {failure : Failure}
    (fails : s.save d path library = .error failure) : failure = .storage := by
  obtain ⟨text, written, -⟩ := exists_toText implements s
  rw [save, written] at fails
  simp only [writeText] at fails
  split at fails
  · contradiction
  · exact (Except.error.inj fails).symm

theorem check_eq (s : Settings) :
    s.check = if isIdentifier s.mapVariable then .ok () else .error (.notIdentifier s.mapVariable) :=
  rfl

/-! ### Loaded settings -/

theorem isIdentifier_of_ofText (read : ofText text library = .ok s) :
    isIdentifier s.mapVariable = true := by
  unfold ofText at read
  split at read
  · contradiction
  · rename_i t _
    rw [check_eq] at read
    split at read
    · rename_i plain
      cases read
      exact plain
    · contradiction

theorem exists_ofText_of_load (loaded : load d path library = .ok s) :
    ∃ text, ofText text library = .ok s := by
  unfold load at loaded
  split at loaded
  · contradiction
  · rename_i text _
    refine ⟨text, ?_⟩
    cases read : ofText text library with
    | error fault => rw [read] at loaded; contradiction
    | ok t => rw [read] at loaded; cases loaded; rfl

/--
A variable that is a name of its own, and as such a token of every call that is written with it; these
calls are read back.
-/
def Speakable (mapVariable : String) : Prop :=
  Call.tokens mapVariable = .ok [⟨.name mapVariable, 0⟩] ∧
    ∀ r : Request, r.check = .ok () →
      Call.parse (Call.toText ⟨r, mapVariable⟩) mapVariable = .ok ⟨r.plain, mapVariable⟩ ∧
      ∃ ts byte, Call.tokens (Call.toText ⟨r, mapVariable⟩) = .ok ts ∧ ⟨.name mapVariable, byte⟩ ∈ ts

theorem speakable_of_isIdentifier {mapVariable : String} (plain : isIdentifier mapVariable = true) :
    Speakable mapVariable := by
  have named := Call.isName_of_isIdentifier plain
  refine ⟨Call.tokens_eq_name_iff.2 named, fun r sensible => ?_⟩
  have back := Call.parse_toText_of_check sensible named
  exact ⟨back, Call.exists_name_of_parse_eq_ok back⟩

/--
With a library for TOML, the text of settings, and the file in which they are kept, give them back if
they pass their check, and are refused for their variable otherwise; they are kept wherever the directory
takes a file; and no text and no file give settings whose variable calls cannot have.
-/
theorem load_save (library : Library) (implements : library.Implements Toml.format) :
    (∀ s : Settings, ∃ text, s.toText library = .ok text ∧ ofText text library =
      match s.check with
      | .ok _ => .ok s
      | .error _ => .error (.notIdentifier s.mapVariable)) ∧
    (∀ (s : Settings) (d kept : Directory) (path : String), s.save d path library = .ok kept →
      load kept path library =
        match s.check with
        | .ok _ => .ok s
        | .error _ => .error (.settings (.notIdentifier s.mapVariable))) ∧
    (∀ (s : Settings) (d : Directory) (path : String) (failure : Failure),
      s.save d path library = .error failure → failure = .storage) ∧
    (∀ mapVariable : String, (SettingsFault.notIdentifier mapVariable).message =
      "term_offset_map_variable '" ++ mapVariable ++ "' is not an identifier") ∧
    (∀ (text : String) (s : Settings), ofText text library = .ok s → Speakable s.mapVariable) ∧
    ∀ (d : Directory) (path : String) (s : Settings), load d path library = .ok s →
      Speakable s.mapVariable := by
  refine ⟨fun s => ?text, fun s d kept path saves => ?file,
    fun _ _ _ _ fails => eq_storage_of_save implements fails, fun mapVariable => ?message,
    fun text s read => speakable_of_isIdentifier (isIdentifier_of_ofText read),
    fun d path s loaded => ?loaded⟩
  case text =>
    obtain ⟨text, written, read⟩ := exists_toText implements s
    refine ⟨text, written, ?_⟩
    rw [read, check_eq]
    split <;> rfl
  case file =>
    rw [load_of_save implements saves, check_eq]
    split <;> rfl
  case message =>
    unfold SettingsFault.message
    rfl
  case loaded =>
    obtain ⟨text, read⟩ := exists_ofText_of_load loaded
    exact speakable_of_isIdentifier (isIdentifier_of_ofText read)

theorem place?_fileName : Directory.place? {} fileName = some ["proxima.toml"] := by
  have admitted : ¬(fileName.contains '\x00' = true ∨ Directory.maxPathBytes < fileName.utf8ByteSize) := by
    simp [fileName]
    decide
  rw [Directory.place?, if_neg admitted]
  decide

/-- Settings can be kept under the usual name where nothing is. -/
theorem exists_save (implements : library.Implements Toml.format) (s : Settings) :
    ∃ kept, s.save {} fileName library = .ok kept := by
  obtain ⟨text, written, -⟩ := exists_toText implements s
  have nothing : Directory.isDirectory {} ["proxima.toml"] = false := by decide
  rw [save, written]
  simp only [writeText, Directory.write?, place?_fileName, nothing]
  exact ⟨_, rfl⟩

/-- The standard settings come back from their file; settings with a quote in their variable do not. -/
theorem load_save_sample :
    let quoted : Settings := { mapVariable := "it's" }
    Toml.library.Implements Toml.format ∧ ∃ kept kept_quoted text,
      (standard.save {} fileName = .ok kept ∧ load kept fileName = .ok standard ∧
        Speakable standard.mapVariable) ∧
      (quoted.save {} fileName = .ok kept_quoted ∧
        load kept_quoted fileName = .error (.settings (.notIdentifier "it's"))) ∧
      standard.toText = .ok text ∧ ofText text = .ok standard ∧ Speakable standard.mapVariable := by
  have implements := Toml.implements_library
  obtain ⟨kept, saves⟩ := exists_save implements standard
  obtain ⟨kept_quoted, saves_quoted⟩ := exists_save implements { mapVariable := "it's" }
  obtain ⟨texts, files, -, -, read_speakable, loaded_speakable⟩ := load_save Toml.library implements
  obtain ⟨text, written, read⟩ := texts standard
  have loaded : load kept fileName = .ok standard := files _ _ _ _ saves
  exact ⟨implements, kept, kept_quoted, text, ⟨saves, loaded, loaded_speakable _ _ _ loaded⟩,
    ⟨saves_quoted, files _ _ _ _ saves_quoted⟩, written, read, read_speakable _ _ read⟩

end TermProximity.Settings
