import Mathlib.Data.List.DropRight
import TermProximity.Proofs.Record
import TermProximity.Proofs.Toml.Strings

/-!
# Reading TOML entries — every spelling of entries is read as the entries

A key without quotes ends at the blank or the equals sign behind it, a value at what ends its line.  So
each line gives its entry, if it has one, and the lines give the entries in order.

* `restOfLine?_append`: blanks and a comment are passed over up to the end of a line;
* `exists_entry?`: an entry reads back from its line;
* `read?_of_spells`: a text of entries is read as the entries.
-/

namespace TermProximity.Toml

variable {c : Char} {rest tail : List Char}

/-! ### Ends of lines -/

/-- What a line leaves: the text ends with it, or goes on behind a line end. -/
inductive Leaves : List Char → List Char → Prop where
  | nothing : Leaves [] []
  | further {ending rest : List Char} (ends : LineEnd ending) : Leaves (ending ++ rest) rest

theorem Leaves.dropWhile_isGap (leaves : Leaves tail rest) : tail.dropWhile isGap = tail := by
  cases leaves with
  | nothing => rfl
  | further ends => exact dropWhile_isGap_lineEnd ends _

theorem Leaves.dropWhile_isCommentChar (leaves : Leaves tail rest) :
    tail.dropWhile isCommentChar = tail := by
  cases leaves with
  | nothing => rfl
  | further ends => cases ends <;> rfl

/-- Where a line ends, no comment begins, and the rest is what is left. -/
theorem Leaves.restOfLine? (leaves : Leaves tail rest) :
    (∀ text, tail ≠ '#' :: text) ∧ (if tail.isEmpty then some [] else lineEnd? tail) = some rest := by
  cases leaves with
  | nothing => exact ⟨fun _ => by simp, rfl⟩
  | further ends => cases ends <;> exact ⟨fun _ => by simp, rfl⟩

/-- Blanks and a comment are passed over up to the end of a line. -/
theorem restOfLine?_append {filler : List Char} (empty : Filler filler) (leaves : Leaves tail rest) :
    restOfLine? (filler ++ tail) = some rest := by
  obtain ⟨no_comment, ends⟩ := leaves.restOfLine?
  cases empty with
  | @comment gap text blank comment =>
    rw [Toml.restOfLine?, List.append_assoc, List.dropWhile_append_of_pos blank]
    cases comment with
    | none =>
      rw [List.nil_append, leaves.dropWhile_isGap]
      split
      · exact absurd rfl (no_comment _)
      · exact ends
    | marked plain =>
      rw [List.cons_append, List.dropWhile_cons_of_neg (by decide)]
      simp only [List.dropWhile_append_of_pos plain, leaves.dropWhile_isCommentChar]
      exact ends

/-- No quote comes first behind a value. -/
theorem head?_filler {filler : List Char} (empty : Filler filler) (leaves : Leaves tail rest) :
    (filler ++ tail).head? ≠ some '"' ∧ (filler ++ tail).head? ≠ some '\'' := by
  cases empty with
  | @comment gap text blank comment =>
    cases gap with
    | cons c gap =>
      have gap_first := blank c List.mem_cons_self
      constructor
      all_goals
        rintro ⟨⟩
        exact absurd gap_first (by decide)
    | nil =>
      cases comment with
      | marked => exact ⟨by simp, by simp⟩
      | none =>
        cases leaves with
        | nothing => exact ⟨by simp, by simp⟩
        | further ends => cases ends <;> exact ⟨by simp, by simp⟩

/-! ### Entries -/

/-- What an entry may begin with: the end of no line, and no comment. -/
def BeginsEntry (c : Char) : Prop := isKeyChar c = true ∨ c = '"' ∨ c = '\''

theorem apart_of_beginsEntry (begins : BeginsEntry c) :
    isGap c = false ∧ c ≠ '#' ∧ c ≠ '\n' ∧ c ≠ '\r' ∧ c ≠ '\ufeff' := by
  have apart : ∀ d, ¬BeginsEntry d → c ≠ d := fun d other same => other (same ▸ begins)
  refine ⟨?_, apart _ ?_, apart _ ?_, apart _ ?_, apart _ ?_⟩
  · rw [← Bool.not_eq_true]
    intro gap
    simp only [isGap, Bool.or_eq_true, beq_iff_eq] at gap
    rcases gap with rfl | rfl <;> exact absurd begins (by unfold BeginsEntry; decide)
  all_goals unfold BeginsEntry; decide

theorem restOfLine?_of_beginsEntry (begins : BeginsEntry c) (rest : List Char) :
    restOfLine? (c :: rest) = none := by
  obtain ⟨not_gap, not_comment, not_feed, not_return, -⟩ := apart_of_beginsEntry begins
  rw [restOfLine?, List.dropWhile_cons_of_neg (by simp [not_gap])]
  split
  · rename_i comment
    exact absurd (List.cons.inj comment).1 not_comment
  · exact lineEnd?_cons ⟨not_feed, not_return⟩ rest

/-- A key reads back in front of what is no part of it. -/
theorem key?_of_spells {name : List Char} {key : String} (spells : SpellsKey name key)
    (ends : ∀ c ∈ rest.head?, isKeyChar c = false) :
    key? (name ++ rest) = some (key.toList, rest) := by
  cases spells with
  | bare some_char plain =>
    have stops : rest.takeWhile isKeyChar = [] ∧ rest.dropWhile isKeyChar = rest := by
      cases rest with
      | nil => exact ⟨rfl, rfl⟩
      | cons c rest => simp [ends c rfl]
    have some_key : key.toList ≠ [] := by simpa using some_char
    obtain ⟨c, further, text⟩ := List.exists_cons_of_ne_nil some_key
    have first := plain c (text ▸ List.mem_cons_self)
    rw [key?]
    · simp [List.takeWhile_append_of_pos plain, List.dropWhile_append_of_pos plain, stops, some_key]
    all_goals
      rintro _ same
      rw [text] at same
      obtain rfl := (List.cons.inj same).1
      exact absurd first (by decide)
  | quoted spells =>
    cases spells with
    | basic spells =>
      rw [List.append_assoc, List.cons_append, List.singleton_append, key?,
        basicText?_of_spells spells]
    | literal plain =>
      rw [List.append_assoc, List.cons_append, List.singleton_append, key?, literalText?_append plain]

theorem exists_of_spellsKey {name : List Char} {key : String} (spells : SpellsKey name key) :
    ∃ c further, name = c :: further ∧ BeginsEntry c := by
  cases spells with
  | bare some_char plain =>
    have some_key : key.toList ≠ [] := by simpa using some_char
    obtain ⟨c, further, text⟩ := List.exists_cons_of_ne_nil some_key
    exact ⟨c, further, text, .inl (plain c (text ▸ List.mem_cons_self))⟩
  | quoted spells =>
    obtain ⟨quote, body, written, mark⟩ := exists_of_spellsShort spells
    exact ⟨quote, body, written, .inr mark⟩

/-- A value reads back if no quote follows. -/
theorem value?_of_spells {written : List Char} {v : Scalar} (spells : SpellsScalar written v)
    (ends : rest.head? ≠ some '"' ∧ rest.head? ≠ some '\'') :
    value? (written ++ rest) = some (v, rest) := by
  cases spells with
  | yes => rfl
  | no => rfl
  | text spells =>
    have read := string?_of_spells spells ends
    obtain ⟨quote, body, rfl, mark⟩ := exists_of_spellsString spells
    rw [List.cons_append] at read ⊢
    rw [value?, read]
    · simp
    all_goals
      intro _ same
      rcases mark with rfl | rfl <;> exact absurd (List.cons.inj same).1 (by decide)

theorem exists_of_spellsScalar {written : List Char} {v : Scalar} (spells : SpellsScalar written v) :
    ∃ c further, written = c :: further ∧ isGap c = false := by
  cases spells with
  | yes => exact ⟨'t', _, rfl, rfl⟩
  | no => exact ⟨'f', _, rfl, rfl⟩
  | text spells =>
    obtain ⟨quote, body, written, mark⟩ := exists_of_spellsString spells
    refine ⟨quote, body, written, ?_⟩
    rcases mark with rfl | rfl <;> rfl

theorem dropWhile_isGap_append_cons {gap : List Char} (blank : IsGap gap) (not_gap : isGap c = false)
    (rest : List Char) : (gap ++ c :: rest).dropWhile isGap = c :: rest := by
  rw [List.dropWhile_append_of_pos blank, List.dropWhile_cons_of_neg (by simp [not_gap])]

/-- An entry reads back from its line, behind the blanks in front of it. -/
theorem exists_entry? {written : List Char} {e : Entry} (spells : SpellsEntry written e) :
    ∃ gap c body, IsGap gap ∧ written = gap ++ c :: body ∧ BeginsEntry c ∧
      ∀ tail rest, Leaves tail rest → entry? (c :: body ++ tail) = some (e, rest) := by
  cases spells with
  | @keyed gap₁ name gap₂ gap₃ written filler key value before names equals after holds last =>
    obtain ⟨c, further, rfl, begins⟩ := exists_of_spellsKey names
    refine ⟨gap₁, c, further ++ gap₂ ++ '=' :: gap₃ ++ written ++ filler, before, by simp, begins,
      fun tail rest leaves => ?_⟩
    have behind_key : ∀ d ∈ (gap₂ ++ '=' :: (gap₃ ++ (written ++ (filler ++ tail)))).head?,
        isKeyChar d = false := by
      cases gap₂ with
      | nil =>
        rintro _ ⟨⟩
        rfl
      | cons d gap₂ =>
        rintro _ ⟨⟩
        have gap := equals d List.mem_cons_self
        simp only [isGap, Bool.or_eq_true, beq_iff_eq] at gap
        rcases gap with rfl | rfl <;> rfl
    have key_read := key?_of_spells names behind_key
    have value_read := value?_of_spells holds (head?_filler last leaves)
    obtain ⟨d, body, rfl, not_gap⟩ := exists_of_spellsScalar holds
    have shape : c :: (further ++ gap₂ ++ '=' :: gap₃ ++ d :: body ++ filler) ++ tail =
        c :: further ++ (gap₂ ++ '=' :: (gap₃ ++ (d :: body ++ (filler ++ tail)))) := by simp
    rw [ entry?, shape, key_read]
    simp only [Option.bind_eq_bind, Option.bind_some,
      dropWhile_isGap_append_cons equals (c := '=') rfl, List.cons_append,
      dropWhile_isGap_append_cons after not_gap]
    rw [List.cons_append] at value_read
    rw [value_read, Option.bind_some, restOfLine?_append last leaves, Option.bind_some,
      String.ofList_toList]

/-! ### Lines -/

theorem length_pos_of_lineEnd {ending : List Char} (ends : LineEnd ending) : 0 < ending.length := by
  cases ends <;> decide

theorem lines?_nil (steps : Nat) : lines? steps [] = some [] := by
  cases steps <;> rfl

theorem restOfLine?_dropWhile (text : List Char) :
    restOfLine? (text.dropWhile isGap) = restOfLine? text := by
  rw [restOfLine?, restOfLine?, List.dropWhile_idempotent]

/-- A line without an entry is passed over. -/
theorem lines?_filler {filler : List Char} (empty : Filler filler) (leaves : Leaves tail rest)
    {steps : Nat} {entries : List Entry} (later : lines? steps rest = some entries) :
    lines? (steps + 1) (filler ++ tail) = some entries := by
  have ends := restOfLine?_append empty leaves
  rw [← restOfLine?_dropWhile] at ends
  rw [lines?]
  generalize (filler ++ tail).dropWhile isGap = text at ends
  cases text with
  | nil =>
    -- Nothing but blanks is left of the text.
    obtain rfl : [] = rest := Option.some.inj ends
    rw [lines?_nil] at later
    exact later
  | cons c text =>
    simp only [ends]
    exact later

/-- A line with an entry gives the entry. -/
theorem lines?_entry {written : List Char} {e : Entry} (spells : SpellsEntry written e)
    (leaves : Leaves tail rest) {steps : Nat} {entries : List Entry}
    (later : lines? steps rest = some entries) :
    lines? (steps + 1) (written ++ tail) = some (e :: entries) := by
  obtain ⟨gap, c, body, blank, rfl, begins, reads⟩ := exists_entry? spells
  have read := reads tail rest leaves
  rw [List.cons_append] at read
  rw [lines?, List.append_assoc, List.cons_append,
    dropWhile_isGap_append_cons blank (apart_of_beginsEntry begins).1]
  simp only [restOfLine?_of_beginsEntry begins, read, Option.bind_eq_bind, Option.bind_some, later]
  rfl

/-- Entries read back in more steps than their text has characters. -/
theorem lines?_of_spells {text : List Char} {entries : List Entry} (spells : SpellsLines text entries)
    {steps : Nat} (enough : text.length < steps) : lines? steps text = some entries := by
  induction spells generalizing steps with
  | last empty =>
    match steps, enough with
    | steps + 1, _ =>
      have read := lines?_filler empty .nothing (lines?_nil steps)
      rwa [List.append_nil] at read
  | lastEntry entry =>
    match steps, enough with
    | steps + 1, _ =>
      have read := lines?_entry entry .nothing (lines?_nil steps)
      rwa [List.append_nil] at read
  | empty empty ends later ih =>
    match steps, enough with
    | steps + 1, enough =>
      have shorter := length_pos_of_lineEnd ends
      simp only [List.length_append] at enough
      rw [List.append_assoc]
      exact lines?_filler empty (.further ends) (ih (by omega))
  | entry entry ends later ih =>
    match steps, enough with
    | steps + 1, enough =>
      have shorter := length_pos_of_lineEnd ends
      simp only [List.length_append] at enough
      rw [List.append_assoc]
      exact lines?_entry entry (.further ends) (ih (by omega))

/-- No line begins with a byte order mark. -/
theorem lines?_mark (steps : Nat) (rest : List Char) : lines? (steps + 1) ('\ufeff' :: rest) = none := rfl

/-- A text of entries is read as the entries. -/
theorem read?_of_spells {text : String} {entries : List Entry}
    (spells : SpellsLines text.toList entries) : read? text = some entries := by
  have read := lines?_of_spells spells (Nat.lt_succ_self _)
  rw [read?]
  generalize text.toList = chars at read
  split
  · rename_i mark rest
    rw [lines?_mark] at read
    contradiction
  · exact read

/-! ### A library for TOML -/

/-- `library` reads everything that is written in the format. -/
theorem read_of_spells {α : Type} [Record α] {a : α} {members : List Entry} {text : String}
    (said : Record.SaidBy a members) (spells : SpellsLines text.toList members) :
    library.read text = some a := by
  have made : Record.ofMembers? some (members.map fun m => (m.1, id m.2)) = some a :=
    Record.ofMembers?_of_saidBy id (fun _ => rfl) said
  simp only [id_eq, List.map_id'] at made
  show (do let entries ← read? text; if (namesOf entries).Nodup then _ else none) = some a
  rw [read?_of_spells spells]
  exact (if_pos said.distinct).trans made

end TermProximity.Toml
