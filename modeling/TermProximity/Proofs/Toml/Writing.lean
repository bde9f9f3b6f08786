import TermProximity.Proofs.Toml.Reading

/-!
# Writing TOML — what is written spells the entries it is written for

Between double quotes everything can be written, by an escape where need be.  Between single quotes
there are no escapes, so the notation has to admit the text (`Notation.Admits`).

* `notationOf_admits`: the notation chosen for a text admits it;
* `spellsString_writeString`: so a text is written by one of its spellings;
* `exists_write?`: entries of strings and truth values are written on lines that spell them;
* `implements_library`: `library` writes in the format, and reads everything that is written in it.
-/

namespace TermProximity.Toml

/-! ### Escapes -/

/-- A character that is never written as itself between single double quotes. -/
def IsEscaped (c : Char) : Prop := c = '"' ∨ isControl c = true ∨ c = '\\'

instance : DecidablePred IsEscaped := fun c =>
  inferInstanceAs (Decidable (c = '"' ∨ isControl c = true ∨ c = '\\'))

theorem toNat_lt_of_isEscaped {c : Char} (escaped : IsEscaped c) : c.toNat < 0x10000 := by
  rcases escaped with rfl | control | rfl
  · decide
  · simp only [isControl, Bool.or_eq_true, decide_eq_true_eq, beq_iff_eq] at control
    omega
  · decide

theorem isBasicChar_of_not_isEscaped {c : Char} (plain : ¬IsEscaped c) : isBasicChar c = true := by
  unfold IsEscaped at plain
  simp only [not_or, Bool.not_eq_true] at plain
  simp [isBasicChar, plain]

/-- An escaped character is written by one of its spellings. -/
theorem exists_escapeChar {c : Char} (escaped : IsEscaped c) :
    ∃ letters, escapeChar c = '\\' :: letters ∧ SpellsEscape letters c := by
  unfold escapeChar
  split
  · rename_i letter written found
    have mem := List.mem_of_find?_eq_some found
    obtain rfl : written = c := by simpa using List.find?_some found
    exact ⟨[letter], rfl, .short mem⟩
  · have short := Text.length_hexDigits_le_four (toNat_lt_of_isEscaped escaped)
    exact ⟨_, rfl, .four (Text.writesHex_leftpad Text.hexValue?_toUpper_digitChar short)⟩

/--
A character stands for itself if it need not be escaped, and between three quotes on each side also as
a line feed, or as one of two quotes together.
-/
theorem escapeText_cons (long : Bool) (run : Nat) (c : Char) (text : List Char) :
    escapeText long run (c :: text) =
      if c = '"' ∧ long = true ∧ run < 2 then c :: escapeText long (run + 1) text
      else (if IsEscaped c ∧ ¬(c = '\n' ∧ long = true) then escapeChar c else [c]) ++
        escapeText long 0 text := by
  rw [escapeText]
  by_cases quote : c = '"'
  · by_cases first : long = true ∧ run < 2 <;> simp [quote, first, IsEscaped]
  · by_cases line : c = '\n' ∧ long = true
    · simp [line]
    · by_cases other : isControl c = true ∨ c = '\\' <;> simp [quote, line, other, IsEscaped]

theorem spellsBasic_escapeText (text : List Char) : SpellsBasic (escapeText false 0 text) text := by
  induction text with
  | nil => exact .nil
  | cons c text ih =>
    rw [escapeText_cons, if_neg (by simp)]
    by_cases escaped : IsEscaped c
    · obtain ⟨letters, written, escape⟩ := exists_escapeChar escaped
      rw [if_pos (by simp [escaped]), written]
      exact .escaped escape ih
    · rw [if_neg (by simp [escaped])]
      exact .itself (isBasicChar_of_not_isEscaped escaped) ih

/-- No more than two quotes are written together, and all others are escaped. -/
theorem spellsLongBasic_escapeText (run : Nat) (text : List Char) :
    SpellsLongBasic run (escapeText true run text) text := by
  induction text generalizing run with
  | nil => exact .nil
  | cons c text ih =>
    rw [escapeText_cons]
    split
    · rename_i quote
      obtain ⟨rfl, -, few⟩ := quote
      exact .quote few (ih (run + 1))
    split
    · rename_i escaped
      obtain ⟨letters, written, escape⟩ := exists_escapeChar escaped.1
      rw [written]
      exact .escaped escape (ih 0)
    · rename_i plain
      refine .itself ?_ (ih 0)
      by_cases escaped : IsEscaped c
      · exact .inl (by simpa [escaped] using plain)
      · exact .inr (isBasicChar_of_not_isEscaped escaped)

/-! ### The notation of a text -/

/-- What can be written in a notation. -/
def Notation.Admits : Notation → List Char → Prop
  | basic, _ | longBasic, _ => True
  | literal, text => IsLiteral text
  | longLiteral, text => IsLongLiteral text

theorem longestRun_pos {quote : Char} {text : List Char} (mem : quote ∈ text) (run : Nat) :
    0 < longestRun quote run text := by
  induction text generalizing run with
  | nil => contradiction
  | cons c text ih =>
    rw [longestRun]
    split
    · have := quotesAt_add_le_longestRun quote (run + 1) text
      omega
    · rename_i other
      have later := ih ((List.mem_cons.1 mem).resolve_left (Ne.symm other)) 0
      omega

theorem isLiteralChar_of_not_needsEscapes {text : List Char} (none : needsEscapes text = false) :
    ∀ c ∈ text, c = '\n' ∨ c = '\'' ∨ isLiteralChar c = true := by
  intro c mem
  have harmless := List.any_eq_false.1 none c mem
  by_cases line : c = '\n'
  · exact .inl line
  · by_cases quote : c = '\''
    · exact .inr (.inl quote)
    · refine .inr (.inr ?_)
      by_cases tab : c = '\t'
      · simp [isLiteralChar, tab]
      · simp [line, tab] at harmless
        simp [isLiteralChar, quote, harmless]

/-- The notation chosen for a text admits it. -/
theorem notationOf_admits (text : List Char) : (notationOf text).Admits text := by
  unfold notationOf
  simp only
  -- Only the notations without escapes do not admit everything.
  split
  · trivial
  split
  · rename_i plain
    simp only [Bool.and_eq_true, Bool.not_eq_true', beq_iff_eq] at plain
    obtain ⟨⟨none, one_line⟩, no_quote⟩ := plain
    intro c mem
    rcases isLiteralChar_of_not_needsEscapes none c mem with rfl | rfl | itself
    · simp [mem] at one_line
    · have := longestRun_pos mem 0
      omega
    · exact itself
  split
  · trivial
  split
  · rename_i plain
    simp only [Bool.and_eq_true, Bool.not_eq_true', decide_eq_true_eq] at plain
    exact ⟨plain.2, isLiteralChar_of_not_needsEscapes plain.1⟩
  split <;> trivial

/-- A text of several lines begins on a line of its own, and no other text begins with a line end. -/
theorem opening_of_head? {text body : List Char}
    (first : ∀ c ∈ body.head?, c ≠ '\r' ∧ (c = '\n' → '\n' ∈ text)) :
    Opening (if text.contains '\n' then ['\n'] else []) body := by
  split
  · exact .line .feed
  · rename_i one_line
    refine .here fun c here => ?_
    obtain ⟨not_return, feeds⟩ := first c here
    exact ⟨fun feed => one_line (by simpa using feeds feed), not_return⟩

theorem head?_of_spellsLongBasic {run : Nat} {body text : List Char}
    (spells : SpellsLongBasic run body text) :
    ∀ c ∈ body.head?, c ≠ '\r' ∧ (c = '\n' → '\n' ∈ text) := by
  cases spells with
  | nil => simp
  | quote | escaped | joined => simp
  | @itself _ c _ _ plain =>
    rintro _ ⟨⟩
    refine ⟨?_, fun feed => feed ▸ List.mem_cons_self⟩
    rintro rfl
    exact absurd plain (by decide)

theorem head?_of_isLongLiteral {text : List Char} (plain : IsLongLiteral text) :
    ∀ c ∈ text.head?, c ≠ '\r' ∧ (c = '\n' → '\n' ∈ text) := by
  intro c here
  have mem := List.mem_of_mem_head? here
  refine ⟨?_, fun feed => feed ▸ mem⟩
  rintro rfl
  exact absurd (plain.2 _ mem) (by decide)

/-- A text is spelt by what is written for it in any notation that admits it. -/
theorem spellsString_writeIn {style : Notation} {text : String} (admits : style.Admits text.toList) :
    SpellsString (writeIn style text.toList) text := by
  cases style with
  | basic => exact .short (.basic (spellsBasic_escapeText text.toList))
  | literal => exact .short (.literal admits)
  | longBasic =>
    have spells := spellsLongBasic_escapeText 0 text.toList
    exact .longBasic (opening_of_head? (head?_of_spellsLongBasic spells)) spells
  | longLiteral => exact .longLiteral (opening_of_head? (head?_of_isLongLiteral admits)) admits

/-- A text is written by one of its spellings. -/
theorem spellsString_writeString (text : String) : SpellsString (writeString text) text :=
  spellsString_writeIn (notationOf_admits text.toList)

/-! ### Entries -/

theorem spellsKey_writeKey (key : String) : SpellsKey (writeKey key) key := by
  unfold writeKey
  split
  · rename_i bare
    exact .bare bare.1 (List.all_eq_true.1 bare.2)
  · exact .quoted (.basic (spellsBasic_escapeText key.toList))

/-- What an entry can hold is written by one of its spellings. -/
theorem exists_writeScalar? {v : Scalar} (holds : Holds v) :
    ∃ written, writeScalar? v = some written ∧ SpellsScalar written v := by
  cases v with
  | null => exact holds.elim
  | whole => exact holds.elim
  | text value => exact ⟨_, rfl, .text (spellsString_writeString value)⟩
  | truth value =>
    cases value
    · exact ⟨_, rfl, .no⟩
    · exact ⟨_, rfl, .yes⟩

theorem isGap_nil : IsGap [] := List.forall_mem_nil _

theorem filler_nil : Filler [] := .comment isGap_nil .none

/-- An entry is written with a blank on each side of its equals sign, and ends its line. -/
theorem exists_writeLine? {e : Entry} (holds : Holds e.2) :
    ∃ written, writeLine? e = some (written ++ ['\n']) ∧ SpellsEntry written e := by
  obtain ⟨value, write, spells⟩ := exists_writeScalar? holds
  have blank : IsGap [' '] := List.forall_mem_singleton.2 rfl
  have entry := SpellsEntry.keyed isGap_nil (spellsKey_writeKey e.1) blank blank spells filler_nil
  refine ⟨writeKey e.1 ++ " = ".toList ++ value, by rw [writeLine?, write]; rfl, ?_⟩
  simpa using entry

/-- Entries are written on lines that spell them, if they hold what entries can hold. -/
theorem exists_write? {entries : List Entry} (holds : ∀ e ∈ entries, Holds e.2) :
    ∃ text, write? entries = some text ∧ SpellsLines text entries := by
  induction entries with
  | nil => exact ⟨[], rfl, .last filler_nil⟩
  | cons e entries ih =>
    obtain ⟨here, others⟩ := List.forall_mem_cons.1 holds
    obtain ⟨written, write, spells⟩ := exists_writeLine? here
    obtain ⟨rest, writes, spell⟩ := ih others
    obtain ⟨lines, mapped, rfl⟩ := Option.map_eq_some_iff.1 writes
    refine ⟨written ++ ['\n'] ++ lines.flatten, ?_, .entry spells .feed spell⟩
    rw [write?, List.mapM_cons, write, mapped]
    rfl

/-- `library` writes in the format, and reads everything that is written in it. -/
theorem implements_library : library.Implements format where
  writes a holds := by
    have held : ∀ e ∈ Record.written a, Holds e.2 :=
      fun e mem => holds e.2 (Record.mem_values_of_mem_written mem)
    obtain ⟨text, write, spells⟩ := exists_write? held
    refine ⟨String.ofList text, ?_, ?_⟩
    · show (write? (Record.written a)).map String.ofList = _
      rw [write, Option.map_some]
    · show SpellsLines (String.ofList text).toList _
      rwa [String.toList_ofList]
  reads a _ _ _ said spells := read_of_spells said spells

end TermProximity.Toml
