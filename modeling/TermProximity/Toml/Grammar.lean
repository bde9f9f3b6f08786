import TermProximity.Toml

/-!
# TOML grammar — the texts of entries with strings and truth values

What a flat settings text says can be spelt in more than one way: there are blanks, comments, empty lines
and two line ends, keys with and without quotes, and the four notations of a string with their escapes.
Between three double quotes on each side a backslash at the end of a line takes away all blanks up to the
next character.

`format` has the texts whose entries hold texts or truth values.  A carriage return in front of a line
feed is not spelt within a string, where it need not be kept.
-/

namespace TermProximity.Toml

/-! ### Blanks and lines -/

/-- Spaces and tabs, if any. -/
def IsGap (text : List Char) : Prop := ∀ c ∈ text, isGap c = true

/-- The end of a line. -/
inductive LineEnd : List Char → Prop where
  | feed : LineEnd ['\n']
  | both : LineEnd ['\r', '\n']

/-- Blanks and line ends, if any. -/
inductive Blanks : List Char → Prop where
  | nil : Blanks []
  | gap {c : Char} {rest : List Char} (blank : isGap c = true) (later : Blanks rest) :
    Blanks (c :: rest)
  | line {ending rest : List Char} (ends : LineEnd ending) (later : Blanks rest) :
    Blanks (ending ++ rest)

/-- Neither a blank nor a line end comes first. -/
def Starts (text : List Char) : Prop := ∀ c ∈ text.head?, isGap c = false ∧ c ≠ '\n' ∧ c ≠ '\r'

/-- A comment, if any. -/
inductive Comment : List Char → Prop where
  | none : Comment []
  | marked {text : List Char} (plain : ∀ c ∈ text, isCommentChar c = true) : Comment ('#' :: text)

/-- What may stand between the last word of a line and its end. -/
inductive Filler : List Char → Prop where
  | comment {gap text : List Char} (blank : IsGap gap) (comment : Comment text) : Filler (gap ++ text)

/-! ### Strings -/

/-- The spellings of a character behind a backslash. -/
inductive SpellsEscape : List Char → Char → Prop where
  | short {letter c : Char} (escape : (letter, c) ∈ shortEscapes) : SpellsEscape [letter] c
  | four {digits : List Char} {c : Char} (code : Text.WritesHex digits 4 c.toNat) :
    SpellsEscape ('u' :: digits) c
  | eight {digits : List Char} {c : Char} (code : Text.WritesHex digits 8 c.toNat) :
    SpellsEscape ('U' :: digits) c

/-- The spellings of a text between one double quote on each side. -/
inductive SpellsBasic : List Char → List Char → Prop where
  | nil : SpellsBasic [] []
  | itself {c : Char} {rest text : List Char} (plain : isBasicChar c = true)
    (later : SpellsBasic rest text) : SpellsBasic (c :: rest) (c :: text)
  | escaped {letters rest text : List Char} {c : Char} (escape : SpellsEscape letters c)
    (later : SpellsBasic rest text) : SpellsBasic ('\\' :: letters ++ rest) (c :: text)

/--
The spellings of a text between three double quotes on each side, when `run` quotes have just been
written: no more than two may stand together.
-/
inductive SpellsLongBasic : Nat → List Char → List Char → Prop where
  | nil {run : Nat} : SpellsLongBasic run [] []
  | quote {run : Nat} {rest text : List Char} (few : run < 2)
    (later : SpellsLongBasic (run + 1) rest text) : SpellsLongBasic run ('"' :: rest) ('"' :: text)
  | itself {run : Nat} {c : Char} {rest text : List Char} (plain : c = '\n' ∨ isBasicChar c = true)
    (later : SpellsLongBasic 0 rest text) : SpellsLongBasic run (c :: rest) (c :: text)
  | escaped {run : Nat} {letters rest text : List Char} {c : Char} (escape : SpellsEscape letters c)
    (later : SpellsLongBasic 0 rest text) : SpellsLongBasic run ('\\' :: letters ++ rest) (c :: text)
  | joined {run : Nat} {gap ending blanks rest text : List Char} (blank : IsGap gap)
    (ends : LineEnd ending) (skipped : Blanks blanks) (starts : Starts rest)
    (later : SpellsLongBasic 0 rest text) :
    SpellsLongBasic run ('\\' :: gap ++ ending ++ blanks ++ rest) text

/-- A line end may stand right behind three opening quotes, and is no part of the text then. -/
inductive Opening : List Char → List Char → Prop where
  | line {ending body : List Char} (ends : LineEnd ending) : Opening ending body
  | here {body : List Char} (starts : ∀ c ∈ body.head?, c ≠ '\n' ∧ c ≠ '\r') : Opening [] body

/-- Texts that stand for themselves between one single quote on each side. -/
def IsLiteral (text : List Char) : Prop := ∀ c ∈ text, isLiteralChar c = true

/-- Texts that stand for themselves between three single quotes on each side. -/
def IsLongLiteral (text : List Char) : Prop :=
  longestRun '\'' 0 text ≤ 2 ∧ ∀ c ∈ text, c = '\n' ∨ c = '\'' ∨ isLiteralChar c = true

/-- The spellings of a text on one line, with its quotes. -/
inductive SpellsShort : List Char → String → Prop where
  | basic {body : List Char} {text : String} (spells : SpellsBasic body text.toList) :
    SpellsShort ('"' :: body ++ ['"']) text
  | literal {text : String} (plain : IsLiteral text.toList) :
    SpellsShort ('\'' :: text.toList ++ ['\'']) text

/-- The spellings of a text. -/
inductive SpellsString : List Char → String → Prop where
  | short {written : List Char} {text : String} (spells : SpellsShort written text) :
    SpellsString written text
  | longBasic {opening body : List Char} {text : String} (opens : Opening opening body)
    (spells : SpellsLongBasic 0 body text.toList) :
    SpellsString (['"', '"', '"'] ++ opening ++ body ++ ['"', '"', '"']) text
  | longLiteral {opening : List Char} {text : String} (opens : Opening opening text.toList)
    (plain : IsLongLiteral text.toList) :
    SpellsString (['\'', '\'', '\''] ++ opening ++ text.toList ++ ['\'', '\'', '\'']) text

/-! ### Entries -/

/-- The spellings of a key. -/
inductive SpellsKey : List Char → String → Prop where
  | bare {key : String} (some_char : key ≠ "") (plain : ∀ c ∈ key.toList, isKeyChar c = true) :
    SpellsKey key.toList key
  | quoted {written : List Char} {key : String} (spells : SpellsShort written key) :
    SpellsKey written key

/-- The spellings of what an entry holds. -/
inductive SpellsScalar : List Char → Scalar → Prop where
  | yes : SpellsScalar "true".toList (.truth true)
  | no : SpellsScalar "false".toList (.truth false)
  | text {written : List Char} {text : String} (spells : SpellsString written text) :
    SpellsScalar written (.text text)

/-- The spellings of an entry, up to the end of its line. -/
inductive SpellsEntry : List Char → Entry → Prop where
  | keyed {gap₁ name gap₂ gap₃ written filler : List Char} {key : String} {value : Scalar}
    (before : IsGap gap₁) (names : SpellsKey name key) (equals : IsGap gap₂) (after : IsGap gap₃)
    (holds : SpellsScalar written value) (last : Filler filler) :
    SpellsEntry (gap₁ ++ name ++ gap₂ ++ '=' :: gap₃ ++ written ++ filler) (key, value)

/-- The spellings of entries, each on a line; the last line need not be ended. -/
inductive SpellsLines : List Char → List Entry → Prop where
  | last {filler : List Char} (empty : Filler filler) : SpellsLines filler []
  | lastEntry {written : List Char} {e : Entry} (entry : SpellsEntry written e) :
    SpellsLines written [e]
  | empty {filler ending rest : List Char} {entries : List Entry} (empty : Filler filler)
    (ends : LineEnd ending) (later : SpellsLines rest entries) :
    SpellsLines (filler ++ ending ++ rest) entries
  | entry {written ending rest : List Char} {e : Entry} {entries : List Entry}
    (entry : SpellsEntry written e) (ends : LineEnd ending) (later : SpellsLines rest entries) :
    SpellsLines (written ++ ending ++ rest) (e :: entries)

/-- What an entry can hold. -/
def Holds : Scalar → Prop
  | .text _ | .truth _ => True
  | _ => False

/-- Members as entries. -/
def format : TextFormat where
  Holds := Holds
  Spells text members := SpellsLines text.toList members

end TermProximity.Toml
