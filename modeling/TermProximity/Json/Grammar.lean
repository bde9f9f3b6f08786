import TermProximity.Json

/-!
# JSON grammar — the texts of an object of members

What may be kept in JSON is spelt in more than one way: blanks may stand around every part, and a
character of a string may stand for itself, or be written by one of its escapes; beyond the first 65536
characters that is a surrogate pair of two escapes.  A whole number has one spelling: its digits, without
needless zeros, and behind a minus sign if it is negative.

`Json.format` has the objects whose members hold numbers, truth values, texts or null.
-/

namespace TermProximity.Json

/-- Blanks, if any. -/
def IsGap (text : List Char) : Prop := ∀ c ∈ text, isGap c = true

/-- The spellings of a character in a string. -/
inductive SpellsChar : List Char → Char → Prop where
  /-- A character stands for itself, but for quotes, backslashes and control characters. -/
  | itself {c : Char} (visible : 0x20 ≤ c.toNat) (not_quote : c ≠ '"') (not_backslash : c ≠ '\\') :
    SpellsChar [c] c
  | slash : SpellsChar ['\\', '/'] '/'
  | short {letter c : Char} (escape : (letter, c) ∈ shortEscapes) : SpellsChar ['\\', letter] c
  | unit {digits : List Char} {c : Char} (unit : Text.WritesHex digits 4 c.toNat) :
    SpellsChar ('\\' :: 'u' :: digits) c
  /-- Ten bits of what is beyond `0x10000` are in each half of a pair. -/
  | pair {highs lows : List Char} {high low : Nat} (first : high < 0x400) (second : low < 0x400)
    (unit₁ : Text.WritesHex highs 4 (0xd800 + high)) (unit₂ : Text.WritesHex lows 4 (0xdc00 + low)) :
    SpellsChar ('\\' :: 'u' :: highs ++ '\\' :: 'u' :: lows)
      (Char.ofNat (0x10000 + high * 0x400 + low))

/-- The spellings of a text, between its quotes. -/
inductive SpellsText : List Char → List Char → Prop where
  | nil : SpellsText [] []
  | cons {written rest : List Char} {c : Char} {text : List Char} (first : SpellsChar written c)
    (later : SpellsText rest text) : SpellsText (written ++ rest) (c :: text)

/-- The spellings of a string. -/
inductive SpellsString : List Char → String → Prop where
  | quoted {body : List Char} {text : String} (spells : SpellsText body text.toList) :
    SpellsString ('"' :: body ++ ['"']) text

/-- The spellings of what a member holds. -/
inductive SpellsScalar : List Char → Scalar → Prop where
  | null : SpellsScalar "null".toList .null
  | yes : SpellsScalar "true".toList (.truth true)
  | no : SpellsScalar "false".toList (.truth false)
  | whole (n : Int) : SpellsScalar (writeWhole n) (.whole n)
  | text {written : List Char} {text : String} (spells : SpellsString written text) :
    SpellsScalar written (.text text)

/-- The spellings of a member. -/
inductive SpellsMember : List Char → String × Scalar → Prop where
  | named {gap₁ key gap₂ gap₃ written gap₄ : List Char} {name : String} {value : Scalar}
    (before : IsGap gap₁) (named : SpellsString key name) (colon : IsGap gap₂) (after : IsGap gap₃)
    (holds : SpellsScalar written value) (last : IsGap gap₄) :
    SpellsMember (gap₁ ++ key ++ gap₂ ++ ':' :: gap₃ ++ written ++ gap₄) (name, value)

/-- The spellings of members with commas between them, of which there is one at least. -/
inductive SpellsMembers : List Char → Members → Prop where
  | single {written : List Char} {m : String × Scalar} (only : SpellsMember written m) :
    SpellsMembers written [m]
  | cons {written rest : List Char} {m : String × Scalar} {members : Members}
    (first : SpellsMember written m) (later : SpellsMembers rest members) :
    SpellsMembers (written ++ ',' :: rest) (m :: members)

/-- The spellings of an object of members. -/
inductive SpellsObject : List Char → Members → Prop where
  | empty {gap₁ gap₂ gap₃ : List Char} (before : IsGap gap₁) (inside : IsGap gap₂)
    (after : IsGap gap₃) : SpellsObject (gap₁ ++ '\x7b' :: gap₂ ++ '\x7d' :: gap₃) []
  | members {gap₁ body gap₂ : List Char} {members : Members} (before : IsGap gap₁)
    (all : SpellsMembers body members) (after : IsGap gap₂) :
    SpellsObject (gap₁ ++ '\x7b' :: body ++ '\x7d' :: gap₂) members

/-- What a member can hold: among whole numbers those that 64 bits hold, with or without a sign. -/
def Holds : Scalar → Prop
  | .whole n => Int64.minValue.toInt ≤ n ∧ n < UInt64.size
  | _ => True

/-- Members as an object. -/
def format : TextFormat where
  Holds := Holds
  Spells text members := SpellsObject text.toList members

end TermProximity.Json
