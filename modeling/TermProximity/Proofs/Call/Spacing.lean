import TermProximity.Proofs.Call.Blame

/-!
# Spacing — words that are written apart

A word can be written in more than one way: a literal stands in either kind of quotes, and in it a
backslash may stand in front of any character.  With blank characters between neighbours no word goes
on into the next one, so in whatever way the words are written, they are read back, each with the byte
at which it was written.

* `IsSpelling.isSource`: in front of a blank character or the end, a spelling is read whole;
* `cut_pieces`: by induction on the pieces, how their characters are cut;
* `tokens_layOut`: words that are written apart are the tokens of their text.
-/

namespace TermProximity

open Text

namespace Text

theorem isNumeral_of_isBlank {c : Char} (h : isBlank c = true) : isNumeral c = false := by
  have none_numeral : ∀ code ∈ blankCodes, numeralRanges.contains code = false := by
    decide +kernel
  exact none_numeral c.toNat (mem_blankCodes h)

end Text

namespace Call

/-! ### Spellings -/

/-- The characters with which a word may be written: a source of it where nothing follows. -/
def IsSpelling (word : Word) (source : List Char) : Prop := IsSource word source []

/-- A word with the characters it is written with, and the blank characters behind them. -/
structure Piece where
  word : Word
  source : List Char
  gap : List Char
  spelled : IsSpelling word source
  blank : ∀ c ∈ gap, isBlank c = true

/-- The characters of some pieces, one after another. -/
def characters (pieces : List Piece) : List Char := pieces.flatMap fun p => p.source ++ p.gap

/-- The text of some pieces, one after another, behind some characters. -/
def layOut (lead : List Char) (pieces : List Piece) : String :=
  String.ofList (lead ++ characters pieces)

section Spacing

variable {c : Char} {word : Word} {source rest gap : List Char} {ts : List Token} {byte : Nat}

theorem isNameRest_of_isBlank (blank : isBlank c = true) : isNameRest c = false := by
  have apart {d : Char} (other : isBlank d = false) : c ≠ d := by
    rintro rfl
    rw [blank] at other
    contradiction
  simp [isNameRest, isLetter_of_isBlank blank, isNumeral_of_isBlank blank,
    apart (d := '_') (by decide), apart (d := '.') (by decide)]

/-- In front of a blank character or the end of the text, a spelling is read whole. -/
theorem IsSpelling.isSource (h : IsSpelling word source)
    (ends : ∀ c ∈ rest.head?, isBlank c = true) : IsSource word source rest := by
  cases h with
  | mark isMark => exact .mark isMark
  | literal isQuote spells => exact .literal isQuote spells
  | name name =>
    refine .name name ?_
    intro c next longer
    obtain ⟨d, own, rfl, -⟩ := id name
    have goes_on := (isName_cons_append_iff name).1 longer
    rw [isNameRest_of_isBlank (ends c next)] at goes_on
    contradiction
  | numeral numeral =>
    have stops : ∀ c ∈ rest.head?, c.isDigit = false ∧ c ≠ '.' := by
      intro c next
      refine ⟨isDigit_of_isBlank (ends c next), ?_⟩
      rintro rfl
      exact absurd (ends '.' next) (by decide)
    have whole := numeralAt_append numeral stops
    exact .numeral numeral (numeralAt_append_eq_iff.1 ⟨whole, numeral.any_isDigit⟩).2

/-! ### Pieces one after another -/

theorem Cut.blanks (blank : ∀ c ∈ gap, isBlank c = true) (later : Cut (byte + byteLength gap) rest ts) :
    Cut byte (gap ++ rest) ts := by
  induction gap generalizing byte with
  | nil => simpa using later
  | cons c gap ih =>
    obtain ⟨first, blank⟩ := List.forall_mem_cons.1 blank
    refine .blank first (ih blank ?_)
    rwa [byteLength_cons, ← Nat.add_assoc] at later

/-- Behind each piece but the last stands a blank character, so that its word ends there. -/
theorem head_gap_isBlank {p : Piece} {pieces : List Piece}
    (apart : ∀ q ∈ (p :: pieces).dropLast, q.gap ≠ []) :
    ∀ c ∈ (p.gap ++ characters pieces).head?, isBlank c = true := by
  intro c first
  cases gap : p.gap with
  | nil =>
    cases pieces with
    | nil => simp [gap, characters] at first
    | cons q pieces => exact absurd gap (apart p (by simp))
  | cons d more =>
    obtain rfl : d = c := by simpa [gap] using first
    exact p.blank d (by simp [gap])

theorem cut_pieces (byte : Nat) (pieces : List Piece) (apart : ∀ p ∈ pieces.dropLast, p.gap ≠ []) :
    Cut byte (characters pieces)
      (pieces.mapIdx fun i p => ⟨p.word, byte + byteLength (characters (pieces.take i))⟩) := by
  induction pieces generalizing byte with
  | nil => exact .nil byte
  | cons p pieces ih =>
    have later : ∀ q ∈ pieces.dropLast, q.gap ≠ [] := by
      intro q mem
      cases pieces with
      | nil => contradiction
      | cons r pieces => exact apart q (List.mem_cons_of_mem p mem)
    have text : characters (p :: pieces) = p.source ++ (p.gap ++ characters pieces) := by
      simp [characters]
    have tail := (ih (byte + byteLength p.source + byteLength p.gap) later).blanks p.blank
    rw [text, List.mapIdx_cons]
    have places : (fun (i : Nat) (q : Piece) =>
        (⟨q.word, byte + byteLength (characters ((p :: pieces).take (i + 1)))⟩ : Token)) =
          fun i q => ⟨q.word, byte + byteLength p.source + byteLength p.gap +
            byteLength (characters (pieces.take i))⟩ := by
      funext i q
      simp [characters, Nat.add_assoc]
    rw [places]
    exact .word (p.spelled.isSource (head_gap_isBlank apart)) tail

end Spacing

/--
Words that are written one after another, with blank characters between neighbours and anywhere around
them, are the tokens of the text, each with the number of bytes in front of it.
-/
theorem tokens_layOut (lead : List Char) (pieces : List Piece)
    (blank : ∀ c ∈ lead, isBlank c = true) (apart : ∀ p ∈ pieces.dropLast, p.gap ≠ []) :
    tokens (layOut lead pieces) = .ok (pieces.mapIdx fun i p =>
      ⟨p.word, (layOut lead (pieces.take i)).utf8ByteSize⟩) := by
  have cut := (cut_pieces (0 + byteLength lead) pieces apart).blanks blank
  simp only [layOut, tokens, String.toList_ofList, utf8ByteSize_ofList, byteLength_append]
  rw [Nat.zero_add] at cut
  exact tokensFrom_eq_ok_iff.2 cut

/-- A name, a literal with marks that it needs, one with a mark that it does not, a numeral, bars. -/
def samplePieces : List Piece :=
  [{ word := .name "é.1", source := ['é', '.', '1'], gap := ['\u3000']
     spelled := .name ⟨'é', ['.', '1'], rfl, rfl, List.all_eq_true.1 rfl⟩ nofun
     blank := List.all_eq_true.1 rfl },
   { word := .literal "'\"\\", source := '"' :: (['\'', '\\', '"', '\\', '\\'] ++ ['"']), gap := [' ']
     spelled := .literal (.inr rfl) (.plain nofun nofun (.marked '"' (.marked '\\' .nil)))
     blank := List.all_eq_true.1 rfl },
   { word := .literal "bc", source := '\'' :: (['\\', 'b', 'c'] ++ ['\'']), gap := ['\n', '\t']
     spelled := .literal (.inl rfl) (.marked 'b' (.plain nofun nofun .nil))
     blank := List.all_eq_true.1 rfl },
   { word := .numeral "-.5", source := ['-', '.', '5'], gap := [' ']
     spelled := .numeral ⟨['-'], ['.', '5'], rfl, .inr (.inl rfl),
       .inr ⟨[], ['5'], rfl, nofun, List.all_eq_true.1 rfl⟩, '5', by decide, rfl⟩ nofun
     blank := List.all_eq_true.1 rfl },
   { word := .bars, source := ['|', '|'], gap := [], spelled := .mark rfl, blank := nofun }]

/-- Behind a blank. -/
theorem tokens_layOut_sample :
    (∀ c ∈ [' '], isBlank c = true) ∧ (∀ p ∈ samplePieces.dropLast, p.gap ≠ []) ∧
      tokens " é.1\u3000\"'\\\"\\\\\" '\\bc'\n\t-.5 ||" =
        .ok [⟨.name "é.1", 1⟩, ⟨.literal "'\"\\", 8⟩, ⟨.literal "bc", 16⟩, ⟨.numeral "-.5", 23⟩,
          ⟨.bars, 27⟩] := by
  have blank : ∀ c ∈ [' '], isBlank c = true := List.all_eq_true.1 rfl
  have apart : ∀ p ∈ samplePieces.dropLast, p.gap ≠ [] := by decide
  exact ⟨blank, apart, tokens_layOut [' '] samplePieces blank apart⟩

end Call

end TermProximity
