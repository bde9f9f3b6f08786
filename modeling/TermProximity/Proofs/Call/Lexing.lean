import Mathlib.Data.List.TakeWhile
import TermProximity.Call.Words
import TermProximity.Settings

/-!
# Lexing — texts that are cut into given words

A text lexes to some words when its tokens are these words, wherever it begins.  What stands in front
of such a text adds its own words, provided that it ends where the text begins: a name or a numeral
must not be one that the first character of the text goes on with.

* `IsName`, `IsNumeral`, `Spells`: the spellings of names, numerals and literals;
* `lexes_name`, `lexes_numeral`, `lexes_literal`, `lexes_mark`: what each of them adds;
* `tokens_eq_name_iff`: the texts that are a single name.
-/

namespace TermProximity

open Text

namespace Text

theorem Ranges.contains_cons_of_lt {first last : Nat} {rest : Ranges} {code : Nat}
    (below : code < first) : Ranges.contains ((first, last) :: rest) code = false := by
  simp [contains, below]

theorem isLetter_of_lt {c : Char} (h : c.toNat < 0x41) : isLetter c = false :=
  Ranges.contains_cons_of_lt h

/-- The code points of blank characters, one by one. -/
def blankCodes : List Nat := blankRanges.flatMap fun r => List.range' r.1 (r.2 + 1 - r.1)

theorem mem_blankCodes {c : Char} (h : isBlank c = true) : c.toNat ∈ blankCodes := by
  obtain ⟨r, mem, first, last⟩ := Ranges.exists_of_contains h
  refine List.mem_flatMap.2 ⟨r, mem, ?_⟩
  rw [List.mem_range'_1]
  omega

theorem isLetter_of_isBlank {c : Char} (h : isBlank c = true) : isLetter c = false := by
  have none_letter : ∀ code ∈ blankCodes, letterRanges.contains code = false := by
    decide +kernel
  exact none_letter c.toNat (mem_blankCodes h)

theorem isDigit_of_isBlank {c : Char} (h : isBlank c = true) : c.isDigit = false := by
  have none_digit : ∀ code ∈ blankCodes, ¬ (0x30 ≤ code ∧ code ≤ 0x39) := by decide
  rw [← Bool.not_eq_true, Char.isDigit_iff_toNat]
  exact none_digit c.toNat (mem_blankCodes h)

end Text

namespace Call

/-! ### Spellings -/

/-- A name by its characters. -/
def IsName (text : List Char) : Prop :=
  ∃ c rest, text = c :: rest ∧ isNameStart c = true ∧ ∀ d ∈ rest, isNameRest d = true

/-- Digits with at most one point among them. -/
def IsUnsigned (text : List Char) : Prop :=
  (∀ c ∈ text, c.isDigit = true) ∨ ∃ whole places, text = whole ++ '.' :: places ∧
    (∀ c ∈ whole, c.isDigit = true) ∧ ∀ c ∈ places, c.isDigit = true

/-- A numeral by its characters: a sign or none, and digits with at most one point among them. -/
def IsNumeral (text : List Char) : Prop :=
  ∃ sign body, text = sign ++ body ∧ (sign = [] ∨ sign = ['-'] ∨ sign = ['+']) ∧ IsUnsigned body ∧
    ∃ c ∈ body, c.isDigit = true

/--
What may stand between two quotes for a text: each character of it, with a backslash in front where
it is a quote or a backslash, and elsewhere at will.
-/
inductive Spells (quote : Char) : List Char → List Char → Prop where
  | nil : Spells quote [] []
  | marked (c : Char) {written text : List Char} :
    Spells quote written text → Spells quote ('\\' :: c :: written) (c :: text)
  | plain {c : Char} {written text : List Char} (not_quote : c ≠ quote) (not_mark : c ≠ '\\') :
    Spells quote written text → Spells quote (c :: written) (c :: text)

/-! ### Words -/

section Words

variable {c : Char} {rest text : List Char}

theorem isBlank_of_isNameStart (h : isNameStart c = true) : isBlank c = false := by
  rw [← Bool.not_eq_true]
  intro blank
  rcases Bool.or_eq_true_iff.1 h with letter | underscore
  · rw [isLetter_of_isBlank blank] at letter
    contradiction
  · rw [beq_iff_eq] at underscore
    subst underscore
    contradiction

theorem isNameStart_of_lt (h : c.toNat < 0x41) : isNameStart c = false := by
  unfold isNameStart
  rw [isLetter_of_lt h, Bool.false_or, beq_eq_false_iff_ne]
  rintro rfl
  contradiction

/-- A word that begins as a name does is one. -/
theorem wordAt_of_isNameStart (h : isNameStart c = true) (rest : List Char) :
    wordAt c rest = .ok (.name (String.ofList (c :: rest.takeWhile isNameRest)),
      (rest.takeWhile isNameRest).length) := by
  have apart {d : Char} (other : isNameStart d = false) : c ≠ d := by
    rintro rfl
    rw [h] at other
    contradiction
  have not_quote : ¬ (c = '\'' ∨ c = '"') := by
    rintro (eq | eq)
    · exact apart (by decide) eq
    · exact apart (by decide) eq
  have not_numeral : ¬ (c.isDigit = true ∨ c = '-' ∨ c = '+' ∨ c = '.') := by
    rintro (digit | eq | eq | eq)
    · rw [Char.isDigit_iff_toNat] at digit
      rw [isNameStart_of_lt (Nat.lt_of_le_of_lt digit.2 (by decide))] at h
      contradiction
    · exact apart (by decide) eq
    · exact apart (by decide) eq
    · exact apart (by decide) eq
  unfold wordAt
  rw [if_neg (apart (by decide)), if_neg (apart (by decide)), if_neg (apart (by decide)),
    if_neg (apart (by decide)), if_neg (apart (by decide)), if_neg not_quote, if_neg not_numeral,
    if_pos h]

theorem literalLength?_cons {quote : Char} (not_mark : c ≠ '\\') :
    literalLength? quote (c :: rest) =
      if c = quote then some 1 else (literalLength? quote rest).map (· + 1) := by
  rw [literalLength?]
  rintro _ _ rfl
  exact absurd rfl not_mark

theorem unescape_cons (not_mark : c ≠ '\\') : unescape (c :: rest) = c :: unescape rest := by
  rw [unescape]
  rintro _ _ rfl
  exact absurd rfl not_mark

theorem Spells.unescape_eq {quote : Char} {written : List Char} (h : Spells quote written text) :
    unescape written = text := by
  induction h with
  | nil => rfl
  | marked c _ ih => rw [unescape, ih]
  | plain _ not_mark _ ih => rw [unescape_cons not_mark, ih]

theorem Spells.literalLength?_eq {quote : Char} {written : List Char} (h : Spells quote written text)
    (not_mark : quote ≠ '\\') (rest : List Char) :
    literalLength? quote (written ++ quote :: rest) = some (written.length + 1) := by
  induction h with
  | nil => rw [List.nil_append, literalLength?_cons not_mark, if_pos rfl]; rfl
  | marked c _ ih => rw [List.cons_append, List.cons_append, literalLength?, ih]; rfl
  | plain not_quote plain _ ih =>
    rw [List.cons_append, literalLength?_cons plain, if_neg not_quote, ih]; rfl

/-- A literal is read up to its closing quote. -/
theorem wordAt_quote {quote : Char} {written : List Char} (isQuote : quote = '\'' ∨ quote = '"')
    (h : Spells quote written text) (rest : List Char) :
    wordAt quote (written ++ quote :: rest) =
      .ok (.literal (String.ofList text), written.length + 1) := by
  have not_mark : quote ≠ '\\' := by rcases isQuote with rfl | rfl <;> decide
  have apart : quote ≠ '(' ∧ quote ≠ ')' ∧ quote ≠ ',' ∧ quote ≠ ':' ∧ quote ≠ '|' := by
    rcases isQuote with rfl | rfl <;> decide
  obtain ⟨h1, h2, h3, h4, h5⟩ := apart
  have read := h.literalLength?_eq not_mark rest
  unfold wordAt
  rw [if_neg h1, if_neg h2, if_neg h3, if_neg h4, if_neg h5, if_pos isQuote]
  simp only [read, Nat.add_sub_cancel, List.take_left', h.unescape_eq]

/-! ### Numerals -/

theorem digitsAt_append {body : List Char} (h : IsUnsigned body)
    (ends : ∀ c ∈ rest.head?, c.isDigit = false ∧ c ≠ '.') : digitsAt (body ++ rest) = body := by
  have stops : rest.takeWhile Char.isDigit = [] ∧ rest.dropWhile Char.isDigit = rest := by
    cases rest with
    | nil => exact ⟨rfl, rfl⟩
    | cons d rest =>
      have not_digit := (ends d rfl).1
      exact ⟨by rw [List.takeWhile_cons_of_neg (by simp [not_digit])],
        by rw [List.dropWhile_cons_of_neg (by simp [not_digit])]⟩
  rcases h with digits | ⟨whole, places, rfl, whole_digits, place_digits⟩
  · unfold digitsAt
    rw [List.takeWhile_append_of_pos digits, List.dropWhile_append_of_pos digits, stops.1, stops.2,
      List.append_nil]
    cases rest with
    | nil => rfl
    | cons d rest =>
      split
      · rename_i eq
        exact absurd (List.cons_eq_cons.1 eq).1 (ends d rfl).2
      · rfl
  · unfold digitsAt
    rw [List.append_assoc, List.takeWhile_append_of_pos whole_digits,
      List.dropWhile_append_of_pos whole_digits, List.cons_append]
    have point : ('.' :: (places ++ rest)).takeWhile Char.isDigit = [] ∧
        ('.' :: (places ++ rest)).dropWhile Char.isDigit = '.' :: (places ++ rest) := ⟨rfl, rfl⟩
    rw [point.1, point.2, List.append_nil]
    simp only [List.takeWhile_append_of_pos place_digits, stops.1, List.append_nil]

theorem IsUnsigned.head {body : List Char} (h : IsUnsigned (c :: body)) :
    c.isDigit = true ∨ c = '.' := by
  rcases h with digits | ⟨whole, places, eq, whole_digits, -⟩
  · exact .inl (digits c List.mem_cons_self)
  · cases whole with
    | nil => exact .inr (List.cons_eq_cons.1 eq).1
    | cons d whole =>
      obtain ⟨rfl, -⟩ := List.cons_eq_cons.1 eq
      exact .inl (whole_digits c List.mem_cons_self)

theorem numeralAt_of_head (h : c.isDigit = true ∨ c = '.') :
    numeralAt (c :: rest) = digitsAt (c :: rest) := by
  unfold numeralAt
  split
  · rename_i eq
    obtain ⟨rfl, -⟩ := List.cons_eq_cons.1 eq
    exact absurd h (by decide)
  · rename_i eq
    obtain ⟨rfl, -⟩ := List.cons_eq_cons.1 eq
    exact absurd h (by decide)
  · rfl

/-- A numeral is read to its end, where no digit and no point follow. -/
theorem numeralAt_append (h : IsNumeral text)
    (ends : ∀ c ∈ rest.head?, c.isDigit = false ∧ c ≠ '.') : numeralAt (text ++ rest) = text := by
  obtain ⟨sign, body, rfl, sign_eq, unsigned, c, mem, -⟩ := h
  have read := digitsAt_append unsigned ends
  rw [List.append_assoc]
  rcases sign_eq with rfl | rfl | rfl
  · cases body with
    | nil => contradiction
    | cons d body =>
      rw [List.nil_append, List.cons_append, numeralAt_of_head unsigned.head]
      exact read
  · exact congrArg ('-' :: ·) read
  · exact congrArg ('+' :: ·) read

theorem IsNumeral.exists_cons (h : IsNumeral text) :
    ∃ c tail, text = c :: tail ∧ (c.isDigit = true ∨ c = '-' ∨ c = '+' ∨ c = '.') := by
  obtain ⟨sign, body, rfl, sign_eq, unsigned, d, mem, -⟩ := h
  rcases sign_eq with rfl | rfl | rfl
  · cases body with
    | nil => contradiction
    | cons c body =>
      refine ⟨c, body, rfl, ?_⟩
      rcases unsigned.head with digit | point
      · exact .inl digit
      · exact .inr (.inr (.inr point))
  · exact ⟨'-', body, rfl, .inr (.inl rfl)⟩
  · exact ⟨'+', body, rfl, .inr (.inr (.inl rfl))⟩

theorem IsNumeral.any_isDigit (h : IsNumeral text) : text.any Char.isDigit = true := by
  obtain ⟨sign, body, rfl, -, -, c, mem, digit⟩ := h
  exact List.any_eq_true.2 ⟨c, List.mem_append_right sign mem, digit⟩

/-- A character that a numeral begins with begins no other word. -/
theorem wordAt_of_numeral_head (h : c.isDigit = true ∨ c = '-' ∨ c = '+' ∨ c = '.')
    (some_digit : (numeralAt (c :: rest)).any Char.isDigit = true) :
    isBlank c = false ∧ wordAt c rest = .ok (.numeral (String.ofList (numeralAt (c :: rest))),
      (numeralAt (c :: rest)).length - 1) := by
  have apart {d : Char} (other : ¬ (d.isDigit = true ∨ d = '-' ∨ d = '+' ∨ d = '.')) : c ≠ d := by
    rintro rfl
    exact other h
  have not_quote : ¬ (c = '\'' ∨ c = '"') := by
    rintro (eq | eq)
    · exact apart (by decide) eq
    · exact apart (by decide) eq
  constructor
  · rw [← Bool.not_eq_true]
    intro blank
    rcases h with digit | rfl | rfl | rfl
    · rw [isDigit_of_isBlank blank] at digit
      contradiction
    · exact absurd blank (by decide)
    · exact absurd blank (by decide)
    · exact absurd blank (by decide)
  · unfold wordAt
    rw [if_neg (apart (by decide)), if_neg (apart (by decide)), if_neg (apart (by decide)),
      if_neg (apart (by decide)), if_neg (apart (by decide)), if_neg not_quote, if_pos h]
    simp only [some_digit, if_true]

end Words

/-! ### Texts by their words -/

/-- A text whose tokens are the given words, wherever it begins. -/
def Lexes (text : List Char) (words : List Word) : Prop :=
  ∀ byte, ∃ ts, tokensFrom byte text = .ok ts ∧ ts.map Token.word = words

section Lexes

variable {c : Char} {rest text : List Char} {words : List Word}

theorem lexes_nil : Lexes [] [] := fun byte => ⟨[], by rw [tokensFrom], rfl⟩

theorem lexes_blank (blank : isBlank c = true) (h : Lexes rest words) : Lexes (c :: rest) words := by
  intro byte
  rw [tokensFrom, if_pos blank]
  exact h (byte + c.utf8Size)

/-- A word in front of what it does not reach into. -/
theorem lexes_word {word : Word} (own : List Char) (not_blank : isBlank c = false)
    (read : wordAt c (own ++ rest) = .ok (word, own.length)) (h : Lexes rest words) :
    Lexes (c :: (own ++ rest)) (word :: words) := by
  intro byte
  obtain ⟨ts, later, rfl⟩ := h (byte + byteLength (c :: (own ++ rest).take own.length))
  refine ⟨⟨word, byte⟩ :: ts, ?_, rfl⟩
  rw [tokensFrom, if_neg (by simp [not_blank]), read]
  simp only [List.drop_left', later]
  rfl

/-- The marks of a call, by their characters. -/
def markText : Word → Option (List Char)
  | .openParen => some ['(']
  | .closeParen => some [')']
  | .comma => some [',']
  | .colon => some [':']
  | .bars => some ['|', '|']
  | _ => none

theorem lexes_mark (mark : Word) (isMark : markText mark = some text) (h : Lexes rest words) :
    Lexes (text ++ rest) (mark :: words) := by
  cases mark with
  | openParen => cases isMark; exact lexes_word [] (by decide) rfl h
  | closeParen => cases isMark; exact lexes_word [] (by decide) rfl h
  | comma => cases isMark; exact lexes_word [] (by decide) rfl h
  | colon => cases isMark; exact lexes_word [] (by decide) rfl h
  | bars => cases isMark; exact lexes_word ['|'] (by decide) rfl h
  | name _ => contradiction
  | literal _ => contradiction
  | numeral _ => contradiction

theorem lexes_literal {quote : Char} {written : List Char} (isQuote : quote = '\'' ∨ quote = '"')
    (spells : Spells quote written text) (h : Lexes rest words) :
    Lexes (quote :: (written ++ quote :: rest)) (.literal (String.ofList text) :: words) := by
  have not_blank : isBlank quote = false := by rcases isQuote with rfl | rfl <;> decide
  have closed : written ++ quote :: rest = (written ++ [quote]) ++ rest := List.append_cons ..
  have read := wordAt_quote isQuote spells rest
  rw [closed] at read ⊢
  refine lexes_word _ not_blank ?_ h
  rw [read, List.length_append, List.length_singleton]

/-- A name in front of what no name goes on with. -/
theorem lexes_name (name : IsName text) (ends : ∀ c ∈ rest.head?, isNameRest c = false)
    (h : Lexes rest words) : Lexes (text ++ rest) (.name (String.ofList text) :: words) := by
  obtain ⟨c, own, rfl, start, further⟩ := name
  have stops : rest.takeWhile isNameRest = [] := by
    cases rest with
    | nil => rfl
    | cons d rest => exact List.takeWhile_cons_of_neg (by simp [ends d rfl])
  have read := wordAt_of_isNameStart start (own ++ rest)
  rw [List.takeWhile_append_of_pos further, stops, List.append_nil] at read
  exact lexes_word own (isBlank_of_isNameStart start) read h

/-- A numeral in front of what no numeral goes on with. -/
theorem lexes_numeral (numeral : IsNumeral text)
    (ends : ∀ c ∈ rest.head?, c.isDigit = false ∧ c ≠ '.') (h : Lexes rest words) :
    Lexes (text ++ rest) (.numeral (String.ofList text) :: words) := by
  have whole := numeralAt_append numeral ends
  have some_digit := numeral.any_isDigit
  obtain ⟨c, own, rfl, head⟩ := numeral.exists_cons
  rw [List.cons_append] at whole ⊢
  rw [← whole] at some_digit
  obtain ⟨not_blank, read⟩ := wordAt_of_numeral_head head some_digit
  rw [whole] at read
  exact lexes_word own not_blank read h

end Lexes

/-! ### Names among the words -/

theorem isName_of_wordAt {c : Char} {rest : List Char} {name : String} {further : Nat}
    (h : wordAt c rest = .ok (.name name, further)) : IsName name.toList := by
  unfold wordAt at h
  -- Only the last branch but one gives a name.
  split at h
  · cases h
  split at h
  · cases h
  split at h
  · cases h
  split at h
  · cases h
  split at h
  · split at h <;> cases h
  split at h
  · split at h <;> cases h
  split at h
  · simp only at h
    split at h <;> cases h
  split at h
  · rename_i start
    cases h
    exact ⟨c, rest.takeWhile isNameRest, String.toList_ofList, start,
      fun d mem => List.all_eq_true.1 List.all_takeWhile d mem⟩
  · cases h

theorem isName_of_mem_tokensFrom {byte : Nat} {text : List Char} {ts : List Token} {t : Token}
    {name : String} (h : tokensFrom byte text = .ok ts) (mem : t ∈ ts) (word : t.word = .name name) :
    IsName name.toList := by
  fun_induction tokensFrom byte text generalizing ts with
  | case1 => cases h; contradiction
  | case2 byte c rest blank ih => exact ih h mem
  | case3 => cases h
  | case4 byte c rest blank first further read ih =>
    cases later : tokensFrom (byte + byteLength (c :: rest.take further)) (rest.drop further) with
    | error fault => rw [later] at h; cases h
    | ok more =>
      rw [later] at h
      cases h
      rcases List.mem_cons.1 mem with rfl | mem
      · obtain rfl : first = .name name := word
        exact isName_of_wordAt read
      · exact ih later mem

/-- The texts that are a single name. -/
theorem tokens_eq_name_iff {name : String} :
    tokens name = .ok [⟨.name name, 0⟩] ↔ IsName name.toList := by
  constructor
  · intro h
    exact isName_of_mem_tokensFrom h List.mem_cons_self rfl
  · rintro ⟨c, rest, text, start, further⟩
    have whole : rest.takeWhile isNameRest = rest := List.takeWhile_eq_self_iff.2 further
    have read := wordAt_of_isNameStart start rest
    have back : String.ofList (c :: rest) = name := by rw [← text, String.ofList_toList]
    rw [whole, back] at read
    rw [tokens, text, tokensFrom, if_neg (by simp [isBlank_of_isNameStart start]), read]
    simp only [List.drop_length]
    rw [tokensFrom]
    rfl

/-- A plain identifier is a name. -/
theorem isName_of_isIdentifier {name : String} (h : Settings.isIdentifier name = true) :
    IsName name.toList := by
  unfold Settings.isIdentifier at h
  cases text : name.toList with
  | nil => rw [text] at h; contradiction
  | cons c rest =>
    rw [text] at h
    obtain ⟨start, further⟩ := Bool.and_eq_true_iff.1 h
    refine ⟨c, rest, rfl, ?_, fun d mem => ?_⟩
    · unfold isNameStart
      rcases Bool.or_eq_true_iff.1 start with alpha | underscore
      · rw [isLetter_of_isAlpha alpha, Bool.true_or]
      · rw [underscore, Bool.or_true]
    · unfold isNameRest
      rcases Bool.or_eq_true_iff.1 (List.all_eq_true.1 further d mem) with alphanum | underscore
      · rcases Bool.or_eq_true_iff.1 (show (d.isAlpha || d.isDigit) = true from alphanum) with h | h
        · rw [isLetter_of_isAlpha h, Bool.true_or, Bool.true_or, Bool.true_or]
        · rw [isNumeral_of_isDigit h, Bool.or_true, Bool.true_or, Bool.true_or]
      · rw [underscore, Bool.or_true, Bool.true_or]

end Call

end TermProximity
