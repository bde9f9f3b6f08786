import TermProximity.Toml.Grammar
import TermProximity.Toml.Reader

/-!
# Reading TOML strings — every spelling of a text is read as the text

Between one quote on each side a string ends at the first quote that is not escaped.  In the long
notations quotes are read in runs: what is spelt there never has more than two of them together, so that
the run which closes the string is the first one of three or more.

* `escapeAt?_of_spells`: an escape is read as its character, whatever follows;
* `longBasicText?_of_spells`: a text reads back between three double quotes on each side;
* `string?_of_spells`: a text reads back from all of its spellings, if no quote follows.
-/

namespace TermProximity.Toml

variable {c : Char} {rest : List Char}

/-! ### Blanks -/

theorem lineEnd?_append {ending : List Char} (ends : LineEnd ending) (rest : List Char) :
    lineEnd? (ending ++ rest) = some rest := by
  cases ends <;> rfl

theorem lineEnd?_cons (inside : c ≠ '\n' ∧ c ≠ '\r') (rest : List Char) :
    lineEnd? (c :: rest) = none := by
  unfold lineEnd?
  split
  · rename_i same
    exact absurd (List.cons.inj same).1 inside.1
  · rename_i same
    exact absurd (List.cons.inj same).1 inside.2
  · rfl

/-- A line end begins with no blank. -/
theorem dropWhile_isGap_lineEnd {ending : List Char} (ends : LineEnd ending) (rest : List Char) :
    (ending ++ rest).dropWhile isGap = ending ++ rest := by
  cases ends <;> rfl

theorem skipLines_of_starts {text : List Char} (starts : Starts text) : skipLines text = text := by
  cases text with
  | nil => rw [skipLines]
  | cons c rest =>
    obtain ⟨not_gap, not_feed, not_return⟩ := starts c rfl
    simp only [isGap, Bool.or_eq_false_iff, beq_eq_false_iff_ne] at not_gap
    rw [skipLines.eq_3 c rest fun _ same => absurd same not_return, if_neg]
    simp [not_gap, not_feed]

theorem skipLines_append {blanks : List Char} (blank : Blanks blanks) (text : List Char) :
    skipLines (blanks ++ text) = skipLines text := by
  induction blank with
  | nil => rfl
  | @gap c rest gap later ih =>
    simp only [isGap, Bool.or_eq_true, beq_iff_eq] at gap
    rw [List.cons_append, skipLines, if_pos (by rcases gap with rfl | rfl <;> simp), ih]
    rintro _ rfl
    simp at gap
  | @line ending rest ends later ih =>
    rw [List.append_assoc]
    cases ends with
    | feed => rw [List.singleton_append, skipLines, if_pos (by simp), ih]; simp
    | both => rw [List.cons_append, List.singleton_append, skipLines, ih]

/-- A backslash at the end of a line takes away all blanks up to where a text starts. -/
theorem joinedLine?_append {gap ending blanks text : List Char} (blank : IsGap gap)
    (ends : LineEnd ending) (skipped : Blanks blanks) (starts : Starts text) :
    joinedLine? (gap ++ ending ++ blanks ++ text) = some text := by
  rw [joinedLine?, List.append_assoc, List.append_assoc, List.dropWhile_append_of_pos blank,
    dropWhile_isGap_lineEnd ends, lineEnd?_append ends, Option.map_some, skipLines_append skipped,
    skipLines_of_starts starts]

/-! ### Escapes -/

theorem codePoint?_take {digits : List Char} {width : Nat} (code : Text.WritesHex digits width c.toNat)
    (rest : List Char) : codePoint? width ((digits ++ rest).take width) = some c := by
  obtain ⟨length, number⟩ := code
  have valid : c.toNat.isValidChar := c.valid
  rw [List.take_left' length, codePoint?, number]
  simp [length, valid]

/-- An escape is read as its character, whatever follows, and no line ends behind its backslash. -/
theorem escapeAt?_of_spells {letters : List Char} (spells : SpellsEscape letters c)
    (rest : List Char) :
    escapeAt? (letters ++ rest) = some (c, letters.length) ∧ joinedLine? (letters ++ rest) = none := by
  cases spells with
  | short mem =>
    simp only [shortEscapes, List.mem_cons, Prod.mk.injEq, List.not_mem_nil, or_false] at mem
    rcases mem with ⟨rfl, rfl⟩ | ⟨rfl, rfl⟩ | ⟨rfl, rfl⟩ | ⟨rfl, rfl⟩ | ⟨rfl, rfl⟩ | ⟨rfl, rfl⟩ |
      ⟨rfl, rfl⟩
    all_goals exact ⟨rfl, rfl⟩
  | four code | eight code =>
    refine ⟨?_, rfl⟩
    rw [List.cons_append, escapeAt?, codePoint?_take code, List.length_cons, code.1]
    rfl

theorem not_quote_of_isBasicChar (plain : isBasicChar c = true) : c ≠ '"' ∧ c ≠ '\\' := by
  constructor
  all_goals
    rintro rfl
    exact absurd plain (by decide)

/-! ### Between one quote on each side -/

/-- A text reads back between one double quote on each side. -/
theorem basicText?_of_spells {body text : List Char} (spells : SpellsBasic body text)
    (rest : List Char) : basicText? (body ++ '"' :: rest) = some (text, rest) := by
  induction spells with
  | nil => rw [List.nil_append, basicText?]
  | itself plain later ih =>
    obtain ⟨not_quote, not_backslash⟩ := not_quote_of_isBasicChar plain
    rw [List.cons_append, basicText?, if_pos plain, ih]
    · rfl
    · exact not_quote
    · exact not_backslash
  | escaped escape later ih =>
    rw [List.cons_append, List.cons_append, List.append_assoc, basicText?,
      (escapeAt?_of_spells escape _).1]
    simp [ih]

/-- A text of characters that stand for themselves reads back between one single quote on each side. -/
theorem literalText?_append {text : List Char} (plain : IsLiteral text) (rest : List Char) :
    literalText? (text ++ '\'' :: rest) = some (text, rest) := by
  have stops : isLiteralChar '\'' = false := rfl
  simp [literalText?, List.takeWhile_append_of_pos plain, List.dropWhile_append_of_pos plain, stops]

/-! ### Runs of quotes -/

section Runs

variable {quote : Char} {rest : List Char}

@[simp] theorem quotesAt_nil (quote : Char) : quotesAt quote [] = 0 := rfl

@[simp] theorem quotesAt_cons_self (quote : Char) (rest : List Char) :
    quotesAt quote (quote :: rest) = quotesAt quote rest + 1 := by
  simp [quotesAt]

theorem quotesAt_cons_of_ne {c : Char} (other : c ≠ quote) (rest : List Char) :
    quotesAt quote (c :: rest) = 0 := by
  simp [quotesAt, other]

theorem quotesAt_of_head? (ends : rest.head? ≠ some quote) : quotesAt quote rest = 0 := by
  cases rest with
  | nil => rfl
  | cons c rest => exact quotesAt_cons_of_ne (fun same => ends (congrArg some same)) rest

theorem quotesAt_replicate_append (n : Nat) (rest : List Char) :
    quotesAt quote (List.replicate n quote ++ rest) = n + quotesAt quote rest := by
  induction n with
  | zero => simp
  | succ n ih =>
    rw [List.replicate_succ, List.cons_append, quotesAt_cons_self, ih]
    omega

/-- A text is made of quotes, or its quotes end at another character. -/
theorem exists_replicate (quote : Char) (text : List Char) :
    ∃ further, text = List.replicate (quotesAt quote text) quote ++ further ∧
      further.head? ≠ some quote := by
  induction text with
  | nil => exact ⟨[], rfl, by simp⟩
  | cons c text ih =>
    by_cases same : c = quote
    · obtain ⟨further, made, ends⟩ := ih
      refine ⟨further, ?_, ends⟩
      rw [same, quotesAt_cons_self, List.replicate_succ, List.cons_append, ← made]
    · exact ⟨c :: text, by rw [quotesAt_cons_of_ne same]; rfl, by simpa using same⟩

theorem quotesAt_add_le_longestRun (quote : Char) (run : Nat) (text : List Char) :
    quotesAt quote text + run ≤ longestRun quote run text := by
  induction text generalizing run with
  | nil => simp [longestRun]
  | cons c text ih =>
    rw [longestRun]
    split
    · rename_i same
      have := ih (run + 1)
      rw [same, quotesAt_cons_self]
      omega
    · rename_i other
      rw [quotesAt_cons_of_ne other]
      omega

end Runs

/-- A reader that takes quotes in runs. -/
def TakesRuns (quote : Char) (read : List Char → Option (List Char × List Char)) : Prop :=
  ∀ rest, read (quote :: rest) =
    match QuoteRun.ofLength (quotesAt quote (quote :: rest)) with
    | .inside => (read rest).map fun (text, rest) => (quote :: text, rest)
    | .closing before =>
      some (List.replicate before quote, (quote :: rest).drop (quotesAt quote (quote :: rest)))
    | .malformed => none

namespace TakesRuns

variable {quote : Char} {read : List Char → Option (List Char × List Char)} {rest : List Char}

/-- Three quotes close a string, and up to two in front of them are the end of it. -/
theorem closing (takes : TakesRuns quote read) (ends : rest.head? ≠ some quote) (before : Nat)
    (few : before ≤ 2) :
    read (List.replicate before quote ++ quote :: quote :: quote :: rest) =
      some (List.replicate before quote, rest) := by
  have run : List.replicate before quote ++ quote :: quote :: quote :: rest =
      quote :: (List.replicate (before + 2) quote ++ rest) := by
    have three : quote :: quote :: quote :: rest = List.replicate 3 quote ++ rest := rfl
    rw [three, ← List.append_assoc, List.replicate_append_replicate]
    rfl
  have length : quotesAt quote (quote :: (List.replicate (before + 2) quote ++ rest)) = before + 3 := by
    rw [quotesAt_cons_self, quotesAt_replicate_append, quotesAt_of_head? ends]
  rw [run, takes, length, QuoteRun.ofLength, if_neg (by omega), if_pos (by omega)]
  simp

/-- A quote is a part of a string if no more than one stands behind it before the string closes or goes on. -/
theorem inside (takes : TakesRuns quote read) (ends : rest.head? ≠ some quote) {body : List Char}
    (few : quotesAt quote body ≤ 1) :
    read (quote :: (body ++ quote :: quote :: quote :: rest)) =
      (read (body ++ quote :: quote :: quote :: rest)).map fun (text, rest) =>
        (quote :: text, rest) := by
  obtain ⟨further, made, stops⟩ := exists_replicate quote body
  generalize quotesAt quote body = run at few made
  subst made
  -- The quotes run into those that close the string, or they end at another character.
  cases further with
  | nil =>
    have here := takes.closing ends (run + 1) (by omega)
    rw [List.append_nil, takes.closing ends run (by omega)]
    exact here
  | cons c further =>
    have length : quotesAt quote (quote :: (List.replicate run quote ++ c :: further ++
        quote :: quote :: quote :: rest)) = run + 1 := by
      rw [List.append_assoc, quotesAt_cons_self, quotesAt_replicate_append, List.cons_append,
        quotesAt_cons_of_ne (by simpa using stops)]
    rw [takes, length, QuoteRun.ofLength, if_pos (by omega)]

end TakesRuns

/-! ### Between three double quotes on each side -/

section LongBasic

variable {run : Nat} {body text : List Char}

theorem takesRuns_longBasicText? : TakesRuns '"' longBasicText? := longBasicText?.eq_2

theorem longBasicText?_escaped {letters : List Char} (escape : SpellsEscape letters c)
    (rest : List Char) :
    longBasicText? ('\\' :: (letters ++ rest)) =
      (longBasicText? rest).map fun (text, rest) => (c :: text, rest) := by
  obtain ⟨reads, not_joined⟩ := escapeAt?_of_spells escape rest
  rw [longBasicText?]
  split
  · rename_i joined
    rw [not_joined] at joined
    contradiction
  · rw [reads]
    simp

theorem longBasicText?_joined (joins : joinedLine? text = some rest) :
    longBasicText? ('\\' :: text) = longBasicText? rest := by
  rw [longBasicText?]
  split
  · rename_i joined
    rw [joins] at joined
    cases joined
    rfl
  · rename_i joined
    rw [joins] at joined
    contradiction

theorem longBasicText?_cons (plain : c = '\n' ∨ isBasicChar c = true) (rest : List Char) :
    longBasicText? (c :: rest) =
      (longBasicText? rest).map fun (text, rest) => (c :: text, rest) := by
  rw [longBasicText?, if_pos plain]
  · rintro rfl
    exact absurd plain (by decide)
  · rintro rfl
    exact absurd plain (by decide)
  · rintro _ rfl
    exact absurd plain (by decide)

/-- No more quotes are written together than may yet be. -/
theorem quotesAt_of_spells (spells : SpellsLongBasic run body text) :
    quotesAt '"' body ≤ 2 - run := by
  induction spells with
  | nil => simp
  | quote few later ih =>
    rw [quotesAt_cons_self]
    omega
  | itself plain later ih =>
    rw [quotesAt_cons_of_ne]
    · omega
    · rintro rfl
      exact absurd plain (by decide)
  | escaped | joined =>
    simp only [List.cons_append]
    rw [quotesAt_cons_of_ne (by decide)]
    omega

/-- A text reads back between three double quotes on each side. -/
theorem longBasicText?_of_spells (spells : SpellsLongBasic run body text)
    (ends : rest.head? ≠ some '"') :
    longBasicText? (body ++ '"' :: '"' :: '"' :: rest) = some (text, rest) := by
  induction spells with
  | nil => exact takesRuns_longBasicText?.closing ends 0 (Nat.zero_le 2)
  | quote few later ih =>
    -- With this quote no more than two stand together.
    have together := quotesAt_of_spells later
    rw [List.cons_append, takesRuns_longBasicText?.inside ends (by omega), ih]
    rfl
  | itself plain later ih =>
    rw [List.cons_append, longBasicText?_cons plain, ih]
    rfl
  | escaped escape later ih =>
    rw [List.cons_append, List.cons_append, List.append_assoc, longBasicText?_escaped escape, ih]
    rfl
  | @joined _ gap ending blanks body text blank line_ends skipped starts later ih =>
    have starts_here : Starts (body ++ '"' :: '"' :: '"' :: rest) := by
      cases body with
      | nil =>
        rintro _ ⟨⟩
        decide
      | cons c body => exact starts
    have joins := joinedLine?_append blank line_ends skipped starts_here
    rw [← List.append_assoc] at joins
    simp only [List.cons_append]
    rw [longBasicText?_joined joins, ih]

end LongBasic

/-! ### Between three single quotes on each side -/

section LongLiteral

variable {c : Char} {rest : List Char}

theorem takesRuns_longLiteralText? : TakesRuns '\'' longLiteralText? := longLiteralText?.eq_2

theorem longLiteralText?_cons (plain : c = '\n' ∨ isLiteralChar c = true) (rest : List Char) :
    longLiteralText? (c :: rest) =
      (longLiteralText? rest).map fun (text, rest) => (c :: text, rest) := by
  rw [longLiteralText?, if_pos plain]
  · rintro rfl
    exact absurd plain (by decide)
  · rintro _ rfl
    exact absurd plain (by decide)

/-- A text with no more than two quotes together reads back between three single quotes on each side. -/
theorem longLiteralText?_append (ends : rest.head? ≠ some '\'') {run : Nat} {text : List Char}
    (few : longestRun '\'' run text ≤ 2)
    (plain : ∀ c ∈ text, c = '\n' ∨ c = '\'' ∨ isLiteralChar c = true) :
    longLiteralText? (text ++ '\'' :: '\'' :: '\'' :: rest) = some (text, rest) := by
  induction text generalizing run with
  | nil => exact takesRuns_longLiteralText?.closing ends 0 (Nat.zero_le 2)
  | cons c text ih =>
    have later := fun d mem => plain d (List.mem_cons_of_mem c mem)
    rw [longestRun] at few
    rw [List.cons_append]
    split at few
    · rename_i quote
      subst quote
      have := quotesAt_add_le_longestRun '\'' (run + 1) text
      rw [takesRuns_longLiteralText?.inside ends (by omega), ih few later]
      rfl
    · rename_i other
      have itself := (plain c List.mem_cons_self).imp_right (·.resolve_left other)
      have further : longestRun '\'' 0 text ≤ 2 := by omega
      rw [longLiteralText?_cons itself, ih further later]
      rfl

end LongLiteral

/-! ### Strings -/

/-- A line end right behind three opening quotes is dropped, and nothing else. -/
theorem skipFirstLineEnd_append {opening body : List Char} {quote : Char}
    (opens : Opening opening body) (mark : quote ≠ '\n' ∧ quote ≠ '\r') (rest : List Char) :
    skipFirstLineEnd (opening ++ (body ++ quote :: rest)) = body ++ quote :: rest := by
  rw [skipFirstLineEnd]
  cases opens with
  | line ends => rw [lineEnd?_append ends, Option.getD_some]
  | here starts =>
    rw [List.nil_append]
    cases body with
    | nil => rw [List.nil_append, lineEnd?_cons mark, Option.getD_none]
    | cons c body => rw [List.cons_append, lineEnd?_cons (starts c rfl), Option.getD_none]

/-- A quote behind what does not begin with one, and in front of what does not, is no second quote. -/
theorem not_second_quote {quote : Char} {body rest : List Char} (first : body.head? ≠ some quote)
    (ends : rest.head? ≠ some quote) (further : List Char) :
    body ++ quote :: rest ≠ quote :: quote :: further := by
  intro same
  cases body with
  | nil => exact ends (congrArg List.head? (List.cons.inj same).2)
  | cons c body => exact first (congrArg some (List.cons.inj same).1)

theorem string?_basic {text : List Char} (alone : ∀ rest, text ≠ '"' :: '"' :: rest) :
    string? ('"' :: text) = basicText? text := by
  rw [string?]
  exact alone

theorem string?_literal {text : List Char} (alone : ∀ rest, text ≠ '\'' :: '\'' :: rest) :
    string? ('\'' :: text) = literalText? text := by
  rw [string?]
  exact alone

theorem head?_of_spellsBasic {body text : List Char} (spells : SpellsBasic body text) :
    body.head? ≠ some '"' := by
  cases spells with
  | nil => simp
  | itself plain => simpa using (not_quote_of_isBasicChar plain).1
  | escaped => simp

variable {written : List Char} {text : String}

/-- A text on one line reads back as a string, if no quote follows. -/
theorem string?_of_spellsShort (spells : SpellsShort written text)
    (ends : rest.head? ≠ some '"' ∧ rest.head? ≠ some '\'') :
    string? (written ++ rest) = some (text.toList, rest) := by
  cases spells with
  | @basic body _ spells =>
    have alone := not_second_quote (head?_of_spellsBasic spells) ends.1
    rw [List.append_assoc, List.cons_append, List.singleton_append, string?_basic alone,
      basicText?_of_spells spells]
  | literal plain =>
    have first : text.toList.head? ≠ some '\'' := fun quote =>
      absurd (plain _ (List.mem_of_mem_head? quote)) (by decide)
    rw [List.append_assoc, List.cons_append, List.singleton_append,
      string?_literal (not_second_quote first ends.2), literalText?_append plain]

/-- A text reads back from all of its spellings, if no quote follows. -/
theorem string?_of_spells (spells : SpellsString written text)
    (ends : rest.head? ≠ some '"' ∧ rest.head? ≠ some '\'') :
    string? (written ++ rest) = some (text.toList, rest) := by
  cases spells with
  | short spells => exact string?_of_spellsShort spells ends
  | longBasic opens spells =>
    rw [← longBasicText?_of_spells spells ends.1, ← skipFirstLineEnd_append opens (by decide)]
    simp [string?]
  | longLiteral opens plain =>
    rw [← longLiteralText?_append ends.2 plain.1 plain.2, ← skipFirstLineEnd_append opens (by decide)]
    simp [string?]

/-- A spelling begins with a quote. -/
theorem exists_of_spellsShort (spells : SpellsShort written text) :
    ∃ quote body, written = quote :: body ∧ (quote = '"' ∨ quote = '\'') := by
  cases spells with
  | basic => exact ⟨'"', _, rfl, .inl rfl⟩
  | literal => exact ⟨'\'', _, rfl, .inr rfl⟩

theorem exists_of_spellsString (spells : SpellsString written text) :
    ∃ quote body, written = quote :: body ∧ (quote = '"' ∨ quote = '\'') := by
  cases spells with
  | short spells => exact exists_of_spellsShort spells
  | longBasic => exact ⟨'"', _, rfl, .inl rfl⟩
  | longLiteral => exact ⟨'\'', _, rfl, .inr rfl⟩

end TermProximity.Toml
