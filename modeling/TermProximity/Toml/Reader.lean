import TermProximity.Toml

/-!
# Reading TOML entries — the keys and values of a flat settings text

A text is a sequence of lines: empty ones, comments, and entries.  A key may be quoted, the two
sides of the equals sign may be set off by spaces and tabs, and a comment may end a line.  Lines end
with a line feed, in front of which a carriage return may stand.  A byte order mark may begin the
text.

The readers take characters off the front and return what is left, or nothing when the text breaks
the rules.  Whatever TOML has besides (tables, numbers, arrays, dates, dotted keys) is not read.

`library` keeps records as such texts.
-/

namespace TermProximity.Toml

/-- Drops a line end from the front. -/
def lineEnd? : List Char → Option (List Char)
  | '\n' :: rest => some rest
  | '\r' :: '\n' :: rest => some rest
  | _ => none

/-! ### Escapes -/

/-- The character whose code point exactly `count` digits in base sixteen write. -/
def codePoint? (count : Nat) (digits : List Char) : Option Char :=
  match Text.hexNumber? digits with
  | some code => if digits.length = count ∧ code.isValidChar then some (Char.ofNat code) else none
  | none => none

/-- The character that an escape stands for, and the number of characters after its backslash. -/
def escapeAt? : List Char → Option (Char × Nat)
  | 'u' :: rest => (codePoint? 4 (rest.take 4)).map (·, 5)
  | 'U' :: rest => (codePoint? 8 (rest.take 8)).map (·, 9)
  | letter :: _ => (shortEscapes.find? fun e => e.1 == letter).map (·.2, 1)
  | [] => none

/-! ### Strings -/

/-- Reads up to the closing double quote. -/
def basicText? : List Char → Option (List Char × List Char)
  | [] => none
  | '"' :: rest => some ([], rest)
  | '\\' :: rest =>
    match escapeAt? rest with
    | none => none
    | some (c, length) => (basicText? (rest.drop length)).map fun (text, rest) => (c :: text, rest)
  | c :: rest =>
    if isBasicChar c then (basicText? rest).map fun (text, rest) => (c :: text, rest) else none
termination_by text => text.length
decreasing_by all_goals simp only [List.length_drop, List.length_cons]; omega

/-- Reads up to the closing single quote. -/
def literalText? (text : List Char) : Option (List Char × List Char) :=
  match text.dropWhile isLiteralChar with
  | '\'' :: rest => some (text.takeWhile isLiteralChar, rest)
  | _ => none

/-- Drops spaces, tabs and line ends from the front. -/
def skipLines : List Char → List Char
  | [] => []
  | '\r' :: '\n' :: rest => skipLines rest
  | c :: rest => if c = ' ' ∨ c = '\t' ∨ c = '\n' then skipLines rest else c :: rest

/-- What is left after a backslash at the end of a line, and after all blanks that follow. -/
def joinedLine? (text : List Char) : Option (List Char) :=
  (lineEnd? (text.dropWhile isGap)).map skipLines

/-- The number of quotes at the front. -/
def quotesAt (quote : Char) (text : List Char) : Nat := (text.takeWhile (· == quote)).length

/--
What a run of quotes at the front of a long string says.  Fewer than three are part of it; three
close it, and up to two more in front of these are part of it; beyond that the text is malformed.
-/
inductive QuoteRun where
  | inside
  | closing (before : Nat)
  | malformed

/-- What a run of so many quotes says. -/
def QuoteRun.ofLength (n : Nat) : QuoteRun :=
  if n < 3 then .inside else if n ≤ 5 then .closing (n - 3) else .malformed

theorem length_skipLines_le (text : List Char) : (skipLines text).length ≤ text.length := by
  fun_induction skipLines text with
  | case1 => simp
  | case2 rest ih => simp only [List.length_cons]; omega
  | case3 c rest _ _ ih => simp only [List.length_cons]; omega
  | case4 => simp

theorem length_lineEnd?_lt {text rest : List Char} (h : lineEnd? text = some rest) :
    rest.length < text.length := by
  unfold lineEnd? at h
  split at h
  · cases h; simp
  · cases h; simp only [List.length_cons]; omega
  · cases h

theorem length_dropWhile_le (p : Char → Bool) (text : List Char) :
    (text.dropWhile p).length ≤ text.length :=
  (List.dropWhile_sublist p).length_le

theorem length_joinedLine?_lt {text rest : List Char} (h : joinedLine? text = some rest) :
    rest.length < text.length := by
  obtain ⟨line, hline, rfl⟩ := Option.map_eq_some_iff.1 h
  have := length_skipLines_le line
  have := length_lineEnd?_lt hline
  have := length_dropWhile_le isGap text
  omega

/-- Reads up to the closing three double quotes. -/
def longBasicText? : List Char → Option (List Char × List Char)
  | [] => none
  | '"' :: rest =>
    let run := quotesAt '"' ('"' :: rest)
    match QuoteRun.ofLength run with
    | .inside => (longBasicText? rest).map fun (text, rest) => ('"' :: text, rest)
    | .closing before => some (List.replicate before '"', ('"' :: rest).drop run)
    | .malformed => none
  | '\\' :: rest =>
    match _h : joinedLine? rest with
    | some rest' => longBasicText? rest'
    | none =>
      match escapeAt? rest with
      | none => none
      | some (c, length) =>
        (longBasicText? (rest.drop length)).map fun (text, rest) => (c :: text, rest)
  | '\r' :: '\n' :: rest => (longBasicText? rest).map fun (text, rest) => ('\n' :: text, rest)
  | c :: rest =>
    if c = '\n' ∨ isBasicChar c then
      (longBasicText? rest).map fun (text, rest) => (c :: text, rest)
    else none
termination_by text => text.length
decreasing_by
  all_goals simp only [List.length_drop, List.length_cons]
  all_goals try have shorter := length_joinedLine?_lt _h
  all_goals omega

/-- Reads up to the closing three single quotes. -/
def longLiteralText? : List Char → Option (List Char × List Char)
  | [] => none
  | '\'' :: rest =>
    let run := quotesAt '\'' ('\'' :: rest)
    match QuoteRun.ofLength run with
    | .inside => (longLiteralText? rest).map fun (text, rest) => ('\'' :: text, rest)
    | .closing before => some (List.replicate before '\'', ('\'' :: rest).drop run)
    | .malformed => none
  | '\r' :: '\n' :: rest => (longLiteralText? rest).map fun (text, rest) => ('\n' :: text, rest)
  | c :: rest =>
    if c = '\n' ∨ isLiteralChar c then
      (longLiteralText? rest).map fun (text, rest) => (c :: text, rest)
    else none

/-- Drops the line end right after three opening quotes. -/
def skipFirstLineEnd (text : List Char) : List Char := (lineEnd? text).getD text

/-- Reads a string in any notation. -/
def string? : List Char → Option (List Char × List Char)
  | '"' :: '"' :: '"' :: rest => longBasicText? (skipFirstLineEnd rest)
  | '"' :: rest => basicText? rest
  | '\'' :: '\'' :: '\'' :: rest => longLiteralText? (skipFirstLineEnd rest)
  | '\'' :: rest => literalText? rest
  | _ => none

/-! ### Entries -/

/-- Reads a key. -/
def key? : List Char → Option (List Char × List Char)
  | '"' :: rest => basicText? rest
  | '\'' :: rest => literalText? rest
  | text =>
    let key := text.takeWhile isKeyChar
    if key.isEmpty then none else some (key, text.dropWhile isKeyChar)

/-- Reads a value. -/
def value? : List Char → Option (Scalar × List Char)
  | 't' :: 'r' :: 'u' :: 'e' :: rest => some (.truth true, rest)
  | 'f' :: 'a' :: 'l' :: 's' :: 'e' :: rest => some (.truth false, rest)
  | text => (string? text).map fun (text, rest) => (.text (String.ofList text), rest)

/-- Drops what may end a line: blanks, a comment, and the line end unless the text ends. -/
def restOfLine? (text : List Char) : Option (List Char) :=
  let text := match text.dropWhile isGap with
    | '#' :: rest => rest.dropWhile isCommentChar
    | rest => rest
  if text.isEmpty then some [] else lineEnd? text

/-- Reads an entry with the rest of its line. -/
def entry? (text : List Char) : Option (Entry × List Char) := do
  let (key, rest) ← key? text
  match rest.dropWhile isGap with
  | '=' :: rest => do
    let (value, rest) ← value? (rest.dropWhile isGap)
    let rest ← restOfLine? rest
    some ((String.ofList key, value), rest)
  | _ => none

/-- Reads at most so many lines. -/
def lines? : Nat → List Char → Option (List Entry)
  | 0, text => if text.isEmpty then some [] else none
  | steps + 1, text =>
    let text := text.dropWhile isGap
    if text.isEmpty then some []
    else
      match restOfLine? text with
      | some rest => lines? steps rest
      | none => do
        let (entry, rest) ← entry? text
        (lines? steps rest).map (entry :: ·)

/-- The entries of a text, in order. -/
def read? (text : String) : Option (List Entry) :=
  let text := match text.toList with
    | '\ufeff' :: rest => rest
    | rest => rest
  lines? (text.length + 1) text

/-- Records as settings texts; no key may come twice. -/
def library : Library where
  write a := (write? (Record.written a)).map String.ofList
  read text := do
    let entries ← read? text
    if (namesOf entries).Nodup then Record.ofMembers? some entries else none

end TermProximity.Toml
