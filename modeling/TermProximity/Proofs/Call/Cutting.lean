import TermProximity.Proofs.Call.Grammar
import TermProximity.Proofs.Call.Lexing

/-!
# Cutting — the characters behind the tokens

The tokens of a text tell how it is cut: into blank characters, which only separate, and the sources of
the words, each as long as its spelling allows (`IsSource`).  `Cut` is this relation between a text
and its tokens, with the byte offset at which every source begins.

* `IsNumeral.prefix_numeralAt`: no numeral at the front of a text is longer than the one that is read;
* `IsSource.wordAt_eq`, `exists_isSource_of_wordAt`: a word is read just where its source stands;
* `tokensFrom_eq_ok_iff`: a text has given tokens just when it can be cut into them;
* `exists_cut_of_tokensFrom_eq_error`: a text without tokens can be cut up to the character at fault.
-/

namespace TermProximity.Call

open Text

/-! ### Numerals that go on -/

section Numerals

variable {c : Char} {rest text body : List Char}

theorem isUnsigned_iff :
    IsUnsigned text ↔ (∀ c ∈ text, c.isDigit = true ∨ c = '.') ∧ text.count '.' ≤ 1 := by
  have no_point {digits : List Char} (h : ∀ c ∈ digits, c.isDigit = true) : digits.count '.' = 0 :=
    List.count_eq_zero.2 fun mem => absurd (h '.' mem) (by decide)
  constructor
  · rintro (digits | ⟨whole, places, rfl, whole_digits, place_digits⟩)
    · exact ⟨fun c mem => .inl (digits c mem), (no_point digits).le.trans (Nat.zero_le 1)⟩
    · constructor
      · intro c mem
        rcases List.mem_append.1 mem with mem | mem
        · exact .inl (whole_digits c mem)
        · exact (List.mem_cons.1 mem).symm.imp (place_digits c) id
      · rw [List.count_append, List.count_cons_self, no_point whole_digits, no_point place_digits]
  · rintro ⟨each, once⟩
    by_cases pointed : '.' ∈ text
    · obtain ⟨whole, places, rfl⟩ := List.append_of_mem pointed
      rw [List.count_append, List.count_cons_self] at once
      -- No second point stands on either side of the first.
      have digit {part : List Char} (none : part.count '.' = 0) (sub : part ⊆ whole ++ '.' :: places) :
          ∀ c ∈ part, c.isDigit = true := by
        intro c mem
        refine (each c (sub mem)).resolve_right ?_
        rintro rfl
        exact List.count_eq_zero.1 none mem
      exact .inr ⟨whole, places, rfl, digit (by omega) (List.subset_append_left _ _),
        digit (by omega) fun c mem => List.mem_append_right _ (List.mem_cons_of_mem _ mem)⟩
    · refine .inl fun c mem => (each c mem).resolve_right ?_
      rintro rfl
      exact pointed mem

theorem IsUnsigned.of_isPrefix (h : IsUnsigned text) (shorter : body <+: text) : IsUnsigned body := by
  obtain ⟨each, once⟩ := isUnsigned_iff.1 h
  exact isUnsigned_iff.2
    ⟨fun c mem => each c (shorter.subset mem), (shorter.sublist.count_le '.').trans once⟩

theorem isUnsigned_digitsAt (text : List Char) : IsUnsigned (digitsAt text) := by
  have digits (text : List Char) : ∀ c ∈ text.takeWhile Char.isDigit, c.isDigit = true :=
    fun c mem => List.mem_takeWhile_imp mem
  unfold digitsAt
  dsimp only
  split
  · exact .inr ⟨_, _, rfl, digits text, digits _⟩
  · exact .inl (digits text)

theorem digitsAt_isPrefix (text : List Char) : digitsAt text <+: text := by
  unfold digitsAt
  dsimp only
  split
  · rename_i rest point
    have whole : text.takeWhile Char.isDigit ++ '.' :: rest = text := by
      rw [← point, List.takeWhile_append_dropWhile]
    have later : '.' :: rest.takeWhile Char.isDigit <+: '.' :: rest :=
      List.cons_prefix_cons.2 ⟨rfl, List.takeWhile_prefix _⟩
    have longer := (List.prefix_append_right_inj (text.takeWhile Char.isDigit)).2 later
    rwa [whole] at longer
  · exact List.takeWhile_prefix _

/-- No digits at the front of a text are more than those that are read. -/
theorem IsUnsigned.prefix_digitsAt (h : IsUnsigned body) (rest : List Char) :
    body <+: digitsAt (body ++ rest) := by
  rcases h with digits | ⟨whole, places, rfl, whole_digits, place_digits⟩
  · unfold digitsAt
    rw [List.takeWhile_append_of_pos digits]
    dsimp only
    split
    · rw [List.append_assoc]
      exact List.prefix_append _ _
    · exact List.prefix_append _ _
  · unfold digitsAt
    rw [List.append_assoc, List.takeWhile_append_of_pos whole_digits,
      List.dropWhile_append_of_pos whole_digits, List.cons_append]
    have point : ('.' :: (places ++ rest)).takeWhile Char.isDigit = [] ∧
        ('.' :: (places ++ rest)).dropWhile Char.isDigit = '.' :: (places ++ rest) := ⟨rfl, rfl⟩
    rw [point.1, point.2, List.append_nil]
    change whole ++ '.' :: places <+: whole ++ '.' :: (places ++ rest).takeWhile Char.isDigit
    rw [List.takeWhile_append_of_pos place_digits, List.prefix_append_right_inj,
      List.cons_prefix_cons]
    exact ⟨rfl, List.prefix_append _ _⟩

theorem numeralAt_isPrefix (text : List Char) : numeralAt text <+: text := by
  unfold numeralAt
  split
  · exact List.cons_prefix_cons.2 ⟨rfl, digitsAt_isPrefix _⟩
  · exact List.cons_prefix_cons.2 ⟨rfl, digitsAt_isPrefix _⟩
  · exact digitsAt_isPrefix text

/-- What is read is a numeral if it has a digit. -/
theorem isNumeral_numeralAt (some_digit : (numeralAt text).any Char.isDigit = true) :
    IsNumeral (numeralAt text) := by
  obtain ⟨c, mem, digit⟩ := List.any_eq_true.1 some_digit
  have after_sign {sign : Char} {body : List Char} (not_digit : sign.isDigit = false)
      (mem : c ∈ sign :: body) : c ∈ body := by
    refine (List.mem_cons.1 mem).resolve_left ?_
    rintro rfl
    rw [not_digit] at digit
    contradiction
  unfold numeralAt at mem ⊢
  split at mem
  · exact ⟨['-'], _, rfl, .inr (.inl rfl), isUnsigned_digitsAt _, c, after_sign (by decide) mem, digit⟩
  · exact ⟨['+'], _, rfl, .inr (.inr rfl), isUnsigned_digitsAt _, c, after_sign (by decide) mem, digit⟩
  · exact ⟨[], _, rfl, .inl rfl, isUnsigned_digitsAt text, c, mem, digit⟩

/-- No numeral at the front of a text is longer than the one that is read. -/
theorem IsNumeral.prefix_numeralAt (h : IsNumeral text) (rest : List Char) :
    text <+: numeralAt (text ++ rest) := by
  obtain ⟨sign, body, rfl, sign_eq, unsigned, c, mem, -⟩ := h
  have longest := unsigned.prefix_digitsAt rest
  rw [List.append_assoc]
  rcases sign_eq with rfl | rfl | rfl
  · cases body with
    | nil => contradiction
    | cons d body =>
      rw [List.nil_append, List.nil_append, List.cons_append, numeralAt_of_head unsigned.head]
      exact longest
  · exact List.cons_prefix_cons.2 ⟨rfl, longest⟩
  · exact List.cons_prefix_cons.2 ⟨rfl, longest⟩

/-- The front of a numeral is one if it has a digit. -/
theorem IsNumeral.of_isPrefix (h : IsNumeral text) (shorter : body <+: text)
    (some_digit : body.any Char.isDigit = true) : IsNumeral body := by
  obtain ⟨c, mem, digit⟩ := List.any_eq_true.1 some_digit
  obtain ⟨sign, whole, rfl, sign_eq, unsigned, -⟩ := h
  have behind {sign : Char} (not_digit : sign.isDigit = false) (shorter : body <+: sign :: whole) :
      ∃ part, body = sign :: part ∧ IsUnsigned part ∧ c ∈ part := by
    rcases List.prefix_cons_iff.1 shorter with rfl | ⟨part, rfl, within⟩
    · contradiction
    · refine ⟨part, rfl, unsigned.of_isPrefix within, (List.mem_cons.1 mem).resolve_left ?_⟩
      rintro rfl
      rw [not_digit] at digit
      contradiction
  rcases sign_eq with rfl | rfl | rfl
  · exact ⟨[], body, rfl, .inl rfl, unsigned.of_isPrefix shorter, c, mem, digit⟩
  · obtain ⟨part, rfl, unsigned, mem⟩ := behind (by decide) shorter
    exact ⟨['-'], part, rfl, .inr (.inl rfl), unsigned, c, mem, digit⟩
  · obtain ⟨part, rfl, unsigned, mem⟩ := behind (by decide) shorter
    exact ⟨['+'], part, rfl, .inr (.inr rfl), unsigned, c, mem, digit⟩

/-- A numeral is read whole just when the next character does not go on with it. -/
theorem numeralAt_append_eq_iff :
    (numeralAt (text ++ rest) = text ∧ text.any Char.isDigit = true) ↔
      IsNumeral text ∧ ∀ c ∈ rest.head?, ¬ IsNumeral (text ++ [c]) := by
  constructor
  · rintro ⟨read, some_digit⟩
    refine ⟨read ▸ isNumeral_numeralAt (read.symm ▸ some_digit), ?_⟩
    intro c next longer
    obtain ⟨more, rfl⟩ := List.head?_eq_some_iff.1 next
    have reaches := longer.prefix_numeralAt more
    rw [List.append_assoc, List.singleton_append, read] at reaches
    exact absurd reaches.length_le (by simp)
  · rintro ⟨numeral, ends⟩
    have some_digit := numeral.any_isDigit
    refine ⟨?_, some_digit⟩
    obtain ⟨more, read⟩ := numeral.prefix_numeralAt rest
    cases more with
    | nil => rw [← read, List.append_nil]
    | cons c more =>
      have within := numeralAt_isPrefix (text ++ rest)
      rw [← read, List.prefix_append_right_inj] at within
      obtain ⟨after, eq⟩ := within
      refine absurd ?_ (ends c (by rw [← eq]; rfl))
      have whole : IsNumeral (numeralAt (text ++ rest)) := by
        apply isNumeral_numeralAt
        rw [← read, List.any_append, some_digit, Bool.true_or]
      refine whole.of_isPrefix ?_ ?_
      · rw [← read, List.prefix_append_right_inj, List.cons_prefix_cons]
        exact ⟨rfl, List.nil_prefix⟩
      · rw [List.any_append, some_digit, Bool.true_or]

end Numerals

/-! ### Names and literals -/

section Words

variable {c : Char} {rest text : List Char}

theorem isName_cons_append_iff {d : Char} (name : IsName (c :: text)) :
    IsName (c :: text ++ [d]) ↔ isNameRest d = true := by
  obtain ⟨_, _, eq, start, further⟩ := name
  obtain ⟨rfl, rfl⟩ := List.cons_eq_cons.1 eq
  constructor
  · rintro ⟨_, _, eq, -, longer⟩
    obtain ⟨rfl, rfl⟩ := List.cons_eq_cons.1 eq
    exact longer d (List.mem_append_right _ List.mem_cons_self)
  · intro goes_on
    refine ⟨c, text ++ [d], rfl, start, fun e mem => ?_⟩
    rcases List.mem_append.1 mem with mem | mem
    · exact further e mem
    · exact List.mem_singleton.1 mem ▸ goes_on

/-- A literal that ends is spelled up to its closing quote. -/
theorem exists_spells_of_literalLength? {quote : Char} {n : Nat}
    (ends : literalLength? quote text = some n) :
    ∃ written rest stands, text = written ++ quote :: rest ∧ n = written.length + 1 ∧
      Spells quote written stands := by
  fun_induction literalLength? quote text generalizing n with
  | case1 => contradiction
  | case2 c rest ih =>
    obtain ⟨m, later, rfl⟩ := Option.map_eq_some_iff.1 ends
    obtain ⟨written, rest, stands, rfl, rfl, spells⟩ := ih later
    exact ⟨'\\' :: c :: written, rest, c :: stands, rfl, rfl, .marked c spells⟩
  | case3 rest =>
    cases ends
    exact ⟨[], rest, [], rfl, rfl, .nil⟩
  | case4 c rest unmarked not_quote ih =>
    obtain ⟨m, later, rfl⟩ := Option.map_eq_some_iff.1 ends
    have not_mark : c ≠ '\\' := by
      intro mark
      cases rest with
      | nil => contradiction
      | cons d rest => exact unmarked d rest mark rfl
    obtain ⟨written, rest, stands, rfl, rfl, spells⟩ := ih later
    exact ⟨c :: written, rest, c :: stands, rfl, rfl, .plain not_quote not_mark spells⟩

end Words

/-! ### Sources -/

/--
The characters that stand for a word where other characters follow: those of a mark, a name or a
numeral, which the next character must not go on with, and a literal between its quotes.
-/
inductive IsSource : Word → List Char → List Char → Prop where
  | mark {mark : Word} {text rest : List Char} (isMark : markText mark = some text) :
    IsSource mark text rest
  | name {text rest : List Char} (name : IsName text)
    (ends : ∀ c ∈ rest.head?, ¬ IsName (text ++ [c])) :
    IsSource (.name (String.ofList text)) text rest
  | numeral {text rest : List Char} (numeral : IsNumeral text)
    (ends : ∀ c ∈ rest.head?, ¬ IsNumeral (text ++ [c])) :
    IsSource (.numeral (String.ofList text)) text rest
  | literal {quote : Char} {written text rest : List Char} (isQuote : quote = '\'' ∨ quote = '"')
    (spells : Spells quote written text) :
    IsSource (.literal (String.ofList text)) (quote :: (written ++ [quote])) rest

section Sources

variable {c : Char} {own rest text source : List Char} {word : Word} {n byte : Nat}
  {ts : List Token}

/-- A source stays one when less follows it. -/
theorem IsSource.of_isPrefix (h : IsSource word source text) (less : rest <+: text) :
    IsSource word source rest := by
  have next {c : Char} (mem : c ∈ rest.head?) : c ∈ text.head? := by
    obtain ⟨more, rfl⟩ := List.head?_eq_some_iff.1 mem
    obtain ⟨after, rfl⟩ := less
    rfl
  cases h with
  | mark isMark => exact .mark isMark
  | name name ends => exact .name name fun c mem => ends c (next mem)
  | numeral numeral ends => exact .numeral numeral fun c mem => ends c (next mem)
  | literal isQuote spells => exact .literal isQuote spells

/-- A source begins with a character that is not blank, and from there its word is read. -/
theorem IsSource.wordAt_eq (h : IsSource word source rest) :
    ∃ c own, source = c :: own ∧ isBlank c = false ∧ wordAt c (own ++ rest) = .ok (word, own.length) := by
  cases h with
  | mark isMark =>
    cases word with
    | openParen => cases isMark; exact ⟨'(', [], rfl, by decide, rfl⟩
    | closeParen => cases isMark; exact ⟨')', [], rfl, by decide, rfl⟩
    | comma => cases isMark; exact ⟨',', [], rfl, by decide, rfl⟩
    | colon => cases isMark; exact ⟨':', [], rfl, by decide, rfl⟩
    | bars => cases isMark; exact ⟨'|', ['|'], rfl, by decide, rfl⟩
    | name _ | literal _ | numeral _ => contradiction
  | name name ends =>
    obtain ⟨c, own, rfl, start, further⟩ := id name
    refine ⟨c, own, rfl, isBlank_of_isNameStart start, ?_⟩
    have stops : rest.takeWhile isNameRest = [] := by
      cases rest with
      | nil => rfl
      | cons d rest =>
        exact List.takeWhile_cons_of_neg fun goes_on =>
          ends d rfl ((isName_cons_append_iff name).2 goes_on)
    have read := wordAt_of_isNameStart start (own ++ rest)
    rwa [List.takeWhile_append_of_pos further, stops, List.append_nil] at read
  | numeral numeral ends =>
    obtain ⟨whole, some_digit⟩ := numeralAt_append_eq_iff.2 ⟨numeral, ends⟩
    obtain ⟨c, own, rfl, head⟩ := numeral.exists_cons
    rw [List.cons_append] at whole
    rw [← whole] at some_digit
    obtain ⟨not_blank, read⟩ := wordAt_of_numeral_head head some_digit
    rw [whole] at read
    exact ⟨c, own, rfl, not_blank, read⟩
  | literal isQuote spells =>
    rename_i quote written text
    have not_blank : isBlank quote = false := by rcases isQuote with rfl | rfl <;> decide
    refine ⟨quote, written ++ [quote], rfl, not_blank, ?_⟩
    rw [List.append_assoc, List.singleton_append, wordAt_quote isQuote spells, List.length_append,
      List.length_singleton]

/-- Where a word is read, its source stands. -/
theorem exists_isSource_of_wordAt (read : wordAt c text = .ok (word, n)) :
    ∃ own rest, text = own ++ rest ∧ own.length = n ∧ IsSource word (c :: own) rest := by
  unfold wordAt at read
  -- The four marks of a single character.
  iterate 4
    split at read
    · rename_i mark
      cases read
      exact ⟨[], text, rfl, rfl, .mark (mark ▸ rfl)⟩
  split at read
  · rename_i bar
    subst bar
    split at read
    · rename_i next
      cases read
      obtain ⟨rest, rfl⟩ := List.head?_eq_some_iff.1 next
      exact ⟨['|'], rest, rfl, rfl, .mark rfl⟩
    · cases read
  split at read
  · rename_i isQuote
    split at read
    · cases read
    · rename_i length ends
      cases read
      obtain ⟨written, rest, stands, rfl, rfl, spells⟩ := exists_spells_of_literalLength? ends
      rw [Nat.add_sub_cancel, List.take_left, spells.unescape_eq]
      exact ⟨written ++ [c], rest, List.append_cons .., List.length_append,
        .literal isQuote spells⟩
  split at read
  · simp only at read
    split at read
    · rename_i some_digit
      cases read
      obtain ⟨rest, whole⟩ := numeralAt_isPrefix (c :: text)
      obtain ⟨numeral, ends⟩ := numeralAt_append_eq_iff.1 ⟨congrArg numeralAt whole, some_digit⟩
      obtain ⟨d, own, eq, -⟩ := numeral.exists_cons
      rw [eq] at whole ⊢
      obtain ⟨rfl, rfl⟩ := List.cons_eq_cons.1 whole
      exact ⟨own, rest, rfl, rfl, .numeral (eq ▸ numeral) (eq ▸ ends)⟩
    · cases read
  split at read
  · rename_i start
    cases read
    have further : ∀ d ∈ text.takeWhile isNameRest, isNameRest d = true :=
      fun d mem => List.mem_takeWhile_imp mem
    refine ⟨_, text.dropWhile isNameRest, List.takeWhile_append_dropWhile.symm, rfl, ?_⟩
    have name : IsName (c :: text.takeWhile isNameRest) := ⟨c, _, rfl, start, further⟩
    refine .name name fun d next goes_on => ?_
    have stops := List.head?_dropWhile_not isNameRest text
    rw [next] at stops
    have rest_of := (isName_cons_append_iff name).1 goes_on
    rw [stops] at rest_of
    contradiction
  · cases read

end Sources

/-! ### Texts by their tokens -/

/-- A text that begins at a byte offset, cut into blank characters and the sources of tokens. -/
inductive Cut : Nat → List Char → List Token → Prop where
  | nil (byte : Nat) : Cut byte [] []
  | blank {byte : Nat} {c : Char} {rest : List Char} {ts : List Token} (blank : isBlank c = true) :
    Cut (byte + c.utf8Size) rest ts → Cut byte (c :: rest) ts
  | word {byte : Nat} {word : Word} {source rest : List Char} {ts : List Token}
    (isSource : IsSource word source rest) :
    Cut (byte + byteLength source) rest ts → Cut byte (source ++ rest) (⟨word, byte⟩ :: ts)

section Cut

variable {text : List Char} {byte : Nat} {ts : List Token}

/-- A text has given tokens just when it can be cut into them. -/
theorem tokensFrom_eq_ok_iff : tokensFrom byte text = .ok ts ↔ Cut byte text ts := by
  constructor
  · intro read
    fun_induction tokensFrom byte text generalizing ts with
    | case1 byte =>
      cases read
      exact .nil byte
    | case2 byte c rest blank ih => exact .blank blank (ih read)
    | case3 => contradiction
    | case4 byte c text not_blank word further first ih =>
      obtain ⟨more, later, rfl⟩ := map_eq_ok_iff.1 read
      obtain ⟨own, rest, rfl, rfl, isSource⟩ := exists_isSource_of_wordAt first
      rw [List.take_left, List.drop_left] at ih later
      exact .word isSource (ih later)
  · intro cut
    induction cut with
    | nil byte => rw [tokensFrom]
    | blank blank _ ih => rw [tokensFrom, if_pos blank, ih]
    | word isSource _ ih =>
      obtain ⟨c, own, rfl, not_blank, read⟩ := isSource.wordAt_eq
      rw [List.cons_append, tokensFrom, if_neg (by simp [not_blank]), read]
      simp only [List.take_left, List.drop_left, ih]
      rfl

/-- Every token begins where some characters of its text are over. -/
theorem Cut.exists_of_mem (cut : Cut byte text ts) {t : Token} (mem : t ∈ ts) :
    ∃ before after, text = before ++ after ∧ t.byte = byte + byteLength before := by
  induction cut with
  | nil => contradiction
  | @blank byte c rest ts _ _ ih =>
    obtain ⟨before, after, rfl, eq⟩ := ih mem
    exact ⟨c :: before, after, rfl, by rw [eq, byteLength_cons, Nat.add_assoc]⟩
  | @word byte word source rest ts _ _ ih =>
    rcases List.mem_cons.1 mem with rfl | mem
    · exact ⟨[], source ++ rest, rfl, rfl⟩
    · obtain ⟨before, after, rfl, eq⟩ := ih mem
      exact ⟨source ++ before, after, (List.append_assoc ..).symm,
        by rw [eq, byteLength_append, Nat.add_assoc]⟩

/-- A text without tokens can be cut up to the character at which no word can be read. -/
theorem exists_cut_of_tokensFrom_eq_error {failure : Failure}
    (failed : tokensFrom byte text = .error failure) :
    ∃ before c after fault, text = before ++ c :: after ∧ wordAt c after = .error fault ∧
      failure = .malformed (byte + byteLength before) fault ∧ ∃ ts, Cut byte before ts := by
  fun_induction tokensFrom byte text with
  | case1 => contradiction
  | case2 byte c rest blank ih =>
    obtain ⟨before, d, after, fault, rfl, stuck, eq, ts, cut⟩ := ih failed
    refine ⟨c :: before, d, after, fault, rfl, stuck, ?_, ts, .blank blank cut⟩
    rw [eq, byteLength_cons, Nat.add_assoc]
  | case3 byte c rest not_blank fault stuck =>
    cases failed
    exact ⟨[], c, rest, fault, rfl, stuck, rfl, [], .nil byte⟩
  | case4 byte c text not_blank word further first ih =>
    obtain ⟨own, rest, rfl, rfl, isSource⟩ := exists_isSource_of_wordAt first
    rw [List.take_left, List.drop_left] at ih failed
    obtain ⟨before, d, after, fault, rfl, stuck, eq, ts, cut⟩ := ih (map_eq_error_iff.1 failed)
    -- What stands before the character at fault still lets the word in front of it end.
    refine ⟨c :: own ++ before, d, after, fault, (List.append_assoc (c :: own) _ _).symm, stuck, ?_,
      _, .word (isSource.of_isPrefix (List.prefix_append _ _)) cut⟩
    rw [eq, byteLength_append, Nat.add_assoc]

end Cut

end TermProximity.Call
