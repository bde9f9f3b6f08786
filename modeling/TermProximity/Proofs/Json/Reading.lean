import Mathlib.Tactic.ByContra
import TermProximity.Json.Grammar
import TermProximity.Json.Reader

/-!
# Reading JSON — every spelling is read as what it spells

A reader takes a spelling off the front and leaves what follows.  Strings, objects and arrays end where
they are closed; a number ends at the first character that no number goes on with, so what may stand
behind a value is told by its first character (`Ends`).

* `exists_string?`: a string reads back after its opening quote, whatever follows;
* `number?_writeWhole`: a whole number reads back in front of what ends it;
* `members?_of_spells`: members read back up to the brace that closes them;
* `read?_of_spells`: a text of an object is read as its members.
-/

namespace TermProximity.Json

variable {body written gap rest text : List Char} {c : Char}

/-! ### Blanks -/

theorem skipGap_append (blank : IsGap gap) (text : List Char) :
    skipGap (gap ++ text) = skipGap text := List.dropWhile_append_of_pos blank

theorem skipGap_cons (not_gap : isGap c = false) (rest : List Char) :
    skipGap (c :: rest) = c :: rest := List.dropWhile_cons_of_neg (by simp [not_gap])

theorem skipGap_eq_nil (blank : IsGap gap) : skipGap gap = [] := by
  rw [← List.append_nil gap, skipGap_append blank]
  rfl

/-- Behind blanks a character that is no blank is the first to be seen. -/
theorem skipGap_append_cons (blank : IsGap gap) (not_gap : isGap c = false) (rest : List Char) :
    skipGap (gap ++ c :: rest) = c :: rest := by
  rw [skipGap_append blank, skipGap_cons not_gap]

/-! ### Strings -/

/-- A short escape is read as its character, and does not begin with the letter of a long one. -/
theorem shortEscape?_of_mem {letter : Char} (mem : (letter, c) ∈ shortEscapes) :
    letter ≠ 'u' ∧ shortEscape? letter = some c := by
  simp only [shortEscapes, List.mem_cons, Prod.mk.injEq, List.not_mem_nil, or_false] at mem
  rcases mem with ⟨rfl, rfl⟩ | ⟨rfl, rfl⟩ | ⟨rfl, rfl⟩ | ⟨rfl, rfl⟩ | ⟨rfl, rfl⟩ | ⟨rfl, rfl⟩ | ⟨rfl, rfl⟩
  all_goals exact ⟨by decide, rfl⟩

theorem pieces?_unit {digits : List Char} {n : Nat} (unit : Text.WritesHex digits 4 n) (rest : List Char) :
    pieces? ('\\' :: 'u' :: (digits ++ rest)) =
      (pieces? rest).map fun (ps, rest) => (.ofUnit n :: ps, rest) := by
  obtain ⟨four, number⟩ := unit
  match digits, four with
  | [w, x, y, z], _ =>
    show pieces? ('\\' :: 'u' :: w :: x :: y :: z :: rest) = _
    rw [pieces?, number]

theorem pieces?_short {letter : Char} (other : letter ≠ 'u') (short : shortEscape? letter = some c)
    (rest : List Char) :
    pieces? ('\\' :: letter :: rest) = (pieces? rest).map fun (ps, rest) => (.char c :: ps, rest) := by
  rw [pieces?, short]
  rintro _ _ _ _ _ same
  exact absurd same other

theorem pieces?_itself (visible : 0x20 ≤ c.toNat) (not_quote : c ≠ '"') (not_backslash : c ≠ '\\')
    (rest : List Char) :
    pieces? (c :: rest) = (pieces? rest).map fun (ps, rest) => (.char c :: ps, rest) := by
  rw [pieces?.eq_5 c rest not_quote (fun _ _ _ _ _ h => absurd h not_backslash)
    (fun _ _ h => absurd h not_backslash), if_neg (by simp [visible, not_backslash])]

theorem ofUnit_toNat (c : Char) : Piece.ofUnit c.toNat = .char c := by
  have valid : c.toNat < 0xd800 ∨ 0xdfff < c.toNat ∧ c.toNat < 0x110000 := c.valid
  rw [Piece.ofUnit, if_neg (by omega), Char.ofNat_toNat]

/-- A character is read as pieces that say it in front of all others. -/
theorem exists_pieces? (spells : SpellsChar written c) :
    ∃ ps, (∀ rest, pieces? (written ++ rest) =
        (pieces? rest).map fun (qs, rest) => (ps ++ qs, rest)) ∧
      ∀ qs, textOf? (ps ++ qs) = (textOf? qs).map (c :: ·) := by
  cases spells with
  | itself visible not_quote not_backslash =>
    exact ⟨[.char c], pieces?_itself visible not_quote not_backslash, fun _ => rfl⟩
  | slash => exact ⟨[.char '/'], pieces?_short (by decide) rfl, fun _ => rfl⟩
  | short escape =>
    obtain ⟨other, short⟩ := shortEscape?_of_mem escape
    exact ⟨[.char c], pieces?_short other short, fun _ => rfl⟩
  | unit unit =>
    refine ⟨[.char c], fun rest => ?_, fun _ => rfl⟩
    rw [List.cons_append, List.cons_append, pieces?_unit unit, ofUnit_toNat]
    rfl
  | @pair highs lows high low first second unit₁ unit₂ =>
    have high_half : Piece.ofUnit (0xd800 + high) = .half (0xd800 + high) := if_pos (by omega)
    have low_half : Piece.ofUnit (0xdc00 + low) = .half (0xdc00 + low) := if_pos (by omega)
    refine ⟨[.half (0xd800 + high), .half (0xdc00 + low)], fun rest => ?_, fun qs => ?_⟩
    · rw [List.append_assoc, List.cons_append, List.cons_append, List.cons_append, List.cons_append,
        pieces?_unit unit₁, pieces?_unit unit₂, high_half, low_half, Option.map_map]
      rfl
    · have halves : 0xd800 + high < 0xdc00 ∧ 0xdc00 ≤ 0xdc00 + low := by omega
      rw [List.cons_append, List.singleton_append, textOf?, if_pos halves, Nat.add_sub_cancel_left,
        Nat.add_sub_cancel_left]

theorem exists_pieces?_of_spellsText {text : List Char} (spells : SpellsText body text)
    (rest : List Char) :
    ∃ ps, pieces? (body ++ '"' :: rest) = some (ps, rest) ∧ textOf? ps = some text := by
  induction spells with
  | nil => exact ⟨[], rfl, rfl⟩
  | cons first later ih =>
    obtain ⟨ps, reads, spell⟩ := exists_pieces? first
    obtain ⟨qs, read, said⟩ := ih
    refine ⟨ps ++ qs, ?_, ?_⟩
    · rw [List.append_assoc, reads, read]
      rfl
    · rw [spell, said]
      rfl

/-- A string reads back after its opening quote, whatever follows. -/
theorem exists_string? {text : String} (spells : SpellsString written text) :
    ∃ body, written = '"' :: body ∧ ∀ rest, string? (body ++ rest) = some (some text, rest) := by
  cases spells with
  | @quoted body _ spells =>
    refine ⟨body ++ ['"'], rfl, fun rest => ?_⟩
    obtain ⟨ps, read, spell⟩ := exists_pieces?_of_spellsText spells rest
    rw [List.append_assoc, List.singleton_append, string?, read]
    simp [spell]

/-! ### Numbers -/

/-- What may stand behind a value: nothing, blanks, or what goes on with what it is in, or closes it. -/
def Ends (rest : List Char) : Prop :=
  ∀ c ∈ rest.head?, c = ',' ∨ c = ']' ∨ c = '\x7d' ∨ isGap c = true

theorem ends_append_cons (blank : IsGap gap) (closes : c = ',' ∨ c = '\x7d') (rest : List Char) :
    Ends (gap ++ c :: rest) := by
  cases gap with
  | nil =>
    rintro _ ⟨⟩
    exact closes.imp_right fun brace => .inr (.inl brace)
  | cons d gap =>
    rintro _ ⟨⟩
    exact .inr (.inr (.inr (blank _ List.mem_cons_self)))

section Numbers

variable {digits : List Char}

theorem digits?_append (all : ∀ c ∈ digits, c.isDigit = true) (some_digit : digits ≠ [])
    (ends : ∀ c ∈ rest.head?, c.isDigit = false) :
    digits? (digits ++ rest) = some (digits, rest) := by
  have stops : rest.takeWhile Char.isDigit = [] ∧ rest.dropWhile Char.isDigit = rest := by
    cases rest with
    | nil => exact ⟨rfl, rfl⟩
    | cons c rest => simp [ends c rfl]
  simp [digits?, List.takeWhile_append_of_pos all, List.dropWhile_append_of_pos all, stops,
    some_digit]

/-- What ends a value is no part of a number. -/
theorem apart_of_ends (ends : c = ',' ∨ c = ']' ∨ c = '\x7d' ∨ isGap c = true) :
    c.isDigit = false ∧ c ≠ '.' ∧ c ≠ 'e' ∧ c ≠ 'E' := by
  simp only [isGap, Bool.or_eq_true, beq_iff_eq] at ends
  rcases ends with rfl | rfl | rfl | ((rfl | rfl) | rfl) | rfl
  all_goals decide

theorem skipFraction?_of_ends (ends : Ends rest) : skipFraction? rest = some (false, rest) := by
  cases rest with
  | nil => rfl
  | cons c rest =>
    rw [skipFraction?]
    rintro _ same
    exact absurd (List.cons.inj same).1 (apart_of_ends (ends c rfl)).2.1

theorem skipExponent?_of_ends (ends : Ends rest) : skipExponent? rest = some (false, rest) := by
  cases rest with
  | nil => rfl
  | cons c rest =>
    obtain ⟨-, -, lower, upper⟩ := apart_of_ends (ends c rfl)
    exact if_neg (by simp [lower, upper])

theorem not_isDigit_of_ends (ends : Ends rest) : ∀ c ∈ rest.head?, c.isDigit = false :=
  fun c mem => (apart_of_ends (ends c mem)).1

theorem head?_digitsOfNat {n : Nat} (positive : 0 < n) :
    (Numeric.digitsOfNat n).head? ≠ some '0' := by
  induction n using Nat.strongRecOn with
  | ind n ih =>
    unfold Numeric.digitsOfNat at ih ⊢
    by_cases small : n < 10
    · have apart : ∀ d < 10, 0 < d → d.digitChar ≠ '0' := by decide
      rw [Nat.toDigits_of_lt_base small]
      simpa using apart n small positive
    · have earlier := ih (n / 10) (by omega) (by omega)
      rw [Nat.toDigits_of_base_le (by decide) (by omega),
        List.head?_append]
      cases digits : Nat.toDigits 10 (n / 10) with
      | nil => exact absurd digits Nat.toDigits_ne_nil
      | cons d later =>
        rw [digits] at earlier
        exact earlier

/-- The digits of a number do not begin with a needless zero. -/
theorem not_leading_zero (n : Nat) :
    ¬((Numeric.digitsOfNat n).head? = some '0' ∧ (Numeric.digitsOfNat n).length ≠ 1) := by
  rintro ⟨zero, long⟩
  rcases Nat.eq_zero_or_pos n with rfl | positive
  · exact long rfl
  · exact head?_digitsOfNat positive zero

/-- Digits behind a minus sign make a whole number, but for those of zero. -/
theorem number?_neg (read : digits? (digits ++ rest) = some (digits, rest))
    (leading : ¬(digits.head? = some '0' ∧ digits.length ≠ 1))
    (not_zero : Numeric.natOfDigits digits ≠ 0) (ends : Ends rest) :
    number? ('-' :: (digits ++ rest)) = some (whole (-(Numeric.natOfDigits digits : Int)), rest) := by
  simp [number?, read, leading, not_zero, skipFraction?_of_ends ends, skipExponent?_of_ends ends]

/-- Digits without a sign make a whole number. -/
theorem number?_unsigned (read : digits? (digits ++ rest) = some (digits, rest))
    (leading : ¬(digits.head? = some '0' ∧ digits.length ≠ 1))
    (unsigned : ∀ rest', digits ++ rest ≠ '-' :: rest') (ends : Ends rest) :
    number? (digits ++ rest) = some (whole (Numeric.natOfDigits digits), rest) := by
  rw [number?]
  · simp [read, leading, skipFraction?_of_ends ends, skipExponent?_of_ends ends]
  · exact unsigned

/-- A whole number reads back in front of what ends it. -/
theorem number?_writeWhole (n : Int) (ends : Ends rest) :
    number? (writeWhole n ++ rest) = some (whole n, rest) := by
  have some_digit : Numeric.digitsOfNat n.natAbs ≠ [] := Nat.toDigits_ne_nil
  have all := fun c => Numeric.isDigit_of_mem_digitsOfNat (n := n.natAbs) (c := c)
  have read := digits?_append all some_digit (not_isDigit_of_ends ends)
  have leading := not_leading_zero n.natAbs
  have magnitude := Numeric.natOfDigits_digitsOfNat n.natAbs
  rw [writeWhole]
  by_cases negative : n < 0
  · have whole_eq : -(n.natAbs : Int) = n := by omega
    rw [if_pos negative, List.append_assoc, List.singleton_append,
      number?_neg read leading (by omega) ends, magnitude, whole_eq]
  · have whole_eq : (n.natAbs : Int) = n := by omega
    have unsigned : ∀ rest', Numeric.digitsOfNat n.natAbs ++ rest ≠ '-' :: rest' := by
      intro rest' minus
      cases digits : Numeric.digitsOfNat n.natAbs with
      | nil => exact some_digit digits
      | cons d later =>
        rw [digits] at minus
        obtain rfl : d = '-' := (List.cons.inj minus).1
        exact absurd (all '-' (digits ▸ List.mem_cons_self)) (by decide)
    rw [if_neg negative, List.nil_append, number?_unsigned read leading unsigned ends, magnitude,
      whole_eq]

end Numbers

/-! ### Values -/

/-- A sign or a digit. -/
def IsNumeral (c : Char) : Prop := c = '-' ∨ c.isDigit = true

theorem isGap_of_isNumeral (numeral : IsNumeral c) : isGap c = false := by
  by_contra gap
  simp only [isGap, Bool.not_eq_false, Bool.or_eq_true, beq_iff_eq] at gap
  unfold IsNumeral at numeral
  rcases gap with ((rfl | rfl) | rfl) | rfl <;> revert numeral <;> decide

theorem exists_writeWhole (n : Int) : ∃ c body, writeWhole n = c :: body ∧ IsNumeral c := by
  rw [writeWhole]
  by_cases negative : n < 0
  · exact ⟨'-', _, by rw [if_pos negative]; rfl, .inl rfl⟩
  · rw [if_neg negative, List.nil_append]
    cases digits : Numeric.digitsOfNat n.natAbs with
    | nil => exact absurd digits Nat.toDigits_ne_nil
    | cons d later =>
      have digit : d.isDigit = true :=
        Numeric.isDigit_of_mem_digitsOfNat (n := n.natAbs) (digits ▸ List.mem_cons_self)
      exact ⟨d, later, rfl, .inr digit⟩

/-- A sign or a digit begins a number. -/
theorem value?_of_isNumeral (numeral : IsNumeral c) (steps : Nat) (rest : List Char) :
    value? (steps + 1) (c :: rest) = number? (c :: rest) := by
  rw [value?, skipGap_cons (isGap_of_isNumeral numeral)]
  unfold IsNumeral at numeral
  split
  all_goals first
    | rfl
    | rename_i shape
      cases shape
      exact absurd numeral (by decide)

theorem value?_append (blank : IsGap gap) (steps : Nat) (text : List Char) :
    value? steps (gap ++ text) = value? steps text := by
  cases steps with
  | zero => rfl
  | succ steps => rw [value?, value?, skipGap_append blank]

/-- What a member holds is read in one step, in front of what ends it. -/
theorem value?_of_spells {v : Scalar} (spells : SpellsScalar written v) (ends : Ends rest)
    (steps : Nat) : value? (steps + 1) (written ++ rest) = some (ofScalar v, rest) := by
  cases spells with
  | null => rfl
  | yes => rfl
  | no => rfl
  | whole n =>
    obtain ⟨c, body, written, numeral⟩ := exists_writeWhole n
    have read := number?_writeWhole n ends
    rw [written, List.cons_append] at read ⊢
    rw [value?_of_isNumeral numeral, read]
    rfl
  | text spells =>
    obtain ⟨body, rfl, read⟩ := exists_string? spells
    rw [List.cons_append, value?, skipGap_cons rfl]
    simp only [read]
    rfl

/-! ### Members -/

/-- Members as they are read. -/
def ofMembers (members : Members) : List (Option String × Json) :=
  members.map fun m => (some m.1, ofScalar m.2)

/-- A member is read up to the comma or the brace behind it, and what follows is read in turn. -/
theorem members?_of_spellsMember {m : String × Scalar} (spells : SpellsMember written m)
    (closes : c = ',' ∨ c = '\x7d') (steps : Nat) (rest : List Char) :
    members? (steps + 2) (written ++ c :: rest) =
      if c = ',' then
        (members? (steps + 1) rest).map fun (members, rest) => ((some m.1, ofScalar m.2) :: members, rest)
      else some ([(some m.1, ofScalar m.2)], rest) := by
  cases spells with
  | @named gap₁ key gap₂ gap₃ written gap₄ name value before named colon after holds last =>
    obtain ⟨body, rfl, read⟩ := exists_string? named
    have value_read := value?_of_spells holds (ends_append_cons last closes rest) steps
    have shape : gap₁ ++ '"' :: body ++ gap₂ ++ ':' :: gap₃ ++ written ++ gap₄ ++ c :: rest =
        gap₁ ++ '"' :: (body ++ (gap₂ ++ ':' :: (gap₃ ++ (written ++ (gap₄ ++ c :: rest))))) := by
      simp
    rw [shape, members?, skipGap_append_cons before rfl]
    simp only [read, Option.bind_eq_bind, Option.bind_some, skipGap_append_cons colon (c := ':') rfl,
      value?_append after, value_read]
    rcases closes with rfl | rfl
    · rw [skipGap_append_cons last rfl, if_pos rfl]
      rfl
    · rw [skipGap_append_cons last rfl, if_neg (by decide)]
      rfl

/-- Members read back up to the brace that closes them. -/
theorem members?_of_spells {members : Members} (spells : SpellsMembers body members) {steps : Nat}
    (enough : members.length < steps) (rest : List Char) :
    members? steps (body ++ '\x7d' :: rest) = some (ofMembers members, rest) := by
  induction spells generalizing steps with
  | single only =>
    match steps, enough with
    | steps + 2, _ => rw [members?_of_spellsMember only (.inr rfl), if_neg (by decide)]; rfl
  | cons first later ih =>
    match steps, enough with
    | steps + 2, enough =>
      have others := ih (Nat.lt_of_succ_lt_succ enough)
      rw [List.append_assoc, List.cons_append, members?_of_spellsMember first (.inl rfl), if_pos rfl, others]
      rfl

theorem members?_append (blank : IsGap gap) (steps : Nat) (text : List Char) :
    members? steps (gap ++ text) = members? steps text := by
  cases steps with
  | zero => rfl
  | succ steps => rw [members?, members?, skipGap_append blank]

theorem exists_spellsMember {m : String × Scalar} (spells : SpellsMember written m) :
    ∃ gap tail, IsGap gap ∧ written = gap ++ '"' :: tail := by
  cases spells with
  | @named gap₁ _ _ _ _ _ _ _ before named =>
    obtain ⟨body, rfl, -⟩ := exists_string? named
    exact ⟨gap₁, _, before, by simp; rfl⟩

/-- Members begin with a quote, behind blanks. -/
theorem exists_spellsMembers {members : Members} (spells : SpellsMembers body members) :
    ∃ gap tail, IsGap gap ∧ body = gap ++ '"' :: tail := by
  cases spells with
  | single only => exact exists_spellsMember only
  | cons first later =>
    obtain ⟨gap, tail, blank, rfl⟩ := exists_spellsMember first
    exact ⟨gap, _, blank, by simp; rfl⟩

theorem length_le_of_spells {members : Members} (spells : SpellsMembers body members) :
    members.length ≤ body.length := by
  induction spells with
  | single only =>
    obtain ⟨gap, tail, -, rfl⟩ := exists_spellsMember only
    simp only [List.length_append, List.length_cons, List.length_nil]
    omega
  | cons first later ih =>
    simp only [List.length_append, List.length_cons]
    omega

/-! ### Objects -/

/-- An object is read as its members, and what is behind it is left. -/
theorem value?_of_spellsMembers {members : Members} (spells : SpellsMembers body members) {steps : Nat}
    (enough : members.length < steps) (rest : List Char) :
    value? (steps + 1) ('\x7b' :: (body ++ '\x7d' :: rest)) =
      some (object (ofMembers members), rest) := by
  have read := members?_of_spells spells enough rest
  obtain ⟨gap, tail, blank, rfl⟩ := exists_spellsMembers spells
  rw [List.append_assoc, members?_append blank] at read
  rw [value?, skipGap_cons rfl, List.append_assoc]
  simp only [List.cons_append, skipGap_append_cons blank (c := '"') rfl] at read ⊢
  exact congrArg (Option.map fun (members, rest) => (object members, rest)) read

/-- A text of an object is read as its members. -/
theorem read?_of_spells {text : String} {members : Members}
    (spells : SpellsObject text.toList members) : read? text = some (object (ofMembers members)) := by
  rw [read?, ← String.length_toList]
  generalize text.toList = chars at spells
  cases spells with
  | @empty gap₁ gap₂ gap₃ before inside after =>
    have read : value? (2 * (gap₁ ++ '\x7b' :: gap₂ ++ '\x7d' :: gap₃).length + 2)
        (gap₁ ++ '\x7b' :: gap₂ ++ '\x7d' :: gap₃) = some (object [], gap₃) := by
      rw [List.append_assoc, value?_append before, List.cons_append, value?, skipGap_cons rfl]
      simp only [skipGap_append_cons inside (c := '\x7d') rfl]
    rw [read]
    simp [skipGap_eq_nil after, ofMembers]
  | @members gap₁ body gap₂ _ before all after =>
    have enough : members.length < 2 * (gap₁ ++ '\x7b' :: body ++ '\x7d' :: gap₂).length + 1 := by
      have := length_le_of_spells all
      simp only [List.length_append, List.length_cons]
      omega
    have read := value?_of_spellsMembers all enough gap₂
    rw [← value?_append before, ← List.cons_append, ← List.append_assoc] at read
    rw [read]
    simp [skipGap_eq_nil after]

end TermProximity.Json
