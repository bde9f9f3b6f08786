import TermProximity.Call.Printer
import TermProximity.Proofs.Call.Lexing
import TermProximity.Proofs.Call.Reading
import TermProximity.Proofs.Numeric.Shortest

/-!
# Printing — the tokens of a written call

A call is written so that no part of it runs into the next one: what follows a name or a numeral is
a mark or a blank.  So its text is cut into the words of its arguments and the marks between them,
and these make the form that was meant.
-/

namespace TermProximity.Call

open Text Numeric

/-! ### The words of an argument -/

/-- A text that neither a name nor a numeral in front of it reaches into. -/
def EndsWord (rest : List Char) : Prop := ∀ c ∈ rest.head?, isNameRest c = false

/-- An argument as it is written. -/
def Argument.written : Argument → List Char
  | name text _ | numeral text _ => text.toList
  | literal text _ => quote text
  | group names _ => '(' :: joinWith " || ".toList (names.map quote) ++ [')']

/-- The words of an argument as it is written. -/
def Argument.words : Argument → List Word
  | name text _ => [.name text]
  | literal text _ => [.literal text]
  | numeral text _ => [.numeral text]
  | group names _ => .openParen :: ([.bars].intercalate (names.map ([.literal ·])) ++ [.closeParen])

/-- What can be written as an argument. -/
def Argument.IsWritable : Argument → Prop
  | name text _ => IsName text.toList
  | literal .. => True
  | numeral text _ => IsNumeral text.toList
  | group names _ => names ≠ []

section Words

variable {rest : List Char} {words : List Word}

theorem endsWord_cons {c : Char} (other : isNameRest c = false) (rest : List Char) :
    EndsWord (c :: rest) := by
  intro d same
  cases same
  exact other

theorem EndsWord.ends_numeral (h : EndsWord rest) :
    ∀ c ∈ rest.head?, c.isDigit = false ∧ c ≠ '.' := by
  intro c first
  have other := h c first
  unfold isNameRest at other
  simp only [Bool.or_eq_false_iff, beq_eq_false_iff_ne] at other
  refine ⟨?_, other.2⟩
  rw [← Bool.not_eq_true]
  intro digit
  rw [isNumeral_of_isDigit digit] at other
  exact absurd other.1.1.2 (by decide)

theorem spells_quoted (text : List Char) :
    Spells '\'' (text.flatMap fun c => if c = '\'' ∨ c = '\\' then ['\\', c] else [c]) text := by
  induction text with
  | nil => exact .nil
  | cons c text ih =>
    rw [List.flatMap_cons]
    by_cases special : c = '\'' ∨ c = '\\'
    · rw [if_pos special]
      exact .marked c ih
    · rw [if_neg special]
      obtain ⟨not_quote, not_mark⟩ := not_or.1 special
      exact .plain not_quote not_mark ih

theorem lexes_quote (text : String) (h : Lexes rest words) :
    Lexes (quote text ++ rest) (.literal text :: words) := by
  have read := lexes_literal (.inl rfl) (spells_quoted text.toList) h
  rw [String.ofList_toList] at read
  unfold quote
  rw [List.append_assoc]
  exact read

/-- Two bars between blanks, as between the zones of a group. -/
theorem lexes_bars (rest : List Char) (words : List Word) (h : Lexes rest words) :
    EndsWord (" || ".toList ++ rest) ∧ Lexes (" || ".toList ++ rest) (.bars :: words) := by
  have text : " || ".toList = [' ', '|', '|', ' '] := by decide
  have blank : isBlank ' ' = true := by decide
  have marked := lexes_mark .bars rfl (lexes_blank blank h)
  rw [text]
  exact ⟨endsWord_cons (by decide) _, lexes_blank blank marked⟩

/-- A comma and a blank, as between arguments. -/
theorem lexes_comma (rest : List Char) (words : List Word) (h : Lexes rest words) :
    EndsWord (", ".toList ++ rest) ∧ Lexes (", ".toList ++ rest) (.comma :: words) := by
  have text : ", ".toList = [',', ' '] := by decide
  have blank : isBlank ' ' = true := by decide
  have marked := lexes_mark .comma rfl (lexes_blank blank h)
  rw [text]
  exact ⟨endsWord_cons (by decide) _, marked⟩

/-- Parts with a separator between neighbours are cut at the separators. -/
theorem lexes_joinWith {α : Type} {separator : List Char} {mark : Word} (written : α → List Char)
    (spelled : α → List Word) {parts : List α} (some_part : parts ≠ [])
    (separates : ∀ rest words, Lexes rest words →
      EndsWord (separator ++ rest) ∧ Lexes (separator ++ rest) (mark :: words))
    (part : ∀ a ∈ parts, ∀ rest words, EndsWord rest → Lexes rest words →
      Lexes (written a ++ rest) (spelled a ++ words))
    (ends : EndsWord rest) (h : Lexes rest words) :
    Lexes (joinWith separator (parts.map written) ++ rest)
      ([mark].intercalate (parts.map spelled) ++ words) := by
  induction parts with
  | nil => contradiction
  | cons a others ih =>
    cases others with
    | nil =>
      rw [List.map_singleton, List.map_singleton, List.intercalate_singleton]
      exact part a List.mem_cons_self rest words ends h
    | cons b others =>
      have later := ih (List.cons_ne_nil b others) fun x mem => part x (List.mem_cons_of_mem a mem)
      obtain ⟨apart, marked⟩ := separates _ _ later
      rw [List.map_cons, List.map_cons, List.map_cons, List.map_cons, List.intercalate_cons_cons,
        joinWith, List.append_assoc, List.append_assoc, List.append_assoc, List.append_assoc]
      · exact part a List.mem_cons_self _ _ apart marked
      · simp

theorem lexes_written {a : Argument} (writable : a.IsWritable) (ends : EndsWord rest)
    (h : Lexes rest words) : Lexes (a.written ++ rest) (a.words ++ words) := by
  cases a with
  | name text byte =>
    have read := lexes_name writable ends h
    rw [String.ofList_toList] at read
    exact read
  | literal text byte => exact lexes_quote text h
  | numeral text byte =>
    have read := lexes_numeral writable ends.ends_numeral h
    rw [String.ofList_toList] at read
    exact read
  | group names byte =>
    have closed : Lexes (')' :: rest) (.closeParen :: words) := lexes_mark .closeParen rfl h
    have listed := lexes_joinWith quote ([.literal ·]) writable lexes_bars
      (fun name _ _ _ _ h => lexes_quote name h) (endsWord_cons (by decide) rest) closed
    have opened := lexes_mark .openParen rfl listed
    simp only [Argument.written, Argument.words, List.append_assoc, List.cons_append]
    exact opened

end Words

/-! ### The form of written arguments -/

/-- An argument as if it began at the given byte offset. -/
def Argument.place (byte : Nat) : Argument → Argument
  | name text _ => .name text byte
  | literal text _ => .literal text byte
  | numeral text _ => .numeral text byte
  | group names _ => .group names byte

section Forms

variable {ts : List Token}

theorem exists_token_of_words {w : Word} {words : List Word} (h : ts.map Token.word = w :: words) :
    ∃ byte more, ts = ⟨w, byte⟩ :: more ∧ more.map Token.word = words := by
  obtain ⟨⟨w', byte⟩, more, rfl, rfl, later⟩ := List.map_eq_cons_iff.1 h
  exact ⟨byte, more, rfl, later⟩

theorem isGroup_of_words {names : List String} (some_name : names ≠ [])
    (words : ts.map Token.word = [.bars].intercalate (names.map ([.literal ·])) ++ [.closeParen]) :
    IsGroup ts names := by
  induction names generalizing ts with
  | nil => contradiction
  | cons name others ih =>
    cases others with
    | nil =>
      rw [List.map_singleton, List.intercalate_singleton] at words
      obtain ⟨at_name, more, rfl, closed⟩ := exists_token_of_words words
      obtain ⟨byte, more, rfl, ended⟩ := exists_token_of_words closed
      obtain rfl := List.map_eq_nil_iff.1 ended
      exact .last (.inr rfl) byte
    | cons name' others =>
      rw [List.map_cons, List.map_cons, List.intercalate_cons_cons] at words
      obtain ⟨at_name, more, rfl, next⟩ := exists_token_of_words words
      obtain ⟨byte, more, rfl, later⟩ := exists_token_of_words next
      exact .more (.inr rfl) byte (ih (List.cons_ne_nil _ _) later)

theorem isArgument_of_words {a : Argument} (writable : a.IsWritable)
    (words : ts.map Token.word = a.words) : ∃ byte, IsArgument ts (a.place byte) := by
  have alone {w : Word} (h : ts.map Token.word = [w]) : ∃ byte, ts = [⟨w, byte⟩] := by
    obtain ⟨byte, more, rfl, ended⟩ := exists_token_of_words h
    obtain rfl := List.map_eq_nil_iff.1 ended
    exact ⟨byte, rfl⟩
  cases a with
  | name text =>
    obtain ⟨byte, rfl⟩ := alone words
    exact ⟨byte, .name text byte⟩
  | literal text =>
    obtain ⟨byte, rfl⟩ := alone words
    exact ⟨byte, .literal text byte⟩
  | numeral text =>
    obtain ⟨byte, rfl⟩ := alone words
    exact ⟨byte, .numeral text byte⟩
  | group names =>
    obtain ⟨byte, more, rfl, listed⟩ := exists_token_of_words words
    exact ⟨byte, .group byte (isGroup_of_words writable listed)⟩

theorem Argument.place_place (a : Argument) (byte byte' : Nat) :
    (a.place byte).place byte' = a.place byte' := by
  cases a <;> rfl

/-- Tokens with the words of arguments make these arguments, wherever each of them begins. -/
theorem isArguments_of_words {as : List Argument} (some_argument : as ≠ [])
    (writable : ∀ a ∈ as, a.IsWritable)
    (words : ts.map Token.word = [.comma].intercalate (as.map Argument.words) ++ [.closeParen]) :
    ∃ placed, IsArguments ts placed ∧ placed.map (·.place 0) = as.map (·.place 0) := by
  induction as generalizing ts with
  | nil => contradiction
  | cons a others ih =>
    obtain ⟨here, later⟩ := List.forall_mem_cons.1 writable
    cases others with
    | nil =>
      rw [List.map_singleton, List.intercalate_singleton] at words
      obtain ⟨own, more, rfl, own_words, closed⟩ := List.map_eq_append_iff.1 words
      obtain ⟨byte, more, rfl, ended⟩ := exists_token_of_words closed
      obtain rfl := List.map_eq_nil_iff.1 ended
      obtain ⟨at_a, spelled⟩ := isArgument_of_words here own_words
      exact ⟨[a.place at_a], .last byte spelled, by simp [Argument.place_place]⟩
    | cons b others =>
      rw [List.map_cons, List.map_cons, List.intercalate_cons_cons, List.append_assoc,
        List.append_assoc] at words
      obtain ⟨own, more, rfl, own_words, next⟩ := List.map_eq_append_iff.1 words
      obtain ⟨byte, more, rfl, others_words⟩ := exists_token_of_words next
      obtain ⟨at_a, spelled⟩ := isArgument_of_words here own_words
      obtain ⟨placed, listed, same⟩ := ih (List.cons_ne_nil b others) later others_words
      refine ⟨a.place at_a :: placed, .more byte spelled listed, ?_⟩
      rw [List.map_cons, same, Argument.place_place]
      rfl

end Forms

/-! ### The form of a written call -/

/-- The function that asks for an arrangement. -/
def functionOf : Arrangement → Function
  | .within _ => .within
  | .adjacent => .adjacent
  | .phrase => .phrase
  | .scoredPhrase _ => .scoredPhrase

theorem name_functionOf (a : Arrangement) : (functionOf a).name = a.name := by
  cases a <;> rfl

/-- The argument that a call writes for a filter. -/
def zonesArguments : Zone.Filter → List Argument
  | .all => []
  | .named name => [.literal name 0]
  | .anyOf names => [.group names.entries 0]

/-- The argument that a call writes for the number of an arrangement. -/
def numberArguments : Arrangement → List Argument
  | .within distance => [.numeral (String.ofList (digitsOfNat distance.toNat)) 0]
  | .scoredPhrase threshold => [.numeral (String.ofList threshold.write) 0]
  | .adjacent | .phrase => []

/-- The arguments of a call as it is written. -/
def arguments (c : Call) : List Argument :=
  zonesArguments c.request.zones ++ (numberArguments c.request.arrangement ++
    .name c.mapVariable 0 :: c.request.terms.map (.literal · 0))

theorem argumentTexts_eq (c : Call) : c.argumentTexts = c.arguments.map Argument.written := by
  have zones : zonesText c.request.zones =
      (zonesArguments c.request.zones).map Argument.written := by
    cases c.request.zones <;> rfl
  have number : numberText c.request.arrangement =
      (numberArguments c.request.arrangement).map Argument.written := by
    cases c.request.arrangement <;>
      simp only [numberText, numberArguments, Argument.written, String.toList_ofList, List.map_cons,
        List.map_nil]
  have terms : c.request.terms.map quote =
      (c.request.terms.map (Argument.literal · 0)).map Argument.written := by
    rw [List.map_map]
    rfl
  unfold argumentTexts arguments
  rw [zones, number, terms]
  simp only [List.map_append, List.map_cons, List.append_assoc, List.singleton_append,
    Argument.written]

theorem place_arguments (c : Call) : c.arguments.map (·.place 0) = c.arguments := by
  have zones : (zonesArguments c.request.zones).map (·.place 0) =
      zonesArguments c.request.zones := by
    cases c.request.zones <;> rfl
  have number : (numberArguments c.request.arrangement).map (·.place 0) =
      numberArguments c.request.arrangement := by
    cases c.request.arrangement <;> rfl
  unfold arguments
  rw [List.map_append, List.map_append, List.map_cons, zones, number, List.map_map]
  rfl

theorem isNumeral_digitsOfNat (n : Nat) : IsNumeral (digitsOfNat n) := by
  have digits : ∀ c ∈ digitsOfNat n, c.isDigit = true := fun c => isDigit_of_mem_digitsOfNat
  have some_digit : digitsOfNat n ≠ [] := Nat.toDigits_ne_nil
  obtain ⟨c, mem⟩ := List.exists_mem_of_ne_nil _ some_digit
  exact ⟨[], _, rfl, .inl rfl, .inl digits, c, mem, digits c mem⟩

theorem isNumeral_write (d : Decimal) : IsNumeral d.write := by
  have whole_digits : ∀ c ∈ d.wholeDigits, c.isDigit = true := fun c => isDigit_of_mem_digitsOfNat
  have some_digit : d.wholeDigits ≠ [] := Nat.toDigits_ne_nil
  obtain ⟨c, mem⟩ := List.exists_mem_of_ne_nil _ some_digit
  refine ⟨if d.negative then ['-'] else [], d.wholeDigits ++ d.pointed, d.write_eq, ?_, ?_, c,
    List.mem_append_left _ mem, whole_digits c mem⟩
  · cases d.negative with
    | true => exact .inr (.inl rfl)
    | false => exact .inl rfl
  · rcases d.pointed_eq with ⟨none_after, -⟩ | pointed
    · rw [none_after, List.append_nil]
      exact .inl whole_digits
    · rw [pointed]
      exact .inr ⟨_, _, rfl, whole_digits, fun c => Decimal.isDigit_of_mem_placeDigits⟩

theorem isFinite_of_checkNumber {threshold : Score}
    (sensible : Request.checkNumber (.scoredPhrase threshold) = .ok ()) :
    threshold.isFinite = true := by
  by_contra infinite
  rw [Request.checkNumber, if_neg infinite] at sensible
  contradiction

theorem isWritable_numeral {text : List Char} (h : IsNumeral text) :
    (Argument.numeral (String.ofList text) 0).IsWritable := by
  have back : (String.ofList text).toList = text := String.toList_ofList
  rw [← back] at h
  exact h

/-- A call of a sensible request can be written, if its variable is a name. -/
theorem isWritable_of_mem_arguments {c : Call} (named : IsName c.mapVariable.toList)
    (sensible : c.request.check = .ok ()) : ∀ a ∈ c.arguments, a.IsWritable := by
  obtain ⟨number, -, zones⟩ := Request.check_eq_ok_iff.1 sensible
  intro a mem
  unfold arguments at mem
  rcases List.mem_append.1 mem with mem | mem
  · cases filter : c.request.zones with
    | all => rw [filter] at mem; contradiction
    | named name =>
      rw [filter] at mem
      obtain rfl := List.mem_singleton.1 mem
      trivial
    | anyOf names =>
      rw [filter] at mem zones
      obtain rfl := List.mem_singleton.1 mem
      exact (Zone.Filter.check_anyOf.1 zones).1
  rcases List.mem_append.1 mem with mem | mem
  · cases arrangement : c.request.arrangement with
    | within distance =>
      rw [arrangement] at mem
      obtain rfl := List.mem_singleton.1 mem
      exact isWritable_numeral (isNumeral_digitsOfNat _)
    | scoredPhrase threshold =>
      rw [arrangement] at mem number
      obtain rfl := List.mem_singleton.1 mem
      rw [Score.write_of_isFinite (isFinite_of_checkNumber number)]
      exact isWritable_numeral (isNumeral_write _)
    | adjacent => rw [arrangement] at mem; contradiction
    | phrase => rw [arrangement] at mem; contradiction
  rcases List.mem_cons.1 mem with rfl | mem
  · exact named
  · obtain ⟨term, -, rfl⟩ := List.mem_map.1 mem
    trivial

theorem lexes_render {c : Call} (writable : ∀ a ∈ c.arguments, a.IsWritable) :
    Lexes c.render (.name contentNamespace :: .colon :: .name c.request.arrangement.name ::
      .openParen :: ([.comma].intercalate (c.arguments.map Argument.words) ++ [.closeParen])) := by
  have content : IsName contentNamespace.toList := isName_of_isIdentifier (by decide)
  have function : IsName c.request.arrangement.name.toList := by
    rw [← name_functionOf]
    cases functionOf c.request.arrangement <;> exact isName_of_isIdentifier (by decide)
  have some_argument : c.arguments ≠ [] := by simp [arguments]
  have closed : Lexes [')'] [.closeParen] := lexes_mark .closeParen rfl lexes_nil
  have listed := lexes_joinWith Argument.written Argument.words some_argument lexes_comma
    (fun a mem _ _ ends h => lexes_written (writable a mem) ends h) (endsWord_cons (by decide) [])
    closed
  have opened := lexes_mark .openParen rfl listed
  have called := lexes_name function (endsWord_cons (by decide) _) opened
  have qualified := lexes_name content (endsWord_cons (by decide) _) (lexes_mark .colon rfl called)
  rw [String.ofList_toList, String.ofList_toList] at qualified
  unfold render
  rw [argumentTexts_eq]
  simp only [List.append_assoc, List.cons_append]
  exact qualified

/-- The text of a sensible call is cut into the tokens of a form with the arguments of the call. -/
theorem exists_isForm {c : Call} (named : IsName c.mapVariable.toList)
    (sensible : c.request.check = .ok ()) :
    ∃ ts form, tokens c.toText = .ok ts ∧ IsForm ts form ∧
      form.function = c.request.arrangement.name ∧ form.arguments.map (·.place 0) = c.arguments := by
  have writable := isWritable_of_mem_arguments named sensible
  obtain ⟨ts, cut, words⟩ := lexes_render writable 0
  obtain ⟨content, more, rfl, from_colon⟩ := exists_token_of_words words
  obtain ⟨colon, more, rfl, from_name⟩ := exists_token_of_words from_colon
  obtain ⟨byte, more, rfl, from_paren⟩ := exists_token_of_words from_name
  obtain ⟨opened, more, rfl, listed⟩ := exists_token_of_words from_paren
  have some_argument : c.arguments ≠ [] := by simp [arguments]
  obtain ⟨placed, spelled, same⟩ := isArguments_of_words some_argument writable listed
  refine ⟨_, ⟨_, byte, placed⟩, ?_, .qualified content colon _ byte (.some opened spelled), rfl, ?_⟩
  · rw [tokens, toText, String.toList_ofList]
    exact cut
  · exact same.trans c.place_arguments

end TermProximity.Call
