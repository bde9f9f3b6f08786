import TermProximity.Call
import TermProximity.Proofs.Call.Cutting

/-!
# Blame — the bytes of which complaints speak

Every reader of a form complains of a token that it was given or of the end of the text
(`Form.Blames`), and every token begins at a character.  So wherever the notation is broken, the
byte offset of the failure is one at which a character begins, or the end.

* `blames_argumentList`, `blames_ofTokens`: by the recursion of the readers, what they complain of;
* `Call.isValid_of_parse_eq_error`: the byte of a failure lies between two characters;
* `Call.tokens_and_failures_stand_in_text`: how a text is cut, up to the character at fault.
-/

namespace TermProximity.Call

/-! ### Forms -/

namespace Form

/-- A failure that speaks of a byte speaks of the end of the text or of where a token begins. -/
def Blames (stop : Nat) (ts : List Token) (failure : Failure) : Prop :=
  ∀ byte fault, failure = .malformed byte fault → byte = stop ∨ ∃ t ∈ ts, t.byte = byte

variable {stop : Nat} {ts ts' rest : List Token} {failure : Failure}

theorem Blames.of_subset (h : Blames stop ts failure) (within : ts ⊆ ts') :
    Blames stop ts' failure := by
  intro byte fault eq
  rcases h byte fault eq with at_end | ⟨t, mem, at_token⟩
  · exact .inl at_end
  · exact .inr ⟨t, within mem, at_token⟩

theorem blames_complain (what : Expected) (ts : List Token) :
    Blames stop ts (complain stop what ts) := by
  intro byte fault eq
  cases ts with
  | nil =>
    cases eq
    exact .inl rfl
  | cons t rest =>
    cases eq
    exact .inr ⟨t, List.mem_cons_self, rfl⟩

theorem blames_functionName (failed : functionName stop ts = .error failure) :
    Blames stop ts failure := by
  unfold functionName at failed
  split at failed
  · contradiction
  · cases failed
    exact blames_complain _ ts

theorem blames_qualifiedName (failed : qualifiedName stop ts = .error failure) :
    Blames stop ts failure := by
  unfold qualifiedName at failed
  split at failed
  · rename_i first
    cases failed
    exact blames_functionName first
  · rename_i first
    obtain rfl := (functionName_eq_ok_iff stop).1 first
    split at failed
    · exact (blames_functionName failed).of_subset
        (List.subset_cons_of_subset _ (List.subset_cons_self _ _))
    · cases failed
      intro byte fault eq
      contradiction
  · contradiction

theorem blames_groupNames (failed : groupNames stop ts = .error failure) :
    Blames stop ts failure := by
  fun_induction groupNames stop ts with
  | case1 =>
    cases failed
    exact blames_complain _ []
  | case2 t rest =>
    cases failed
    exact blames_complain _ (t :: rest)
  | case3 t text zone byte more ih =>
    exact (ih (map_eq_error_iff.1 failed)).of_subset
      (List.subset_cons_of_subset _ (List.subset_cons_self _ _))
  | case4 => contradiction
  | case5 t text zone ts =>
    cases failed
    exact (blames_complain _ ts).of_subset (List.subset_cons_self _ _)

theorem blames_argument (failed : argument stop ts = .error failure) : Blames stop ts failure := by
  unfold argument at failed
  split at failed
  · contradiction
  · contradiction
  · contradiction
  · exact (blames_groupNames (map_eq_error_iff.1 failed)).of_subset (List.subset_cons_self _ _)
  · cases failed
    exact blames_complain _ ts

theorem subset_of_argument {a : Argument} (read : argument stop ts = .ok (a, rest)) : rest ⊆ ts := by
  obtain ⟨used, rfl, -⟩ := (argument_eq_ok_iff stop).1 read
  exact List.subset_append_right _ _

theorem blames_argumentList (failed : argumentList stop ts = .error failure) :
    Blames stop ts failure := by
  fun_induction argumentList stop ts with
  | case1 ts e first =>
    cases failed
    exact blames_argument first
  | case2 ts a byte more first ih =>
    exact (ih (map_eq_error_iff.1 failed)).of_subset
      fun t mem => subset_of_argument first (List.mem_cons_of_mem _ mem)
  | case3 => contradiction
  | case4 ts a rest _ _ first =>
    cases failed
    exact (blames_complain _ rest).of_subset (subset_of_argument first)

theorem blames_parenthesised (failed : parenthesised stop ts = .error failure) :
    Blames stop ts failure := by
  unfold parenthesised at failed
  split at failed
  · contradiction
  · exact (blames_argumentList failed).of_subset (List.subset_cons_self _ _)
  · cases failed
    exact blames_complain _ ts

/-- Whatever is wrong with the shape of a call, a token is blamed or the end of the text. -/
theorem blames_ofTokens (failed : ofTokens stop ts = .error failure) : Blames stop ts failure := by
  unfold ofTokens at failed
  rcases bind_eq_error_iff.1 failed with unnamed | ⟨⟨⟨function, byte⟩, rest⟩, named, later⟩
  · exact blames_qualifiedName unnamed
  have within : rest ⊆ ts := by
    rcases (qualifiedName_eq_ok_iff stop).1 named with ⟨rfl, -⟩ | ⟨content, colon, rfl⟩
    · exact List.subset_cons_self _ _
    · exact List.subset_cons_of_subset _ (List.subset_cons_of_subset _ (List.subset_cons_self _ _))
  rcases bind_eq_error_iff.1 later with unlisted | ⟨⟨as, after⟩, listed, last⟩
  · exact (blames_parenthesised unlisted).of_subset within
  obtain ⟨used, rfl, -⟩ := (parenthesised_eq_ok_iff stop).1 listed
  cases after with
  | nil => contradiction
  | cons t more =>
    cases last
    intro byte fault eq
    cases eq
    exact .inr ⟨t, within (List.mem_append_right _ List.mem_cons_self), rfl⟩

end Form

/-! ### Texts -/

theorem utf8ByteSize_ofList (text : List Char) :
    (String.ofList text).utf8ByteSize = byteLength text := by
  induction text with
  | nil => rfl
  | cons c rest ih =>
    rw [byteLength_cons, ← ih, ← List.singleton_append, String.ofList_append,
      String.utf8ByteSize_append, ← String.singleton_eq_ofList, String.utf8ByteSize_singleton]

/-- Where some characters of a text are over, a character begins, or the text ends. -/
theorem isValid_byteLength {text : String} {before after : List Char}
    (eq : text.toList = before ++ after) : (String.Pos.Raw.mk (byteLength before)).IsValid text := by
  rw [String.Pos.Raw.isValid_iff_exists_append]
  refine ⟨String.ofList before, String.ofList after, ?_, ?_⟩
  · rw [← String.ofList_append, ← eq, String.ofList_toList]
  · rw [← utf8ByteSize_ofList]
    rfl

variable {text mapVariable : String} {byte : Nat} {fault : SyntaxFault}

/-- The byte offset of a failure is one at which a character begins, or the end of the text. -/
theorem isValid_of_parse_eq_error (failed : parse text mapVariable = .error (.malformed byte fault)) :
    (String.Pos.Raw.mk byte).IsValid text := by
  unfold parse at failed
  rcases bind_eq_error_iff.1 failed with stuck | ⟨ts, read, later⟩
  · obtain ⟨before, c, after, fault', eq, -, same, -⟩ := exists_cut_of_tokensFrom_eq_error stuck
    cases same
    rw [Nat.zero_add]
    exact isValid_byteLength eq
  rcases bind_eq_error_iff.1 later with misshapen | ⟨form, -, meaningless⟩
  · rcases Form.blames_ofTokens misshapen byte fault rfl with rfl | ⟨t, mem, rfl⟩
    · exact String.Pos.Raw.isValid_rawEndPos
    · obtain ⟨before, after, eq, at_token⟩ := (tokensFrom_eq_ok_iff.1 read).exists_of_mem mem
      rw [at_token, Nat.zero_add]
      exact isValid_byteLength eq
  · cases resolved : form.resolve mapVariable with
    | error e => rw [resolved] at meaningless; cases meaningless
    | ok call => rw [resolved] at meaningless; cases meaningless

/--
A text has given tokens just when it can be cut into them.  If it has none, it fails at a character
before which there are some; and a call that is malformed is blamed on a byte at which a character
begins, or on the end of the text.
-/
theorem tokens_and_failures_stand_in_text :
    (∀ text ts, tokens text = .ok ts ↔ Cut 0 text.toList ts) ∧
      (∀ text failure, tokens text = .error failure → ∃ before c after fault,
        text.toList = before ++ c :: after ∧ failure = .malformed (byteLength before) fault ∧
          ∃ ts, tokens (String.ofList before) = .ok ts) ∧
      ∀ text mapVariable byte fault, parse text mapVariable = .error (.malformed byte fault) →
        byte ≤ text.utf8ByteSize ∧ (String.Pos.Raw.mk byte).IsValid text := by
  refine ⟨fun text ts => tokensFrom_eq_ok_iff, fun text failure failed => ?_,
    fun text mapVariable byte fault failed => ?_⟩
  · obtain ⟨before, c, after, fault, eq, -, same, ts, cut⟩ :=
      exists_cut_of_tokensFrom_eq_error failed
    rw [Nat.zero_add] at same
    refine ⟨before, c, after, fault, eq, same, ts, ?_⟩
    rw [tokens, String.toList_ofList]
    exact tokensFrom_eq_ok_iff.2 cut
  · have valid := isValid_of_parse_eq_error failed
    exact ⟨valid.le_utf8ByteSize, valid⟩

/-- Behind a letter of two bytes: a colon, a lone bar, and a comma where a call should begin. -/
theorem tokens_and_failures_stand_in_text_sample :
    Cut 0 "é :".toList [⟨.name "é", 0⟩, ⟨.colon, 3⟩] ∧
      (∃ before c after fault, "é |".toList = before ++ c :: after ∧
        Failure.malformed 3 .loneBar = .malformed (byteLength before) fault ∧
          ∃ ts, tokens (String.ofList before) = .ok ts) ∧
      3 ≤ "é ,".utf8ByteSize ∧ (String.Pos.Raw.mk 3).IsValid "é ," := by
  refine ⟨(tokens_and_failures_stand_in_text.1 _ _).1 ?read,
    tokens_and_failures_stand_in_text.2.1 _ _ ?stuck,
    tokens_and_failures_stand_in_text.2.2 _ "offsets" _ (.expected .openParen (some .comma))
      ?misshapen⟩
  case read => with_unfolding_all rfl
  case stuck => with_unfolding_all rfl
  case misshapen => with_unfolding_all rfl

end TermProximity.Call
