import TermProximity.Json.Grammar

/-!
# Writing JSON — what is written spells the members it is written for

* `spellsChar_writeChar`: a character is written by one of its spellings;
* `spellsObject_toText`: the text of members is the text of an object of them.
-/

namespace TermProximity.Json

theorem spellsChar_writeChar (c : Char) : SpellsChar (writeChar c) c := by
  unfold writeChar
  split
  · rename_i letter written found
    have mem := List.mem_of_find?_eq_some found
    obtain rfl : written = c := by simpa using List.find?_some found
    exact .short mem
  · rename_i not_short
    split
    · rename_i control
      have keeps : ∀ d < 16, Text.hexValue? (id d.digitChar) = some d := Text.hexValue?_digitChar
      have short : (Text.hexDigits c.toNat).length ≤ 4 := Text.length_hexDigits_le_four (by omega)
      have unit := Text.writesHex_leftpad keeps short
      rw [List.map_id] at unit
      exact .unit unit
    · rename_i visible
      have ne : ∀ e ∈ shortEscapes, e.2 ≠ c := by
        intro e mem
        simpa using List.find?_eq_none.1 not_short e mem
      exact .itself (Nat.le_of_not_lt visible) (ne ('"', '"') (by decide)).symm
        (ne ('\\', '\\') (by decide)).symm

theorem spellsText_flatMap_writeChar (text : List Char) :
    SpellsText (text.flatMap writeChar) text := by
  induction text with
  | nil => exact .nil
  | cons c text ih => exact .cons (spellsChar_writeChar c) ih

theorem spellsString_writeString (text : String) : SpellsString (writeString text) text :=
  .quoted (spellsText_flatMap_writeChar text.toList)

theorem spellsScalar_writeScalar (v : Scalar) : SpellsScalar (writeScalar v) v := by
  cases v with
  | null => exact .null
  | truth value =>
    cases value
    · exact .no
    · exact .yes
  | whole n => exact .whole n
  | text value => exact .text (spellsString_writeString value)

theorem isGap_nil : IsGap [] := List.forall_mem_nil _

/-- A member is written without blanks. -/
theorem spellsMember_write (name : String) (v : Scalar) :
    SpellsMember (writeString name ++ ':' :: writeScalar v) (name, v) := by
  have spells := SpellsMember.named isGap_nil (spellsString_writeString name) isGap_nil isGap_nil
    (spellsScalar_writeScalar v) isGap_nil
  rwa [List.nil_append, List.append_nil, List.append_nil, List.append_assoc, List.cons_append,
    List.nil_append] at spells

theorem spellsMembers_writeMembers (m : String × Scalar) (members : Members) :
    SpellsMembers (writeMembers (m :: members)) (m :: members) := by
  induction members generalizing m with
  | nil => exact .single (spellsMember_write m.1 m.2)
  | cons next later ih => exact .cons (spellsMember_write m.1 m.2) (ih next)

/-- The text of members is the text of an object of them. -/
theorem spellsObject_toText (members : Members) : SpellsObject members.toText.toList members := by
  rw [Members.toText, String.toList_ofList]
  cases members with
  | nil => exact .empty isGap_nil isGap_nil isGap_nil
  | cons m members => exact .members isGap_nil (spellsMembers_writeMembers m members) isGap_nil

end TermProximity.Json
