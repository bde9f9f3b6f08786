import TermProximity.Json.Forms
import TermProximity.Proofs.Json.Reading
import TermProximity.Proofs.Json.Writing
import TermProximity.Proofs.Record

/-!
# JSON forms — positions, zones and spans come back from their texts

What a library for JSON makes of these records is decided by their shapes: of a position the weight is
not written where there is none, and each field that may be missing has the standard that its absence
means.

* `implements_library`: `Json.library` is such a library;
* `records_read_back`: with any such library the records read back from what is written for them, and a
  position from every text of its members in any order, less any that say no more than their absence.
-/

namespace TermProximity

namespace Json

/-! ### A library for JSON -/

theorem named?_ofMembers (members : Members) :
    named? (ofMembers members) = some (members.map fun m => (m.1, ofScalar m.2)) := by
  induction members with
  | nil => rfl
  | cons m members ih =>
    rw [named?, ofMembers] at ih ⊢
    rw [List.map_cons, List.mapM_cons, ih]
    rfl

/-- `Json.library` writes in the format, and reads everything that is written in it. -/
theorem implements_library : library.Implements format where
  writes a _ := ⟨_, rfl, spellsObject_toText (Record.written a)⟩
  reads a members text _ said spells := by
    have read : read? text = some (object (ofMembers members)) := read?_of_spells spells
    show (read? text).bind record? = some a
    rw [read, Option.bind_some, record?, named?_ofMembers, Option.bind_some]
    exact Record.ofMembers?_of_saidBy ofScalar scalar?_ofScalar said

/-! ### What fields hold -/

theorem minValue_eq : Int64.minValue.toInt = -0x8000000000000000 := rfl

theorem maxValue_eq : Int64.maxValue.toInt = 0x7fffffffffffffff := rfl

theorem holds_ofWord (n : UInt32) : Holds (.ofWord n) := by
  have small : n.toNat < 0x100000000 := n.toNat_lt
  show Int64.minValue.toInt ≤ (n.toNat : Int) ∧ (n.toNat : Int) < UInt64.size
  rw [minValue_eq, UInt64.size]
  omega

theorem holds_ofWeight (w : Option Weight) : Holds (.ofWeight w) := by
  cases w with
  | none => trivial
  | some w =>
    refine ⟨w.minValue_le_toInt, ?_⟩
    have most := w.toInt_le
    rw [maxValue_eq] at most
    rw [UInt64.size]
    omega

end Json

/-! ### Shapes -/

namespace Position

/-- The members of a position, one for each field. -/
def members (p : Position) : Json.Members :=
  [("offset", .ofWord p.offset), ("prev_skips", .ofWord p.skips), ("score", .ofWeight p.weight),
    ("zero_offset_match", .truth p.zeroHop)]

/-- The members that say no more than their absence. -/
def standardMembers : Json.Members :=
  [("prev_skips", .whole 0), ("score", .null), ("zero_offset_match", .truth true)]

/-- The members of a position in any order, less some that say no more than their absence. -/
def SaidBy (p : Position) (members : Json.Members) : Prop :=
  ∃ left, (members ++ left).Perm p.members ∧ left ⊆ standardMembers

theorem record_saidBy {p : Position} {members : Json.Members} (said : p.SaidBy members) :
    Record.SaidBy p members := by
  obtain ⟨left, split, standard⟩ := said
  exact Shape.saidBy_of_perm (Record.length_values p) split standard

/-- Of a position only a missing weight is not written, and a missing member means no weight. -/
theorem faithful : (Record.shape Position).Faithful := by
  intro f field v omits
  simp only [Record.shape, List.mem_cons, List.not_mem_nil, or_false] at field
  rcases field with rfl | rfl | rfl | rfl
  case inr.inr.inl =>
    obtain rfl : v = .null := by simpa using omits
    rfl
  all_goals contradiction

theorem holds_values (p : Position) : ∀ v ∈ Record.values p, Json.Holds v := by
  intro v mem
  simp only [Record.values, List.mem_cons, List.not_mem_nil, or_false] at mem
  rcases mem with rfl | rfl | rfl | rfl
  · exact Json.holds_ofWord p.offset
  · exact Json.holds_ofWord p.skips
  · exact Json.holds_ofWeight p.weight
  · trivial

end Position

/-- Nothing of a zone is left unwritten. -/
theorem Zone.faithful : (Record.shape Zone).Faithful :=
  Shape.faithful_of_omits (by simp [Record.shape])

theorem Zone.holds_values (z : Zone) : ∀ v ∈ Record.values z, Json.Holds v := by
  intro v mem
  simp only [Record.values, List.mem_cons, List.not_mem_nil, or_false] at mem
  rcases mem with rfl | rfl | rfl <;> trivial

/-- Nothing of a span is left unwritten. -/
theorem Span.faithful : (Record.shape Span).Faithful :=
  Shape.faithful_of_omits (by simp [Record.shape])

theorem Span.holds_values (s : Span) : ∀ v ∈ Record.values s, Json.Holds v := by
  intro v mem
  simp only [Record.values, List.mem_cons, List.not_mem_nil, or_false] at mem
  rcases mem with rfl | rfl
  · exact Json.holds_ofWord s.first
  · exact Json.holds_ofWord s.last

/-! ### Texts -/

/--
With a library for JSON, positions, zones and spans are read back from what is written for them, field
for field; and a position is read from every text of its members in any order, less any that say no more
than their absence.
-/
theorem records_read_back (library : Library) (implements : library.Implements Json.format) :
    (∀ p : Position, ∃ text, library.write p = some text ∧ library.read text = some p) ∧
    (∀ z : Zone, ∃ text, library.write z = some text ∧ library.read text = some z) ∧
    (∀ s : Span, ∃ text, library.write s = some text ∧ library.read text = some s) ∧
    ∀ (p : Position) (members : Json.Members) (text : String), p.SaidBy members →
      Json.SpellsObject text.toList members → library.read text = some p :=
  ⟨fun p => Record.read_of_write implements Position.faithful p.holds_values,
    fun z => Record.read_of_write implements Zone.faithful z.holds_values,
    fun s => Record.read_of_write implements Span.faithful s.holds_values,
    fun p members text said spells =>
      implements.reads p members text p.holds_values (Position.record_saidBy said) spells⟩

/-- A scored position of which only the weight and the offset are written, in this order and with blanks. -/
theorem records_read_back_sample :
    let p : Position := { offset := 7, weight := some 5 }
    let members : Json.Members := [("score", .whole 5), ("offset", .whole 7)]
    let text := "\x7b\"score\": 5, \"offset\": 7\x7d"
    p.SaidBy members ∧ Json.SpellsObject text.toList members ∧ Json.library.Implements Json.format ∧
      (∃ written, Json.library.write p = some written ∧ Json.library.read written = some p) ∧
      Json.library.read text = some p := by
  intro p members text
  have said : p.SaidBy members := by
    refine ⟨[("prev_skips", .whole 0), ("zero_offset_match", .truth true)], ?_, ?_⟩
    · exact (List.Perm.swap _ _ _).trans ((List.Perm.swap _ _ _).cons _)
    · simp [Position.standardMembers]
  have none := Json.isGap_nil
  have blank : Json.IsGap [' '] := List.forall_mem_singleton.2 rfl
  have score := Json.SpellsMember.named none (Json.spellsString_writeString "score") none blank
    (.whole 5) none
  have offset := Json.SpellsMember.named blank (Json.spellsString_writeString "offset") none blank
    (.whole 7) none
  have spells : Json.SpellsObject text.toList members := by
    have object := Json.SpellsObject.members none (.cons score (.single offset)) none
    convert object using 1
    decide
  obtain ⟨positions, -, -, reads⟩ := records_read_back Json.library Json.implements_library
  exact ⟨said, spells, Json.implements_library, positions p, reads p members text said spells⟩

end TermProximity
