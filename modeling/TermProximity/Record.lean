import TermProximity.Score

/-!
# Records — values that are kept as text, field for field

A value that is to be kept as text has a shape: its fields in order, by their names, with what a
missing field means and when a field is not written (`Shape`).  Everything else is the business of a
library for a text format, which writes and reads values by their shapes.

No library is fixed here.  `Library.Implements` has what the libraries for a format promise: a value is
written as some text of the format, of the members that its shape wants written, and it is read from
every text of the format whose members say it, in any order and in any spelling.
-/

namespace TermProximity

/-- What a field holds. -/
inductive Scalar where
  | null
  | truth (value : Bool)
  | whole (value : Int)
  | text (value : String)
  deriving DecidableEq

namespace Scalar

/-- A truth value. -/
def truth? : Scalar → Option Bool
  | truth value => some value
  | _ => none

/-- A text. -/
def text? : Scalar → Option String
  | text value => some value
  | _ => none

/-- A 32-bit number without a sign. -/
def ofWord (n : UInt32) : Scalar := whole n.toNat

/-- A whole number that 32 bits without a sign hold. -/
def word? : Scalar → Option UInt32
  | whole n => if 0 ≤ n ∧ n < UInt32.size then some (UInt32.ofNat n.toNat) else none
  | _ => none

@[simp] theorem word?_ofWord (n : UInt32) : word? (ofWord n) = some n := by
  rw [ofWord, word?, if_pos ⟨Int.natCast_nonneg _, Int.ofNat_lt.2 n.toNat_lt⟩, Int.toNat_natCast,
    UInt32.ofNat_toNat]

/-- A weight, or null for none. -/
def ofWeight : Option Weight → Scalar
  | some w => whole w.toInt
  | none => null

/-- Null for no weight, or a whole number that 64 bits with a sign hold. -/
def weight? : Scalar → Option (Option Weight)
  | null => some none
  | whole n =>
    if Int64.minValue.toInt ≤ n ∧ n ≤ Int64.maxValue.toInt then some (some (Int64.ofInt n))
    else none
  | _ => none

@[simp] theorem weight?_ofWeight (w : Option Weight) : weight? (ofWeight w) = some w := by
  cases w with
  | none => rfl
  | some w =>
    rw [ofWeight, weight?, if_pos ⟨w.minValue_le_toInt, w.toInt_le⟩, Int64.ofInt_toInt]

end Scalar

/-! ### Shapes -/

/-- A field of a record. -/
structure Field where
  name : String
  /-- What it holds where it is missing; a field without a standard may not be missing. -/
  standard : Option Scalar := none
  /-- What it holds where it is not written. -/
  omits : Scalar → Bool := fun _ => false

/-- The fields of a record, in order. -/
structure Shape where
  fields : List Field
  /-- Whether members of other names are refused, and not passed over. -/
  closed : Bool := false
  /-- Fields are told apart by their names. -/
  distinct : (fields.map (·.name)).Nodup := by decide

/-- The names of members. -/
def namesOf {α : Type} (members : List (String × α)) : List String := members.map (·.1)

namespace Shape

/-- The names of the fields. -/
def names (s : Shape) : List String := s.fields.map (·.name)

/-- A member for each field, in order. -/
def members (s : Shape) (values : List Scalar) : List (String × Scalar) :=
  (s.fields.zip values).map fun h => (h.1.name, h.2)

/-- The members that say no more than their absence. -/
def standards (s : Shape) : List (String × Scalar) :=
  s.fields.filterMap fun f => f.standard.map (f.name, ·)

/-- The members that are written for values of the fields, in order. -/
def written (s : Shape) (values : List Scalar) : List (String × Scalar) :=
  ((s.fields.zip values).filter fun h => !h.1.omits h.2).map fun h => (h.1.name, h.2)

/--
Values of the fields are said by members, in any order: each is of a field and none comes twice, and
a field is missing only where it holds its standard.
-/
structure SaidBy (s : Shape) (values : List Scalar) (members : List (String × Scalar)) : Prop where
  distinct : (namesOf members).Nodup
  known : ∀ name ∈ namesOf members, name ∈ s.names
  holds : ∀ h ∈ s.fields.zip values,
    (h.1.name, h.2) ∈ members ∨ h.1.name ∉ namesOf members ∧ h.1.standard = some h.2

/-- What is not written is what its absence means. -/
def Faithful (s : Shape) : Prop := ∀ f ∈ s.fields, ∀ v, f.omits v = true → f.standard = some v

/-- The member of each field; nothing where a field comes twice, or another name in a closed shape. -/
def pick? {α : Type} (s : Shape) (members : List (String × α)) : Option (List (Option α)) :=
  if s.names.all (fun n => (namesOf members).count n ≤ 1) ∧
      (s.closed → (namesOf members).all (s.names.contains ·)) then
    some (s.names.map fun n => members.lookup n)
  else none

/-- What each field holds when `read` reads what is there for it. -/
def complete? {α : Type} (s : Shape) (read : α → Option Scalar) (found : List (Option α)) :
    Option (List Scalar) :=
  (s.fields.zip found).mapM fun h =>
    match h.2 with
    | some value => read value
    | none => h.1.standard

end Shape

/-- Values that are kept as text by what their fields hold. -/
class Record (α : Type) where
  shape : Shape
  /-- What the fields hold, in order. -/
  values : α → List Scalar
  /-- The value whose fields hold this. -/
  ofValues? : List Scalar → Option α
  length_values (a : α) : (values a).length = shape.fields.length
  ofValues?_values (a : α) : ofValues? (values a) = some a

namespace Record

variable {α : Type} [Record α]

/-- The members that are written for a value. -/
def written (a : α) : List (String × Scalar) := (shape α).written (values a)

/-- A value is said by members, in any order. -/
def SaidBy (a : α) (members : List (String × Scalar)) : Prop := (shape α).SaidBy (values a) members

/-- The value of what is found for each field. -/
def ofFound? {β : Type} (read : β → Option Scalar) (found : List (Option β)) : Option α :=
  ((shape α).complete? read found).bind ofValues?

/-- The value of members. -/
def ofMembers? {β : Type} (read : β → Option Scalar) (members : List (String × β)) : Option α :=
  ((shape α).pick? members).bind (ofFound? read)

end Record

/-! ### Libraries -/

/-- A text format, as far as members are kept in it. -/
structure TextFormat where
  /-- What a member can hold. -/
  Holds : Scalar → Prop
  /-- The texts of members, in the order in which they stand. -/
  Spells : String → List (String × Scalar) → Prop

/-- A library that keeps values of every shape as text. -/
structure Library where
  write {α : Type} [Record α] (a : α) : Option String
  read {α : Type} [Record α] (text : String) : Option α

/-- What a library for a format promises, of every value that the format can hold. -/
structure Library.Implements (library : Library) (format : TextFormat) : Prop where
  /-- Writing: a value has a text that spells, in order, the members of the fields to be written. -/
  writes {α : Type} [Record α] (a : α) : (∀ v ∈ Record.values a, format.Holds v) →
    ∃ text, library.write a = some text ∧ format.Spells text (Record.written a)
  /--
  Reading: a text gives the value that its members say, however they are spelt and in whatever order;
  a missing field holds its standard.
  -/
  reads {α : Type} [Record α] (a : α) (members : List (String × Scalar)) (text : String) :
    (∀ v ∈ Record.values a, format.Holds v) → Record.SaidBy a members →
    format.Spells text members → library.read text = some a

end TermProximity
