import TermProximity.Occurrences
import TermProximity.SpanRecord

/-!
# Document indexes — where every term of a document occurs, and the spans found so far

The postings of a document hold the occurrences of each of its terms; a term is present once
anything was put under it, even without a position.
-/

namespace TermProximity

/-- A term with its occurrences. -/
structure TermOccurrences where
  term : String
  occurrences : Occurrences
  deriving DecidableEq

instance : Entry TermOccurrences String where
  key e := e.term
  join first second := ⟨first.term, first.occurrences ++ second.occurrences⟩
  key_join _ _ := rfl
  join_assoc _ _ _ := congrArg _ (KeyedList.append_assoc ..)

/-- The occurrences of every term of a document. -/
abbrev Postings := KeyedList TermOccurrences

namespace Postings

/-- The occurrences of a term, if it is present. -/
def occurrences? (postings : Postings) (term : String) : Option Occurrences :=
  (postings.find? term).map (·.occurrences)

/-- The postings with occurrences of a term added to those it has. -/
def add (postings : Postings) (term : String) (o : Occurrences) : Postings :=
  postings ++ .single ⟨term, o⟩

/-- The postings with positions of a term in a zone added to those it has. -/
def put (postings : Postings) (term : String) (zone : Zone) (positions : List Position) :
    Postings :=
  postings.add term (.inZone zone positions)

/-- The positions of a term in a zone, in order. -/
def positions (postings : Postings) (term : String) (zone : Zone.Id) : List Position :=
  match postings.occurrences? term with
  | some o => o.positions zone
  | none => []

/-- The zones in which a term is registered, in order. -/
def zones (postings : Postings) (term : String) : List Zone :=
  match postings.occurrences? term with
  | some o => o.zones
  | none => []

/-- The terms present, in order. -/
def terms (postings : Postings) : List String := postings.keys

end Postings

/-- What is known of one document: where its terms occur, and the spans found in it. -/
structure DocumentIndex where
  postings : Postings := ∅
  spans : SpanRecord := ∅
  deriving DecidableEq

end TermProximity
