import Mathlib.Algebra.GroupWithZero.Nat
import Mathlib.Data.Finset.Card
import Mathlib.Data.List.DropRight
import TermProximity.Proofs.FirstOccurrences
import TermProximity.Proofs.SpanRecord

/-!
# Histories of span records — what a record shows after any operations

Spans are recorded under names, and now and then the record is cleared.  Under each name a record
holds the spans given for it since it was last cleared, each where it came first, and it has a name
only once a span was given for it (`Holds`).  What it shows besides is made of these lists.

* `Holds.record`: the step, recording a span;
* `holds_after`: the run, by induction on the operations;
* `Holds.shows`: what a record shows that holds given spans;
* `shows_after`: what it shows after any operations.
-/

namespace TermProximity

/-! ### First occurrences -/

theorem eraseDups_concat_span (spans : List Span) (s : Span) :
    (spans ++ [s]).eraseDups = appendNew spans.eraseDups s := by
  rw [eraseDups_concat, appendNew]
  simp only [List.mem_eraseDups]

theorem eraseDups_eq_nil_iff {spans : List Span} : spans.eraseDups = [] ↔ spans = [] := by
  cases spans <;> simp [List.eraseDups_cons]

theorem Span.compare_eq_lt_iff {s t : Span} :
    compare s t = .lt ↔ s.first < t.first ∨ s.first = t.first ∧ s.last < t.last := by
  show ((compare s.first t.first).then (compare s.last t.last)) = .lt ↔ _
  simp [Ordering.then_eq_lt, Std.compare_eq_lt]

namespace SpanRecord

/-! ### Operations -/

/-- What may be done to a record. -/
inductive Operation where
  | record (name : String) (s : Span)
  | clear
  deriving DecidableEq

/-- The record after an operation. -/
def Operation.apply (r : SpanRecord) : Operation → SpanRecord
  | record name s => r.record name s
  | clear => ∅

/-- An empty record after some operations, one after another. -/
def after (ops : List Operation) : SpanRecord := ops.foldl Operation.apply ∅

/-- The spans recorded under a name since the record was last cleared, in order. -/
def recorded (ops : List Operation) (name : String) : List Span :=
  (ops.rtakeWhile (· ≠ .clear)).filterMap fun
    | .record other s => if other = name then some s else none
    | .clear => none

theorem recorded_record (ops : List Operation) (name other : String) (s : Span) :
    recorded (ops ++ [.record name s]) other =
      if other = name then recorded ops other ++ [s] else recorded ops other := by
  by_cases here : name = other
  · simp [recorded, here]
  · simp [recorded, here, Ne.symm here]

theorem recorded_clear (ops : List Operation) (name : String) :
    recorded (ops ++ [.clear]) name = [] := by
  simp [recorded]

/-! ### What a record holds -/

variable {r : SpanRecord} {given : String → List Span}

/-- A record holds the spans given for each name, the first occurrence of each. -/
def Holds (r : SpanRecord) (given : String → List Span) : Prop :=
  ∀ name, r.find? name =
    if given name = [] then none else some ⟨name, (given name).eraseDups⟩

/-- What a record shows when spans were given for the names. -/
structure Shows (r : SpanRecord) (given : String → List Span) : Prop where
  /-- Under every name stand the spans given for it, the first occurrence of each. -/
  under : ∀ name, r.under name = (given name).eraseDups
  /-- These are shown under the name, unless it is the one for all names. -/
  spans : ∀ name, name ≠ anyField → r.spans name = (given name).eraseDups
  /-- Under the name for all names the spans of all of them are shown. -/
  anyName : r.spans anyField = r.all
  /-- They stand in order, first by where they begin, and none twice. -/
  ascending : r.all.Pairwise fun s t => s.first < t.first ∨ s.first = t.first ∧ s.last < t.last
  /-- They are those given for some name. -/
  mem_all : ∀ s, s ∈ r.all ↔ ∃ name, s ∈ given name
  /-- The names are those for which some span was given. -/
  mem_keys : ∀ name, name ∈ r.keys ↔ given name ≠ []
  /-- The names stand in order, and none twice. -/
  ascending_keys : r.keys.Pairwise (· < ·)
  /-- The count is that of the different spans, name by name. -/
  count : r.count = (r.keys.map fun name => (given name).toFinset.card).sum
  /-- A record is empty when it counts nothing. -/
  isEmpty : r.isEmpty = true ↔ r.count = 0

theorem holds_empty : Holds ∅ fun _ => [] := by
  intro name
  simp

/-- Recording a span gives it for its name, behind the others. -/
theorem Holds.record (h : r.Holds given) (name : String) (s : Span) :
    (r.record name s).Holds fun other =>
      if other = name then given other ++ [s] else given other := by
  intro other
  rw [find?_record]
  by_cases here : other = name
  · subst here
    have spans : (r.find? other).elim [] NamedSpans.spans = (given other).eraseDups := by
      rw [h other]
      split
      · rename_i nothing
        simp [nothing]
      · rfl
    simp [spans, eraseDups_concat_span]
  · simp only [if_neg here, h other]

/-- After any operations, a record holds what was recorded since it was last cleared. -/
theorem holds_after (ops : List Operation) : (after ops).Holds (recorded ops) := by
  induction ops using List.reverseRecOn with
  | nil => exact holds_empty
  | append_singleton ops op ih =>
    have step : after (ops ++ [op]) = op.apply (after ops) := List.foldl_concat ..
    rw [step]
    cases op with
    | record name s =>
      have given : recorded (ops ++ [.record name s]) = fun other =>
          if other = name then recorded ops other ++ [s] else recorded ops other := by
        funext other
        exact recorded_record ops name other s
      rw [given]
      exact ih.record name s
    | clear =>
      have given : recorded (ops ++ [.clear]) = fun _ => [] := by
        funext name
        exact recorded_clear ops name
      rw [given]
      exact holds_empty

/-! ### What a record shows -/

theorem Holds.under (h : r.Holds given) (name : String) :
    r.under name = (given name).eraseDups := by
  unfold SpanRecord.under
  rw [h name]
  split
  · rename_i nothing
    simp [nothing]
  · rfl

theorem spans_eq_under {name : String} (other : name ≠ anyField) : r.spans name = r.under name := by
  unfold spans SpanRecord.under
  rw [if_neg other]
  cases r.find? name <;> rfl

theorem Holds.mem_keys (h : r.Holds given) (name : String) : name ∈ r.keys ↔ given name ≠ [] := by
  rw [KeyedList.mem_keys_iff, h name]
  split <;> simp [*]

/-- The spans of an entry are those given for its name, which are some. -/
theorem Holds.spans_of_mem (h : r.Holds given) {e : NamedSpans} (mem : e ∈ r.entries) :
    given e.name ≠ [] ∧ e.spans = (given e.name).eraseDups := by
  have found : r.find? e.name = some e := KeyedList.find?_key mem
  rw [h e.name] at found
  split at found
  · contradiction
  · rename_i some_span
    exact ⟨some_span, (congrArg NamedSpans.spans (Option.some.inj found)).symm⟩

theorem Holds.count (h : r.Holds given) :
    r.count = (r.keys.map fun name => (given name).toFinset.card).sum := by
  have sizes : ∀ e ∈ r.entries, e.spans.length = (given e.name).toFinset.card := by
    intro e mem
    rw [(h.spans_of_mem mem).2, length_eraseDups]
  rw [SpanRecord.count, List.length_flatMap, KeyedList.keys, List.map_map]
  exact congrArg List.sum (List.map_congr_left sizes)

theorem Holds.isEmpty (h : r.Holds given) : r.isEmpty = true ↔ r.count = 0 := by
  rw [KeyedList.isEmpty, List.isEmpty_iff, SpanRecord.count, List.length_eq_zero_iff,
    List.flatMap_eq_nil_iff]
  constructor
  · intro nothing
    simp [nothing]
  · intro none_held
    refine List.eq_nil_iff_forall_not_mem.2 ?_
    intro e mem
    obtain ⟨some_span, spans⟩ := h.spans_of_mem mem
    exact some_span (eraseDups_eq_nil_iff.1 (spans ▸ none_held e mem))

theorem Holds.shows (h : r.Holds given) : r.Shows given where
  under := h.under
  spans name other := by rw [spans_eq_under other, h.under]
  anyName := if_pos rfl
  ascending := (KeyedList.ascending _).imp Span.compare_eq_lt_iff.1
  mem_all s := by simp only [mem_all_iff, h.under, List.mem_eraseDups]
  mem_keys := h.mem_keys
  ascending_keys := List.pairwise_map.2 (r.ascending.imp compareOfLessAndEq_eq_lt.1)
  count := h.count
  isEmpty := h.isEmpty

/-- After any operations, a record shows the spans recorded since it was last cleared. -/
theorem shows_after (ops : List Operation) : (after ops).Shows (recorded ops) :=
  (holds_after ops).shows

end SpanRecord

end TermProximity
