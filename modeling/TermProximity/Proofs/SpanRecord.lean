import TermProximity.SpanRecord

/-!
# Span records — what a record holds once another one is put behind it

Recording spans puts a record of them behind what is there, so a record only ever grows, and which
spans it holds depends on the records put together and not on their order.

* `under_prefix_append`: the spans of a name stay in front;
* `mem_under_append`: under a name stand the spans that either record has under it;
* `all_eq_of_mem_under_iff`: records that hold the same spans show the same list of all of them.
-/

namespace TermProximity.SpanRecord

/-- The spans that stand under a name, in the order of recording. -/
def under (r : SpanRecord) (name : String) : List Span := (r.find? name).elim [] NamedSpans.spans

variable {r r' : SpanRecord} {name : String} {s : Span}

theorem mem_appendAllNew {spans more : List Span} :
    s ∈ appendAllNew spans more ↔ s ∈ spans ∨ s ∈ more := by
  rw [appendAllNew_eq_foldl, mem_foldl_appendNew]

theorem under_prefix_append (r r' : SpanRecord) (name : String) :
    r.under name <+: (r ++ r').under name := by
  unfold under
  rw [KeyedList.find?_append]
  cases r.find? name with
  | none => exact List.nil_prefix
  | some e =>
    cases r'.find? name with
    | none => exact List.prefix_refl _
    | some e' => exact List.prefix_append ..

theorem mem_under_append : s ∈ (r ++ r').under name ↔ s ∈ r.under name ∨ s ∈ r'.under name := by
  unfold under
  rw [KeyedList.find?_append]
  cases r.find? name with
  | none => simp
  | some e =>
    cases r'.find? name with
    | none => simp
    | some e' => exact mem_appendAllNew

/-- Under a name stand the spans that some of the records put together has under it. -/
theorem mem_under_foldl {records : List SpanRecord} :
    s ∈ (records.foldl (· ++ ·) r).under name ↔
      s ∈ r.under name ∨ ∃ r' ∈ records, s ∈ r'.under name := by
  induction records generalizing r with
  | nil => simp
  | cons r' records ih => rw [List.foldl_cons, ih, mem_under_append]; simp [or_assoc]

/-! ### All names together -/

theorem mem_all_iff : s ∈ r.all ↔ ∃ name, s ∈ r.under name := by
  have listed : s ∈ r.all ↔ s ∈ r.entries.flatMap (·.spans) := by
    have keys : (KeyedList.ofList (r.entries.flatMap (·.spans))).keys = r.all := List.map_id _
    rw [← keys, KeyedList.mem_keys_ofList]
    exact iff_of_eq (congrArg (s ∈ ·) (List.map_id _))
  rw [listed, List.mem_flatMap]
  constructor
  · rintro ⟨e, mem, hs⟩
    refine ⟨e.name, ?_⟩
    have found : r.find? e.name = some e := KeyedList.find?_key mem
    rwa [under, found]
  · rintro ⟨name, hs⟩
    unfold under at hs
    cases found : r.find? name with
    | none => rw [found] at hs; contradiction
    | some e =>
      rw [found] at hs
      exact ⟨e, (KeyedList.find?_eq_some_iff.1 found).1, hs⟩

theorem all_eq_of_mem_under_iff (h : ∀ name s, s ∈ r.under name ↔ s ∈ r'.under name) :
    r.all = r'.all := by
  have same : ∀ s, s ∈ r.all ↔ s ∈ r'.all := fun s => by simp only [mem_all_iff, h]
  exact congrArg KeyedList.entries (KeyedList.ext_mem same)

/-! ### Recording -/

/-- Spans are recorded by putting a record of them behind what is there. -/
theorem recordEach_eq_append (r : SpanRecord) (name : String) (spans : List Span) :
    r.recordEach name spans = r ++ recordEach ∅ name spans := by
  unfold recordEach
  split
  · exact (KeyedList.append_empty r).symm
  · rw [KeyedList.empty_append]

end TermProximity.SpanRecord
