import TermProximity.Proofs.Evaluation
import TermProximity.Proofs.SpanRecord

/-!
# Series of queries — one document asked again and again

What a query finds depends on the postings alone, and those it leaves alone.  So it puts a record of
its own behind the spans that are there, the same one whenever it is asked: in a series, no query
disturbs another, and neither their order nor how often each is asked makes a difference to the
spans that are there at the end.

* `Query.Leaves`: what a query may do to a document;
* `Query.answer_eq`: what it does do;
* `DocumentIndex.asked_series`: what holds along a series, and of any two series of the same queries.
-/

namespace TermProximity

/-- A request with the settings under which it is made. -/
structure Query where
  settings : Settings
  request : Request
  deriving DecidableEq

namespace Query

/-- What a document answers, and the document after that. -/
def answer (q : Query) (d : DocumentIndex) : Except ArgumentFault Outcome × DocumentIndex :=
  q.request.evaluate q.settings d

/-- The spans that a query records in a document with the given postings. -/
def record (q : Query) (postings : Postings) : SpanRecord :=
  match q.request.check with
  | .error _ => ∅
  | .ok () =>
    if q.settings.recordSpans then
      SpanRecord.recordAll ∅ (q.request.answers q.settings postings)
    else ∅

/-- What a query answered with `result` may do to the document `d` to make it `after`. -/
structure Leaves (q : Query) (d : DocumentIndex) (result : Except ArgumentFault Outcome)
    (after : DocumentIndex) : Prop where
  refused_iff : ∀ fault, result = .error fault ↔ q.request.check = .error fault
  refused : ∀ fault, result = .error fault → after = d
  postings : after.postings = d.postings
  grown : ∀ name, d.spans.under name <+: after.spans.under name
  silent : q.request.arrangement.isOrdered = false ∨ q.settings.recordSpans = false →
    after.spans = d.spans

end Query

namespace DocumentIndex

/-- The document after some queries, one after another. -/
def asked (d : DocumentIndex) (qs : List Query) : DocumentIndex :=
  qs.foldl (fun d q => (q.answer d).2) d

/-- What some queries are answered, one after another. -/
def answers (d : DocumentIndex) : List Query → List (Except ArgumentFault Outcome)
  | [] => []
  | q :: qs => (q.answer d).1 :: (q.answer d).2.answers qs

end DocumentIndex

/-! ### One query -/

theorem SpanRecord.recordAll_eq_append (record : SpanRecord) (found : List (Zone × List Span)) :
    record.recordAll found = record ++ recordAll ∅ found := by
  rw [← foldl_recordEach, ← foldl_recordEach]
  induction found generalizing record with
  | nil => exact (KeyedList.append_empty record).symm
  | cons x found ih =>
    rw [List.foldl_cons, List.foldl_cons, ih, ih (recordEach ∅ _ _), recordEach_eq_append,
      KeyedList.append_assoc]

/-- For terms in any order a width is given. -/
theorem Request.isSome_spread?_of_not_isOrdered {r : Request}
    (unordered : r.arrangement.isOrdered = false) : r.spread?.isSome := by
  unfold spread?
  cases arrangement : r.arrangement with
  | within _ => rfl
  | adjacent => rfl
  | phrase => rw [arrangement] at unordered; contradiction
  | scoredPhrase _ => rw [arrangement] at unordered; contradiction

theorem Request.answerIn?_of_not_isOrdered {r : Request} {settings : Settings} {postings : Postings}
    {zone : Zone.Id} {spans : List Span} (unordered : r.arrangement.isOrdered = false)
    (found : r.answerIn? settings postings zone = some spans) : spans = [] := by
  obtain ⟨width, width_eq⟩ :=
    Option.isSome_iff_exists.1 (isSome_spread?_of_not_isOrdered unordered)
  unfold answerIn? at found
  split at found
  · contradiction
  · rw [width_eq] at found
    obtain ⟨_, -, rfl⟩ := Option.map_eq_some_iff.1 found
    rfl

namespace Query

variable {q : Query} {d : DocumentIndex} {postings : Postings}

theorem record_eq_empty
    (silent : q.request.arrangement.isOrdered = false ∨ q.settings.recordSpans = false) :
    q.record postings = ∅ := by
  unfold record
  split
  · rfl
  · rcases silent with unordered | off
    · split
      · refine SpanRecord.recordAll_of_nil ∅ fun zone spans mem => ?_
        exact Request.answerIn?_of_not_isOrdered unordered (Request.mem_answers.1 mem).2
      · rfl
    · rw [off]
      rfl

/-- A query is answered from the postings alone, and puts its own record behind the spans. -/
theorem answer_eq (q : Query) (d : DocumentIndex) :
    q.answer d =
      ((q.answer ⟨d.postings, ∅⟩).1, ⟨d.postings, d.spans ++ q.record d.postings⟩) := by
  unfold answer Request.evaluate record
  cases q.request.check with
  | error fault => simp only [KeyedList.append_empty]
  | ok _ =>
    cases q.settings.recordSpans with
    | false => simp
    | true => simp only [if_true, SpanRecord.foldl_recordEach, ← SpanRecord.recordAll_eq_append]

theorem fst_answer_eq_error_iff {fault : ArgumentFault} :
    (q.answer d).1 = .error fault ↔ q.request.check = .error fault := by
  unfold answer Request.evaluate
  cases q.request.check with
  | error fault' => simp
  | ok _ => simp

theorem leaves_answer (q : Query) (d : DocumentIndex) :
    q.Leaves d (q.answer d).1 (q.answer d).2 := by
  refine ⟨fun _ => fst_answer_eq_error_iff, fun fault refused => ?_, ?_, fun name => ?_,
    fun silent => ?_⟩
  · unfold answer Request.evaluate
    rw [fst_answer_eq_error_iff.1 refused]
  · rw [answer_eq]
  · rw [answer_eq]
    exact SpanRecord.under_prefix_append ..
  · rw [answer_eq, record_eq_empty silent]
    exact KeyedList.append_empty _

end Query

/-! ### Series -/

namespace DocumentIndex

theorem asked_concat (d : DocumentIndex) (qs : List Query) (q : Query) :
    d.asked (qs ++ [q]) = (q.answer (d.asked qs)).2 := List.foldl_concat ..

/-- A series leaves the postings alone and puts the records of its queries behind the spans. -/
theorem asked_eq (d : DocumentIndex) (qs : List Query) :
    d.asked qs = ⟨d.postings, (qs.map fun q => q.record d.postings).foldl (· ++ ·) d.spans⟩ := by
  induction qs generalizing d with
  | nil => rfl
  | cons q qs ih =>
    have first : (q.answer d).2 = ⟨d.postings, d.spans ++ q.record d.postings⟩ := by
      rw [Query.answer_eq]
    rw [asked, List.foldl_cons, first, ← asked, ih, List.map_cons, List.foldl_cons]

theorem answers_eq_map (d : DocumentIndex) (qs : List Query) :
    d.answers qs = qs.map fun q => (q.answer d).1 := by
  -- The spans differ along the series, but the answers are read off the postings.
  have alike (d' : DocumentIndex) (same : d'.postings = d.postings) (q : Query) :
      (q.answer d').1 = (q.answer d).1 := by
    rw [Query.answer_eq, Query.answer_eq q d, same]
  suffices ∀ d' : DocumentIndex, d'.postings = d.postings →
      d'.answers qs = qs.map fun q => (q.answer d).1 from this d rfl
  induction qs with
  | nil => intros; rfl
  | cons q qs ih =>
    intro d' same
    rw [answers, List.map_cons, alike d' same, ih _ ((Query.leaves_answer q d').postings.trans same)]

/-- Two series of the same queries leave the same spans under every name. -/
theorem mem_under_asked_iff {qs qs' : List Query} (same : ∀ q, q ∈ qs ↔ q ∈ qs') (d : DocumentIndex)
    (name : String) (s : Span) :
    s ∈ (d.asked qs).spans.under name ↔ s ∈ (d.asked qs').spans.under name := by
  rw [asked_eq, asked_eq, SpanRecord.mem_under_foldl, SpanRecord.mem_under_foldl]
  simp only [List.mem_map, same]

/--
Along a series, each query is answered as if it were the only one, changes nothing but the spans, and
leaves those that are there in front; series of the same queries end with the same spans.
-/
theorem asked_series (d : DocumentIndex) :
    (∀ qs (q : Query), q.Leaves (d.asked qs) (q.answer (d.asked qs)).1 (d.asked (qs ++ [q]))) ∧
    (∀ qs, d.answers qs = qs.map fun q => (q.answer d).1) ∧
    ∀ qs qs', (∀ q, q ∈ qs ↔ q ∈ qs') →
      (∀ name s, s ∈ (d.asked qs).spans.under name ↔ s ∈ (d.asked qs').spans.under name) ∧
      (d.asked qs).spans.all = (d.asked qs').spans.all := by
  refine ⟨fun qs q => ?_, d.answers_eq_map, fun qs qs' same => ⟨mem_under_asked_iff same d, ?_⟩⟩
  · rw [asked_concat]
    exact Query.leaves_answer q (d.asked qs)
  · exact SpanRecord.all_eq_of_mem_under_iff (mem_under_asked_iff same d)

end DocumentIndex

end TermProximity
