import TermProximity.Proofs.Evaluation.Series

/-!
# Outcomes — what a sensible request is told, read off the postings

* `Request.evaluate_eq`: the outcome of a request and the spans it leaves, from the postings alone;
* `Request.mem_matched_outcome`: the names that match, told zone by zone;
* `Query.mem_under_record`: the spans that are left under a name, told zone by zone;
* `Request.isSome_answerIn?_iff`: whether a zone answers, told by the search in its lineup;
* `Request.answerIn?_congr`: of the postings, a zone is answered from the positions there.
-/

namespace TermProximity

/-! ### Records -/

namespace SpanRecord

variable {record : SpanRecord} {name : String} {s : Span}

@[simp] theorem under_empty (name : String) : (∅ : SpanRecord).under name = [] := rfl

theorem mem_under_record {other : String} {t : Span} :
    s ∈ (record.record other t).under name ↔ s ∈ record.under name ∨ other = name ∧ s = t := by
  unfold under
  rw [find?_record]
  by_cases here : name = other
  · subst here
    rw [if_pos rfl]
    show s ∈ appendNew ((record.find? name).elim [] NamedSpans.spans) t ↔ _
    have one : appendNew ((record.find? name).elim [] NamedSpans.spans) t =
        [t].foldl appendNew ((record.find? name).elim [] NamedSpans.spans) := rfl
    rw [one, mem_foldl_appendNew, List.mem_singleton]
    exact or_congr_right (and_iff_right rfl).symm
  · rw [if_neg here]
    exact (or_iff_left fun h => here h.1.symm).symm

theorem mem_under_foldl_record {other : String} {spans : List Span} :
    s ∈ (spans.foldl (fun record t => record.record other t) record).under name ↔
      s ∈ record.under name ∨ other = name ∧ s ∈ spans := by
  induction spans generalizing record with
  | nil => simp
  | cons t spans ih =>
    rw [List.foldl_cons, ih, mem_under_record, or_assoc, ← and_or_left, List.mem_cons]

/-- Under a name stand the spans found in the zones of that name, behind those that are there. -/
theorem mem_under_recordAll {found : List (Zone × List Span)} :
    s ∈ (record.recordAll found).under name ↔
      s ∈ record.under name ∨ ∃ x ∈ found, x.1.name = name ∧ s ∈ x.2 := by
  unfold recordAll
  induction found generalizing record with
  | nil => simp
  | cons x found ih =>
    rw [List.foldl_cons, ih, mem_under_foldl_record, or_assoc, List.exists_mem_cons_iff]

end SpanRecord

/-! ### Requests -/

theorem Query.mem_under_record {q : Query} {postings : Postings} {name : String} {s : Span}
    (sensible : q.request.check = .ok ()) :
    s ∈ (q.record postings).under name ↔ q.settings.recordSpans = true ∧
      ∃ x ∈ q.request.answers q.settings postings, x.1.name = name ∧ s ∈ x.2 := by
  unfold record
  rw [sensible]
  cases q.settings.recordSpans with
  | false => simp
  | true => simp [SpanRecord.mem_under_recordAll]

namespace Request

variable {r : Request} {settings : Settings} {postings postings' : Postings} {zone : Zone.Id}

/-- The outcome of a request that makes sense. -/
def outcome (r : Request) (settings : Settings) (postings : Postings) : Outcome :=
  ⟨.ofList ((r.answers settings postings).map (·.1.name)),
    (r.candidateZones settings postings).length⟩

/-- A sensible request gets its outcome, and leaves its record behind the spans that are there. -/
theorem evaluate_eq (settings : Settings) (document : DocumentIndex) (sensible : r.check = .ok ()) :
    r.evaluate settings document = (.ok (r.outcome settings document.postings),
      ⟨document.postings, document.spans ++ Query.record ⟨settings, r⟩ document.postings⟩) := by
  have answered : r.evaluate settings document = Query.answer ⟨settings, r⟩ document := rfl
  rw [answered, Query.answer_eq]
  refine Prod.ext ?_ rfl
  unfold Query.answer evaluate
  rw [sensible]
  rfl

theorem mem_matched_outcome {name : String} :
    name ∈ (r.outcome settings postings).matched.entries ↔
      ∃ zone ∈ r.candidateZones settings postings,
        (r.answerIn? settings postings zone.id).isSome ∧ zone.name = name := by
  rw [outcome, mem_entries_ofList, List.mem_map]
  constructor
  · rintro ⟨⟨zone, spans⟩, mem, rfl⟩
    obtain ⟨candidate, found⟩ := mem_answers.1 mem
    exact ⟨zone, candidate, by rw [found]; rfl, rfl⟩
  · rintro ⟨zone, candidate, answered, rfl⟩
    obtain ⟨spans, found⟩ := Option.isSome_iff_exists.1 answered
    exact ⟨(zone, spans), mem_answers.2 ⟨candidate, found⟩, rfl⟩

end Request

/-! ### One zone -/

/-- Whether the search that an arrangement needs finds anything in a lineup. -/
def Request.Finds (r : Request) (settings : Settings) (l : Lineup) : Prop :=
  match r.spread? with
  | some width => (l.scan width).anchor.isSome
  | none => (l.search settings.everySpan {}).1 ≠ []

theorem Request.finds_iff_of_spread? {r : Request} {settings : Settings} {l : Lineup}
    {width : UInt32} (spread : r.spread? = some width) :
    r.Finds settings l ↔ (l.scan width).anchor.isSome := by
  rw [Finds, spread]

/-- A zone answers if its terms are resolved and the search finds something in their lineup. -/
theorem Request.isSome_answerIn?_iff {r : Request} {settings : Settings} {postings : Postings}
    {zone : Zone.Id} :
    (r.answerIn? settings postings zone).isSome ↔
      ∃ l, Lineup.resolve? postings zone r.arrangement.limit? r.terms = some l ∧
        r.Finds settings l := by
  unfold answerIn? Finds
  cases Lineup.resolve? postings zone r.arrangement.limit? r.terms with
  | none => simp
  | some l =>
    cases r.spread? with
    | some width => simp
    | none => cases found : (l.search settings.everySpan {}).1 <;> simp [found]

theorem Lineup.resolve?_congr {postings postings' : Postings} {zone : Zone.Id}
    {limit : Option Weight} {terms : List String}
    (same : ∀ term ∈ terms, postings.positions term zone = postings'.positions term zone) :
    resolve? postings zone limit terms = resolve? postings' zone limit terms := by
  have usable_eq : ∀ term ∈ terms, usable postings zone limit term = usable postings' zone limit term :=
    fun term mem => congrArg (List.filter _) (same term mem)
  have lineUp_eq : lineUp postings zone limit terms = lineUp postings' zone limit terms :=
    congrArg Lineup.mk (List.map_congr_left fun term mem => congrArg (Slot.mk term) (usable_eq term mem))
  refine Option.ext fun l => ?_
  rw [resolve?_eq_some_iff, resolve?_eq_some_iff, lineUp_eq]
  refine and_congr_left' (forall₂_congr fun term mem => ?_)
  rw [usable_eq term mem]

/-- What a zone is answered depends on the positions of the terms there. -/
theorem Request.answerIn?_congr {r : Request} {postings postings' : Postings} {zone : Zone.Id}
    (settings : Settings)
    (same : ∀ term ∈ r.terms, postings.positions term zone = postings'.positions term zone) :
    r.answerIn? settings postings zone = r.answerIn? settings postings' zone := by
  unfold answerIn?
  rw [Lineup.resolve?_congr same]

end TermProximity
