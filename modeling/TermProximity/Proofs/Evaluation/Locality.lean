import Mathlib.Algebra.BigOperators.Finprod
import TermProximity.KeyedList.Part
import TermProximity.Proofs.Evaluation.Outcome

/-!
# Locality — every zone is answered on its own

A document is cut down to the terms of a request in a single zone (`DocumentIndex.only`).  What is
found in the whole document is what is found in all documents of this kind together, so positions of
different zones are never combined, not even where the zones share a name, and neither other terms
nor zones in which the request does not match make a difference.

* `Request.answers_only`: of what is found in the whole document, a part has what belongs to its zone;
* `Request.evaluate_only`: the outcome of the whole document, told by those of its parts.
-/

namespace TermProximity

/-! ### Parts of a document -/

/-- The occurrences in one zone, if there are any. -/
def Occurrences.only (o : Occurrences) (zone : Zone.Id) : Occurrences :=
  o.filter fun e => e.zone.id = zone

/-- The postings of some terms, each with what occurs in one zone. -/
def Postings.only (postings : Postings) (terms : List String) (zone : Zone.Id) : Postings :=
  (postings.filter fun e => e.term ∈ terms).map
    (fun e => { e with occurrences := e.occurrences.only zone }) fun _ => rfl

/-- A document that knows of some terms in one zone alone, and has no spans recorded. -/
def DocumentIndex.only (d : DocumentIndex) (terms : List String) (zone : Zone.Id) : DocumentIndex :=
  { postings := d.postings.only terms zone }

theorem Occurrences.positions_only (o : Occurrences) (zone : Zone.Id) :
    (o.only zone).positions zone = o.positions zone := by
  unfold positions only
  rw [KeyedList.find?_filter]
  cases found : o.find? zone with
  | none => rfl
  | some e =>
    have here : e.zone.id = zone := (KeyedList.find?_eq_some_iff.1 found).2
    rw [Option.filter_some, if_pos (decide_eq_true here)]

theorem Occurrences.zones_only (o : Occurrences) (zone : Zone.Id) :
    (o.only zone).zones = o.zones.filter fun z => z.id = zone := by
  unfold zones
  rw [List.filter_map]
  rfl

namespace Postings

variable {postings : Postings} {terms : List String} {term : String}

theorem occurrences?_only (mem : term ∈ terms) (zone : Zone.Id) :
    (postings.only terms zone).occurrences? term =
      (postings.occurrences? term).map fun o => o.only zone := by
  unfold occurrences? only
  rw [KeyedList.find?_map, KeyedList.find?_filter]
  cases found : postings.find? term with
  | none => rfl
  | some e =>
    obtain rfl : e.term = term := (KeyedList.find?_eq_some_iff.1 found).2
    rw [Option.filter_some, if_pos (decide_eq_true mem)]
    rfl

theorem positions_only (mem : term ∈ terms) (zone : Zone.Id) :
    (postings.only terms zone).positions term zone = postings.positions term zone := by
  unfold positions
  rw [occurrences?_only mem]
  cases postings.occurrences? term with
  | none => rfl
  | some o => exact o.positions_only zone

theorem zones_only (mem : term ∈ terms) (zone : Zone.Id) :
    (postings.only terms zone).zones term = (postings.zones term).filter fun z => z.id = zone := by
  unfold zones
  rw [occurrences?_only mem]
  cases postings.occurrences? term with
  | none => rfl
  | some o => exact o.zones_only zone

end Postings

/-! ### Requests -/

namespace Request

variable {r : Request} {settings : Settings} {postings : Postings}

/-- Of the zones that come into question, a part of the document keeps its own. -/
theorem candidateZones_only (zone : Zone.Id) :
    r.candidateZones settings (postings.only r.terms zone) =
      (r.candidateZones settings postings).filter fun z => z.id = zone := by
  cases terms : r.terms with
  | nil => simp [candidateZones, terms]
  | cons first rest =>
    have head : r.terms.head? = some first := by rw [terms]; rfl
    rw [candidateZones_eq head, candidateZones_eq head, ← terms,
      Postings.zones_only (List.mem_of_head? head), List.filter_comm]

/-- Of what is found in the whole document, a part has what belongs to its zone. -/
theorem answers_only (zone : Zone.Id) :
    r.answers settings (postings.only r.terms zone) =
      (r.answers settings postings).filter fun x => x.1.id = zone := by
  unfold answers
  rw [candidateZones_only, List.filter_filterMap, List.filterMap_filter]
  refine List.filterMap_congr fun z _ => ?_
  by_cases here : z.id = zone
  · have answered : r.answerIn? settings (postings.only r.terms zone) zone =
        r.answerIn? settings postings zone :=
      answerIn?_congr settings fun term mem => Postings.positions_only mem zone
    subst here
    rw [if_pos (decide_eq_true rfl), answered]
    cases r.answerIn? settings postings z.id <;> simp [Option.filter_some]
  · rw [if_neg (by simpa using here)]
    cases r.answerIn? settings postings z.id <;> simp [Option.filter_some, here]

end Request

namespace Request

/-- What it means that an outcome is composed of those that the parts of a document have. -/
structure Composed (r : Request) (settings : Settings) (document : DocumentIndex) (whole : Outcome)
    (part : Zone.Id → Outcome) : Prop where
  answered : (r.evaluate settings document).1 = .ok whole
  parts : ∀ zone, (r.evaluate settings (document.only r.terms zone)).1 = .ok (part zone)
  /-- A part matches under the name of its zone, if it does. -/
  own : ∀ (zone : Zone.Id) (name : String), name ∈ (part zone).matched.entries → name = zone.name
  /-- A name matches if it does in some part. -/
  matched : ∀ name, name ∈ whole.matched.entries ↔ ∃ zone, name ∈ (part zone).matched.entries
  finite : (Function.support fun zone => (part zone).zonesSearched).Finite
  searched : whole.zonesSearched = ∑ᶠ zone, (part zone).zonesSearched
  /-- Under a name, the spans are found that are found in the zones of that name. -/
  spans : ∀ name s, s ∈ (r.evaluate settings document).2.spans.under name ↔
    s ∈ document.spans.under name ∨ ∃ zone : Zone.Id, zone.name = name ∧
      s ∈ (r.evaluate settings (document.only r.terms zone)).2.spans.under name

end Request

/-! ### All parts together -/

theorem finite_support_count {α : Type} [DecidableEq α] (l : List α) :
    (Function.support fun a => l.count a).Finite := by
  refine l.finite_toSet.subset fun a counted => ?_
  exact List.count_pos_iff.1 (Nat.pos_of_ne_zero counted)

/-- A list is as long as its different members count in it together. -/
theorem finsum_count {α : Type} [DecidableEq α] (l : List α) : ∑ᶠ a, l.count a = l.length := by
  rw [finsum_eq_finsetSum_of_support_subset (s := l.toFinset), l.sum_toFinset_count_eq_length]
  intro a counted
  exact List.mem_toFinset.2 (List.count_pos_iff.1 (Nat.pos_of_ne_zero counted))

namespace Request

variable {r : Request} {settings : Settings} {postings postings' : Postings}

theorem mem_matched_outcome_only {name : String} :
    name ∈ (r.outcome settings postings).matched.entries ↔
      ∃ zone, name ∈ (r.outcome settings (postings.only r.terms zone)).matched.entries := by
  simp only [outcome, mem_entries_ofList, answers_only, List.mem_map, List.mem_filter,
    decide_eq_true_eq]
  constructor
  · rintro ⟨x, mem, named⟩
    exact ⟨x.1.id, x, ⟨mem, rfl⟩, named⟩
  · rintro ⟨zone, x, ⟨mem, -⟩, named⟩
    exact ⟨x, mem, named⟩

theorem name_eq_of_mem_matched_outcome_only {zone : Zone.Id} {name : String}
    (mem : name ∈ (r.outcome settings (postings.only r.terms zone)).matched.entries) :
    name = zone.name := by
  obtain ⟨z, candidate, -, rfl⟩ := mem_matched_outcome.1 mem
  rw [candidateZones_only, List.mem_filter, decide_eq_true_iff] at candidate
  exact congrArg Zone.Id.name candidate.2

/-- The zones that come into question in a part are those of its identity. -/
theorem zonesSearched_outcome_only (zone : Zone.Id) :
    (r.outcome settings (postings.only r.terms zone)).zonesSearched =
      ((r.candidateZones settings postings).map Zone.id).count zone := by
  rw [outcome, candidateZones_only, ← List.countP_eq_length_filter, List.count, List.countP_map]
  exact List.countP_congr fun z _ => by simp

theorem zonesSearched_outcome_eq_finsum :
    (r.outcome settings postings).zonesSearched =
      ∑ᶠ zone, (r.outcome settings (postings.only r.terms zone)).zonesSearched := by
  simp only [zonesSearched_outcome_only, finsum_count]
  exact (List.length_map ..).symm

theorem mem_under_record_only {name : String} {s : Span} (sensible : r.check = .ok ()) :
    s ∈ (Query.record ⟨settings, r⟩ postings).under name ↔
      ∃ zone : Zone.Id, zone.name = name ∧
        s ∈ (Query.record ⟨settings, r⟩ (postings.only r.terms zone)).under name := by
  have recorded (postings : Postings) :
      s ∈ (Query.record ⟨settings, r⟩ postings).under name ↔ settings.recordSpans = true ∧
        ∃ x ∈ r.answers settings postings, x.1.name = name ∧ s ∈ x.2 :=
    Query.mem_under_record (q := ⟨settings, r⟩) sensible
  simp only [recorded, answers_only, List.mem_filter, decide_eq_true_eq]
  constructor
  · rintro ⟨on, x, mem, named, found⟩
    exact ⟨x.1.id, named, on, x, ⟨mem, rfl⟩, named, found⟩
  · rintro ⟨zone, -, on, x, ⟨mem, -⟩, named, found⟩
    exact ⟨on, x, mem, named, found⟩

/-- Documents that agree on the terms of a request in every zone have the same outcome. -/
theorem outcome_eq_of_only (same : ∀ zone, postings.only r.terms zone = postings'.only r.terms zone) :
    r.outcome settings postings = r.outcome settings postings' := by
  have matched : (r.outcome settings postings).matched = (r.outcome settings postings').matched :=
    KeyedList.ext_mem fun name => by
      rw [mem_matched_outcome_only, mem_matched_outcome_only]
      simp only [same]
  have searched : (r.outcome settings postings).zonesSearched =
      (r.outcome settings postings').zonesSearched := by
    rw [zonesSearched_outcome_eq_finsum, zonesSearched_outcome_eq_finsum]
    simp only [same]
  exact congrArg₂ Outcome.mk matched searched

/--
The outcome of a sensible request is composed of those of the documents that know of its terms in one
zone only; and whatever else two documents know, if these parts agree, so do the outcomes.
-/
theorem evaluate_only (settings : Settings) (document : DocumentIndex)
    (sensible : r.check = .ok ()) :
    ∃ whole part, r.Composed settings document whole part ∧
      ∀ other : DocumentIndex,
        (∀ zone, other.only r.terms zone = document.only r.terms zone) →
          (r.evaluate settings other).1 = .ok whole := by
  refine ⟨r.outcome settings document.postings,
    fun zone => r.outcome settings (document.postings.only r.terms zone), ⟨?_, fun zone => ?_,
      fun _ _ => name_eq_of_mem_matched_outcome_only, fun name => mem_matched_outcome_only, ?_,
      zonesSearched_outcome_eq_finsum, fun name s => ?_⟩, fun other same => ?_⟩
  · rw [evaluate_eq settings document sensible]
  · rw [evaluate_eq settings _ sensible]
    rfl
  · simp only [zonesSearched_outcome_only]
    exact finite_support_count _
  · simp only [evaluate_eq settings _ sensible, SpanRecord.mem_under_append, DocumentIndex.only,
      SpanRecord.under_empty, List.not_mem_nil, false_or]
    exact or_congr_right (mem_under_record_only sensible)
  · rw [evaluate_eq settings other sensible]
    refine congrArg Except.ok (outcome_eq_of_only fun zone => ?_)
    exact congrArg DocumentIndex.postings (same zone)

/-- A field of two document instances, neither of which has the two terms next to each other. -/
def sampleInstances : DocumentIndex where
  postings := ((((∅ : Postings).put "a" ⟨"BODY", true, "first"⟩ [{ offset := 4 }]).put
    "a" ⟨"BODY", true, "second"⟩ [{ offset := 8 }]).put
    "b" ⟨"BODY", true, "first"⟩ [{ offset := 9 }]).put
    "b" ⟨"BODY", true, "second"⟩ [{ offset := 5 }]

/-- Asks for a phrase of two terms. -/
def samplePhrase : Request := { arrangement := .phrase, terms := ["a", "b"] }

theorem evaluate_only_sample :
    samplePhrase.check = .ok () ∧
      ∃ whole part, samplePhrase.Composed .standard sampleInstances whole part ∧
        ∀ other : DocumentIndex,
          (∀ zone, other.only samplePhrase.terms zone =
            sampleInstances.only samplePhrase.terms zone) →
            (samplePhrase.evaluate .standard other).1 = .ok whole := by
  have sensible : samplePhrase.check = .ok () := by
    rfl
  exact ⟨sensible, evaluate_only .standard sampleInstances sensible⟩

end Request

end TermProximity
