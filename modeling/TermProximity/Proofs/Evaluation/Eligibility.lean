import TermProximity.Proofs.Evaluation.Permutation

/-!
# Eligibility — when the term that comes first decides about a zone

Every term keeps the mark of its own first insertion in a zone, and a zone comes into question with
the mark that the first term has for it.  So two orders of the terms consider the same zones as long
as no filter looks at marks, or the two terms that come first agree about them; where they do not,
a request for every zone of content expansion considers the zone in one of the two orders alone.

* `Request.considers_iff_iff_markedAlike`: two orders agree about a zone exactly if it is marked alike;
* `Request.evaluate_of_markedAlike`: where all zones are marked alike, the same names match.
-/

namespace TermProximity

/-- Whether a zone passes a filter alike with the marks that two terms have for it. -/
def Request.MarkedAlike (r : Request) (settings : Settings) (postings : Postings)
    (first first' : String) (zone : Zone.Id) : Prop :=
  r.zones.isAll = false ∨ settings.expansionZonesOnly = false ∨
    ((postings.occurrencesOf first).zone? zone).map (·.expansion) =
      ((postings.occurrencesOf first').zone? zone).map (·.expansion)

/-- A filter tells two zones of one name apart by their marks, if it looks at them. -/
theorem Zone.Filter.admits_iff_admits_iff {filter : Zone.Filter} {expansionOnly : Bool}
    {z z' : Zone} (same : z.name = z'.name) :
    (filter.admits expansionOnly z = true ↔ filter.admits expansionOnly z' = true) ↔
      filter.isAll = false ∨ expansionOnly = false ∨ z.expansion = z'.expansion := by
  rw [← Bool.eq_iff_iff]
  constructor
  · intro alike
    cases filter with
    | all =>
      right
      cases expansionOnly with
      | false => exact .inl rfl
      | true => exact .inr alike
    | named name => exact .inl rfl
    | anyOf names => exact .inl rfl
  · rintro (named | everything | marks)
    · exact admits_congr (.inl named) same
    · exact admits_congr (.inr everything) same
    · cases filter with
      | all => rw [admits, admits, marks]
      | named name => rw [admits, admits, same]
      | anyOf names => rw [admits, admits, same]

namespace Request

variable {r : Request} {settings : Settings} {postings : Postings} {terms : List String}
  {zone : Zone.Id} {first first' : String}

/-- Two orders of the terms agree about a zone exactly if the first terms have it marked alike. -/
theorem considers_iff_iff_markedAlike (perm : r.terms.Perm terms)
    (head : r.terms.head? = some first) (head' : terms.head? = some first')
    (occurs : r.Occurs postings zone) :
    (r.Considers settings postings zone ↔ { r with terms }.Considers settings postings zone) ↔
      r.MarkedAlike settings postings first first' zone := by
  have mem : first ∈ r.terms := List.mem_of_head? head
  have mem' : first' ∈ r.terms := perm.mem_iff.2 (List.mem_of_head? head')
  obtain ⟨z, found⟩ := Postings.exists_zone?_of_positions_ne_nil (occurs first mem)
  obtain ⟨z', found'⟩ := Postings.exists_zone?_of_positions_ne_nil (occurs first' mem')
  have same : z.name = z'.name := congrArg Zone.Id.name
    ((Occurrences.id_of_zone? found).trans (Occurrences.id_of_zone? found').symm)
  rw [considers_iff_admits head found, considers_iff_admits (r := { r with terms }) head' found',
    Zone.Filter.admits_iff_admits_iff same, MarkedAlike, found, found']
  simp only [Option.map_some, Option.some_inj]

/-- A zone that is marked alike, if the terms occur in it, matches in both orders or in none. -/
theorem matches_iff_of_markedAlike (unordered : r.arrangement.isOrdered = false)
    (perm : r.terms.Perm terms) (head : r.terms.head? = some first)
    (head' : terms.head? = some first')
    (marked : r.Occurs postings zone → r.MarkedAlike settings postings first first' zone) :
    r.Matches settings postings zone ↔ { r with terms }.Matches settings postings zone := by
  have some_term : r.terms ≠ [] := List.ne_nil_of_mem (List.mem_of_head? head)
  have some_term' : terms ≠ [] := List.ne_nil_of_mem (List.mem_of_head? head')
  have alike (occurs : r.Occurs postings zone) :=
    (considers_iff_iff_markedAlike perm head head' occurs).2 (marked occurs)
  constructor
  · rintro ⟨considered, answered⟩
    exact ⟨(alike (occurs_of_answerIn? answered)).1 considered,
      isSome_answerIn?_of_perm unordered some_term perm answered⟩
  · rintro ⟨considered, answered⟩
    have answered' : (r.answerIn? settings postings zone).isSome :=
      isSome_answerIn?_of_perm (r := { r with terms }) unordered some_term' perm.symm answered
    exact ⟨(alike (occurs_of_answerIn? answered')).2 considered, answered'⟩

/--
In whatever order the terms are given that may stand in any order, a zone in which all of them occur
comes into question in both orders or in none exactly if the terms that come first have it marked
alike, or no mark is looked at.  Where this holds of all such zones the same names match.
-/
theorem evaluate_of_markedAlike (settings : Settings) (document : DocumentIndex)
    (sensible : r.check = .ok ()) (unordered : r.arrangement.isOrdered = false)
    (perm : r.terms.Perm terms) :
    ∃ first ∈ r.terms.head?, ∃ first' ∈ terms.head?,
      (∀ zone, r.Occurs document.postings zone →
        ((r.Considers settings document.postings zone ↔
            { r with terms }.Considers settings document.postings zone) ↔
          r.MarkedAlike settings document.postings first first' zone)) ∧
      ((∀ zone, r.Occurs document.postings zone →
          r.MarkedAlike settings document.postings first first' zone) →
        ∃ outcome outcome', r.Reports settings document outcome ∧
          { r with terms }.Reports settings document outcome' ∧
          outcome.matched = outcome'.matched) := by
  have some_term := terms_ne_nil_of_check sensible
  have some_term' : terms ≠ [] := fun none_left => some_term (none_left ▸ perm).eq_nil
  obtain ⟨first, head⟩ := Option.isSome_iff_exists.1 (List.isSome_head?.2 some_term)
  obtain ⟨first', head'⟩ := Option.isSome_iff_exists.1 (List.isSome_head?.2 some_term')
  refine ⟨first, head, first', head', fun zone occurs => ?_, fun marked => ?_⟩
  · exact considers_iff_iff_markedAlike perm head head' occurs
  · have reports := reports_outcome settings document sensible
    have reports' := reports_outcome settings document (check_of_perm perm sensible)
    refine ⟨_, _, reports, reports', KeyedList.ext_mem fun name => ?_⟩
    rw [reports.matched, reports'.matched]
    apply exists_congr
    intro zone
    rw [matches_iff_of_markedAlike unordered perm head head' (marked zone)]

/-- A document in which three terms occur in one zone, and the second has another mark for it. -/
def sampleMarks : DocumentIndex := .after
  [.put "a" ⟨"BODY", true, "doc"⟩ [{ offset := 1 }],
    .put "b" ⟨"BODY", false, "doc"⟩ [{ offset := 2 }],
    .put "c" ⟨"BODY", true, "doc"⟩ [{ offset := 3 }]]

/-- Asks for all three in a window, wherever content expansion takes place. -/
def sampleOrder : Request := { arrangement := .within 2, terms := ["a", "b", "c"] }

/-- The first and the third term agree about the only zone, whatever the second has for it. -/
theorem evaluate_of_markedAlike_sample :
    sampleOrder.check = .ok () ∧ sampleOrder.arrangement.isOrdered = false ∧
      sampleOrder.terms.Perm ["c", "b", "a"] ∧
      (∀ zone, sampleOrder.Occurs sampleMarks.postings zone →
        ((sampleOrder.Considers .standard sampleMarks.postings zone ↔
            { sampleOrder with terms := ["c", "b", "a"] }.Considers .standard
              sampleMarks.postings zone) ↔
          sampleOrder.MarkedAlike .standard sampleMarks.postings "a" "c" zone)) ∧
      ∃ outcome outcome', sampleOrder.Reports .standard sampleMarks outcome ∧
        { sampleOrder with terms := ["c", "b", "a"] }.Reports .standard sampleMarks outcome' ∧
        outcome.matched = outcome'.matched := by
  have sensible : sampleOrder.check = .ok () := rfl
  have perm : sampleOrder.terms.Perm ["c", "b", "a"] := by decide
  obtain ⟨first, head, first', head', alike, names⟩ :=
    evaluate_of_markedAlike .standard sampleMarks sensible rfl perm
  cases head
  cases head'
  refine ⟨sensible, rfl, perm, alike, names fun zone occurs => .inr (.inr ?_)⟩
  -- The first term has no zone but one.
  obtain ⟨z, found⟩ := Postings.exists_zone?_of_positions_ne_nil (occurs "a" (by decide))
  have same := Occurrences.id_of_zone? found
  have registered : z ∈ sampleMarks.postings.zones "a" := by
    rwa [Postings.mem_zones_iff, same]
  have only : sampleMarks.postings.zones "a" = [⟨"BODY", true, "doc"⟩] := by rfl
  rw [only, List.mem_singleton] at registered
  subst registered same
  rfl

/-- Two terms that have a zone marked apart: it comes into question only if the right one is first. -/
theorem considers_sampleMarks_of_first :
    let r : Request := { arrangement := .within 1, terms := ["a", "b"] }
    let r' : Request := { r with terms := ["b", "a"] }
    r.check = .ok () ∧ r.arrangement.isOrdered = false ∧ r.terms.Perm r'.terms ∧
      r.Occurs sampleMarks.postings ⟨"BODY", "doc"⟩ ∧
      r.Considers .standard sampleMarks.postings ⟨"BODY", "doc"⟩ ∧
      ¬ r'.Considers .standard sampleMarks.postings ⟨"BODY", "doc"⟩ ∧
      (r.evaluate .standard sampleMarks).1 = .ok ⟨.single "BODY", 1⟩ ∧
      (r'.evaluate .standard sampleMarks).1 = .ok ⟨∅, 0⟩ := by
  intro r r'
  have window : (r.lineupIn sampleMarks.postings ⟨"BODY", "doc"⟩).Window 1
      [{ offset := 1 }, { offset := 2 }] :=
    ⟨Lineup.binding_iff_zip.2 (by decide), by decide⟩
  have found : (r.answerIn? .standard sampleMarks.postings ⟨"BODY", "doc"⟩).isSome := by
    have spread : r.spread? = some 1 := rfl
    exact (isSome_answerIn?_iff_window (by decide) spread).2 ⟨_, window⟩
  have answered : r.answerIn? .standard sampleMarks.postings ⟨"BODY", "doc"⟩ = some [] := by
    obtain ⟨spans, found⟩ := Option.isSome_iff_exists.1 found
    rw [found, answerIn?_of_not_isOrdered rfl found]
  have candidates : r.candidateZones .standard sampleMarks.postings = [⟨"BODY", true, "doc"⟩] := rfl
  have outcome : r.outcome .standard sampleMarks.postings = ⟨.single "BODY", 1⟩ := by
    simp [Request.outcome, answers, candidates, Zone.id, answered]
  refine ⟨rfl, rfl, by decide, by decide, by decide, by decide, ?_, rfl⟩
  rw [evaluate_eq (r := r) .standard sampleMarks rfl, outcome]

end Request

end TermProximity
