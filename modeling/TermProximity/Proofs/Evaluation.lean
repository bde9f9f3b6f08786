import TermProximity.Evaluation
import TermProximity.Proofs.ChainSearch.Least
import TermProximity.Proofs.Window.Scan

/-!
# Evaluation — what a sensible request is answered

* `Request.Answers`: what it means that a zone answers a request, told of positions alone;
* `Request.answerIn?_spec`: one zone is answered right, whichever search its arrangement needs;
* `Request.gathers_answers`: the zones found are those that are asked about and answer;
* `Request.evaluate_of_check`: the outcome names them, and the document has their spans recorded.
-/

namespace TermProximity

/-! ### What is asked -/

/-- Whether the slots of a lineup can be filled as an arrangement wants it. -/
def Arrangement.Holds (a : Arrangement) (l : Lineup) : Prop :=
  match a with
  | .within distance => ∃ chosen, l.Window distance.toNat chosen
  | .adjacent => ∃ chosen, l.Window (l.slots.length - 1) chosen
  | .phrase | .scoredPhrase _ => ∃ chain, l.Chain chain

namespace Request

/-- A slot for each term of a request with its usable positions in a zone. -/
def lineupIn (r : Request) (postings : Postings) (zone : Zone.Id) : Lineup :=
  .lineUp postings zone r.arrangement.limit? r.terms

/-- A zone answers when every term has a usable position and these can be taken as asked. -/
structure Answers (r : Request) (postings : Postings) (zone : Zone.Id) : Prop where
  usable : ∀ term ∈ r.terms, Lineup.usable postings zone r.arrangement.limit? term ≠ []
  holds : r.arrangement.Holds (r.lineupIn postings zone)

/-- Whether a zone is one of those of the first term that the filter admits. -/
def Asks (r : Request) (settings : Settings) (postings : Postings) (zone : Zone) : Prop :=
  ∃ first ∈ r.terms.head?, zone ∈ postings.zones first ∧
    r.zones.admits settings.expansionZonesOnly zone = true

/-- The spans to be found where a request is answered: all, or the first; none without order. -/
def Shows (r : Request) (settings : Settings) (l : Lineup) (spans : List Span) : Prop :=
  if r.arrangement.isOrdered then
    ∃ all, l.Spans all ∧ spans = if settings.everySpan then all else all.take 1
  else spans = []

/-- The zones that are asked about and answer, in order, with the spans to be found in each. -/
structure Gathers (r : Request) (settings : Settings) (postings : Postings)
    (found : List (Zone × List Span)) : Prop where
  ascending : found.Pairwise fun x y => compare x.1.id y.1.id = .lt
  zones : ∀ zone, (∃ spans, (zone, spans) ∈ found) ↔
    r.Asks settings postings zone ∧ r.Answers postings zone.id
  spans : ∀ zone spans, (zone, spans) ∈ found →
    r.Shows settings (r.lineupIn postings zone.id) spans

variable {r : Request} {settings : Settings} {postings : Postings} {zone : Zone.Id}

/-! ### Sensible requests -/

theorem check_eq_ok_iff :
    r.check = .ok () ↔
      checkNumber r.arrangement = .ok () ∧ r.checkTerms = .ok () ∧ r.zones.check = .ok () := by
  unfold check
  constructor
  · intro h
    cases number : checkNumber r.arrangement with
    | error fault => rw [number] at h; contradiction
    | ok _ =>
      cases terms : r.checkTerms with
      | error fault => rw [number, terms] at h; contradiction
      | ok _ =>
        rw [number, terms] at h
        exact ⟨rfl, rfl, h⟩
  · rintro ⟨number, terms, zones⟩
    rw [number, terms]
    exact zones

theorem checkTerms_eq_ok_iff :
    r.checkTerms = .ok () ↔ 2 ≤ r.terms.length ∧ ∀ term ∈ r.terms, term.isEmpty = false := by
  unfold checkTerms
  by_cases few : r.terms.length < 2
  · rw [if_pos few]
    exact ⟨fun h => by contradiction, fun h => absurd h.1 (Nat.not_le.2 few)⟩
  · rw [if_neg few]
    by_cases empty : r.terms.any String.isEmpty = true
    · rw [if_pos empty]
      obtain ⟨term, mem, is_empty⟩ := List.any_eq_true.1 empty
      refine ⟨fun h => by contradiction, fun h => ?_⟩
      rw [h.2 term mem] at is_empty
      contradiction
    · rw [if_neg empty]
      refine ⟨fun _ => ⟨Nat.not_lt.1 few, fun term mem => ?_⟩, fun _ => rfl⟩
      exact Bool.eq_false_iff.2 fun is_empty => empty (List.any_eq_true.2 ⟨term, mem, is_empty⟩)

theorem two_le_length_of_check (sensible : r.check = .ok ()) : 2 ≤ r.terms.length :=
  (checkTerms_eq_ok_iff.1 (check_eq_ok_iff.1 sensible).2.1).1

theorem terms_ne_nil_of_check (sensible : r.check = .ok ()) : r.terms ≠ [] :=
  List.ne_nil_of_length_pos (Nat.lt_of_lt_of_le Nat.two_pos (two_le_length_of_check sensible))

/-- Two or more of the terms of a sensible request make a sensible one. -/
theorem check_of_subset {terms : List String} (sensible : r.check = .ok ())
    (subset : terms ⊆ r.terms) (two : 2 ≤ terms.length) : { r with terms }.check = .ok () := by
  obtain ⟨number, enough, zones⟩ := check_eq_ok_iff.1 sensible
  obtain ⟨-, not_empty⟩ := checkTerms_eq_ok_iff.1 enough
  refine check_eq_ok_iff.2 ⟨number, checkTerms_eq_ok_iff.2 ⟨two, fun term mem => ?_⟩, zones⟩
  exact not_empty term (subset mem)

/-- What is sensible to ask for stays so with any other arrangement whose number is. -/
theorem check_of_checkNumber {a : Arrangement} (sensible : r.check = .ok ())
    (number : checkNumber a = .ok ()) : { r with arrangement := a }.check = .ok () := by
  obtain ⟨-, enough, zones⟩ := check_eq_ok_iff.1 sensible
  have terms := checkTerms_eq_ok_iff.1 enough
  exact check_eq_ok_iff.2 ⟨number, checkTerms_eq_ok_iff.2 terms, zones⟩

/-! ### One zone -/

variable {l : Lineup}

/-- The width for adjacent terms is what it says, if there are not too many of them. -/
theorem toNat_ofNat_length_sub_one (few : r.terms.length ≤ UInt32.size) :
    (UInt32.ofNat (r.terms.length - 1)).toNat = r.terms.length - 1 := by
  rw [UInt32.toNat_ofNat']
  unfold UInt32.size at few
  omega

/-- Where a width is given, windows of that width are wanted. -/
theorem holds_iff_window {width : UInt32} (length : l.slots.length = r.terms.length)
    (few : r.terms.length ≤ UInt32.size) (spread : r.spread? = some width) :
    r.arrangement.isOrdered = false ∧
      (r.arrangement.Holds l ↔ ∃ chosen, l.Window width.toNat chosen) := by
  unfold spread? at spread
  cases arrangement : r.arrangement with
  | within distance =>
    rw [arrangement] at spread
    cases spread
    exact ⟨rfl, Iff.rfl⟩
  | adjacent =>
    rw [arrangement] at spread
    cases spread
    refine ⟨rfl, ?_⟩
    rw [toNat_ofNat_length_sub_one few, ← length]
    exact Iff.rfl
  | phrase => rw [arrangement] at spread; contradiction
  | scoredPhrase _ => rw [arrangement] at spread; contradiction

/-- Where none is given, chains are. -/
theorem holds_iff_chain (spread : r.spread? = none) :
    r.arrangement.isOrdered = true ∧ (r.arrangement.Holds l ↔ ∃ chain, l.Chain chain) := by
  unfold spread? at spread
  cases arrangement : r.arrangement with
  | within distance => rw [arrangement] at spread; contradiction
  | adjacent => rw [arrangement] at spread; contradiction
  | phrase => exact ⟨rfl, Iff.rfl⟩
  | scoredPhrase _ => exact ⟨rfl, Iff.rfl⟩

end Request

/-- There are spans exactly if there is a chain. -/
theorem Lineup.Spans.ne_nil_iff {l : Lineup} {spans : List Span} (h : l.Spans spans)
    (slots : l.slots ≠ []) : spans ≠ [] ↔ ∃ chain, l.Chain chain := by
  constructor
  · intro some_span
    obtain ⟨s, hs⟩ := List.exists_mem_of_ne_nil spans some_span
    obtain ⟨p, chain, isLeast, -⟩ := h.least s hs
    exact ⟨chain, isLeast.toChain⟩
  · rintro ⟨chain, isChain⟩ rfl
    cases chain with
    | nil => exact slots (List.eq_nil_of_length_eq_zero isChain.length_eq.symm)
    | cons p tail =>
      obtain ⟨s, hs, -⟩ := h.begun p (p :: tail) isChain ⟨tail, rfl⟩
      contradiction

namespace Request

variable {r : Request} {settings : Settings} {postings : Postings} {zone : Zone.Id} {l : Lineup}

/-- A search finds the spans that are to be found, and some exactly if there is a chain. -/
theorem shows_search (settings : Settings) (inOrder : r.arrangement.isOrdered = true)
    (ordered : l.Orderly) (slots : l.slots ≠ []) :
    r.Shows settings l (l.search settings.everySpan {}).1 ∧
      ((l.search settings.everySpan {}).1 ≠ [] ↔ ∃ chain, l.Chain chain) := by
  obtain ⟨all, first⟩ := ChainSearch.spans_search ordered
  rw [Shows, if_pos inOrder, ← all.ne_nil_iff slots]
  cases settings.everySpan with
  | true => exact ⟨⟨_, all, rfl⟩, Iff.rfl⟩
  | false =>
    refine ⟨⟨_, all, first⟩, not_congr ?_⟩
    rw [first, List.take_eq_nil_iff]
    exact or_iff_right Nat.one_ne_zero

/-- One zone: something is found exactly if it answers, and then what is to be found. -/
theorem answerIn?_spec (some_term : r.terms ≠ []) (few : r.terms.length ≤ UInt32.size) :
    ((r.answerIn? settings postings zone).isSome ↔ r.Answers postings zone) ∧
      ∀ spans, r.answerIn? settings postings zone = some spans →
        r.Shows settings (r.lineupIn postings zone) spans := by
  by_cases usable : ∀ term ∈ r.terms, Lineup.usable postings zone r.arrangement.limit? term ≠ []
  · have resolved : Lineup.resolve? postings zone r.arrangement.limit? r.terms =
        some (r.lineupIn postings zone) := Lineup.resolve?_eq_some_iff.2 ⟨usable, rfl⟩
    have answers_iff : r.Answers postings zone ↔
        r.arrangement.Holds (r.lineupIn postings zone) := ⟨fun h => h.holds, fun h => ⟨usable, h⟩⟩
    have ordered := Lineup.orderly_of_resolve? resolved
    have slots : (r.lineupIn postings zone).slots ≠ [] :=
      fun none_left => some_term (List.map_eq_nil_iff.1 none_left)
    cases spread : r.spread? with
    | some width =>
      have answer : r.answerIn? settings postings zone =
          ((r.lineupIn postings zone).scan width).anchor.map fun _ => [] := by
        simp only [answerIn?, resolved, spread]
      have length : (r.lineupIn postings zone).slots.length = r.terms.length := List.length_map ..
      obtain ⟨unordered, holds_iff⟩ := holds_iff_window length few spread
      obtain ⟨isSome_iff, -⟩ := Lineup.scan_spec ordered slots width
      rw [answer, Option.isSome_map, answers_iff, holds_iff, isSome_iff]
      refine ⟨Iff.rfl, fun spans found => ?_⟩
      obtain ⟨_, -, rfl⟩ := Option.map_eq_some_iff.1 found
      rw [Shows, if_neg (by rw [unordered]; exact Bool.false_ne_true)]
    | none =>
      obtain ⟨inOrder, holds_iff⟩ := holds_iff_chain (l := r.lineupIn postings zone) spread
      obtain ⟨shows, some_span⟩ := shows_search settings inOrder ordered slots
      rw [answers_iff, holds_iff, ← some_span]
      simp only [answerIn?, resolved, spread]
      split
      · rename_i nothing
        rw [nothing]
        exact ⟨⟨fun h => by contradiction, fun h => absurd rfl h⟩, fun _ h => by contradiction⟩
      · rename_i something
        refine ⟨⟨fun _ => something, fun _ => rfl⟩, fun spans e => ?_⟩
        rwa [← Option.some.inj e]
  · -- A term without a usable position leaves the zone unanswered.
    have answer : r.answerIn? settings postings zone = none := by
      have unresolved : Lineup.resolve? postings zone r.arrangement.limit? r.terms = none := by
        refine Option.eq_none_iff_forall_ne_some.2 fun l resolved => ?_
        exact usable (Lineup.resolve?_eq_some_iff.1 resolved).1
      simp only [answerIn?, unresolved]
    rw [answer]
    exact ⟨⟨fun h => by contradiction, fun h => absurd h.usable usable⟩, fun _ h => by contradiction⟩

/-! ### All zones -/

theorem ascending_zones (postings : Postings) (term : String) :
    (postings.zones term).Pairwise fun z z' => compare z.id z'.id = .lt := by
  unfold Postings.zones
  split
  · rename_i o _
    exact List.pairwise_map.2 o.ascending
  · exact List.Pairwise.nil

/-- The zones searched are those of the first term that the filter admits. -/
theorem candidateZones_eq {first : String} (h : r.terms.head? = some first) :
    r.candidateZones settings postings =
      (postings.zones first).filter (r.zones.admits settings.expansionZonesOnly) := by
  obtain ⟨rest, terms⟩ := List.head?_eq_some_iff.1 h
  unfold candidateZones
  rw [terms]

theorem mem_candidateZones {zone : Zone} (some_term : r.terms ≠ []) :
    zone ∈ r.candidateZones settings postings ↔ r.Asks settings postings zone := by
  obtain ⟨first, h⟩ := Option.isSome_iff_exists.1 (List.isSome_head?.2 some_term)
  rw [candidateZones_eq h, List.mem_filter]
  constructor
  · exact fun asks => ⟨first, h, asks⟩
  · rintro ⟨first', h', asks⟩
    obtain rfl : first = first' := Option.some.inj (h.symm.trans h')
    exact asks

theorem mem_answers {zone : Zone} {spans : List Span} :
    (zone, spans) ∈ r.answers settings postings ↔
      zone ∈ r.candidateZones settings postings ∧
        r.answerIn? settings postings zone.id = some spans := by
  rw [answers, List.mem_filterMap]
  constructor
  · rintro ⟨zone', mem, h⟩
    obtain ⟨spans', found, e⟩ := Option.map_eq_some_iff.1 h
    cases e
    exact ⟨mem, found⟩
  · rintro ⟨mem, found⟩
    exact ⟨zone, mem, by rw [found]; rfl⟩

/-- The zones found are those that are asked about and answer. -/
theorem gathers_answers (some_term : r.terms ≠ []) (few : r.terms.length ≤ UInt32.size) :
    r.Gathers settings postings (r.answers settings postings) := by
  refine ⟨?_, fun zone => ?_, fun zone spans mem => ?_⟩
  · obtain ⟨first, h⟩ := Option.isSome_iff_exists.1 (List.isSome_head?.2 some_term)
    rw [answers, candidateZones_eq h, List.pairwise_filterMap]
    refine ((ascending_zones postings first).filter _).imp fun lt x hx y hy => ?_
    obtain ⟨_, -, rfl⟩ := Option.map_eq_some_iff.1 hx
    obtain ⟨_, -, rfl⟩ := Option.map_eq_some_iff.1 hy
    exact lt
  · simp only [mem_answers, mem_candidateZones some_term, exists_and_left]
    rw [← Option.isSome_iff_exists, (answerIn?_spec some_term few).1]
  · exact (answerIn?_spec some_term few).2 spans (mem_answers.1 mem).2

end Request

/-! ### The document -/

/-- A record with the spans found in some zones, one after another. -/
def SpanRecord.recordAll (record : SpanRecord) (found : List (Zone × List Span)) : SpanRecord :=
  found.foldl (fun record x => x.2.foldl (fun record s => record.record x.1.name s) record) record

theorem SpanRecord.foldl_recordEach (record : SpanRecord) (found : List (Zone × List Span)) :
    found.foldl (fun record x => record.recordEach x.1.name x.2) record = record.recordAll found := by
  unfold recordAll
  congr 1
  funext record x
  exact recordEach_eq_foldl record x.1.name x.2

/-- Zones without spans leave a record as it is. -/
theorem SpanRecord.recordAll_of_nil (record : SpanRecord) {found : List (Zone × List Span)}
    (none_found : ∀ zone spans, (zone, spans) ∈ found → spans = []) :
    record.recordAll found = record := by
  induction found generalizing record with
  | nil => rfl
  | cons x found ih =>
    obtain ⟨zone, spans⟩ := x
    obtain rfl := none_found zone spans List.mem_cons_self
    exact ih record fun zone spans mem => none_found zone spans (List.mem_cons_of_mem _ mem)

theorem mem_entries_ofList {names : List String} {name : String} :
    name ∈ (KeyedList.ofList names : Names).entries ↔ name ∈ names := by
  have keys (ns : Names) : ns.keys = ns.entries := List.map_id ns.entries
  rw [← keys, KeyedList.mem_keys_ofList]
  exact iff_of_eq (congrArg (name ∈ ·) (List.map_id names))

namespace Request

variable {r : Request} {settings : Settings} {postings : Postings}

/-- Where nothing is to be recorded, nothing is. -/
theorem Gathers.recorded {found : List (Zone × List Span)} (gathers : r.Gathers settings postings found)
    (record : SpanRecord) :
    (if settings.recordSpans then
      found.foldl (fun record x => record.recordEach x.1.name x.2) record else record) =
      if r.arrangement.isOrdered && settings.recordSpans then record.recordAll found else record := by
  rw [SpanRecord.foldl_recordEach]
  by_cases inOrder : r.arrangement.isOrdered = true
  · rw [inOrder, Bool.true_and]
  · have none_found : ∀ zone spans, (zone, spans) ∈ found → spans = [] := by
      intro zone spans mem
      have shows := gathers.spans zone spans mem
      rwa [Shows, if_neg inOrder] at shows
    rw [SpanRecord.recordAll_of_nil record none_found, ite_self, ite_self]

/--
A sensible request gets an outcome: the number of zones asked about and the names of those among
them that answer.  Spans are recorded for these in order, where an ordered arrangement is asked for
and the settings want them, and the document stays as it is otherwise.
-/
theorem evaluate_of_check (settings : Settings) (document : DocumentIndex)
    (sensible : r.check = .ok ()) (few : r.terms.length ≤ UInt32.size) :
    ∃ first outcome found, r.terms.head? = some first ∧
      r.evaluate settings document = (.ok outcome, { document with
        spans := if r.arrangement.isOrdered && settings.recordSpans then
          document.spans.recordAll found else document.spans }) ∧
      outcome.zonesSearched =
        (document.postings.zones first).countP (r.zones.admits settings.expansionZonesOnly) ∧
      (∀ name, name ∈ outcome.matched.entries ↔ ∃ zone, r.Asks settings document.postings zone ∧
        r.Answers document.postings zone.id ∧ zone.name = name) ∧
      r.Gathers settings document.postings found := by
  have some_term : r.terms ≠ [] :=
    List.ne_nil_of_length_pos (Nat.lt_of_lt_of_le Nat.two_pos (two_le_length_of_check sensible))
  obtain ⟨first, h⟩ := Option.isSome_iff_exists.1 (List.isSome_head?.2 some_term)
  have gathers : r.Gathers settings document.postings (r.answers settings document.postings) :=
    gathers_answers some_term few
  let outcome : Outcome := ⟨.ofList ((r.answers settings document.postings).map (·.1.name)),
    (r.candidateZones settings document.postings).length⟩
  refine ⟨first, outcome, r.answers settings document.postings, h, ?_, ?_, fun name => ?_, gathers⟩
  · unfold evaluate
    rw [sensible]
    refine Prod.ext rfl (congrArg (DocumentIndex.mk document.postings) ?_)
    exact gathers.recorded document.spans
  · exact (congrArg List.length (candidateZones_eq h)).trans List.countP_eq_length_filter.symm
  · rw [mem_entries_ofList, List.mem_map]
    constructor
    · rintro ⟨⟨zone, spans⟩, mem, rfl⟩
      obtain ⟨asks, answers⟩ := (gathers.zones zone).1 ⟨spans, mem⟩
      exact ⟨zone, asks, answers, rfl⟩
    · rintro ⟨zone, asks, answers, rfl⟩
      obtain ⟨spans, mem⟩ := (gathers.zones zone).2 ⟨asks, answers⟩
      exact ⟨(zone, spans), mem, rfl⟩

/-- Asks for a phrase in which a term comes back. -/
def sample : Request := { arrangement := .phrase, terms := ["a", "b", "a"] }

/-- In a document of one zone, over the standard settings. -/
theorem evaluate_of_check_sample :
    sample.check = .ok () ∧ sample.terms.length ≤ UInt32.size ∧
      ∃ first outcome found, sample.terms.head? = some first ∧
        sample.evaluate .standard { postings := samplePostings } = (.ok outcome, {
          postings := samplePostings
          spans := if sample.arrangement.isOrdered && Settings.standard.recordSpans then
            SpanRecord.recordAll ∅ found else ∅ }) ∧
        outcome.zonesSearched = (samplePostings.zones first).countP
          (sample.zones.admits Settings.standard.expansionZonesOnly) ∧
        (∀ name, name ∈ outcome.matched.entries ↔ ∃ zone,
          sample.Asks .standard samplePostings zone ∧
            sample.Answers samplePostings zone.id ∧ zone.name = name) ∧
        sample.Gathers .standard samplePostings found := by
  have sensible : sample.check = .ok () := by
    rfl
  have few : sample.terms.length ≤ UInt32.size := by
    decide
  exact ⟨sensible, few, evaluate_of_check .standard { postings := samplePostings } sensible few⟩

end Request

end TermProximity
