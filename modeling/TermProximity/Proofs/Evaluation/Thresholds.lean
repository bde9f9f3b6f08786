import TermProximity.KeyedList.Part
import TermProximity.Proofs.Evaluation.Matching
import TermProximity.Proofs.Score

/-!
# Thresholds — a scored phrase is a phrase among the positions that are relevant enough

The threshold of a scored phrase is a limit on the weights of positions.  Leaving the heavier
positions out of the postings, while every term and every zone stays as it is registered, makes the
limit needless: what is found is what a plain phrase finds in what is left.  A lower threshold is a
higher limit, with which no position is lost, and so no zone.

* `Postings.upTo`: postings without the positions that weigh more than a limit;
* `Lineup.resolve?_upTo`: terms are resolved in them without a limit as they are with it;
* `Request.evaluate_of_scoredPhrase`: a scored phrase, told by a plain one;
* `Lineup.Chain.of_usable_subset`: a chain stays one when more positions are usable;
* `Request.matches_antitone_threshold`: scores, weights and matches in order.
-/

namespace TermProximity

/-! ### Postings up to a limit -/

/-- The occurrences without the positions that weigh more than a limit; the zones stay. -/
def Occurrences.upTo (o : Occurrences) (limit : Weight) : Occurrences :=
  o.map (fun e => { e with positions := e.positions.filter (·.isWithin limit) }) fun _ => rfl

/-- The postings without the positions that weigh more than a limit; terms and zones stay. -/
def Postings.upTo (postings : Postings) (limit : Weight) : Postings :=
  postings.map (fun e => { e with occurrences := e.occurrences.upTo limit }) fun _ => rfl

/-- The document without the positions that weigh more than a limit. -/
def DocumentIndex.upTo (d : DocumentIndex) (limit : Weight) : DocumentIndex :=
  { d with postings := d.postings.upTo limit }

/-- Whether no position has a weight. -/
def Postings.IsUnscored (postings : Postings) : Prop :=
  ∀ e ∈ postings.entries, ∀ z ∈ e.occurrences.entries, ∀ p ∈ z.positions.entries, p.weight = none

instance (postings : Postings) : Decidable postings.IsUnscored :=
  inferInstanceAs (Decidable (∀ e ∈ postings.entries, ∀ z ∈ e.occurrences.entries,
    ∀ p ∈ z.positions.entries, p.weight = none))

@[simp] theorem Occurrences.zones_upTo (o : Occurrences) (limit : Weight) :
    (o.upTo limit).zones = o.zones := List.map_map ..

@[simp] theorem Occurrences.positions_upTo (o : Occurrences) (limit : Weight) (zone : Zone.Id) :
    (o.upTo limit).positions zone = (o.positions zone).filter (·.isWithin limit) := by
  unfold positions upTo
  rw [KeyedList.find?_map]
  cases o.find? zone <;> rfl

namespace Postings

@[simp] theorem terms_upTo (postings : Postings) (limit : Weight) :
    (postings.upTo limit).terms = postings.terms := List.map_map ..

theorem occurrences?_upTo (postings : Postings) (limit : Weight) (term : String) :
    (postings.upTo limit).occurrences? term = (postings.occurrences? term).map (·.upTo limit) := by
  unfold occurrences? upTo
  rw [KeyedList.find?_map]
  cases postings.find? term <;> rfl

@[simp] theorem zones_upTo (postings : Postings) (limit : Weight) (term : String) :
    (postings.upTo limit).zones term = postings.zones term := by
  unfold zones
  rw [occurrences?_upTo]
  cases postings.occurrences? term with
  | none => rfl
  | some o => exact o.zones_upTo limit

@[simp] theorem positions_upTo (postings : Postings) (limit : Weight) (term : String)
    (zone : Zone.Id) :
    (postings.upTo limit).positions term zone =
      (postings.positions term zone).filter (·.isWithin limit) := by
  unfold positions
  rw [occurrences?_upTo]
  cases postings.occurrences? term with
  | none => rfl
  | some o => exact o.positions_upTo limit zone

theorem IsUnscored.weight_eq {postings : Postings} (unscored : postings.IsUnscored) {term : String}
    {zone : Zone.Id} {p : Position} (mem : p ∈ postings.positions term zone) : p.weight = none := by
  unfold positions occurrences? at mem
  cases found : postings.find? term with
  | none => rw [found] at mem; contradiction
  | some e =>
    rw [found] at mem
    change p ∈ e.occurrences.positions zone at mem
    unfold Occurrences.positions at mem
    cases here : e.occurrences.find? zone with
    | none => rw [here] at mem; contradiction
    | some z =>
      rw [here] at mem
      exact unscored e (KeyedList.find?_eq_some_iff.1 found).1 z
        (KeyedList.find?_eq_some_iff.1 here).1 p mem

end Postings

/-! ### Scored phrases -/

namespace Lineup

variable {postings : Postings} {zone : Zone.Id} {terms : List String}

/-- What is left up to a limit is all usable without one. -/
theorem usable_upTo (limit : Weight) (term : String) :
    usable (postings.upTo limit) zone none term = usable postings zone (some limit) term := by
  unfold usable
  rw [Postings.positions_upTo, List.filter_filter]
  exact List.filter_congr fun p _ => rfl

/-- Terms are resolved without a limit in what is left up to it as they are with it. -/
theorem resolve?_upTo (limit : Weight) :
    resolve? (postings.upTo limit) zone none terms = resolve? postings zone (some limit) terms := by
  have lineUp_eq : lineUp (postings.upTo limit) zone none terms =
      lineUp postings zone (some limit) terms :=
    congrArg mk (List.map_congr_left fun term _ => congrArg (Slot.mk term) (usable_upTo limit term))
  refine Option.ext fun l => ?_
  rw [resolve?_eq_some_iff, resolve?_eq_some_iff, lineUp_eq]
  simp only [usable_upTo]

/-- A limit leaves nothing out where no position has a weight. -/
theorem resolve?_of_isUnscored (limit : Weight) (unscored : postings.IsUnscored) :
    resolve? postings zone (some limit) terms = resolve? postings zone none terms := by
  rw [← resolve?_upTo]
  refine resolve?_congr fun term _ => ?_
  rw [Postings.positions_upTo, List.filter_eq_self]
  intro p hp
  rw [Position.isWithin, unscored.weight_eq hp]

end Lineup

namespace Request

variable {r : Request} {settings : Settings} {postings postings' : Postings} {threshold : Score}

/-- The request for the same terms as a plain phrase. -/
def asPhrase (r : Request) : Request := { r with arrangement := .phrase }

theorem check_asPhrase (sensible : r.check = .ok ()) : r.asPhrase.check = .ok () :=
  check_of_checkNumber sensible rfl

/-- A scored phrase is answered as a plain one is where the terms are resolved alike. -/
theorem answerIn?_asPhrase (scored : r.arrangement = .scoredPhrase threshold) {zone : Zone.Id}
    (same : Lineup.resolve? postings' zone none r.terms =
      Lineup.resolve? postings zone (some threshold.weight) r.terms) :
    r.asPhrase.answerIn? settings postings' zone = r.answerIn? settings postings zone := by
  have limit : r.arrangement.limit? = some threshold.weight := by rw [scored]; rfl
  have spread : r.spread? = none := spread?_of_isOrdered (by rw [scored]; rfl)
  have limit' : r.asPhrase.arrangement.limit? = none := rfl
  have spread' : r.asPhrase.spread? = none := rfl
  have terms : r.asPhrase.terms = r.terms := rfl
  rw [answerIn?, answerIn?, limit, limit', spread, spread', terms, same]

/-- The zones that come into question depend on where the terms are registered. -/
theorem candidateZones_asPhrase (same : ∀ term, postings'.zones term = postings.zones term) :
    r.asPhrase.candidateZones settings postings' = r.candidateZones settings postings := by
  unfold candidateZones asPhrase
  cases r.terms with
  | nil => rfl
  | cons term rest => simp only [same]

/--
Where the terms are registered and resolved alike, a scored phrase has the outcome of a plain one and
leaves the same spans.
-/
theorem outcome_and_record_asPhrase (settings : Settings) (sensible : r.check = .ok ())
    (scored : r.arrangement = .scoredPhrase threshold)
    (registered : ∀ term, postings'.zones term = postings.zones term)
    (resolved : ∀ zone, Lineup.resolve? postings' zone none r.terms =
      Lineup.resolve? postings zone (some threshold.weight) r.terms) :
    r.asPhrase.outcome settings postings' = r.outcome settings postings ∧
      Query.record ⟨settings, r.asPhrase⟩ postings' = Query.record ⟨settings, r⟩ postings := by
  have candidates : r.asPhrase.candidateZones settings postings' =
      r.candidateZones settings postings := candidateZones_asPhrase registered
  have found : r.asPhrase.answers settings postings' = r.answers settings postings := by
    unfold answers
    simp only [candidates, answerIn?_asPhrase scored (resolved _)]
  constructor
  · rw [outcome, outcome, found, candidates]
  · rw [Query.record, Query.record]
    simp only [sensible, check_asPhrase sensible, found]

/--
A scored phrase has the outcome that the plain phrase has in the document without the positions that
weigh more than the threshold, and leaves the same spans; in a document without weights there is no
difference between the two.
-/
theorem evaluate_of_scoredPhrase (settings : Settings) (document : DocumentIndex)
    (sensible : r.check = .ok ()) (scored : r.arrangement = .scoredPhrase threshold) :
    ∃ outcome spans,
      r.evaluate settings document = (.ok outcome, { document with spans }) ∧
      r.asPhrase.evaluate settings (document.upTo threshold.weight) =
        (.ok outcome, { document.upTo threshold.weight with spans }) ∧
      (document.postings.IsUnscored →
        r.asPhrase.evaluate settings document = (.ok outcome, { document with spans })) := by
  have sensible' := check_asPhrase sensible
  have lighter := outcome_and_record_asPhrase settings sensible scored
    (fun term => document.postings.zones_upTo threshold.weight term)
    fun zone => Lineup.resolve?_upTo threshold.weight
  refine ⟨_, _, evaluate_eq settings document sensible, ?_, fun unscored => ?_⟩
  · rw [evaluate_eq settings _ sensible', ← lighter.1, ← lighter.2]
    rfl
  · have plain := outcome_and_record_asPhrase settings sensible scored
      (fun _ => rfl) fun zone => (Lineup.resolve?_of_isUnscored threshold.weight unscored).symm
    rw [evaluate_eq settings _ sensible', plain.1, plain.2]

/-- Asks for two terms that score at least -0.2. -/
def sampleScored : Request where
  arrangement := .scoredPhrase ⟨0xBE4CCCCD⟩
  terms := ["a", "b"]

/-- A document in which the position that would give the first span is too heavy. -/
def sampleWeights : DocumentIndex where
  postings := ((∅ : Postings).put "a" ⟨"BODY", true, "doc"⟩
    [{ offset := 3, weight := some 5000000 }, { offset := 4, weight := some 500000 }]).put
    "b" ⟨"BODY", true, "doc"⟩ [{ offset := 5, weight := some 1000000, skips := 1 }, { offset := 9 }]

/-- Over a document with weights, and over one without. -/
theorem evaluate_of_scoredPhrase_sample :
    sampleScored.check = .ok () ∧ sampleScored.arrangement = .scoredPhrase ⟨0xBE4CCCCD⟩ ∧
      (∃ outcome spans,
        sampleScored.evaluate .standard sampleWeights =
          (.ok outcome, { sampleWeights with spans }) ∧
        sampleScored.asPhrase.evaluate .standard (sampleWeights.upTo 2000000) =
          (.ok outcome, { sampleWeights.upTo 2000000 with spans })) ∧
      samplePostings.IsUnscored ∧ ∃ outcome spans,
        sampleScored.evaluate .standard { postings := samplePostings } =
          (.ok outcome, { postings := samplePostings, spans }) ∧
        sampleScored.asPhrase.evaluate .standard { postings := samplePostings } =
          (.ok outcome, { postings := samplePostings, spans }) := by
  have sensible : sampleScored.check = .ok () := by decide
  have weight : Score.weight ⟨0xBE4CCCCD⟩ = 2000000 := by decide +kernel
  have unscored : samplePostings.IsUnscored := by decide
  obtain ⟨outcome, spans, scored, plain, -⟩ :=
    evaluate_of_scoredPhrase .standard sampleWeights sensible rfl
  obtain ⟨outcome', spans', scored', -, plain'⟩ :=
    evaluate_of_scoredPhrase .standard { postings := samplePostings } sensible rfl
  rw [weight] at plain
  exact ⟨sensible, rfl, ⟨outcome, spans, scored, plain⟩, unscored, outcome', spans', scored',
    plain' unscored⟩

end Request

/-! ### Higher and lower thresholds -/

namespace Lineup

variable {postings : Postings} {zone : Zone.Id} {limit limit' : Option Weight} {terms : List String}

theorem usable_subset (looser : ∀ p : Position, limit.all p.isWithin = true →
    limit'.all p.isWithin = true) (term : String) :
    usable postings zone limit term ⊆ usable postings zone limit' term := by
  intro p mem
  obtain ⟨found, kept⟩ := List.mem_filter.1 mem
  exact List.mem_filter.2 ⟨found, looser p kept⟩

/-- A chain stays one when more positions are usable. -/
theorem Chain.of_usable_subset {chain : List Position}
    (more : ∀ term, usable postings zone limit term ⊆ usable postings zone limit' term)
    (isChain : (lineUp postings zone limit terms).Chain chain) :
    (lineUp postings zone limit' terms).Chain chain := by
  -- A slot of one of the lineups is a slot of the other one, for the same term.
  have slot {i : Nat} {s : Slot} (hs : (lineUp postings zone limit' terms).slots[i]? = some s) :
      s.positions = usable postings zone limit' s.term ∧
        (lineUp postings zone limit terms).slots[i]? =
          some ⟨s.term, usable postings zone limit s.term⟩ := by
    rw [getElem?_slots_lineUp] at hs ⊢
    obtain ⟨term, here, rfl⟩ := Option.map_eq_some_iff.1 hs
    exact ⟨rfl, by rw [here]; rfl⟩
  have length : (lineUp postings zone limit' terms).slots.length =
      (lineUp postings zone limit terms).slots.length :=
    (List.length_map _).trans (List.length_map _).symm
  refine ⟨⟨⟨?_, fun i s p hs hp => ?_, fun i j s t p q lt hs ht term hp hq => ?_⟩, isChain.hops⟩, ?_⟩
  · rw [length]
    exact isChain.length_le
  · obtain ⟨positions, here⟩ := slot hs
    rw [positions]
    exact more s.term (isChain.mem_positions i _ p here hp)
  · exact isChain.apart i j _ _ p q lt (slot hs).2 (slot ht).2 term hp hq
  · rw [length]
    exact isChain.length_eq

end Lineup

namespace Request

variable {r r' : Request} {settings : Settings} {document : DocumentIndex}

/-- The request for the same terms as a phrase over positions that score at least a threshold. -/
def scoredAt (r : Request) (threshold : Score) : Request :=
  { r with arrangement := .scoredPhrase threshold }

/-- Whether two requests are answered so that the second one matches all that the first one does. -/
def IncludedIn (r r' : Request) (settings : Settings) (document : DocumentIndex) : Prop :=
  ∃ outcome outcome', r.Reports settings document outcome ∧ r'.Reports settings document outcome' ∧
    (∀ zone, r.Matches settings document.postings zone →
      r'.Matches settings document.postings zone) ∧
    ∀ name ∈ outcome.matched.entries, name ∈ outcome'.matched.entries

/-- Requests that look at the same zones are compared zone by zone. -/
theorem includedIn_of_answered (sensible : r.check = .ok ()) (sensible' : r'.check = .ok ())
    (same : r'.candidateZones settings document.postings =
      r.candidateZones settings document.postings)
    (kept : ∀ zone, (r.answerIn? settings document.postings zone).isSome →
      (r'.answerIn? settings document.postings zone).isSome) :
    r.IncludedIn r' settings document := by
  have reports := reports_outcome settings document sensible
  have reports' := reports_outcome settings document sensible'
  have every (zone : Zone.Id) (isMatch : r.Matches settings document.postings zone) :
      r'.Matches settings document.postings zone := by
    refine ⟨?_, kept zone isMatch.answered⟩
    unfold Considers
    rw [same]
    exact isMatch.considered
  refine ⟨_, _, reports, reports', every, fun name matched => ?_⟩
  obtain ⟨zone, isMatch, named⟩ := (reports.matched name).1 matched
  exact (reports'.matched name).2 ⟨zone, every zone isMatch, named⟩

/-- Among phrases for the same terms, one with a looser limit loses no zone. -/
theorem includedIn_of_looser {a a' : Arrangement}
    (sensible : { r with arrangement := a }.check = .ok ())
    (sensible' : { r with arrangement := a' }.check = .ok ())
    (inOrder : a.isOrdered = true) (inOrder' : a'.isOrdered = true)
    (looser : ∀ p : Position, a.limit?.all p.isWithin = true → a'.limit?.all p.isWithin = true) :
    { r with arrangement := a }.IncludedIn { r with arrangement := a' } settings document := by
  refine includedIn_of_answered sensible sensible' rfl fun zone answered => ?_
  rw [isSome_answerIn?_iff_chain (terms_ne_nil_of_check sensible) inOrder] at answered
  rw [isSome_answerIn?_iff_chain (terms_ne_nil_of_check sensible') inOrder']
  obtain ⟨chain, isChain⟩ := answered
  exact ⟨chain, isChain.of_usable_subset (Lineup.usable_subset looser)⟩

theorem isFinite_of_check {threshold : Score} (sensible : (r.scoredAt threshold).check = .ok ()) :
    threshold.isFinite = true := by
  have number := (check_eq_ok_iff.1 sensible).1
  change (if threshold.isFinite then _ else _) = _ at number
  by_contra infinite
  rw [if_neg infinite] at number
  contradiction

/--
A score that is at least as high weighs no more, so it passes a threshold below it, and one that is
lower by a ten-millionth does not; and whatever matches with some threshold matches with a lower one,
and as a plain phrase.
-/
theorem matches_antitone_threshold :
    (∀ s t : Score, s.isNaN = false → t.isNaN = false → t.value ≤ s.value →
      s.weight ≤ t.weight ∧ ∀ p : Position, (p.withScore s).isWithin t.weight = true) ∧
    (∀ s t : Score, s.isFinite = true → t.isFinite = true →
      |s.number| ≤ 9 * 10 ^ 11 → |t.number| ≤ 9 * 10 ^ 11 → 1 / 10 ^ 7 ≤ t.number - s.number →
        ∀ p : Position, (p.withScore s).isWithin t.weight = false) ∧
    ∀ (r : Request) (settings : Settings) (document : DocumentIndex) (low high : Score),
      (r.scoredAt low).check = .ok () → (r.scoredAt high).check = .ok () → low.value ≤ high.value →
        (r.scoredAt high).IncludedIn (r.scoredAt low) settings document ∧
          (r.scoredAt low).IncludedIn r.asPhrase settings document := by
  refine ⟨fun s t isNumber isNumber' le => ?_, fun s t finite finite' bounded bounded' gap p => ?_,
    fun r settings document low high sensible sensible' le => ⟨?_, ?_⟩⟩
  · exact ⟨Score.weight_le_of_value_le isNumber isNumber' le,
      fun p => p.isWithin_of_value_le isNumber isNumber' le⟩
  · have room : 900000000000 * Score.scale < 2 ^ 63 := by decide
    rw [Position.isWithin_withScore, decide_eq_false_iff_not, Int64.not_le]
    refine Score.weight_lt_of_gap room finite finite' ?_ ?_ ?_
    · exact bounded.trans_eq (by norm_num)
    · exact bounded'.trans_eq (by norm_num)
    · exact le_trans (by norm_num [Score.scale]) gap
  · refine includedIn_of_looser sensible' sensible rfl rfl fun p passes => ?_
    have isNumber := Score.isNaN_of_isFinite (isFinite_of_check sensible)
    have isNumber' := Score.isNaN_of_isFinite (isFinite_of_check sensible')
    exact Position.isWithin_mono (Score.weight_le_of_value_le isNumber' isNumber le) passes
  · exact includedIn_of_looser sensible (check_asPhrase (r := r.scoredAt low) sensible) rfl rfl
      fun p _ => rfl

/-- Over a half and a quarter below zero, and a document in which the threshold matters. -/
theorem matches_antitone_threshold_sample :
    let s : Score := ⟨0xBF000000⟩
    let t : Score := ⟨0xBE800000⟩
    (s.isNaN = false ∧ t.isNaN = false ∧ s.value ≤ t.value ∧
      t.weight ≤ s.weight ∧ ∀ p : Position, (p.withScore t).isWithin s.weight = true) ∧
    (s.isFinite = true ∧ t.isFinite = true ∧ |s.number| ≤ 9 * 10 ^ 11 ∧ |t.number| ≤ 9 * 10 ^ 11 ∧
      1 / 10 ^ 7 ≤ t.number - s.number ∧
        ∀ p : Position, (p.withScore s).isWithin t.weight = false) ∧
    (sampleScored.scoredAt s).check = .ok () ∧ (sampleScored.scoredAt t).check = .ok () ∧
      (sampleScored.scoredAt t).IncludedIn (sampleScored.scoredAt s) .standard sampleWeights ∧
      (sampleScored.scoredAt s).IncludedIn sampleScored.asPhrase .standard sampleWeights := by
  intro s t
  have finite : s.isFinite = true := by decide
  have finite' : t.isFinite = true := by decide
  have isNumber := Score.isNaN_of_isFinite finite
  have isNumber' := Score.isNaN_of_isFinite finite'
  have unitDen : Numeric.Format.single.unitDen = 2 ^ 149 := rfl
  have half : s.number = -(1 / 2) := by
    have units : s.signedUnits = -(2 ^ 148) := by decide +kernel
    rw [Score.number, units, unitDen]
    norm_num
  have quarter : t.number = -(1 / 4) := by
    have units : t.signedUnits = -(2 ^ 147) := by decide +kernel
    rw [Score.number, units, unitDen]
    norm_num
  have le : s.value ≤ t.value := by
    rw [Score.value_of_isFinite finite, Score.value_of_isFinite finite', WithBot.coe_le_coe,
      WithTop.coe_le_coe, half, quarter]
    norm_num
  have bounded : |s.number| ≤ 9 * 10 ^ 11 := by rw [half]; norm_num [abs_le]
  have bounded' : |t.number| ≤ 9 * 10 ^ 11 := by rw [quarter]; norm_num [abs_le]
  have gap : 1 / 10 ^ 7 ≤ t.number - s.number := by rw [half, quarter]; norm_num
  have sensible : (sampleScored.scoredAt s).check = .ok () := by decide
  have sensible' : (sampleScored.scoredAt t).check = .ok () := by decide
  obtain ⟨weights, apart, matched⟩ := matches_antitone_threshold
  obtain ⟨weight_le, within⟩ := weights t s isNumber' isNumber le
  obtain ⟨low, plain⟩ := matched sampleScored .standard sampleWeights s t sensible sensible' le
  exact ⟨⟨isNumber, isNumber', le, weight_le, within⟩,
    ⟨finite, finite', bounded, bounded', gap, apart s t finite finite' bounded bounded' gap⟩,
    sensible, sensible', low, plain⟩

end Request

end TermProximity
