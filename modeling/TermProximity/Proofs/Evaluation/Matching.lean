import TermProximity.Proofs.DocumentIndex.History
import TermProximity.Proofs.Evaluation.Outcome

/-!
# Matching — which zones a request matches, told zone by zone

A zone is matched when it comes into question and the terms are found in it as they are to be
arranged.  The first depends on the mark with which the first term has the zone registered, the
second on positions alone: a window or a chain can be taken in the zone.

* `Request.reports_outcome`: the outcome of a request names the zones that it matches;
* `Request.considers_iff_admits`: a zone comes into question if the filter admits it with the mark
  that the first term has for it;
* `Request.considers_of_byName`: where a filter goes by names, or by nothing, no mark is looked at;
* `Request.isSome_answerIn?_iff_window`, `Request.isSome_answerIn?_iff_adjacent`,
  `Request.isSome_answerIn?_iff_chain`: what is found in a zone.
-/

namespace TermProximity

/-! ### Zones of a term -/

/-- A term is registered in every zone in which it has a position. -/
theorem Postings.exists_zone?_of_positions_ne_nil {postings : Postings} {term : String}
    {zone : Zone.Id} (occurs : postings.positions term zone ≠ []) :
    ∃ z, (postings.occurrencesOf term).zone? zone = some z := by
  rw [positions_eq_positionsIn] at occurs
  unfold Occurrences.zone?
  unfold Occurrences.positionsIn at occurs
  cases here : (postings.occurrencesOf term).find? zone with
  | none =>
    rw [here] at occurs
    exact absurd rfl occurs
  | some e => exact ⟨e.zone, rfl⟩

/-- A filter that goes by names, or by nothing, does not tell zones of one name apart. -/
theorem Zone.Filter.admits_congr {filter : Zone.Filter} {expansionOnly : Bool} {z z' : Zone}
    (byName : filter.isAll = false ∨ expansionOnly = false) (same : z.name = z'.name) :
    filter.admits expansionOnly z = filter.admits expansionOnly z' := by
  cases filter with
  | all =>
    rcases byName with named | everything
    · contradiction
    · rw [everything]
      rfl
  | named name => rw [admits, admits, same]
  | anyOf names => rw [admits, admits, same]

namespace Request

/-- Whether every term of a request has a position in a zone. -/
def Occurs (r : Request) (postings : Postings) (zone : Zone.Id) : Prop :=
  ∀ term ∈ r.terms, postings.positions term zone ≠ []

/-- Whether a zone is one of those that come into question. -/
def Considers (r : Request) (settings : Settings) (postings : Postings) (zone : Zone.Id) : Prop :=
  ∃ z ∈ r.candidateZones settings postings, z.id = zone

instance (r : Request) (postings : Postings) (zone : Zone.Id) :
    Decidable (r.Occurs postings zone) :=
  inferInstanceAs (Decidable (∀ term ∈ r.terms, postings.positions term zone ≠ []))

instance (r : Request) (settings : Settings) (postings : Postings) (zone : Zone.Id) :
    Decidable (r.Considers settings postings zone) :=
  inferInstanceAs (Decidable (∃ z ∈ r.candidateZones settings postings, z.id = zone))

/-- Whether a zone comes into question and the terms are found in it. -/
structure Matches (r : Request) (settings : Settings) (postings : Postings) (zone : Zone.Id) :
    Prop where
  considered : r.Considers settings postings zone
  answered : (r.answerIn? settings postings zone).isSome

/-- A request is accepted, and the outcome that it gets names the zones that it matches. -/
structure Reports (r : Request) (settings : Settings) (document : DocumentIndex)
    (outcome : Outcome) : Prop where
  accepted : (r.evaluate settings document).1 = .ok outcome
  matched : ∀ name, name ∈ outcome.matched.entries ↔
    ∃ zone, r.Matches settings document.postings zone ∧ zone.name = name

variable {r r' : Request} {settings : Settings} {postings : Postings} {zone : Zone.Id}

theorem mem_matched_outcome_iff_matches {name : String} :
    name ∈ (r.outcome settings postings).matched.entries ↔
      ∃ zone, r.Matches settings postings zone ∧ zone.name = name := by
  rw [mem_matched_outcome]
  constructor
  · rintro ⟨z, candidate, answered, rfl⟩
    exact ⟨z.id, ⟨⟨z, candidate, rfl⟩, answered⟩, rfl⟩
  · rintro ⟨zone, ⟨⟨z, candidate, rfl⟩, answered⟩, rfl⟩
    exact ⟨z, candidate, answered, rfl⟩

/-- The outcome of a sensible request names the zones that it matches. -/
theorem reports_outcome (settings : Settings) (document : DocumentIndex)
    (sensible : r.check = .ok ()) :
    r.Reports settings document (r.outcome settings document.postings) := by
  constructor
  · rw [evaluate_eq settings document sensible]
  · exact fun name => mem_matched_outcome_iff_matches

/-! ### Zones that come into question -/

/-- The filter is asked about a zone with the mark that the first term has for it. -/
theorem considers_iff_admits {first : String} (head : r.terms.head? = some first) {z : Zone}
    (found : (postings.occurrencesOf first).zone? zone = some z) :
    r.Considers settings postings zone ↔ r.zones.admits settings.expansionZonesOnly z = true := by
  have same := Occurrences.id_of_zone? found
  unfold Considers
  rw [candidateZones_eq head]
  constructor
  · rintro ⟨z', candidate, same'⟩
    obtain ⟨registered, admitted⟩ := List.mem_filter.1 candidate
    rw [Postings.mem_zones_iff, same', found] at registered
    exact Option.some.inj registered ▸ admitted
  · intro admitted
    have registered : z ∈ postings.zones first := by
      rwa [Postings.mem_zones_iff, same]
    exact ⟨z, List.mem_filter.2 ⟨registered, admitted⟩, same⟩

/-- In a zone that answers, every term occurs. -/
theorem occurs_of_answerIn? (answered : (r.answerIn? settings postings zone).isSome) :
    r.Occurs postings zone := by
  intro term mem none_there
  obtain ⟨l, resolved, -⟩ := isSome_answerIn?_iff.1 answered
  apply (Lineup.resolve?_eq_some_iff.1 resolved).1 term mem
  rw [Lineup.usable, none_there, List.filter_nil]

/--
A zone that comes into question for one request does so for another one with the same filter, if it
answers that one and the filter goes by names or the settings ask for no marks.
-/
theorem considers_of_byName (byName : r.zones.isAll = false ∨ settings.expansionZonesOnly = false)
    (same_zones : r'.zones = r.zones) (some_term : r'.terms ≠ [])
    (considered : r.Considers settings postings zone)
    (answered : (r'.answerIn? settings postings zone).isSome) :
    r'.Considers settings postings zone := by
  obtain ⟨z, candidate, same⟩ := considered
  obtain ⟨first, head⟩ := Option.isSome_iff_exists.1 (List.isSome_head?.2 some_term)
  have occurs := occurs_of_answerIn? answered first (List.mem_of_head? head)
  obtain ⟨z', found⟩ := Postings.exists_zone?_of_positions_ne_nil occurs
  have admitted : r.zones.admits settings.expansionZonesOnly z = true := by
    cases terms : r.terms with
    | nil => simp [candidateZones, terms] at candidate
    | cons term rest =>
      have head : r.terms.head? = some term := by
        rw [terms]
        rfl
      rw [candidateZones_eq head] at candidate
      exact (List.mem_filter.1 candidate).2
  -- The term that comes first there is registered in the zone, though maybe with another mark.
  have same_name : z'.name = z.name :=
    congrArg Zone.Id.name ((Occurrences.id_of_zone? found).trans same.symm)
  rwa [considers_iff_admits head found, same_zones, Zone.Filter.admits_congr byName same_name]

end Request

/-! ### Zones that answer -/

namespace Lineup

variable {postings : Postings} {zone : Zone.Id} {limit : Option Weight} {terms : List String}

theorem getElem?_slots_lineUp (i : Nat) :
    (lineUp postings zone limit terms).slots[i]? =
      terms[i]?.map fun term => ⟨term, usable postings zone limit term⟩ := List.getElem?_map ..

/-- Every term of a lineup that can be bound has a usable position. -/
theorem usable_ne_nil_of_binding {chosen : List Position}
    (binding : (lineUp postings zone limit terms).Binding chosen) :
    ∀ term ∈ terms, usable postings zone limit term ≠ [] := by
  intro term mem
  obtain ⟨i, at_i⟩ := List.getElem?_of_mem mem
  have slot : (lineUp postings zone limit terms).slots[i]? =
      some ⟨term, usable postings zone limit term⟩ := by
    rw [getElem?_slots_lineUp, at_i]
    rfl
  have inside : i < chosen.length := binding.length_eq ▸ (List.getElem?_eq_some_iff.1 slot).1
  exact List.ne_nil_of_mem (binding.mem_positions i _ _ slot (List.getElem?_eq_getElem inside))

end Lineup

namespace Request

variable {r : Request} {settings : Settings} {postings : Postings} {zone : Zone.Id}

/-- A zone answers if what its arrangement asks for can be bound in it. -/
theorem isSome_answerIn?_iff_exists {Good : List Position → Prop}
    (binding : ∀ chosen, Good chosen → (r.lineupIn postings zone).Binding chosen)
    (finds : (r.lineupIn postings zone).Orderly →
      (r.Finds settings (r.lineupIn postings zone) ↔ ∃ chosen, Good chosen)) :
    (r.answerIn? settings postings zone).isSome ↔ ∃ chosen, Good chosen := by
  have orderly : (r.lineupIn postings zone).Orderly := Lineup.orderly_lineUp r.terms
  rw [isSome_answerIn?_iff, ← finds orderly]
  constructor
  · rintro ⟨l, resolved, found⟩
    obtain ⟨-, rfl⟩ := Lineup.resolve?_eq_some_iff.1 resolved
    exact found
  · intro found
    obtain ⟨chosen, good⟩ := (finds orderly).1 found
    have usable := Lineup.usable_ne_nil_of_binding (binding chosen good)
    exact ⟨_, Lineup.resolve?_eq_some_iff.2 ⟨usable, rfl⟩, found⟩

theorem slots_lineupIn_ne_nil (some_term : r.terms ≠ []) :
    (r.lineupIn postings zone).slots ≠ [] :=
  fun none_left => some_term (List.map_eq_nil_iff.1 none_left)

/-- The lineup is the same for every arrangement with the same limit. -/
theorem lineupIn_of_limit? {a : Arrangement} (same : a.limit? = r.arrangement.limit?) :
    { r with arrangement := a }.lineupIn postings zone = r.lineupIn postings zone := by
  rw [lineupIn, lineupIn, same]

/-- For terms in any order, a zone answers if there is a window in it. -/
theorem isSome_answerIn?_iff_window (some_term : r.terms ≠ []) {width : UInt32}
    (spread : r.spread? = some width) :
    (r.answerIn? settings postings zone).isSome ↔
      ∃ chosen, (r.lineupIn postings zone).Window width.toNat chosen := by
  refine isSome_answerIn?_iff_exists (fun chosen window => window.toBinding) fun orderly => ?_
  rw [finds_iff_of_spread? spread,
    (Lineup.scan_spec orderly (slots_lineupIn_ne_nil some_term) width).1]

/-- For adjacent terms, if there are not too many, the window is to have one offset for each. -/
theorem isSome_answerIn?_iff_adjacent (some_term : r.terms ≠ [])
    (few : r.terms.length ≤ UInt32.size) (adjacent : r.arrangement = .adjacent) :
    (r.answerIn? settings postings zone).isSome ↔
      ∃ chosen, (r.lineupIn postings zone).Window (r.terms.length - 1) chosen := by
  have spread : r.spread? = some (UInt32.ofNat (r.terms.length - 1)) := by rw [spread?, adjacent]
  rw [isSome_answerIn?_iff_window some_term spread, toNat_ofNat_length_sub_one few]

/-- For terms in order no width is given. -/
theorem spread?_of_isOrdered (inOrder : r.arrangement.isOrdered = true) : r.spread? = none := by
  unfold spread?
  cases arrangement : r.arrangement with
  | within _ => rw [arrangement] at inOrder; contradiction
  | adjacent => rw [arrangement] at inOrder; contradiction
  | phrase => rfl
  | scoredPhrase _ => rfl

/-- For terms in order, a zone answers if there is a chain in it. -/
theorem isSome_answerIn?_iff_chain (some_term : r.terms ≠ [])
    (inOrder : r.arrangement.isOrdered = true) :
    (r.answerIn? settings postings zone).isSome ↔
      ∃ chain, (r.lineupIn postings zone).Chain chain := by
  refine isSome_answerIn?_iff_exists (fun chain isChain => isChain.toBinding) fun orderly => ?_
  unfold Finds
  rw [spread?_of_isOrdered inOrder]
  exact (shows_search settings inOrder orderly (slots_lineupIn_ne_nil some_term)).2

end Request

end TermProximity
