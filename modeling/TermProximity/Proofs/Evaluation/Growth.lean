import TermProximity.Proofs.DocumentIndex.History
import TermProximity.Proofs.Evaluation.Outcome

/-!
# Growth — insertions never lose an answer

Insertions keep the zones that are registered and the positions that stand in them
(`Postings.Extends`).  What could be taken in a lineup can still be taken then, so a chain remains a
chain and a window a window, and whatever else has come in can only be found earlier.

* `Postings.extends_applyAll`: no operation takes anything from the postings;
* `Lineup.Extends.noLater`: in a lineup with more positions, spans and windows begin no later;
* `Request.evaluate_applyAll`: after any operations every name that matched still does.
-/

namespace TermProximity

/-! ### Postings -/

/-- Where the first of two entries of one key stays, the entries in front all stay. -/
theorem KeyedList.mem_entries_append {α κ : Type} [Ord κ] [Entry α κ] [Std.TransOrd κ]
    [Std.LawfulEqOrd κ] (first : ∀ a b : α, Entry.join a b = a) {xs ys : KeyedList α} {a : α}
    (mem : a ∈ xs.entries) : a ∈ (xs ++ ys).entries := by
  have found : (xs ++ ys).find? (Entry.key a) = some a := by
    rw [find?_append, find?_key mem]
    cases ys.find? (Entry.key a) with
    | none => rfl
    | some b => exact congrArg some (first a b)
  exact (find?_eq_some_iff.1 found).1

namespace Postings

/-- Postings that have all zones of others, each with its mark, and all positions in them. -/
structure Extends (more fewer : Postings) : Prop where
  zones : ∀ term, ∀ zone ∈ fewer.zones term, zone ∈ more.zones term
  positions : ∀ term zone, ∀ p ∈ fewer.positions term zone, p ∈ more.positions term zone

theorem Extends.refl (postings : Postings) : postings.Extends postings :=
  ⟨fun _ _ h => h, fun _ _ _ h => h⟩

theorem Extends.trans {a b c : Postings} (h : a.Extends b) (h' : b.Extends c) : a.Extends c :=
  ⟨fun term zone mem => h.zones term zone (h'.zones term zone mem),
    fun term zone p mem => h.positions term zone p (h'.positions term zone p mem)⟩

/-- What comes in behind postings takes nothing from them. -/
theorem extends_append (postings more : Postings) : (postings ++ more).Extends postings := by
  constructor
  · intro term zone mem
    rw [mem_zones_iff] at mem ⊢
    rw [occurrencesOf_append, Occurrences.zone?_append, mem, Option.some_or]
  · intro term zone p mem
    rw [positions_eq_positionsIn] at mem ⊢
    rw [occurrencesOf_append, Occurrences.positionsIn_append]
    exact KeyedList.mem_entries_append (fun _ _ => rfl) mem

end Postings

/-- An index after some more operations. -/
def DocumentIndex.applyAll (d : DocumentIndex) (ops : List Operation) : DocumentIndex :=
  ops.foldl Operation.apply d

/-- No operation takes anything from the postings. -/
theorem Postings.extends_applyAll (d : DocumentIndex) (ops : List DocumentIndex.Operation) :
    (d.applyAll ops).postings.Extends d.postings := by
  unfold DocumentIndex.applyAll
  induction ops generalizing d with
  | nil => exact Extends.refl d.postings
  | cons op ops ih =>
    have step : (op.apply d).postings.Extends d.postings := by
      rw [DocumentIndex.Operation.postings_apply]
      exact extends_append ..
    exact (ih (op.apply d)).trans step

/-! ### Lineups -/

namespace Lineup

/-- A lineup whose slots have the positions of those of another one, and maybe more. -/
structure Extends (more fewer : Lineup) : Prop where
  length_eq : more.slots.length = fewer.slots.length
  slot : ∀ (i : Nat) (s : Slot), more.slots[i]? = some s →
    ∃ t, fewer.slots[i]? = some t ∧ t.term = s.term ∧ ∀ p ∈ t.positions, p ∈ s.positions

variable {more fewer : Lineup} {chosen : List Position}

namespace Extends

theorem binding (h : more.Extends fewer) (binding : fewer.Binding chosen) : more.Binding chosen where
  length_le := h.length_eq ▸ binding.length_le
  length_eq := binding.length_eq.trans h.length_eq.symm
  mem_positions i s p slot taken := by
    obtain ⟨t, slot', -, subset⟩ := h.slot i s slot
    exact subset p (binding.mem_positions i t p slot' taken)
  apart i j s t p q lt slot slot' term taken taken' := by
    obtain ⟨s', fewer_slot, same, -⟩ := h.slot i s slot
    obtain ⟨t', fewer_slot', same', -⟩ := h.slot j t slot'
    have term' : s'.term = t'.term := same.trans (term.trans same'.symm)
    exact binding.apart i j s' t' p q lt fewer_slot fewer_slot' term' taken taken'

theorem chain (h : more.Extends fewer) (chain : fewer.Chain chosen) : more.Chain chosen :=
  { h.binding chain.toBinding with hops := chain.hops }

theorem beginsWindow (h : more.Extends fewer) {width anchor : Nat}
    (begins : fewer.BeginsWindow width anchor) : more.BeginsWindow width anchor := by
  obtain ⟨chosen, window, least⟩ := begins
  exact ⟨chosen, ⟨h.binding window.toBinding, window.close⟩, least⟩

end Extends

/-- What is found in a lineup `later` is found in `l` too, or something that begins before it. -/
structure NoLater (l later : Lineup) : Prop where
  spans : ∀ every, ∀ s ∈ (later.search every {}).1, ∃ t ∈ (l.search every {}).1, t.first ≤ s.first
  windows : ∀ width anchor, (later.scan width).anchor = some anchor →
    ∃ anchor' ≤ anchor, (l.scan width).anchor = some anchor'

/-- The first of some spans in order begins no later than any of them. -/
theorem exists_mem_take_one {spans : List Span} {s : Span}
    (ascending : spans.Pairwise fun s t => s.first < t.first) (mem : s ∈ spans) :
    ∃ t ∈ spans.take 1, t.first ≤ s.first := by
  cases spans with
  | nil => cases mem
  | cons t spans =>
    refine ⟨t, List.mem_cons_self, ?_⟩
    rcases List.mem_cons.1 mem with rfl | mem
    · exact UInt32.le_refl _
    · exact UInt32.le_of_lt ((List.pairwise_cons.1 ascending).1 s mem)

/-- In a lineup with more positions, what was found is found again, or something before it. -/
theorem Extends.noLater (h : more.Extends fewer) (ordered : more.Orderly)
    (ordered' : fewer.Orderly) (slots : fewer.slots ≠ []) : more.NoLater fewer := by
  obtain ⟨all, first⟩ := ChainSearch.spans_search ordered
  obtain ⟨all', first'⟩ := ChainSearch.spans_search ordered'
  have again : ∀ s ∈ (fewer.search true {}).1, ∃ t ∈ (more.search true {}).1, t.first = s.first := by
    intro s mem
    obtain ⟨p, chain, isLeast, start, -⟩ := all'.least s mem
    rw [start]
    exact all.begun p chain (h.chain isLeast.toChain) isLeast.begins
  constructor
  · intro every s mem
    cases every with
    | true =>
      obtain ⟨t, found, same⟩ := again s mem
      exact ⟨t, found, UInt32.le_of_eq same⟩
    | false =>
      rw [first'] at mem
      obtain ⟨t, found, same⟩ := again s (List.mem_of_mem_take mem)
      rw [first, ← same]
      exact exists_mem_take_one all.ascending found
  · intro width anchor found
    have more_slots : more.slots ≠ [] := by
      intro none_left
      rw [← List.length_eq_zero_iff, h.length_eq, List.length_eq_zero_iff] at none_left
      exact slots none_left
    obtain ⟨isSome_iff, least⟩ := scan_spec ordered more_slots width
    have begins := h.beginsWindow ((scan_spec ordered' slots width).2 anchor found).1
    have some_window : ∃ chosen, more.Window width.toNat chosen :=
      begins.imp fun chosen window => window.1
    obtain ⟨anchor', found'⟩ := Option.isSome_iff_exists.1 (isSome_iff.2 some_window)
    exact ⟨anchor', (least anchor' found').2 begins, found'⟩

variable {postings postings' : Postings} {zone : Zone.Id} {limit : Option Weight}
  {terms : List String} {l : Lineup}

/-- Terms that are resolved still are, and to a lineup that has all the positions. -/
theorem exists_resolve?_of_extends (h : postings'.Extends postings)
    (resolved : resolve? postings zone limit terms = some l) :
    ∃ l', resolve? postings' zone limit terms = some l' ∧ l'.Extends l := by
  obtain ⟨some_usable, rfl⟩ := resolve?_eq_some_iff.1 resolved
  have subset (term : String) : ∀ p ∈ usable postings zone limit term,
      p ∈ usable postings' zone limit term := by
    intro p mem
    obtain ⟨mem, passes⟩ := List.mem_filter.1 mem
    exact List.mem_filter.2 ⟨h.positions term zone p mem, passes⟩
  refine ⟨_, resolve?_eq_some_iff.2 ⟨fun term mem => ?_, rfl⟩, ?_⟩
  · obtain ⟨p, hp⟩ := List.exists_mem_of_ne_nil _ (some_usable term mem)
    exact List.ne_nil_of_mem (subset term p hp)
  · refine ⟨by simp [lineUp], fun i s slot => ?_⟩
    rw [lineUp, List.getElem?_map] at slot
    obtain ⟨term, at_i, rfl⟩ := Option.map_eq_some_iff.1 slot
    refine ⟨⟨term, usable postings zone limit term⟩, ?_, rfl, subset term⟩
    rw [lineUp, List.getElem?_map, at_i]
    rfl

/-- What a zone is searched for is found no later once more has come in. -/
theorem exists_noLater_of_extends (h : postings'.Extends postings) (some_term : terms ≠ [])
    (resolved : resolve? postings zone limit terms = some l) :
    ∃ l', resolve? postings' zone limit terms = some l' ∧ l'.NoLater l := by
  obtain ⟨l', resolved', extends_l⟩ := exists_resolve?_of_extends h resolved
  exact ⟨l', resolved', extends_l.noLater (orderly_of_resolve? resolved')
    (orderly_of_resolve? resolved) (slots_ne_nil_of_resolve? some_term resolved)⟩

end Lineup

/-! ### Requests -/

namespace Request

variable {r : Request} {settings : Settings} {postings postings' : Postings}

theorem mem_candidateZones_of_extends (h : postings'.Extends postings) {zone : Zone}
    (mem : zone ∈ r.candidateZones settings postings) :
    zone ∈ r.candidateZones settings postings' := by
  unfold candidateZones at mem ⊢
  cases terms : r.terms with
  | nil => rw [terms] at mem; contradiction
  | cons first rest =>
    rw [terms] at mem
    obtain ⟨registered, admitted⟩ := List.mem_filter.1 mem
    exact List.mem_filter.2 ⟨h.zones first zone registered, admitted⟩

/-- What finds something in a lineup finds something where nothing is found later. -/
theorem Finds.of_noLater {l l' : Lineup} (noLater : l'.NoLater l) (finds : r.Finds settings l) :
    r.Finds settings l' := by
  unfold Finds at finds ⊢
  split at finds
  · obtain ⟨anchor, found⟩ := Option.isSome_iff_exists.1 finds
    obtain ⟨anchor', -, found'⟩ := noLater.windows _ anchor found
    exact Option.isSome_iff_exists.2 ⟨anchor', found'⟩
  · obtain ⟨s, mem⟩ := List.exists_mem_of_ne_nil _ finds
    obtain ⟨t, mem', -⟩ := noLater.spans _ s mem
    exact List.ne_nil_of_mem mem'

/-- A zone that answers still does once more has come in. -/
theorem isSome_answerIn?_of_extends (h : postings'.Extends postings) (some_term : r.terms ≠ [])
    {zone : Zone.Id} (answered : (r.answerIn? settings postings zone).isSome) :
    (r.answerIn? settings postings' zone).isSome := by
  obtain ⟨l, resolved, finds⟩ := isSome_answerIn?_iff.1 answered
  obtain ⟨l', resolved', noLater⟩ := Lineup.exists_noLater_of_extends h some_term resolved
  exact isSome_answerIn?_iff.2 ⟨l', resolved', finds.of_noLater noLater⟩

/-- What it means that nothing is lost between two states of a document. -/
structure Keeps (r : Request) (settings : Settings) (earlier later : DocumentIndex)
    (before after : Outcome) : Prop where
  answered : (r.evaluate settings earlier).1 = .ok before
  answered_later : (r.evaluate settings later).1 = .ok after
  matched : ∀ name ∈ before.matched.entries, name ∈ after.matched.entries
  searched : ∀ zone ∈ r.candidateZones settings earlier.postings,
    zone ∈ r.candidateZones settings later.postings
  /-- In a zone that came into question, spans and windows are found no later. -/
  noLater : ∀ zone ∈ r.candidateZones settings earlier.postings, ∀ l,
    Lineup.resolve? earlier.postings zone.id r.arrangement.limit? r.terms = some l →
      ∃ l', Lineup.resolve? later.postings zone.id r.arrangement.limit? r.terms = some l' ∧
        l'.NoLater l

/--
After any operations every name that matched still does, and in each zone that came into question
the spans and the window that were found are found no later.
-/
theorem evaluate_applyAll (settings : Settings) (document : DocumentIndex)
    (ops : List DocumentIndex.Operation) (sensible : r.check = .ok ()) :
    ∃ before after, r.Keeps settings document (document.applyAll ops) before after := by
  have grown := Postings.extends_applyAll document ops
  have some_term := terms_ne_nil_of_check sensible
  refine ⟨r.outcome settings document.postings,
    r.outcome settings (document.applyAll ops).postings, ?_, ?_, fun name matched => ?_,
    fun zone candidate => mem_candidateZones_of_extends grown candidate,
    fun zone _ l resolved => Lineup.exists_noLater_of_extends grown some_term resolved⟩
  · rw [evaluate_eq settings _ sensible]
  · rw [evaluate_eq settings _ sensible]
  · obtain ⟨zone, candidate, answered, named⟩ := mem_matched_outcome.1 matched
    exact mem_matched_outcome.2 ⟨zone, mem_candidateZones_of_extends grown candidate,
      isSome_answerIn?_of_extends grown some_term answered, named⟩

/-- With positions put in between those of a phrase, and one that is there already. -/
theorem evaluate_applyAll_sample :
    sample.check = .ok () ∧
      ∃ before after, sample.Keeps .standard { postings := samplePostings }
        (DocumentIndex.applyAll { postings := samplePostings }
          [.put "a" ⟨"BODY", false, "doc"⟩ [{ offset := 2 }, { offset := 5, skips := 1 }],
            .install "b" (.inZone ⟨"BODY", true, "doc"⟩ [{ offset := 3 }])]) before after := by
  have sensible : sample.check = .ok () := by
    rfl
  exact ⟨sensible, evaluate_applyAll .standard { postings := samplePostings } _ sensible⟩

end Request

end TermProximity
