import TermProximity.Proofs.Chain.Partial
import TermProximity.Proofs.ChainSearch.Memo

/-!
# Chain search finds the least chains

Positions are tried in the order of their offsets, so the first chain that is found from a partial
chain on is the lexicographically least of all that begin with it (`Finds`).

* `runAfter?_spec`: the next position is taken exactly if it extends the partial chain;
* `ending?_spec`: by induction on the slots that are left, what is found from a partial chain on;
* `Lineup.search_of_resolve?`: a search finds one span for each position that begins a chain.
-/

namespace TermProximity

namespace ChainSearch

open Lineup

variable {l : Lineup} {bound : List Position} {here next : Position} {slot runStart : Nat} {s : Slot}

/-- The end of the least chain that begins with some positions, or nothing if no chain does. -/
def Finds (l : Lineup) (bound : List Position) : Option UInt32 → Prop
  | none => ∀ chain, l.Chain chain → ¬ bound <+: chain
  | some last => ∃ chain, l.LeastChain bound chain ∧ chain.getLast?.map (·.offset) = some last

/-! ### One slot -/

/-- The next position is taken exactly if it extends the partial chain, and then the run is kept. -/
theorem runAfter?_spec (ordered : l.Orderly) (partly : l.PartialChain bound)
    (length : bound.length = slot + 1) (runs : RunsFrom bound runStart here)
    (hs : l.slots[slot + 1]? = some s) (mem : next ∈ s.positions)
    (forward : here.offset ≤ next.offset) :
    match runAfter? l slot runStart s.term here next with
    | none => ¬ l.PartialChain (bound ++ [next])
    | some run => l.PartialChain (bound ++ [next]) ∧ RunsFrom (bound ++ [next]) run next := by
  rw [← length] at hs
  rw [partly.concat_iff ordered runs hs mem, Position.hop_iff, runAfter?, ← length]
  by_cases near : here.isClosedBy next = true
  · rw [if_pos near]
    by_cases same : next.offset = here.offset
    · rw [if_pos same]
      cases used : l.usesBetween runStart (bound.length - runStart) s.term with
      | true => simp [same]
      | false =>
        exact ⟨⟨⟨forward, near⟩, fun _ => rfl⟩, runs.concat_same same⟩
    · rw [if_neg same]
      have lt : here.offset < next.offset := UInt32.lt_of_le_of_ne forward (Ne.symm same)
      exact ⟨⟨⟨forward, near⟩, fun e => absurd e same⟩, runs.concat_apart lt⟩
  · rw [if_neg near]
    exact fun h => near h.1.2

/--
If from each candidate on the least chain is found, and candidates are tried in order, then the first
that is found is the least of all.
-/
theorem finds_findSome? {cs : List Candidate} {attempt : Candidate → Option UInt32}
    (ascending : cs.Pairwise fun c d => c.position.offset < d.position.offset)
    (each : ∀ c ∈ cs, Finds l (bound ++ [c.position]) (attempt c))
    (covered : ∀ chain, l.Chain chain → bound <+: chain →
      ∃ c ∈ cs, bound ++ [c.position] <+: chain) :
    Finds l bound (cs.findSome? attempt) := by
  cases found : cs.findSome? attempt with
  | none =>
    intro chain isChain begins
    obtain ⟨c, hc, begins⟩ := covered chain isChain begins
    have nothing := each c hc
    rw [List.findSome?_eq_none_iff.1 found c hc] at nothing
    exact nothing chain isChain begins
  | some last =>
    obtain ⟨earlier, c, later, rfl, hc, failed⟩ := List.findSome?_eq_some_iff.1 found
    have first := each c (by simp)
    rw [hc] at first
    obtain ⟨chain, isLeast, ends⟩ := first
    refine ⟨chain, ⟨isLeast.toChain, ?_, ?_⟩, ends⟩
    · exact (List.prefix_append bound [c.position]).trans isLeast.begins
    · intro other isChain begins
      obtain ⟨d, hd, begins⟩ := covered other isChain begins
      rcases List.mem_append.1 hd with hd | hd
      · have nothing := each d (List.mem_append_left _ hd)
        rw [failed d hd] at nothing
        exact absurd begins (nothing other isChain)
      · rcases List.mem_cons.1 hd with rfl | hd
        · exact isLeast.least other isChain begins
        · have after := (List.pairwise_append.1 ascending).2.1
          exact map_offset_le_of_lt ((List.pairwise_cons.1 after).1 d hd) isLeast.begins begins

/-! ### The slots that are left -/

/-- What is found from a partial chain on is the end of the least chain that begins with it. -/
theorem ending?_spec (ordered : l.Orderly) {rest : List Slot} (left : l.slots.drop (slot + 1) = rest)
    (partly : l.PartialChain bound) (length : bound.length = slot + 1)
    (runs : RunsFrom bound runStart here) :
    Finds l bound (ending? l (rest.map Slot.lane) slot runStart here) := by
  induction rest generalizing slot bound runStart here with
  | nil =>
    have whole : bound.length = l.slots.length :=
      Nat.le_antisymm partly.length_le (length ▸ List.drop_eq_nil_iff.1 left)
    refine ⟨bound, ⟨⟨partly, whole⟩, List.prefix_rfl, ?_⟩, ?_⟩
    · intro other isChain begins
      rw [begins.eq_of_length (whole.trans isChain.length_eq.symm)]
      exact List.le_refl _
    · rw [runs.last]
      rfl
  | cons s rest ih =>
    have hs : l.slots[slot + 1]? = some s := by
      rw [← Nat.add_zero (slot + 1), ← List.getElem?_drop, left]
      rfl
    have left' : l.slots.drop (slot + 1 + 1) = rest := by
      rw [← List.drop_drop, left]
      rfl
    have in_slots : s ∈ l.slots := List.mem_of_getElem? hs
    have ascending := ordered.ascending s in_slots
    rw [List.map_cons, ending?, Slot.candidatesFrom_lane_eq_filter here.offset ascending]
    refine finds_findSome? ((Slot.ascending_candidates ascending).filter _) ?_ ?_
    · intro c hc
      obtain ⟨hc, forward⟩ := List.mem_filter.1 hc
      have spec := runAfter?_spec ordered partly length runs hs
        (Slot.mem_positions_iff.2 ⟨c, hc, rfl⟩) (of_decide_eq_true forward)
      show Finds l _ ((runAfter? l slot runStart s.term here c.position).bind _)
      cases entered : runAfter? l slot runStart s.term here c.position with
      | none =>
        rw [entered] at spec
        intro chain isChain begins
        exact spec (isChain.toPartialChain.of_prefix begins)
      | some run =>
        rw [entered] at spec
        exact ih left' spec.1 (by rw [List.length_append, length]; rfl) spec.2
    · -- A chain goes on with a position of the next slot that does not stand before the last one.
      intro chain isChain begins
      obtain ⟨tail, rfl⟩ := begins
      cases tail with
      | nil =>
        have whole : bound.length = l.slots.length := by simpa using isChain.length_eq
        have := (List.getElem?_eq_some_iff.1 hs).1
        omega
      | cons q tail =>
        have begins : bound ++ [q] <+: bound ++ q :: tail := ⟨tail, by simp⟩
        have grown := isChain.toPartialChain.of_prefix begins
        have at_q : (bound ++ [q])[slot + 1]? = some q := by
          rw [← length]
          exact List.getElem?_concat_length
        have mem := grown.mem_positions (slot + 1) s q hs at_q
        rw [← length] at hs
        have hop := ((partly.concat_iff ordered runs hs mem).1 grown).1
        obtain ⟨c, hc, rfl⟩ := Slot.mem_positions_iff.1 mem
        refine ⟨c, List.mem_filter.2 ⟨hc, ?_⟩, begins⟩
        exact decide_eq_true (UInt32.le_iff_toNat_le.2 hop.forward)

/-! ### Whole searches -/

/-- From a position of the first slot on, the end of the least chain is found. -/
theorem finds_of_first {first : Slot} {rest : List Slot} (ordered : l.Orderly)
    (slots : l.slots = first :: rest) {p : Position} (mem : p ∈ first.positions) :
    Finds l [p] (ending? l (rest.map Slot.lane) 0 0 p) := by
  refine ending?_spec ordered (by rw [slots]; rfl) ?_ rfl (RunsFrom.single p)
  exact PartialChain.single (by rw [slots]; rfl) mem

/-- The spans found without a memo are those of the least chains. -/
theorem spans_spansOf (ordered : l.Orderly) : l.Spans (spansOf l) := by
  rw [spansOf, lanes_eq_map ordered.same]
  cases slots : l.slots with
  | nil =>
    refine ⟨List.Pairwise.nil, fun p chain isChain begins => ?_, fun s h => absurd h (by simp)⟩
    have none_bound : chain.length = 0 := isChain.length_eq.trans (congrArg List.length slots)
    exact absurd (none_bound ▸ begins.length_le) (by simp)
  | cons first rest =>
    have in_slots : first ∈ l.slots := slots ▸ List.mem_cons_self
    simp only [List.map_cons, candidates_lane]
    have found {c : Candidate} (hc : c ∈ first.candidates) :
        Finds l [c.position] (ending? l (rest.map Slot.lane) 0 0 c.position) :=
      finds_of_first ordered slots (Slot.mem_positions_iff.2 ⟨c, hc, rfl⟩)
    refine ⟨?_, ?_, ?_⟩
    · rw [List.pairwise_filterMap]
      refine (Slot.ascending_candidates (ordered.ascending first in_slots)).imp ?_
      intro c d lt s hs t ht
      obtain ⟨_, -, rfl⟩ := Option.map_eq_some_iff.1 hs
      obtain ⟨_, -, rfl⟩ := Option.map_eq_some_iff.1 ht
      exact lt
    · intro p chain isChain begins
      have mem : p ∈ first.positions := by
        refine isChain.mem_positions 0 first p (by rw [slots]; rfl) ?_
        obtain ⟨tail, rfl⟩ := begins
        rfl
      obtain ⟨c, hc, rfl⟩ := Slot.mem_positions_iff.1 mem
      have finds := found hc
      cases e : ending? l (rest.map Slot.lane) 0 0 c.position with
      | none =>
        rw [e] at finds
        exact absurd begins (finds chain isChain)
      | some last =>
        refine ⟨⟨c.position.offset, last⟩, List.mem_filterMap.2 ⟨c, hc, ?_⟩, rfl⟩
        rw [spanAt?, e]
        rfl
    · intro s hs
      obtain ⟨c, hc, hs⟩ := List.mem_filterMap.1 hs
      obtain ⟨last, e, rfl⟩ := Option.map_eq_some_iff.1 hs
      have finds := found hc
      rw [e] at finds
      obtain ⟨chain, isLeast, ends⟩ := finds
      exact ⟨c.position, chain, isLeast, rfl, ends⟩

/-- What a fresh search finds: the spans of the least chains, or the first of them. -/
theorem spans_search (ordered : l.Orderly) :
    l.Spans (l.search true {}).1 ∧ (l.search false {}).1 = (l.search true {}).1.take 1 := by
  rw [(search_spec true (Memo.sound_empty l)).1, (search_spec false (Memo.sound_empty l)).1]
  exact ⟨spans_spansOf ordered, rfl⟩

end ChainSearch

namespace Lineup

variable {postings : Postings} {zone : Zone.Id} {limit : Option Weight} {terms : List String}
  {l : Lineup}

/--
A fresh search of a resolved lineup finds, in order, one span for each position that begins a chain,
and it ends with the least chain from there; or only the first of these spans.
-/
theorem search_of_resolve? (resolved : resolve? postings zone limit terms = some l) :
    l.Spans (l.search true {}).1 ∧ (l.search false {}).1 = (l.search true {}).1.take 1 :=
  ChainSearch.spans_search (orderly_of_resolve? resolved)

/-- Among two slots of one term and a third one that shares an offset with both. -/
theorem search_of_resolve?_sample :
    resolve? samplePostings ⟨"BODY", "doc"⟩ none ["a", "b", "a"] = some sampleLineup ∧
      sampleLineup.Spans (sampleLineup.search true {}).1 ∧
      (sampleLineup.search false {}).1 = (sampleLineup.search true {}).1.take 1 := by
  have resolved : resolve? samplePostings ⟨"BODY", "doc"⟩ none ["a", "b", "a"] = some sampleLineup := by
    decide
  exact ⟨resolved, search_of_resolve? resolved⟩

end Lineup

end TermProximity
