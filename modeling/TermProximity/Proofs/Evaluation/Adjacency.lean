import TermProximity.Proofs.Evaluation.Matching

/-!
# Adjacency — windows around chains, and windows without a gap

A chain goes forward from its first position to its last, so it lies in a window that is as wide as
its span.  Where no position covers collapsed tokens a hop goes one offset further at most; a phrase
then lies in the window that its terms ask for when they are to be adjacent, and if besides different
terms share no offset, the positions in such a window fill it without a gap.

* `Lineup.Chain.beginsWindow`: a window as wide as a chain begins where the chain does;
* `Lineup.Chain.window_of_skipFree`: without skips, `n` terms in order lie in a window of `n - 1`;
* `Lineup.window_iff_perm_range'`: when such a window has a position at every offset;
* `Request.windows_hold_chains`: a scan finds a window for each span, and so adjacent terms are
  found where a phrase is;
* `Request.isSome_answerIn?_iff_consecutive`: adjacent terms stand, in some order, in a row.
-/

namespace TermProximity

/-! ### Chains in windows -/

theorem Position.low_of_skips_eq_zero {p : Position} (bare : p.skips = 0) :
    p.low = p.offset.toNat := by
  rw [low, bare]
  rfl

/-- Without skips, a chain goes no more offsets forward than it makes hops. -/
theorem Position.offset_le_of_isChain {p : Position} {later : List Position}
    (hops : (p :: later).IsChain Hop) (bare : ∀ q ∈ later, q.skips = 0) :
    ∀ q ∈ p :: later, q.offset.toNat ≤ p.offset.toNat + later.length := by
  induction later generalizing p with
  | nil =>
    intro q mem
    rw [List.mem_singleton.1 mem]
    exact Nat.le_refl _
  | cons next later ih =>
    obtain ⟨hop, hops⟩ := List.isChain_cons_cons.1 hops
    obtain ⟨bare_next, bare⟩ := List.forall_mem_cons.1 bare
    have near := hop.near
    rw [low_of_skips_eq_zero bare_next] at near
    intro q mem
    rw [List.length_cons]
    rcases List.mem_cons.1 mem with rfl | mem
    · exact Nat.le_add_right _ _
    · have := ih hops bare q mem
      omega

namespace Lineup

variable {l : Lineup} {chain chosen : List Position} {first last : Position}

/-- Whether no position covers collapsed tokens. -/
def SkipFree (l : Lineup) : Prop := ∀ s ∈ l.slots, ∀ p ∈ s.positions, p.skips = 0

/-- Whether different terms share no offset. -/
def OffsetsApart (l : Lineup) : Prop :=
  ∀ s ∈ l.slots, ∀ t ∈ l.slots, s.term ≠ t.term →
    ∀ p ∈ s.positions, ∀ q ∈ t.positions, p.offset ≠ q.offset

/-- The positions of a chain stand between its first and its last one. -/
theorem PartialChain.offset_between (partly : l.PartialChain chain) (begins : [first] <+: chain)
    (ends : chain.getLast? = some last) :
    ∀ p ∈ chain, first.offset.toNat ≤ p.offset.toNat ∧ p.offset.toNat ≤ last.offset.toNat := by
  have ascending := partly.ascending
  intro p mem
  constructor
  · obtain ⟨tail, rfl⟩ := begins
    rcases List.mem_cons.1 mem with rfl | mem
    · exact Nat.le_refl _
    · exact (List.pairwise_cons.1 ascending).1 p mem
  · obtain ⟨before, rfl⟩ := List.getLast?_eq_some_iff.1 ends
    rcases List.mem_append.1 mem with mem | mem
    · exact (List.pairwise_append.1 ascending).2.2 p mem last List.mem_cons_self
    · rw [List.mem_singleton.1 mem]

/-- A window as wide as a chain begins where the chain does. -/
theorem Chain.beginsWindow (isChain : l.Chain chain) (begins : [first] <+: chain)
    (ends : chain.getLast? = some last) :
    l.BeginsWindow (last.offset.toNat - first.offset.toNat) first.offset.toNat := by
  have between := isChain.offset_between begins ends
  refine ⟨chain, ⟨isChain.toBinding, fun p hp q hq => ?_⟩, leastOffset?_eq_some_iff.2 ⟨?_, ?_⟩⟩
  · have := p.low_le_offset
    have := (between p hp).2
    have := (between q hq).1
    omega
  · exact ⟨first, begins.subset List.mem_cons_self, rfl⟩
  · exact fun p hp => (between p hp).1

/-- Without skips, `n` terms in order lie in a window of width `n - 1`. -/
theorem Chain.window_of_skipFree (isChain : l.Chain chain) (bare : l.SkipFree) :
    l.Window (l.slots.length - 1) chain := by
  have skipless : ∀ p ∈ chain, p.skips = 0 := by
    intro p mem
    obtain ⟨s, hs, mem⟩ := isChain.toBinding.exists_slot_of_mem mem
    exact bare s hs p mem
  have length := isChain.length_eq
  have hops := Position.hops_iff_isChain.1 isChain.hops
  refine ⟨isChain.toBinding, fun p hp q hq => ?_⟩
  cases chain with
  | nil => contradiction
  | cons first later =>
    have last_le := Position.offset_le_of_isChain hops (List.forall_mem_cons.1 skipless).2 p hp
    have le_first := (isChain.offset_between ⟨later, rfl⟩ List.getLast?_cons q hq).1
    have := p.low_le_offset
    rw [List.length_cons] at length
    omega

/-- A scan as wide as a span that is found begins no later than the span. -/
theorem Spans.exists_anchor_scan (ordered : l.Orderly) {spans : List Span} (h : l.Spans spans)
    {s : Span} (hs : s ∈ spans) :
    s.first ≤ s.last ∧
      ∃ anchor, (l.scan (s.last - s.first)).anchor = some anchor ∧ anchor ≤ s.first.toNat := by
  obtain ⟨p, chain, isLeast, first, last⟩ := h.least s hs
  obtain ⟨q, ends, last⟩ := Option.map_eq_some_iff.1 last
  have forward : s.first ≤ s.last := by
    rw [first, ← last, UInt32.le_iff_toNat_le]
    exact (isLeast.offset_between isLeast.begins ends p (isLeast.begins.subset List.mem_cons_self)).2
  have slots : l.slots ≠ [] := by
    intro none_left
    have length := isLeast.length_eq
    rw [none_left] at length
    rw [List.eq_nil_of_length_eq_zero length] at ends
    contradiction
  have begins := isLeast.toChain.beginsWindow isLeast.begins ends
  rw [last, ← first, ← UInt32.toNat_sub_of_le _ _ forward] at begins
  obtain ⟨isSome_iff, least⟩ := scan_spec ordered slots (s.last - s.first)
  have ⟨chosen, window, _⟩ := begins
  obtain ⟨anchor, found⟩ := Option.isSome_iff_exists.1 (isSome_iff.2 ⟨chosen, window⟩)
  exact ⟨forward, anchor, found, (least anchor found).2 begins⟩

/-! ### Windows without a gap -/

/-- Numbers in a row that is as long as they are many, none twice, are the whole row. -/
theorem perm_range'_of_nodup {start : Nat} {xs : List Nat} (nodup : xs.Nodup)
    (inside : ∀ x ∈ xs, start ≤ x ∧ x < start + xs.length) :
    xs.Perm (List.range' start xs.length) := by
  have subset : xs ⊆ List.range' start xs.length :=
    fun x mem => List.mem_range'_1.2 (inside x mem)
  exact (List.subperm_of_subset nodup subset).perm_of_length_le (Nat.le_of_eq List.length_range')

/-- Where different terms share no offset, no two slots do. -/
theorem Binding.nodup_offsets (ordered : l.Orderly) (apart : l.OffsetsApart)
    (binding : l.Binding chosen) : (chosen.map (·.offset.toNat)).Nodup := by
  obtain ⟨-, mem, differ⟩ := binding_iff_zip.1 binding
  rw [← binding.map_snd_zip, List.map_map, List.Nodup, List.pairwise_map]
  refine differ.imp_of_mem fun {x y} hx hy ne same => ?_
  have slot := (List.of_mem_zip hx).1
  have slot' := (List.of_mem_zip hy).1
  have offset : x.2.offset = y.2.offset := UInt32.toNat.inj same
  by_cases term : x.1.term = y.1.term
  · exact ne term (ordered.eq_of_offset_eq slot slot' term (mem x hx) (mem y hy) offset)
  · exact apart x.1 slot y.1 slot' term x.2 (mem x hx) y.2 (mem y hy) offset

/--
Without skips and shared offsets, a window for `n` slots that is `n - 1` wide has a position at every
offset.
-/
theorem Window.perm_range' (ordered : l.Orderly) (slots : l.slots ≠ []) (bare : l.SkipFree)
    (apart : l.OffsetsApart) (window : l.Window (l.slots.length - 1) chosen) :
    ∃ start, (chosen.map (·.offset.toNat)).Perm (List.range' start l.slots.length) := by
  obtain ⟨start, least⟩ := window.exists_leastOffset? slots
  obtain ⟨⟨q, hq, at_start⟩, above⟩ := leastOffset?_eq_some_iff.1 least
  have some_slot := List.length_pos_of_ne_nil slots
  have length : (chosen.map (·.offset.toNat)).length = l.slots.length :=
    (List.length_map _).trans window.length_eq
  refine ⟨start, ?_⟩
  rw [← length]
  refine perm_range'_of_nodup (window.toBinding.nodup_offsets ordered apart) ?_
  rw [length, List.forall_mem_map]
  intro p hp
  obtain ⟨s, hs, mem⟩ := window.toBinding.exists_slot_of_mem hp
  have near := window.close p hp q hq
  rw [Position.low_of_skips_eq_zero (bare s hs p mem), at_start] at near
  have := above p hp
  omega

/-- Positions of the slots that stand on as many consecutive offsets are a window. -/
theorem window_of_perm_range' {start : Nat}
    (mem : List.Forall₂ (fun s p => p ∈ s.positions) l.slots chosen)
    (row : (chosen.map (·.offset.toNat)).Perm (List.range' start l.slots.length)) :
    l.Window (l.slots.length - 1) chosen := by
  have inside : ∀ p ∈ chosen, start ≤ p.offset.toNat ∧ p.offset.toNat < start + l.slots.length :=
    fun p hp => List.mem_range'_1.1 (row.mem_iff.1 (List.mem_map_of_mem hp))
  obtain ⟨length, mem⟩ := List.forall₂_iff_zip.1 mem
  have nodup : (chosen.map (·.offset.toNat)).Nodup := row.nodup_iff.2 List.nodup_range'
  have differ : chosen.Nodup := nodup.of_map
  rw [← List.map_snd_zip (Nat.le_of_eq length.symm), List.Nodup, List.pairwise_map] at differ
  have binding : l.Binding chosen := by
    refine binding_iff_zip.2 ⟨length.symm, fun x hx => mem hx, differ.imp ?_⟩
    exact fun ne _ => ne
  refine ⟨binding, fun p hp q hq => ?_⟩
  have := p.low_le_offset
  have := inside p hp
  have := inside q hq
  omega

/-- Without skips and shared offsets, `n` slots fit in a window of `n - 1` if they fill it. -/
theorem window_iff_perm_range' (ordered : l.Orderly) (slots : l.slots ≠ []) (bare : l.SkipFree)
    (apart : l.OffsetsApart) :
    l.Window (l.slots.length - 1) chosen ↔
      List.Forall₂ (fun s p => p ∈ s.positions) l.slots chosen ∧
        ∃ start, (chosen.map (·.offset.toNat)).Perm (List.range' start l.slots.length) := by
  constructor
  · intro window
    obtain ⟨length, mem, -⟩ := binding_iff_zip.1 window.toBinding
    refine ⟨List.forall₂_iff_zip.2 ⟨length.symm, fun hx => mem _ hx⟩, ?_⟩
    exact window.perm_range' ordered slots bare apart
  · rintro ⟨mem, start, row⟩
    exact window_of_perm_range' mem row

end Lineup

/-! ### Phrases as adjacent terms -/

/-- Postings of three tokens in a row, the first and the last of one term. -/
def sampleRow : Postings :=
  (Postings.put ∅ "a" ⟨"BODY", true, "doc"⟩ [{ offset := 4 }, { offset := 6 }]).put
    "b" ⟨"BODY", true, "doc"⟩ [{ offset := 5 }]

namespace Request

variable {r : Request} {settings : Settings} {postings : Postings} {zone : Zone.Id}

/-- Whether no position of the terms covers collapsed tokens. -/
def SkipFree (r : Request) (postings : Postings) (zone : Zone.Id) : Prop :=
  ∀ term ∈ r.terms, ∀ p ∈ postings.positions term zone, p.skips = 0

instance : Decidable (r.SkipFree postings zone) :=
  inferInstanceAs
    (Decidable (∀ term ∈ r.terms, ∀ p ∈ postings.positions term zone, p.skips = 0))

theorem SkipFree.lineupIn (bare : r.SkipFree postings zone) :
    (r.lineupIn postings zone).SkipFree := by
  intro s hs p hp
  obtain ⟨term, mem, rfl⟩ := List.mem_map.1 hs
  exact bare term mem p (List.mem_filter.1 hp).1

theorem length_slots_lineupIn : (r.lineupIn postings zone).slots.length = r.terms.length :=
  List.length_map ..

/-- A zone that a phrase matches holds its terms as adjacent ones, if no position there has skips. -/
theorem holds_adjacent_of_matches (phrase : r.arrangement = .phrase) (some_term : r.terms ≠ [])
    (bare : r.SkipFree postings zone) (isMatch : r.Matches settings postings zone) :
    Arrangement.adjacent.Holds (r.lineupIn postings zone) := by
  have inOrder : r.arrangement.isOrdered = true := by
    rw [phrase]
    rfl
  obtain ⟨chain, isChain⟩ := (isSome_answerIn?_iff_chain some_term inOrder).1 isMatch.answered
  exact ⟨chain, isChain.window_of_skipFree bare.lineupIn⟩

/-- Such a zone is matched for adjacent terms, if their number is a width. -/
theorem matches_adjacent_of_matches (phrase : r.arrangement = .phrase) (some_term : r.terms ≠ [])
    (few : r.terms.length ≤ UInt32.size) (bare : r.SkipFree postings zone)
    (isMatch : r.Matches settings postings zone) :
    { r with arrangement := .adjacent }.Matches settings postings zone := by
  let r' : Request := { r with arrangement := .adjacent }
  have same : r'.lineupIn postings zone = r.lineupIn postings zone :=
    lineupIn_of_limit? (by rw [phrase]; rfl)
  obtain ⟨chosen, window⟩ := holds_adjacent_of_matches phrase some_term bare isMatch
  rw [length_slots_lineupIn, ← same] at window
  refine ⟨isMatch.considered, ?_⟩
  exact (isSome_answerIn?_iff_adjacent (r := r') some_term few rfl).2 ⟨chosen, window⟩

/--
For every span that a search finds, a scan of its width finds a window that begins no later.  So a
zone that a phrase matches holds its terms as adjacent ones if no position there has skips.  It is
matched for them if they are no more than 2³²: the spread of adjacent terms is their number less one as a
number of 32 bits, so that with more of them the scan is one of a smaller width.
-/
theorem windows_hold_chains :
    (∀ (postings : Postings) (zone : Zone.Id) (limit : Option Weight) (terms : List String)
        (l : Lineup), Lineup.resolve? postings zone limit terms = some l →
      ∀ s ∈ (l.search true {}).1, s.first ≤ s.last ∧
        ∃ anchor, (l.scan (s.last - s.first)).anchor = some anchor ∧ anchor ≤ s.first.toNat) ∧
    ∀ (r : Request) (settings : Settings) (document : DocumentIndex),
      r.arrangement = .phrase → r.check = .ok () →
      ∃ outcome outcome', r.Reports settings document outcome ∧
        { r with arrangement := .adjacent }.Reports settings document outcome' ∧
        ∀ zone, r.SkipFree document.postings zone → r.Matches settings document.postings zone →
          Arrangement.adjacent.Holds (r.lineupIn document.postings zone) ∧
          (r.terms.length ≤ UInt32.size →
            { r with arrangement := .adjacent }.Matches settings document.postings zone) := by
  constructor
  · intro postings zone limit terms l resolved s hs
    have ordered := Lineup.orderly_of_resolve? resolved
    exact (ChainSearch.spans_search ordered).1.exists_anchor_scan ordered hs
  · intro r settings document phrase sensible
    have some_term := terms_ne_nil_of_check sensible
    refine ⟨_, _, reports_outcome settings document sensible,
      reports_outcome settings document (check_of_checkNumber sensible rfl), ?_⟩
    intro zone bare isMatch
    refine ⟨holds_adjacent_of_matches phrase some_term bare isMatch, fun few => ?_⟩
    exact matches_adjacent_of_matches phrase some_term few bare isMatch

/-- In a row of three tokens, two of them of one term. -/
theorem windows_hold_chains_sample :
    let r : Request := { arrangement := .phrase, terms := ["a", "b", "a"] }
    let zone : Zone.Id := ⟨"BODY", "doc"⟩
    let l : Lineup := ⟨[⟨"a", [{ offset := 4 }, { offset := 6 }]⟩, ⟨"b", [{ offset := 5 }]⟩,
      ⟨"a", [{ offset := 4 }, { offset := 6 }]⟩]⟩
    Lineup.resolve? sampleRow zone none r.terms = some l ∧ ⟨4, 6⟩ ∈ (l.search true {}).1 ∧
      (∃ anchor, (l.scan 2).anchor = some anchor ∧ anchor ≤ 4) ∧
      r.check = .ok () ∧ r.terms.length ≤ UInt32.size ∧ r.SkipFree sampleRow zone ∧
      r.Matches .standard sampleRow zone ∧
      { r with arrangement := .adjacent }.Matches .standard sampleRow zone := by
  intro r zone l
  have resolved : Lineup.resolve? sampleRow zone none r.terms = some l := by decide
  have every : (l.search true {}).1 = [⟨4, 6⟩] := by cbv
  have mem : ⟨4, 6⟩ ∈ (l.search true {}).1 := every ▸ List.mem_cons_self
  have finds : r.Finds .standard l := by
    have first : (l.search false {}).1 = [⟨4, 6⟩] := by cbv
    show (l.search false {}).1 ≠ []
    rw [first]
    exact List.cons_ne_nil _ _
  have isMatch : r.Matches .standard sampleRow zone :=
    ⟨by decide, isSome_answerIn?_iff.2 ⟨l, resolved, finds⟩⟩
  have sensible : r.check = .ok () := by decide
  have few : r.terms.length ≤ UInt32.size := by decide
  have bare : r.SkipFree sampleRow zone := by decide
  obtain ⟨scanned, matched⟩ := windows_hold_chains
  have window := (scanned sampleRow zone none r.terms l resolved _ mem).2
  obtain ⟨_, _, -, -, kept⟩ := matched r .standard { postings := sampleRow } rfl sensible
  exact ⟨resolved, mem, window, sensible, few, bare, isMatch, (kept zone bare isMatch).2 few⟩

/-! ### Adjacent terms in a row -/

/-- Whether different terms share no offset. -/
def OffsetsApart (r : Request) (postings : Postings) (zone : Zone.Id) : Prop :=
  ∀ term ∈ r.terms, ∀ term' ∈ r.terms, term ≠ term' →
    ∀ p ∈ postings.positions term zone, ∀ q ∈ postings.positions term' zone, p.offset ≠ q.offset

instance : Decidable (r.OffsetsApart postings zone) :=
  inferInstanceAs (Decidable (∀ term ∈ r.terms, ∀ term' ∈ r.terms, term ≠ term' →
    ∀ p ∈ postings.positions term zone, ∀ q ∈ postings.positions term' zone, p.offset ≠ q.offset))

theorem OffsetsApart.lineupIn (apart : r.OffsetsApart postings zone) :
    (r.lineupIn postings zone).OffsetsApart := by
  intro s hs t ht differ p hp q hq
  obtain ⟨term, mem, rfl⟩ := List.mem_map.1 hs
  obtain ⟨term', mem', rfl⟩ := List.mem_map.1 ht
  exact apart term mem term' mem' differ p (List.mem_filter.1 hp).1 q (List.mem_filter.1 hq).1

/-- Where no score is asked for, a slot may take every position of its term. -/
theorem forall₂_slots_lineupIn (unscored : r.arrangement.limit? = none) {chosen : List Position} :
    List.Forall₂ (fun s p => p ∈ s.positions) (r.lineupIn postings zone).slots chosen ↔
      List.Forall₂ (fun term p => p ∈ postings.positions term zone) r.terms chosen := by
  have all_usable (term : String) : Lineup.usable postings zone none term =
      postings.positions term zone := List.filter_eq_self.2 fun _ _ => rfl
  rw [lineupIn, unscored, Lineup.lineUp, List.forall₂_map_left_iff]
  simp only [all_usable]

/--
Without skips and shared offsets, adjacent terms are found exactly if positions of theirs stand, in
some order, on consecutive offsets.
-/
theorem isSome_answerIn?_iff_consecutive (adjacent : r.arrangement = .adjacent)
    (some_term : r.terms ≠ []) (few : r.terms.length ≤ UInt32.size)
    (bare : r.SkipFree postings zone) (apart : r.OffsetsApart postings zone) :
    (r.answerIn? settings postings zone).isSome ↔
      ∃ start chosen,
        List.Forall₂ (fun term p => p ∈ postings.positions term zone) r.terms chosen ∧
        (chosen.map (·.offset.toNat)).Perm (List.range' start r.terms.length) := by
  have unscored : r.arrangement.limit? = none := by
    rw [adjacent]
    rfl
  have window_iff (chosen : List Position) :
      (r.lineupIn postings zone).Window (r.terms.length - 1) chosen ↔
        List.Forall₂ (fun term p => p ∈ postings.positions term zone) r.terms chosen ∧
          ∃ start, (chosen.map (·.offset.toNat)).Perm (List.range' start r.terms.length) := by
    have length : (r.lineupIn postings zone).slots.length = r.terms.length := length_slots_lineupIn
    rw [← forall₂_slots_lineupIn unscored, ← length]
    exact Lineup.window_iff_perm_range' (Lineup.orderly_lineUp r.terms)
      (slots_lineupIn_ne_nil some_term) bare.lineupIn apart.lineupIn
  rw [isSome_answerIn?_iff_adjacent some_term few adjacent]
  constructor
  · rintro ⟨chosen, window⟩
    obtain ⟨mem, start, row⟩ := (window_iff chosen).1 window
    exact ⟨start, chosen, mem, row⟩
  · rintro ⟨start, chosen, mem, row⟩
    exact ⟨chosen, (window_iff chosen).2 ⟨mem, start, row⟩⟩

/-- Of three adjacent terms, two of them the same. -/
theorem isSome_answerIn?_iff_consecutive_sample :
    let r : Request := { arrangement := .adjacent, terms := ["b", "a", "a"] }
    let zone : Zone.Id := ⟨"BODY", "doc"⟩
    r.arrangement = .adjacent ∧ r.terms ≠ [] ∧ r.terms.length ≤ UInt32.size ∧
      r.SkipFree sampleRow zone ∧ r.OffsetsApart sampleRow zone ∧
      ((r.answerIn? .standard sampleRow zone).isSome ↔
        ∃ start chosen,
          List.Forall₂ (fun term p => p ∈ sampleRow.positions term zone) r.terms chosen ∧
          (chosen.map (·.offset.toNat)).Perm (List.range' start r.terms.length)) := by
  intro r zone
  have some_term : r.terms ≠ [] := by decide
  have few : r.terms.length ≤ UInt32.size := by decide
  have bare : r.SkipFree sampleRow zone := by decide
  have apart : r.OffsetsApart sampleRow zone := by decide
  exact ⟨rfl, some_term, few, bare, apart,
    isSome_answerIn?_iff_consecutive rfl some_term few bare apart⟩

end Request

end TermProximity
