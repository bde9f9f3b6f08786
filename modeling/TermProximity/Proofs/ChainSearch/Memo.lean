import TermProximity.Chain.Search
import TermProximity.Proofs.Resolution

/-!
# The memo of a chain search — it never changes what is found

A state is noted when no candidate for the slots after it led to the end of a chain.  What such a
state leads to without any memo is told by its three numbers alone (`ending?`), so a memo is sound
when every state it holds leads nowhere (`Memo.Sound`).

* `complete_spec`: with a sound memo the slots are bound as without one, and the memo stays sound;
* `search_spec`: so are whole searches;
* `inquire_eq_map_fresh`: whatever was asked before, every inquiry is answered as if it were the
  only one.
-/

namespace TermProximity

namespace ChainSearch

open Lineup

/-! ### Searching without a memo -/

/-- The offset at which the first chain ends that goes on from a position, found without a memo. -/
def ending? (l : Lineup) : List Lane → Nat → Nat → Position → Option UInt32
  | [], _, _, here => some here.offset
  | next :: rest, slot, runStart, here =>
    (next.candidatesFrom here.offset).findSome? fun c =>
      (runAfter? l slot runStart next.term here c.position).bind fun run =>
        ending? l rest (slot + 1) run c.position

/-- The span that begins at a candidate of the first slot. -/
def spanAt? (l : Lineup) (rest : List Lane) (start : Candidate) : Option Span :=
  (ending? l rest 0 0 start.position).map fun last => ⟨start.position.offset, last⟩

/-- The spans of a lineup, found without a memo. -/
def spansOf (l : Lineup) : List Span :=
  match l.lanes with
  | [] => []
  | first :: rest => first.candidates.filterMap (spanAt? l rest)

/-- A memo is sound if no chain goes on from a state that it holds. -/
def Memo.Sound (l : Lineup) (memo : Memo) : Prop :=
  ∀ state ∈ memo.hopeless, ∀ lane c,
    l.lanes[state.slot]? = some lane → lane.candidates[state.index]? = some c →
      ending? l (l.lanes.drop (state.slot + 1)) state.slot state.runStart c.position = none

theorem Memo.sound_empty (l : Lineup) : Memo.Sound l {} := by
  intro state h
  exact absurd h Std.HashSet.not_mem_empty

theorem Memo.Sound.visit {l : Lineup} {memo : Memo} (h : memo.Sound l) : memo.visit.Sound l := h

/-- A state may be noted if no chain goes on from it. -/
theorem Memo.Sound.giveUp {l : Lineup} {memo : Memo} (h : memo.Sound l) {slot runStart : Nat}
    {lane : Lane} {here : Candidate} (bound : l.lanes[slot]? = some lane)
    (stands : lane.candidates[here.index]? = some here)
    (none : ending? l (l.lanes.drop (slot + 1)) slot runStart here.position = none) :
    (memo.giveUp ⟨slot, here.index, runStart⟩).Sound l := by
  intro state mem lane' c bound' stands'
  rcases Std.HashSet.mem_insert.1 mem with same | mem
  · obtain rfl := eq_of_beq same
    obtain rfl : lane = lane' := Option.some_inj.1 (bound.symm.trans bound')
    obtain rfl : here = c := Option.some_inj.1 (stands.symm.trans stands')
    exact none
  · exact h state mem lane' c bound' stands'

/-! ### One slot after another -/

/-- Candidates are tried as without a memo if every attempt is made so. -/
theorem tryEach_spec {reach : Nat} {enter? : Position → Option Nat}
    {attempt : Nat → Candidate → Memo → Option UInt32 × Memo} {s : Slot}
    (outcome : Nat → Candidate → Option UInt32) (Good : Memo → Prop)
    (near : ∀ p, reach < p.low → enter? p = none) (visit : ∀ m, Good m → Good m.visit)
    {cs : List Candidate} (suffix : cs <:+ s.candidates)
    (spec : ∀ c ∈ cs, ∀ run m, Good m →
      (attempt run c m).1 = outcome run c ∧ Good (attempt run c m).2)
    {memo : Memo} (good : Good memo) :
    (tryEach reach enter? attempt cs memo).1 =
        cs.findSome? (fun c => (enter? c.position).bind fun run => outcome run c) ∧
      Good (tryEach reach enter? attempt cs memo).2 := by
  induction cs generalizing memo with
  | nil => exact ⟨rfl, good⟩
  | cons c rest ih =>
    have later {m : Memo} (h : Good m) := ih ((List.suffix_cons c rest).trans suffix)
      (fun d hd => spec d (List.mem_cons_of_mem c hd)) h
    rw [tryEach]
    split
    · -- No candidate from here on reaches back far enough.
      rename_i beyond
      refine ⟨?_, good⟩
      symm
      rw [List.findSome?_eq_none_iff]
      intro d hd
      rw [near d.position (Nat.lt_of_lt_of_le beyond (Slot.lowAhead_le suffix d hd))]
      rfl
    · rw [List.findSome?_cons]
      cases enter? c.position with
      | none => exact later (visit memo good)
      | some run =>
        obtain ⟨found, kept⟩ := spec c List.mem_cons_self run memo.visit (visit memo good)
        dsimp only [Option.bind_some]
        rw [← found]
        generalize attempt run c memo.visit = attempted at kept
        obtain ⟨_ | last, memo'⟩ := attempted
        · exact later kept
        · exact ⟨rfl, kept⟩

/-- With a sound memo the slots are bound as without one, and the memo stays sound. -/
theorem complete_spec {l : Lineup} {rest : List Lane} {slot runStart : Nat} {lane : Lane}
    {here : Candidate} {memo : Memo} (left : l.lanes.drop (slot + 1) = rest)
    (bound : l.lanes[slot]? = some lane) (stands : lane.candidates[here.index]? = some here)
    (sound : memo.Sound l) :
    (complete l rest slot runStart here memo).1 = ending? l rest slot runStart here.position ∧
      (complete l rest slot runStart here memo).2.Sound l := by
  induction rest generalizing slot runStart lane here memo with
  | nil => exact ⟨rfl, sound⟩
  | cons next rest ih =>
    rw [complete]
    split
    · rename_i noted
      have := sound _ (Std.HashSet.mem_iff_contains.2 noted) lane here bound stands
      rw [left] at this
      exact ⟨this.symm, sound⟩
    · have next_eq : l.lanes[slot + 1]? = some next := by
        rw [← Nat.add_zero (slot + 1), ← List.getElem?_drop, left]
        rfl
      have rest_eq : l.lanes.drop (slot + 1 + 1) = rest := by
        rw [← List.drop_drop, left]
        rfl
      obtain ⟨s, rfl⟩ := eq_lane_of_mem_lanes (List.mem_of_getElem? next_eq)
      have suffix := candidatesFrom_suffix s here.position.offset
      have near : ∀ p : Position, moveOn here.position.offset.toNat 1 < p.low →
          runAfter? l slot runStart s.lane.term here.position p = none := by
        intro p far
        simp [runAfter?, Position.isClosedBy, Nat.not_le.2 far]
      -- A candidate of the next slot stands in its list, so the slots after it are bound alike.
      have spec : ∀ c ∈ s.lane.candidatesFrom here.position.offset, ∀ run m, Memo.Sound l m →
          (complete l rest (slot + 1) run c m).1 = ending? l rest (slot + 1) run c.position ∧
            (complete l rest (slot + 1) run c m).2.Sound l := by
        intro c hc run m h
        refine ih rest_eq next_eq ?_ h
        rw [candidates_lane]
        exact Slot.getElem?_candidates_index (suffix.subset hc)
      obtain ⟨found, kept⟩ := tryEach_spec (fun run c => ending? l rest (slot + 1) run c.position)
        (Memo.Sound l) near (fun _ h => h.visit) suffix spec sound
      rcases e : tryEach _ _ _ _ memo with ⟨_ | last, memo'⟩
      all_goals
        rw [e] at found kept
        refine ⟨found, ?_⟩
      · refine kept.giveUp bound stands ?_
        rw [left]
        exact found.symm
      · exact kept

/-! ### One search after another -/

/-- The spans that begin at candidates are those found without a memo, if every attempt is. -/
theorem spansFrom_spec {attempt : Candidate → Memo → Option UInt32 × Memo} (every : Bool)
    (span? : Candidate → Option Span) (Good : Memo → Prop) {starts : List Candidate}
    (spec : ∀ c ∈ starts, ∀ m, Good m →
      (attempt c m).1.map (fun last => ⟨c.position.offset, last⟩) = span? c ∧
        Good (attempt c m).2) {memo : Memo} (good : Good memo) :
    (spansFrom every attempt starts memo).1 =
        (if every then starts.filterMap span? else (starts.filterMap span?).take 1) ∧
      Good (spansFrom every attempt starts memo).2 := by
  induction starts generalizing memo with
  | nil => exact ⟨by cases every <;> rfl, good⟩
  | cons start rest ih =>
    have later {m : Memo} (h : Good m) := ih (fun d hd => spec d (List.mem_cons_of_mem start hd)) h
    obtain ⟨found, kept⟩ := spec start List.mem_cons_self memo good
    rw [spansFrom, List.filterMap_cons, ← found]
    generalize attempt start memo = attempted at kept
    obtain ⟨_ | last, memo'⟩ := attempted
    · exact later kept
    · cases every with
      | false => exact ⟨rfl, kept⟩
      | true =>
        obtain ⟨others, kept'⟩ := later kept
        exact ⟨congrArg _ others, kept'⟩

/-- With a sound memo a search finds what it finds without one, and the memo stays sound. -/
theorem search_spec {l : Lineup} (every : Bool) {memo : Memo} (sound : memo.Sound l) :
    (l.search every memo).1 = (if every then spansOf l else (spansOf l).take 1) ∧
      (l.search every memo).2.Sound l := by
  unfold search spansOf
  cases lanes : l.lanes with
  | nil => exact ⟨by cases every <;> rfl, sound⟩
  | cons first rest =>
    refine spansFrom_spec every (spanAt? l rest) (Memo.Sound l) (fun c hc m h => ?_) sound
    obtain ⟨s, rfl⟩ := eq_lane_of_mem_lanes (l := l) (lanes ▸ List.mem_cons_self)
    have left : l.lanes.drop (0 + 1) = rest := by rw [lanes]; rfl
    have bound : l.lanes[0]? = some s.lane := by rw [lanes]; rfl
    have stands : s.lane.candidates[c.index]? = some c := by
      rw [candidates_lane] at hc ⊢
      exact Slot.getElem?_candidates_index hc
    obtain ⟨found, kept⟩ := complete_spec left bound stands h
    exact ⟨by rw [found, spanAt?], kept⟩

/-- With a sound memo an inquiry is answered as with a fresh one, and the memo stays sound. -/
theorem answer_spec {l : Lineup} (inquiry : Inquiry) {memo : Memo} (sound : memo.Sound l) :
    (l.answer inquiry memo).1 = (l.answer inquiry {}).1 ∧ (l.answer inquiry memo).2.Sound l := by
  have same (every : Bool) : (l.search every memo).1 = (l.search every {}).1 := by
    rw [(search_spec every sound).1, (search_spec every (Memo.sound_empty l)).1]
  cases inquiry with
  | firstMatch => exact ⟨congrArg (·.head?.toList) (same false), (search_spec false sound).2⟩
  | allMatches => exact ⟨same true, (search_spec true sound).2⟩
  | search every => exact ⟨same every, (search_spec every sound).2⟩

theorem inquire_of_sound {l : Lineup} {inquiries : List Inquiry} {memo : Memo}
    (sound : memo.Sound l) :
    l.inquire inquiries memo = inquiries.map fun inquiry => (l.answer inquiry {}).1 := by
  induction inquiries generalizing memo with
  | nil => rfl
  | cons inquiry rest ih =>
    obtain ⟨spans, kept⟩ := answer_spec inquiry sound
    exact congrArg₂ List.cons spans (ih kept)

end ChainSearch

open ChainSearch in
/-- Whatever was asked before, every inquiry is answered as by a fresh search. -/
theorem Lineup.inquire_eq_map_fresh (l : Lineup) (inquiries : List Inquiry) :
    l.inquire inquiries {} = inquiries.map fun inquiry => (l.answer inquiry {}).1 :=
  inquire_of_sound (Memo.sound_empty l)

end TermProximity
