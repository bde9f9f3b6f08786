import TermProximity.Bisection
import TermProximity.Chain

/-!
# Lanes — the candidates of a slot, open from every place on

A search comes back to the candidates of a slot many times, each time from another offset on.  A
lane keeps what is left of the candidates at every place, so that the right place is found by
bisection and the search goes on from there.

* `candidatesFrom_lane`: a lane gives the candidates from an offset on;
* `Lineup.lanes_eq_map`: where slots of one term have the same positions, which is so in every
  lineup that is resolved, the lane of a slot is made of its own candidates.
-/

namespace TermProximity

/-- The candidates of a slot for a term. -/
structure Lane where
  term : String
  /-- What is left of the candidates at each place, and at last nothing. -/
  rests : Array (List Candidate)

/-- A list, and what is left of it after each of its members. -/
def restsOf {α : Type} : List α → List (List α)
  | [] => [[]]
  | whole@(_ :: rest) => whole :: restsOf rest

namespace Lane

/-- What is left of the candidates at a place. -/
def restAt (lane : Lane) (place : Nat) : List Candidate := lane.rests.getD place []

/-- All candidates. -/
def candidates (lane : Lane) : List Candidate := lane.restAt 0

/-- Whether candidates begin at an offset or after it. -/
def beginsAt (offset : UInt32) : List Candidate → Bool
  | [] => true
  | c :: _ => offset ≤ c.position.offset

/-- The candidates from an offset on. -/
def candidatesFrom (lane : Lane) (offset : UInt32) : List Candidate :=
  lane.restAt (firstPlace (fun place => beginsAt offset (lane.restAt place)) lane.rests.size)

end Lane

/-- The lane of a slot. -/
def Slot.lane (s : Slot) : Lane := ⟨s.term, (restsOf s.candidates).toArray⟩

/-- The lane of every slot; slots of one term share it. -/
def Lineup.lanes (l : Lineup) : List Lane :=
  let known := l.distinct.map Slot.lane
  l.slots.map fun s =>
    match known.find? fun lane => lane.term == s.term with
    | some lane => lane
    | none => s.lane

/-! ### Laws -/

theorem length_restsOf {α : Type} (l : List α) : (restsOf l).length = l.length + 1 := by
  induction l with
  | nil => rfl
  | cons a l ih => simp [restsOf, ih]

theorem getElem?_restsOf {α : Type} {l : List α} {i : Nat} (h : i ≤ l.length) :
    (restsOf l)[i]? = some (l.drop i) := by
  induction l generalizing i with
  | nil => obtain rfl : i = 0 := by simpa using h
           rfl
  | cons a l ih =>
    cases i with
    | zero => rfl
    | succ i => simpa [restsOf] using ih (Nat.le_of_succ_le_succ h)

theorem restAt_lane (s : Slot) (i : Nat) : s.lane.restAt i = s.candidates.drop i := by
  simp only [Lane.restAt, Slot.lane, Array.getD_eq_getD_getElem?, List.getElem?_toArray]
  by_cases h : i ≤ s.candidates.length
  · rw [getElem?_restsOf h]; rfl
  · rw [List.getElem?_eq_none (by rw [length_restsOf]; omega), List.drop_of_length_le (by omega)]
    rfl

@[simp] theorem candidates_lane (s : Slot) : s.lane.candidates = s.candidates := restAt_lane s 0

/-- What a lane gives is the end of the list of all candidates. -/
theorem candidatesFrom_suffix (s : Slot) (offset : UInt32) :
    s.lane.candidatesFrom offset <:+ s.candidates := by
  rw [Lane.candidatesFrom, restAt_lane]
  exact List.drop_suffix _ _

/-- What is left after the members that pass a test, if all before a place pass and not the next. -/
theorem dropWhile_eq_drop {α : Type} {p : α → Bool} {l : List α} {n : Nat}
    (pass : ∀ a ∈ l.take n, p a = true) (fail : ∀ a, l[n]? = some a → p a = false) :
    l.dropWhile p = l.drop n := by
  induction l generalizing n with
  | nil => simp
  | cons a l ih =>
    cases n with
    | zero => rw [List.dropWhile_cons, if_neg (by simp [fail a rfl])]; rfl
    | succ n =>
      rw [List.dropWhile_cons, if_pos (pass a (by simp))]
      exact ih (fun b hb => pass b (by simp [hb])) fun b hb => fail b (by simpa using hb)

/-- Candidates from an offset on: a lane finds what leaving out the earlier ones gives. -/
theorem candidatesFrom_lane {s : Slot} (offset : UInt32)
    (ascending : s.positions.Pairwise fun p q => p.offset < q.offset) :
    s.lane.candidatesFrom offset =
      s.candidates.dropWhile fun c => c.position.offset < offset := by
  rw [← s.map_position_candidates, List.pairwise_map] at ascending
  have size : s.lane.rests.size = s.candidates.length + 1 := by simp [Slot.lane, length_restsOf]
  simp only [Lane.candidatesFrom, restAt_lane, size]
  generalize s.candidates = cs at ascending
  -- Once candidates begin at the offset or after it, later ones do.
  have up (i j : Nat) (le : i ≤ j) (h : Lane.beginsAt offset (cs.drop i) = true) :
      Lane.beginsAt offset (cs.drop j) = true := by
    by_cases inside : j < cs.length
    · rw [List.drop_eq_getElem_cons inside, Lane.beginsAt, decide_eq_true_iff]
      rw [List.drop_eq_getElem_cons (by omega), Lane.beginsAt, decide_eq_true_iff] at h
      rcases Nat.lt_or_eq_of_le le with lt | rfl
      · exact UInt32.le_trans h
          (UInt32.le_of_lt (List.pairwise_iff_getElem.1 ascending _ _ _ _ lt))
      · exact h
    · rw [List.drop_of_length_le (Nat.le_of_not_lt inside)]; rfl
  refine (dropWhile_eq_drop (fun c hc => ?_) fun c hc => ?_).symm
  · obtain ⟨i, hi, rfl⟩ := List.getElem_of_mem hc
    have ⟨below, inside⟩ := Nat.lt_min.1 (List.length_take ▸ hi)
    have := not_test_of_lt_firstPlace up below
    rw [List.drop_eq_getElem_cons inside, Lane.beginsAt, decide_eq_false_iff_not] at this
    rw [List.getElem_take, decide_eq_true_iff]
    exact UInt32.not_le.1 this
  · obtain ⟨inside, rfl⟩ := List.getElem?_eq_some_iff.1 hc
    have := test_of_firstPlace_le up (Nat.le_refl _) (Nat.lt_succ_of_lt inside)
    rw [List.drop_eq_getElem_cons inside, Lane.beginsAt, decide_eq_true_iff] at this
    rw [decide_eq_false_iff_not]
    exact UInt32.not_lt.2 this

theorem mem_of_mem_eraseDupsBy {α : Type} {r : α → α → Bool} {a : α} {l : List α}
    (h : a ∈ l.eraseDupsBy r) : a ∈ l := by
  match l with
  | [] => exact h
  | b :: l =>
    rw [List.eraseDupsBy_cons] at h
    rcases List.mem_cons.1 h with rfl | h
    · exact List.mem_cons_self
    · exact List.mem_cons_of_mem _ (List.mem_filter.1 (mem_of_mem_eraseDupsBy h)).1
termination_by l.length
decreasing_by exact Nat.lt_succ_of_le (List.length_filter_le ..)

/-- Every lane is made of the candidates of one slot. -/
theorem Lineup.eq_lane_of_mem_lanes {l : Lineup} {lane : Lane} (h : lane ∈ l.lanes) :
    ∃ s : Slot, lane = s.lane := by
  obtain ⟨s, -, rfl⟩ := List.mem_map.1 h
  split
  · rename_i lane found
    obtain ⟨t, -, rfl⟩ := List.mem_map.1 (List.mem_of_find?_eq_some found)
    exact ⟨t, rfl⟩
  · exact ⟨s, rfl⟩

/-- Slots that share a lane because they are of one term lose nothing by it. -/
theorem Lineup.lanes_eq_map {l : Lineup}
    (same : ∀ s ∈ l.slots, ∀ t ∈ l.slots, s.term = t.term → s.positions = t.positions) :
    l.lanes = l.slots.map Slot.lane := by
  refine List.map_congr_left fun s hs => ?_
  split
  · rename_i lane found
    obtain ⟨t, ht, rfl⟩ := List.mem_map.1 (List.mem_of_find?_eq_some found)
    have term : t.term = s.term := by simpa [Slot.lane] using List.find?_some found
    have positions := same t (mem_of_mem_eraseDupsBy ht) s hs term
    obtain ⟨_, _⟩ := s
    obtain ⟨_, _⟩ := t
    cases term
    cases positions
    rfl
  · rfl

end TermProximity
