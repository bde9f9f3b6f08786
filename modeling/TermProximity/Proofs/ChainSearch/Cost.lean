import Mathlib.Algebra.BigOperators.Intervals
import Mathlib.Algebra.Order.BigOperators.Group.Finset
import TermProximity.Proofs.ChainSearch.Memo

/-!
# The cost of a chain search — no hopeless state is looked through twice

The candidates that a search examines are charged to the states that come to nothing: such a state is
noted, and with its slot, place and run start it has at most as many candidates ahead as the next slot
has positions.  What is examined besides was examined on the way to a span, at most once for every
position of the slots after the first (`pathCost`).

* `Memo.uncharged`: the candidates examined for which no noted state accounts;
* `complete_adds`: to bind the remaining slots adds nothing uncharged, or one path if it succeeds;
* `Lineup.visited_memoAfter_le`: what any number of inquiries of one search examine.
-/

namespace TermProximity

open ChainSearch

namespace Lineup

/-- The number of positions that the slot at a place may take; none past the last slot. -/
def choices (l : Lineup) (place : Nat) : Nat := l.slots[place]?.elim 0 fun s => s.positions.length

/-- The memo after some inquiries made one after another. -/
def memoAfter (l : Lineup) (inquiries : List Inquiry) (memo : Memo) : Memo :=
  inquiries.foldl (fun memo inquiry => (l.answer inquiry memo).2) memo

end Lineup

namespace ChainSearch

/-! ### Charging states -/

section Charging

variable (l : Lineup)

/-- The states in which a slot is still to be bound. -/
def states : Finset State :=
  (Finset.range (l.slots.length - 1)).biUnion fun slot =>
    (Finset.range (l.choices slot) ×ˢ Finset.range (slot + 1)).image fun x => ⟨slot, x.1, x.2⟩

/-- The number of candidates ahead of the states that a memo holds. -/
def Memo.charged (memo : Memo) : Nat :=
  ∑ s ∈ states l with s ∈ memo.hopeless, l.choices (s.slot + 1)

/-- The candidates examined for which no state that a memo holds accounts. -/
def Memo.uncharged (memo : Memo) : Int := memo.visited - memo.charged l

/-- The number of positions of the slots after a slot, which a path to the last one may examine. -/
def pathCost (slot : Nat) : Nat := ∑ s ∈ Finset.Ico slot (l.slots.length - 1), l.choices (s + 1)

/--
Between two memos at most `cost` candidates are examined that are not charged to a state, and only
states of the slots from `slot` on are noted.
-/
structure Adds (slot cost : Nat) (memo memo' : Memo) : Prop where
  noted : ∀ s ∈ memo'.hopeless, s ∈ memo.hopeless ∨ slot ≤ s.slot
  uncharged : memo'.uncharged l ≤ memo.uncharged l + cost

end Charging

variable {l : Lineup} {slot slot' cost cost' : Nat} {memo memo' memo'' : Memo}

theorem mem_states {s : State} :
    s ∈ states l ↔
      s.slot < l.slots.length - 1 ∧ s.index < l.choices s.slot ∧ s.runStart ≤ s.slot := by
  simp only [states, Finset.mem_biUnion, Finset.mem_image, Finset.mem_product, Finset.mem_range,
    Nat.lt_succ_iff]
  constructor
  · rintro ⟨slot, inside, ⟨index, runStart⟩, bounds, rfl⟩
    exact ⟨inside, bounds⟩
  · rintro ⟨inside, bounds⟩
    exact ⟨s.slot, inside, (s.index, s.runStart), bounds, rfl⟩

/-- The candidates ahead of all states, slot by slot. -/
theorem sum_states :
    ∑ s ∈ states l, l.choices (s.slot + 1) =
      ∑ slot ∈ Finset.range (l.slots.length - 1),
        (slot + 1) * l.choices slot * l.choices (slot + 1) := by
  rw [states, Finset.sum_biUnion]
  · refine Finset.sum_congr rfl fun slot _ => ?_
    rw [Finset.sum_image fun x _ y _ same => by simpa [Prod.ext_iff] using same]
    rw [Finset.sum_const_nat (m := l.choices (slot + 1)) fun _ _ => rfl, Finset.card_product,
      Finset.card_range, Finset.card_range, Nat.mul_comm (slot + 1)]
  · intro slot _ slot' _ apart
    refine Finset.disjoint_left.2 fun s here there => apart ?_
    obtain ⟨_, -, rfl⟩ := Finset.mem_image.1 here
    obtain ⟨_, -, same⟩ := Finset.mem_image.1 there
    exact (congrArg State.slot same).symm

theorem charged_le (memo : Memo) : memo.charged l ≤ ∑ s ∈ states l, l.choices (s.slot + 1) :=
  Finset.sum_le_sum_of_subset (Finset.filter_subset _ _)

/-- A state that is noted for the first time is charged with the candidates ahead of it. -/
theorem charged_giveUp {s : State} (mem : s ∈ states l) (fresh : s ∉ memo.hopeless) :
    (memo.giveUp s).charged l = memo.charged l + l.choices (s.slot + 1) := by
  have grown : (states l).filter (· ∈ (memo.giveUp s).hopeless) =
      insert s ((states l).filter (· ∈ memo.hopeless)) := by
    ext t
    have noted : t ∈ (memo.giveUp s).hopeless ↔ t = s ∨ t ∈ memo.hopeless := by
      rw [Memo.giveUp, Std.HashSet.mem_insert, beq_iff_eq, eq_comm]
    rw [Finset.mem_insert, Finset.mem_filter, Finset.mem_filter, noted, and_or_left]
    exact or_congr_left ⟨fun h => h.2, fun h => ⟨h ▸ mem, h⟩⟩
  rw [Memo.charged, grown, Finset.sum_insert (fun h => fresh (Finset.mem_filter.1 h).2),
    Nat.add_comm]
  rfl

theorem pathCost_zero :
    pathCost l 0 = ∑ s ∈ Finset.range (l.slots.length - 1), l.choices (s + 1) := by
  rw [pathCost, Finset.range_eq_Ico]

theorem pathCost_eq_add (inside : slot < l.slots.length - 1) :
    pathCost l slot = l.choices (slot + 1) + pathCost l (slot + 1) :=
  Finset.sum_eq_sum_Ico_succ_bot inside _

namespace Adds

theorem refl (memo : Memo) : Adds l slot 0 memo memo :=
  ⟨fun _ h => .inl h, by omega⟩

theorem trans (first : Adds l slot cost memo memo') (second : Adds l slot cost' memo' memo'') :
    Adds l slot (cost + cost') memo memo'' := by
  refine ⟨fun s h => (second.noted s h).elim (first.noted s) .inr, ?_⟩
  have := first.uncharged
  have := second.uncharged
  omega

theorem mono (h : Adds l slot cost memo memo') (earlier : slot' ≤ slot) (le : cost ≤ cost') :
    Adds l slot' cost' memo memo' := by
  refine ⟨fun s mem => (h.noted s mem).imp id earlier.trans, ?_⟩
  have := h.uncharged
  omega

/-- One more candidate is examined. -/
theorem visit (memo : Memo) : Adds l slot 1 memo memo.visit := by
  refine ⟨fun _ h => .inl h, ?_⟩
  have charged : memo.visit.charged l = memo.charged l := rfl
  have visited : memo.visit.visited = memo.visited + 1 := rfl
  rw [Memo.uncharged, Memo.uncharged, charged, visited]
  omega

/-- What was examined in vain from a state on is charged to the state. -/
theorem giveUp {s : State} (mem : s ∈ states l) (fresh : s ∉ memo.hopeless)
    (h : Adds l (s.slot + 1) cost memo memo') (le : cost ≤ l.choices (s.slot + 1)) :
    Adds l s.slot 0 memo (memo'.giveUp s) := by
  have fresh' : s ∉ memo'.hopeless := by
    intro noted
    rcases h.noted s noted with before | later
    · exact fresh before
    · omega
  constructor
  · intro t noted
    rcases Std.HashSet.mem_insert.1 noted with same | noted
    · rw [beq_iff_eq] at same
      exact .inr (Nat.le_of_eq (congrArg State.slot same))
    · exact (h.noted t noted).imp id Nat.le_of_succ_le
  · have visited : (memo'.giveUp s).visited = memo'.visited := rfl
    have := h.uncharged
    unfold Memo.uncharged at this ⊢
    rw [charged_giveUp mem fresh', visited]
    omega

end Adds

/-! ### One slot after another -/

/-- The cost of an attempt: that of a path if it succeeds. -/
def costOf (found : Option UInt32) (path : Nat) : Nat := found.elim 0 fun _ => path

/-- Trying candidates adds one for each of them, besides what the attempts add. -/
theorem tryEach_adds (reach : Nat) {path : Nat} {enter? : Position → Option Nat}
    {attempt : Nat → Candidate → Memo → Option UInt32 × Memo} {cs : List Candidate}
    (spec : ∀ c ∈ cs, ∀ run, enter? c.position = some run → ∀ m,
      Adds l slot (costOf (attempt run c m).1 path) m (attempt run c m).2) (memo : Memo) :
    Adds l slot (cs.length + costOf (tryEach reach enter? attempt cs memo).1 path) memo
      (tryEach reach enter? attempt cs memo).2 := by
  induction cs generalizing memo with
  | nil => exact Adds.refl memo
  | cons c rest ih =>
    have later := ih fun d hd => spec d (List.mem_cons_of_mem c hd)
    rw [tryEach]
    split
    · exact (Adds.refl memo).mono le_rfl (Nat.zero_le _)
    · cases enter : enter? c.position with
      | none =>
        dsimp only
        refine ((Adds.visit memo).trans (later memo.visit)).mono le_rfl ?_
        rw [List.length_cons]
        omega
      | some run =>
        have tried := spec c List.mem_cons_self run enter memo.visit
        dsimp only
        generalize attempt run c memo.visit = attempted at tried
        obtain ⟨_ | last, memo'⟩ := attempted
        · dsimp only [costOf, Option.elim_none] at tried ⊢
          refine (((Adds.visit memo).trans tried).trans (later memo')).mono le_rfl ?_
          rw [List.length_cons, costOf]
          omega
        · dsimp only at tried ⊢
          refine ((Adds.visit memo).trans tried).mono le_rfl ?_
          rw [List.length_cons]
          omega

theorem runAfter?_le {runStart run : Nat} {term : String} {here next : Position}
    (early : runStart ≤ slot) (taken : runAfter? l slot runStart term here next = some run) :
    run ≤ slot + 1 := by
  unfold runAfter? at taken
  split at taken
  · split at taken
    · split at taken
      · contradiction
      · cases taken
        omega
    · cases taken
      exact le_rfl
  · contradiction

/-- A lane of slots in order has as many candidates as its slot has choices. -/
theorem exists_slot_of_drop_lanes (ordered : l.Orderly) {next : Lane} {rest : List Lane}
    (left : l.lanes.drop slot = next :: rest) :
    ∃ s : Slot, next = s.lane ∧ slot < l.slots.length ∧ s.candidates.length = l.choices slot := by
  have here : l.lanes[slot]? = some next := by
    rw [← Nat.add_zero slot, ← List.getElem?_drop, left]
    rfl
  rw [Lineup.lanes_eq_map ordered.same, List.getElem?_map, Option.map_eq_some_iff] at here
  obtain ⟨s, hs, rfl⟩ := here
  refine ⟨s, rfl, (List.getElem?_eq_some_iff.1 hs).1, ?_⟩
  rw [Lineup.choices, hs, Option.elim_some, ← s.map_position_candidates, List.length_map]

theorem index_lt_of_mem_candidates {s : Slot} {c : Candidate} (mem : c ∈ s.candidates) :
    c.index < s.candidates.length :=
  (List.getElem?_eq_some_iff.1 (Slot.getElem?_candidates_index mem)).1

/-- To bind the remaining slots adds nothing if it fails, and a path if it succeeds. -/
theorem complete_adds (ordered : l.Orderly) {rest : List Lane} {runStart : Nat} {here : Candidate}
    (left : l.lanes.drop (slot + 1) = rest) (inside : here.index < l.choices slot)
    (early : runStart ≤ slot) (memo : Memo) :
    Adds l slot (costOf (complete l rest slot runStart here memo).1 (pathCost l slot)) memo
      (complete l rest slot runStart here memo).2 := by
  induction rest generalizing slot runStart here memo with
  | nil => exact (Adds.refl memo).mono le_rfl (Nat.zero_le _)
  | cons next rest ih =>
    obtain ⟨s, rfl, lt, length⟩ := exists_slot_of_drop_lanes ordered left
    have before : slot < l.slots.length - 1 := by omega
    have left' : l.lanes.drop (slot + 1 + 1) = rest := by
      rw [← List.drop_drop, left]
      rfl
    have suffix := candidatesFrom_suffix s here.position.offset
    have ahead := length ▸ suffix.length_le
    rw [complete]
    split
    · exact Adds.refl memo
    · rename_i not_noted
      have mem : (⟨slot, here.index, runStart⟩ : State) ∈ states l :=
        mem_states.2 ⟨before, inside, early⟩
      have fresh : (⟨slot, here.index, runStart⟩ : State) ∉ memo.hopeless :=
        fun noted => not_noted (Std.HashSet.mem_iff_contains.1 noted)
      -- A candidate of the next slot has a place in its list, and what its run begins with is known.
      have spec : ∀ c ∈ s.lane.candidatesFrom here.position.offset, ∀ run,
          runAfter? l slot runStart s.lane.term here.position c.position = some run → ∀ m,
          Adds l (slot + 1)
            (costOf (complete l rest (slot + 1) run c m).1 (pathCost l (slot + 1))) m
            (complete l rest (slot + 1) run c m).2 := by
        intro c hc run taken m
        have inside' := index_lt_of_mem_candidates (suffix.subset hc)
        exact ih left' (length ▸ inside') (runAfter?_le early taken) m
      have tried := tryEach_adds (moveOn here.position.offset.toNat 1) spec memo
      rcases found : tryEach _ _ _ _ memo with ⟨_ | last, memo'⟩
      all_goals rw [found] at tried
      · exact Adds.giveUp mem fresh tried ahead
      · refine tried.mono (Nat.le_succ slot) ?_
        rw [costOf, costOf, Option.elim_some, Option.elim_some, pathCost_eq_add before]
        exact Nat.add_le_add_right ahead _

/-! ### One search after another -/

/-- Looking for spans adds one path for each span that is found. -/
theorem spansFrom_adds {every : Bool} {path : Nat}
    {attempt : Candidate → Memo → Option UInt32 × Memo} {starts : List Candidate}
    (spec : ∀ c ∈ starts, ∀ m, Adds l slot (costOf (attempt c m).1 path) m (attempt c m).2)
    (memo : Memo) :
    Adds l slot ((spansFrom every attempt starts memo).1.length * path) memo
      (spansFrom every attempt starts memo).2 := by
  induction starts generalizing memo with
  | nil => exact (Adds.refl memo).mono le_rfl (Nat.zero_le _)
  | cons start rest ih =>
    have later := ih fun d hd => spec d (List.mem_cons_of_mem start hd)
    have tried := spec start List.mem_cons_self memo
    rw [spansFrom]
    generalize attempt start memo = attempted at tried
    obtain ⟨_ | last, memo'⟩ := attempted
    · exact (tried.trans (later memo')).mono le_rfl (Nat.zero_add _).le
    · cases every with
      | false => exact tried.mono le_rfl (Nat.one_mul _).ge
      | true =>
        refine (tried.trans (later memo')).mono le_rfl (le_of_eq ?_)
        exact (Nat.add_comm _ _).trans (Nat.succ_mul _ _).symm

theorem search_adds (ordered : l.Orderly) (every : Bool) (memo : Memo) :
    Adds l 0 ((l.search every memo).1.length * pathCost l 0) memo (l.search every memo).2 := by
  unfold Lineup.search
  cases lanes : l.lanes with
  | nil => exact (Adds.refl memo).mono le_rfl (Nat.zero_le _)
  | cons first rest =>
    have all : l.lanes.drop 0 = first :: rest := lanes
    obtain ⟨s, rfl, -, length⟩ := exists_slot_of_drop_lanes ordered all
    refine spansFrom_adds (fun c hc m => ?_) memo
    have left : l.lanes.drop (0 + 1) = rest := by rw [lanes]; rfl
    rw [candidates_lane] at hc
    exact complete_adds ordered left (length ▸ index_lt_of_mem_candidates hc) le_rfl m

/-- A search for the first span alone finds no more than one. -/
theorem length_spansFrom_false_le {attempt : Candidate → Memo → Option UInt32 × Memo}
    (starts : List Candidate) (memo : Memo) : (spansFrom false attempt starts memo).1.length ≤ 1 := by
  induction starts generalizing memo with
  | nil => exact Nat.zero_le 1
  | cons start rest ih =>
    rw [spansFrom]
    obtain ⟨_ | last, memo'⟩ := attempt start memo
    · exact ih memo'
    · exact le_rfl

theorem length_search_false_le (memo : Memo) : (l.search false memo).1.length ≤ 1 := by
  unfold Lineup.search
  cases l.lanes with
  | nil => exact Nat.zero_le 1
  | cons first rest => exact length_spansFrom_false_le _ memo

/-- Whatever is asked, one path is added for each span in the answer. -/
theorem answer_adds (ordered : l.Orderly) (inquiry : Inquiry) (memo : Memo) :
    Adds l 0 ((l.answer inquiry memo).1.length * pathCost l 0) memo (l.answer inquiry memo).2 := by
  cases inquiry with
  | firstMatch =>
    have found := search_adds ordered false memo
    have few := length_search_false_le (l := l) memo
    change Adds l 0 ((l.search false memo).1.head?.toList.length * pathCost l 0) memo
      (l.search false memo).2
    generalize (l.search false memo).1 = spans at found few ⊢
    match spans with
    | [] | [_] => exact found
    | _ :: _ :: _ => exact absurd few (by simp)
  | allMatches => exact search_adds ordered true memo
  | search every => exact search_adds ordered every memo

/-- However many inquiries are made, one path is added for each span in their answers. -/
theorem memoAfter_adds (ordered : l.Orderly) (inquiries : List Inquiry) (memo : Memo) :
    Adds l 0 ((l.inquire inquiries memo).flatten.length * pathCost l 0) memo
      (l.memoAfter inquiries memo) := by
  induction inquiries generalizing memo with
  | nil => exact (Adds.refl memo).mono le_rfl (Nat.zero_le _)
  | cons inquiry rest ih =>
    refine ((answer_adds ordered inquiry memo).trans (ih _)).mono le_rfl (le_of_eq ?_)
    rw [Lineup.inquire, List.flatten_cons, List.length_append, Nat.add_mul]

/-- What is examined is examined ahead of a noted state, or added besides. -/
theorem Adds.visited_le {memo : Memo} (h : Adds l slot cost {} memo) :
    memo.visited ≤
      ∑ s ∈ Finset.range (l.slots.length - 1), (s + 1) * l.choices s * l.choices (s + 1) + cost := by
  have few := sum_states (l := l) ▸ charged_le (l := l) memo
  have added := h.uncharged
  have none : Memo.visited {} = 0 := rfl
  unfold Memo.uncharged at added
  omega

end ChainSearch

namespace Lineup

open ChainSearch

variable {postings : Postings} {zone : Zone.Id} {limit : Option Weight} {terms : List String}
  {l : Lineup}

/--
However many inquiries are made of one search, hopeless states cost it no more than the candidates
ahead of every state once, and each span that it returns no more than every position of the slots
after the first.
-/
theorem visited_memoAfter_le (resolved : resolve? postings zone limit terms = some l)
    (inquiries : List Inquiry) :
    (l.memoAfter inquiries {}).visited ≤
      ∑ s ∈ Finset.range (l.slots.length - 1), (s + 1) * l.choices s * l.choices (s + 1) +
        (l.inquire inquiries {}).flatten.length *
          ∑ s ∈ Finset.range (l.slots.length - 1), l.choices (s + 1) := by
  rw [← pathCost_zero]
  exact (memoAfter_adds (orderly_of_resolve? resolved) inquiries {}).visited_le

/-- Three inquiries of one search among two slots of one term and a third one. -/
theorem visited_memoAfter_le_sample :
    resolve? samplePostings ⟨"BODY", "doc"⟩ none ["a", "b", "a"] = some sampleLineup ∧
      (sampleLineup.memoAfter [.firstMatch, .allMatches, .search true] {}).visited ≤
        ∑ s ∈ Finset.range (sampleLineup.slots.length - 1),
            (s + 1) * sampleLineup.choices s * sampleLineup.choices (s + 1) +
          (sampleLineup.inquire [.firstMatch, .allMatches, .search true] {}).flatten.length *
            ∑ s ∈ Finset.range (sampleLineup.slots.length - 1), sampleLineup.choices (s + 1) := by
  have resolved : resolve? samplePostings ⟨"BODY", "doc"⟩ none ["a", "b", "a"] = some sampleLineup := by
    decide
  exact ⟨resolved, visited_memoAfter_le resolved _⟩

end Lineup

end TermProximity
