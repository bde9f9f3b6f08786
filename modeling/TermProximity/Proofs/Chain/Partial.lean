import Mathlib.Data.List.Chain
import TermProximity.Chain
import TermProximity.Proofs.Resolution

/-!
# Partial chains — how a chain grows by one position

The positions bound so far end in a run of slots at one offset (`RunsFrom`).  That no position is
taken twice is a rule about the whole chain; because offsets never fall, a position can only be
taken again within the run, and it is enough to look there.

* `Position.hops_iff_isChain`: the hops of a chain, told of neighbours;
* `PartialChain.of_prefix`: what a chain begins with is a partial chain;
* `PartialChain.concat_iff`: when a partial chain can be extended by a position of the next slot;
* `map_offset_le_of_lt`: of two chains that begin alike, the one that goes on with the lower offset
  comes first.
-/

namespace TermProximity

theorem getElem?_concat_eq_some_iff {α : Type} {l : List α} {a b : α} {i : Nat} :
    (l ++ [a])[i]? = some b ↔ l[i]? = some b ∨ i = l.length ∧ a = b := by
  rcases Nat.lt_trichotomy i l.length with lt | rfl | gt
  · rw [List.getElem?_append_left lt]
    exact ⟨.inl, fun h => h.elim id fun h => by omega⟩
  · simp
  · rw [List.getElem?_eq_none (by simp; omega), List.getElem?_eq_none (by omega)]
    simp
    omega

/-- Hops from place to place are hops between neighbours. -/
theorem Position.hops_iff_isChain {ps : List Position} :
    (∀ (i : Nat) (p q : Position), ps[i]? = some p → ps[i + 1]? = some q → p.Hop q) ↔
      ps.IsChain Position.Hop := by
  rw [List.isChain_iff_getElem]
  constructor
  · intro hops i hi
    exact hops i _ _ (List.getElem?_eq_getElem (Nat.lt_of_succ_lt hi)) (List.getElem?_eq_getElem hi)
  · intro hops i p q hp hq
    obtain ⟨_, rfl⟩ := List.getElem?_eq_some_iff.1 hp
    obtain ⟨hi, rfl⟩ := List.getElem?_eq_some_iff.1 hq
    exact hops i hi

/-! ### Runs -/

/-- The last of some positions, and the first place from which on all stand at its offset. -/
structure RunsFrom (bound : List Position) (runStart : Nat) (here : Position) : Prop where
  last : bound.getLast? = some here
  before : ∀ (i : Nat) (b : Position), bound[i]? = some b → i < runStart → b.offset < here.offset
  within : ∀ (i : Nat) (b : Position), bound[i]? = some b → runStart ≤ i → b.offset = here.offset

namespace RunsFrom

variable {bound : List Position} {runStart : Nat} {here next : Position}

theorem single (p : Position) : RunsFrom [p] 0 p where
  last := rfl
  before _ _ _ early := absurd early (Nat.not_lt_zero _)
  within i b h _ := by
    obtain rfl := List.mem_singleton.1 (List.mem_of_getElem? h)
    rfl

theorem length_pos (runs : RunsFrom bound runStart here) : 0 < bound.length := by
  have := runs.last
  cases bound with
  | nil => cases this
  | cons b rest => exact Nat.succ_pos _

theorem getElem?_last (runs : RunsFrom bound runStart here) :
    bound[bound.length - 1]? = some here := by
  rw [← List.getLast?_eq_getElem?, runs.last]

theorem runStart_lt (runs : RunsFrom bound runStart here) : runStart < bound.length := by
  by_contra out
  have := runs.length_pos
  exact UInt32.lt_irrefl _ (runs.before _ _ runs.getElem?_last (by omega))

theorem offset_le (runs : RunsFrom bound runStart here) {i : Nat} {b : Position}
    (h : bound[i]? = some b) : b.offset ≤ here.offset := by
  rcases Nat.lt_or_ge i runStart with early | late
  · exact UInt32.le_of_lt (runs.before i b h early)
  · exact UInt32.le_of_eq (runs.within i b h late)

/-- A position at the offset of the last one goes on with the run. -/
theorem concat_same (runs : RunsFrom bound runStart here) (same : next.offset = here.offset) :
    RunsFrom (bound ++ [next]) runStart next := by
  have := runs.runStart_lt
  refine ⟨List.getLast?_concat, fun i b h early => ?_, fun i b h late => ?_⟩
  · rcases getElem?_concat_eq_some_iff.1 h with h | ⟨rfl, rfl⟩
    · exact same ▸ runs.before i b h early
    · omega
  · rcases getElem?_concat_eq_some_iff.1 h with h | ⟨rfl, rfl⟩
    · exact same ▸ runs.within i b h late
    · rfl

/-- A position at a higher offset than the last one begins a run. -/
theorem concat_apart (runs : RunsFrom bound runStart here) (lt : here.offset < next.offset) :
    RunsFrom (bound ++ [next]) bound.length next := by
  refine ⟨List.getLast?_concat, fun i b h early => ?_, fun i b h late => ?_⟩
  · rcases getElem?_concat_eq_some_iff.1 h with h | ⟨rfl, rfl⟩
    · exact UInt32.lt_of_le_of_lt (runs.offset_le h) lt
    · omega
  · rcases getElem?_concat_eq_some_iff.1 h with h | ⟨rfl, rfl⟩
    · obtain ⟨inside, -⟩ := List.getElem?_eq_some_iff.1 h
      omega
    · rfl

end RunsFrom

namespace Lineup

variable {l : Lineup} {bound : List Position} {here next : Position} {runStart : Nat} {s : Slot}

theorem usesBetween_eq_true_iff {first count : Nat} {term : String} :
    l.usesBetween first count term = true ↔
      ∃ i t, first ≤ i ∧ i < first + count ∧ l.slots[i]? = some t ∧ t.term = term := by
  rw [usesBetween, List.any_eq_true]
  constructor
  · rintro ⟨t, ht, same⟩
    obtain ⟨k, hk⟩ := List.getElem?_of_mem ht
    rw [List.getElem?_take, List.getElem?_drop] at hk
    split at hk
    · exact ⟨first + k, t, by omega, by omega, hk, by simpa using same⟩
    · cases hk
  · rintro ⟨i, t, le, lt, hi, rfl⟩
    refine ⟨t, List.mem_of_getElem? (i := i - first) ?_, by simp⟩
    rw [List.getElem?_take, if_pos (by omega), List.getElem?_drop, ← hi]
    congr 1
    omega

/-! ### Growth -/

/-- Offsets never fall along a chain. -/
theorem PartialChain.ascending (h : l.PartialChain bound) :
    bound.Pairwise fun p q => p.offset.toNat ≤ q.offset.toNat := by
  have ascending : (bound.map (·.offset.toNat)).Pairwise (· ≤ ·) := by
    rw [← List.isChain_iff_pairwise, List.isChain_map]
    exact (Position.hops_iff_isChain.1 h.hops).imp fun p q hop => hop.forward
  rwa [List.pairwise_map] at ascending

/-- What a chain begins with is a partial chain. -/
theorem PartialChain.of_prefix {chain : List Position} (h : l.PartialChain chain)
    (begins : bound <+: chain) : l.PartialChain bound := by
  obtain ⟨rest, rfl⟩ := begins
  have up {i : Nat} {p : Position} (hi : bound[i]? = some p) : (bound ++ rest)[i]? = some p := by
    rw [List.getElem?_append_left (List.getElem?_eq_some_iff.1 hi).1, hi]
  refine ⟨⟨?_, ?_, ?_⟩, ?_⟩
  · have := h.length_le
    rw [List.length_append] at this
    omega
  · intro i s p hs hp
    exact h.mem_positions i s p hs (up hp)
  · intro i j s t p q lt hs ht term hp hq
    exact h.apart i j s t p q lt hs ht term (up hp) (up hq)
  · intro i p q hp hq
    exact h.hops i p q (up hp) (up hq)

theorem PartialChain.single (hs : l.slots[0]? = some s) (mem : next ∈ s.positions) :
    l.PartialChain [next] := by
  have only {i : Nat} {p : Position} (h : [next][i]? = some p) : i = 0 ∧ next = p := by
    rcases (getElem?_concat_eq_some_iff (l := [])).1 h with h | h
    · cases h
    · exact h
  refine ⟨⟨(List.getElem?_eq_some_iff.1 hs).1, ?_, ?_⟩, ?_⟩
  · intro i t p ht hp
    obtain ⟨rfl, rfl⟩ := only hp
    obtain rfl := Option.some_inj.1 (hs.symm.trans ht)
    exact mem
  · intro i j s t p q lt _ _ _ _ hq
    have := (only hq).1
    omega
  · intro i p q _ hq
    have := (only hq).1
    omega

/-- A partial chain is extended by a position that a hop leads to and that no slot has taken. -/
theorem PartialChain.concat (h : l.PartialChain bound) (last : bound.getLast? = some here)
    (hs : l.slots[bound.length]? = some s) (mem : next ∈ s.positions) (hop : here.Hop next)
    (fresh : ∀ (i : Nat) (t : Slot) (p : Position), l.slots[i]? = some t → bound[i]? = some p →
      t.term = s.term → p ≠ next) : l.PartialChain (bound ++ [next]) := by
  refine ⟨⟨?_, ?_, ?_⟩, ?_⟩
  · rw [List.length_append]
    exact (List.getElem?_eq_some_iff.1 hs).1
  · intro i t p ht hp
    rcases getElem?_concat_eq_some_iff.1 hp with hp | ⟨rfl, rfl⟩
    · exact h.mem_positions i t p ht hp
    · obtain rfl := Option.some_inj.1 (hs.symm.trans ht)
      exact mem
  · intro i j t u p q lt ht hu term hp hq
    rcases getElem?_concat_eq_some_iff.1 hp with hp | ⟨rfl, rfl⟩
    · rcases getElem?_concat_eq_some_iff.1 hq with hq | ⟨rfl, rfl⟩
      · exact h.apart i j t u p q lt ht hu term hp hq
      · obtain rfl := Option.some_inj.1 (hs.symm.trans hu)
        exact fresh i t p ht hp term
    · have := (List.getElem?_eq_some_iff.1 hq).1
      simp at this
      omega
  · intro i p q hp hq
    rcases getElem?_concat_eq_some_iff.1 hp with hp | ⟨rfl, rfl⟩
    · rcases getElem?_concat_eq_some_iff.1 hq with hq | ⟨here_eq, rfl⟩
      · exact h.hops i p q hp hq
      · rw [List.getLast?_eq_getElem?, ← here_eq, Nat.add_sub_cancel, hp] at last
        exact Option.some_inj.1 last ▸ hop
    · have := (List.getElem?_eq_some_iff.1 hq).1
      simp at this

/-- It is enough to look for the term of the next slot in the run. -/
theorem PartialChain.concat_iff (ordered : l.Orderly) (h : l.PartialChain bound)
    (runs : RunsFrom bound runStart here) (hs : l.slots[bound.length]? = some s)
    (mem : next ∈ s.positions) :
    l.PartialChain (bound ++ [next]) ↔ here.Hop next ∧
      (next.offset = here.offset →
        l.usesBetween runStart (bound.length - runStart) s.term = false) := by
  have length_pos := runs.length_pos
  have in_slot : s ∈ l.slots := List.mem_of_getElem? hs
  constructor
  · intro grown
    have here_at : (bound ++ [next])[bound.length - 1]? = some here :=
      getElem?_concat_eq_some_iff.2 (.inl runs.getElem?_last)
    have next_at : (bound ++ [next])[bound.length]? = some next :=
      getElem?_concat_eq_some_iff.2 (.inr ⟨rfl, rfl⟩)
    refine ⟨?_, fun same => ?_⟩
    · refine grown.hops (bound.length - 1) here next here_at ?_
      rwa [Nat.sub_add_cancel length_pos]
    · -- A slot of the run with this term would stand at the very position.
      rw [Bool.eq_false_iff]
      intro used
      obtain ⟨i, t, le, lt, ht, term⟩ := usesBetween_eq_true_iff.1 used
      have inside : i < bound.length := by omega
      have at_i : bound[i]? = some bound[i] := List.getElem?_eq_getElem inside
      have taken : bound[i] = next :=
        ordered.eq_of_offset_eq (List.mem_of_getElem? ht) in_slot term
          (h.mem_positions i t _ ht at_i) mem ((runs.within i _ at_i le).trans same.symm)
      exact grown.apart i bound.length t s _ next inside ht hs term
        (getElem?_concat_eq_some_iff.2 (.inl at_i)) next_at taken
  · rintro ⟨hop, unused⟩
    refine h.concat runs.last hs mem hop fun i t p ht hp term taken => ?_
    subst taken
    have same : p.offset = here.offset :=
      UInt32.le_antisymm (runs.offset_le hp) (UInt32.le_iff_toNat_le.2 hop.forward)
    have late : runStart ≤ i := by
      by_contra early
      exact UInt32.ne_of_lt (runs.before i p hp (Nat.lt_of_not_le early)) same
    have inside := (List.getElem?_eq_some_iff.1 hp).1
    have used : l.usesBetween runStart (bound.length - runStart) s.term = true :=
      usesBetween_eq_true_iff.2 ⟨i, t, late, by omega, ht, term⟩
    rw [unused same] at used
    cases used

/-! ### Order -/

/-- Of two chains that begin alike, the one that goes on with the lower offset comes first. -/
theorem map_offset_le_of_lt {p q : Position} {chain other : List Position} (lt : p.offset < q.offset)
    (begins : bound ++ [p] <+: chain) (begins' : bound ++ [q] <+: other) :
    chain.map (·.offset) ≤ other.map (·.offset) := by
  obtain ⟨rest, rfl⟩ := begins
  obtain ⟨rest', rfl⟩ := begins'
  simp only [List.append_assoc, List.map_append]
  refine List.append_left_le (List.le_of_lt ?_)
  exact List.cons_lt_cons_iff.2 (.inl lt)

end Lineup

end TermProximity
