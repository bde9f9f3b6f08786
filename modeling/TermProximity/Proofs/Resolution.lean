import Mathlib.Data.List.Pairwise
import Mathlib.Tactic.ByContra
import TermProximity.Chain.Lane
import TermProximity.Proofs.FirstOccurrences

/-!
# Resolution — what a resolved lineup is made of

* `resolve?_eq_some_iff`: terms are resolved in a zone exactly if each has a usable position there,
  and then every slot has the usable positions of its term;
* `Orderly`: what searches rely on, the order of the positions and that slots of one term agree;
* `Slot.candidatesFrom_lane_eq_filter`: a search comes back to all candidates from an offset on;
* `Slot.lowAhead_le`: what a candidate says of the later ones holds of them.
-/

namespace TermProximity

/-! ### Slots of terms -/

namespace Lineup

variable (postings : Postings) (zone : Zone.Id) (limit : Option Weight)

/-- The positions of a term in a zone that are relevant enough. -/
def usable (term : String) : List Position :=
  (postings.positions term zone).filter fun p => limit.all p.isWithin

/-- A slot for each of some terms with the usable positions of the term, were there none. -/
def lineUp (terms : List String) : Lineup :=
  ⟨terms.map fun term => ⟨term, usable postings zone limit term⟩⟩

variable {postings zone limit}

theorem slot?_eq (term : String) :
    slot? postings zone limit term =
      if usable postings zone limit term = [] then none
      else some ⟨term, usable postings zone limit term⟩ := by
  have unfolded : slot? postings zone limit term =
      if (usable postings zone limit term).isEmpty then none
      else some ⟨term, usable postings zone limit term⟩ := rfl
  simp only [unfolded, List.isEmpty_iff]

theorem slot?_eq_some_iff {term : String} {s : Slot} :
    slot? postings zone limit term = some s ↔
      usable postings zone limit term ≠ [] ∧ s = ⟨term, usable postings zone limit term⟩ := by
  rw [slot?_eq]
  by_cases h : usable postings zone limit term = []
  · simp [h]
  · rw [if_neg h, Option.some_inj, eq_comm]
    exact ⟨fun e => ⟨h, e⟩, fun e => e.2⟩

theorem mapM_slot?_eq_some_iff {terms : List String} {slots : List Slot} :
    terms.mapM (slot? postings zone limit) = some slots ↔
      (∀ term ∈ terms, usable postings zone limit term ≠ []) ∧
        slots = (lineUp postings zone limit terms).slots := by
  induction terms generalizing slots with
  | nil =>
    rw [List.mapM_nil, Option.pure_def, Option.some_inj, eq_comm]
    simp [lineUp]
  | cons term rest ih =>
    rw [List.mapM_cons]
    constructor
    · intro h
      obtain ⟨s, hs, h⟩ := Option.bind_eq_some_iff.1 h
      obtain ⟨later, hlater, h⟩ := Option.bind_eq_some_iff.1 h
      obtain ⟨here, rfl⟩ := slot?_eq_some_iff.1 hs
      obtain ⟨all, rfl⟩ := ih.1 hlater
      cases h
      exact ⟨List.forall_mem_cons.2 ⟨here, all⟩, rfl⟩
    · rintro ⟨all, rfl⟩
      obtain ⟨here, all⟩ := List.forall_mem_cons.1 all
      rw [slot?_eq_some_iff.2 ⟨here, rfl⟩, ih.2 ⟨all, rfl⟩]
      rfl

/-- Terms are resolved exactly if each has a usable position, and then to all of these. -/
theorem resolve?_eq_some_iff {terms : List String} {l : Lineup} :
    resolve? postings zone limit terms = some l ↔
      (∀ term ∈ terms, usable postings zone limit term ≠ []) ∧
        l = lineUp postings zone limit terms := by
  rw [resolve?, Option.map_eq_some_iff]
  constructor
  · rintro ⟨slots, h, rfl⟩
    obtain ⟨all, rfl⟩ := mapM_slot?_eq_some_iff.1 h
    exact ⟨all, rfl⟩
  · rintro ⟨all, rfl⟩
    exact ⟨_, mapM_slot?_eq_some_iff.2 ⟨all, rfl⟩, rfl⟩

theorem slots_ne_nil_of_resolve? {terms : List String} {l : Lineup} (some_term : terms ≠ [])
    (resolved : resolve? postings zone limit terms = some l) : l.slots ≠ [] := by
  obtain ⟨-, rfl⟩ := resolve?_eq_some_iff.1 resolved
  exact fun none_left => some_term (List.map_eq_nil_iff.1 none_left)

/-! ### Different terms -/

theorem map_term_distinct (l : Lineup) :
    l.distinct.map (·.term) = (l.slots.map (·.term)).eraseDups := map_eraseDupsBy Slot.term l.slots

theorem numberOf_eq_idxOf (l : Lineup) (term : String) :
    l.numberOf term = (l.distinct.map (·.term)).idxOf term := by
  rw [List.idxOf, List.findIdx_map]
  rfl

theorem mem_slots_of_mem_distinct {l : Lineup} {s : Slot} (h : s ∈ l.distinct) : s ∈ l.slots :=
  mem_of_mem_eraseDupsBy h

theorem exists_mem_distinct {l : Lineup} {s : Slot} (h : s ∈ l.slots) :
    ∃ t ∈ l.distinct, s.term = t.term := by
  have kept : s.term ∈ l.distinct.map (·.term) := by
    rw [map_term_distinct, List.mem_eraseDups]
    exact List.mem_map_of_mem h
  obtain ⟨t, ht, same⟩ := List.mem_map.1 kept
  exact ⟨t, ht, same.symm⟩

/-! ### Order -/

/-- What a search relies on. -/
structure Orderly (l : Lineup) : Prop where
  ascending : ∀ s ∈ l.slots, s.positions.Pairwise fun p q => p.offset < q.offset
  same : ∀ s ∈ l.slots, ∀ t ∈ l.slots, s.term = t.term → s.positions = t.positions

theorem ascending_positions (postings : Postings) (term : String) (zone : Zone.Id) :
    (postings.positions term zone).Pairwise fun p q => p.offset < q.offset := by
  unfold Postings.positions
  split
  · unfold Occurrences.positions
    split
    · rename_i found _
      exact found.positions.ascending.imp fun h => UInt32.lt_iff_toNat_lt.2 (Nat.compare_eq_lt.1 h)
    · exact List.Pairwise.nil
  · exact List.Pairwise.nil

theorem orderly_lineUp (terms : List String) : (lineUp postings zone limit terms).Orderly := by
  constructor
  · intro s hs
    obtain ⟨term, -, rfl⟩ := List.mem_map.1 hs
    exact (ascending_positions postings term zone).filter _
  · intro s hs t ht same
    obtain ⟨term, -, rfl⟩ := List.mem_map.1 hs
    obtain ⟨term', -, rfl⟩ := List.mem_map.1 ht
    obtain rfl : term = term' := same
    rfl

theorem orderly_of_resolve? {terms : List String} {l : Lineup}
    (h : resolve? postings zone limit terms = some l) : l.Orderly := by
  obtain ⟨-, rfl⟩ := resolve?_eq_some_iff.1 h
  exact orderly_lineUp terms

/-- Positions of slots of one term are the same once they stand at one offset. -/
theorem Orderly.eq_of_offset_eq {l : Lineup} (ordered : l.Orderly) {s t : Slot} {p q : Position}
    (hs : s ∈ l.slots) (ht : t ∈ l.slots) (term : s.term = t.term) (hp : p ∈ s.positions)
    (hq : q ∈ t.positions) (offset : p.offset = q.offset) : p = q := by
  rw [← ordered.same s hs t ht term] at hq
  by_contra ne
  have apart : s.positions.Pairwise fun p q => p.offset ≠ q.offset :=
    (ordered.ascending s hs).imp fun lt => UInt32.ne_of_lt lt
  have : Std.Symm fun p q : Position => p.offset ≠ q.offset := ⟨fun _ _ h e => h e.symm⟩
  exact apart.forall hp hq ne offset

end Lineup

/-! ### A sample -/

/-- Postings of one zone in which a term stands twice, once together with another one. -/
def samplePostings : Postings :=
  (Postings.put ∅ "a" ⟨"BODY", true, "doc"⟩ [{ offset := 4 }, { offset := 5 }]).put
    "b" ⟨"BODY", true, "doc"⟩ [{ offset := 9, skips := 3 }, { offset := 4 }]

/-- Three slots over the sample, two of them of one term. -/
def sampleLineup : Lineup :=
  ⟨[⟨"a", [{ offset := 4 }, { offset := 5 }]⟩,
    ⟨"b", [{ offset := 4 }, { offset := 9, skips := 3 }]⟩,
    ⟨"a", [{ offset := 4 }, { offset := 5 }]⟩]⟩

/-! ### Candidates -/

/-- Where a test fails from some member on, what is left after those that pass is all that fail. -/
theorem dropWhile_eq_filter {α : Type} {p : α → Bool} {l : List α}
    (before : l.Pairwise fun a b => p b = true → p a = true) :
    l.dropWhile p = l.filter fun a => !p a := by
  induction l with
  | nil => rfl
  | cons a l ih =>
    obtain ⟨first, rest⟩ := List.pairwise_cons.1 before
    by_cases h : p a = true
    · rw [List.dropWhile_cons_of_pos h, List.filter_cons_of_neg (by simp [h]), ih rest]
    · rw [List.dropWhile_cons_of_neg h, List.filter_eq_self.2]
      intro b hb
      rcases List.mem_cons.1 hb with rfl | hb
      · simpa using h
      · simpa using fun hp => h (first b hb hp)

namespace Slot

theorem mem_positions_iff {s : Slot} {q : Position} :
    q ∈ s.positions ↔ ∃ c ∈ s.candidates, c.position = q := by
  rw [← s.map_position_candidates, List.mem_map]

theorem ascending_candidates {s : Slot}
    (ascending : s.positions.Pairwise fun p q => p.offset < q.offset) :
    s.candidates.Pairwise fun c d => c.position.offset < d.position.offset := by
  rwa [← s.map_position_candidates, List.pairwise_map] at ascending

/-- From an offset on, a lane gives all candidates at the offset or after it. -/
theorem candidatesFrom_lane_eq_filter {s : Slot} (offset : UInt32)
    (ascending : s.positions.Pairwise fun p q => p.offset < q.offset) :
    s.lane.candidatesFrom offset = s.candidates.filter fun c => offset ≤ c.position.offset := by
  rw [candidatesFrom_lane offset ascending, dropWhile_eq_filter]
  · refine List.filter_congr fun c _ => ?_
    rw [← decide_not, decide_eq_decide, UInt32.not_lt]
  · refine (ascending_candidates ascending).imp fun lt later => ?_
    rw [decide_eq_true_iff] at later ⊢
    exact UInt32.lt_trans lt later

theorem index_of_getElem?_candidatesFrom {first i : Nat} {ps : List Position} {c : Candidate}
    (h : (candidatesFrom first ps)[i]? = some c) : c.index = first + i := by
  induction ps generalizing first i with
  | nil => simp [candidatesFrom] at h
  | cons p rest ih =>
    cases i with
    | zero =>
      simp only [candidatesFrom, List.getElem?_cons_zero, Option.some_inj] at h
      subst h
      rfl
    | succ i =>
      have := ih (by simpa [candidatesFrom] using h)
      omega

/-- A candidate stands at the place it says. -/
theorem getElem?_candidates_index {s : Slot} {c : Candidate} (h : c ∈ s.candidates) :
    s.candidates[c.index]? = some c := by
  obtain ⟨i, hi⟩ := List.getElem?_of_mem h
  have index : c.index = 0 + i := index_of_getElem?_candidatesFrom hi
  rwa [index, Nat.zero_add]

theorem lowAhead_le_of_suffix_candidatesFrom {first : Nat} {ps : List Position} {c : Candidate}
    {rest : List Candidate} (h : c :: rest <:+ candidatesFrom first ps) :
    ∀ d ∈ c :: rest, c.lowAhead ≤ d.position.low := by
  induction ps generalizing first c rest with
  | nil => simp [candidatesFrom] at h
  | cons p ps ih =>
    rw [candidatesFrom, List.suffix_cons_iff] at h
    rcases h with h | h
    · obtain ⟨rfl, rfl⟩ := List.cons_eq_cons.1 h
      intro d hd
      cases later : candidatesFrom (first + 1) ps with
      | nil =>
        rw [later, List.mem_singleton] at hd
        subst hd
        exact Nat.le_refl _
      | cons c' later' =>
        rw [later] at hd
        rcases List.mem_cons.1 hd with rfl | hd
        · exact Nat.min_le_left _ _
        · have whole : c' :: later' <:+ candidatesFrom (first + 1) ps := later ▸ List.suffix_refl _
          exact Nat.le_trans (Nat.min_le_right _ _) (ih whole d hd)
    · exact ih h

/-- No later candidate reaches back further than a candidate says. -/
theorem lowAhead_le {s : Slot} {c : Candidate} {rest : List Candidate}
    (h : c :: rest <:+ s.candidates) : ∀ d ∈ c :: rest, c.lowAhead ≤ d.position.low :=
  lowAhead_le_of_suffix_candidatesFrom h

end Slot

end TermProximity
