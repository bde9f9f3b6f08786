import Mathlib.Algebra.GroupWithZero.Nat
import Mathlib.Order.Bounds.Basic
import TermProximity.Proofs.Resolution.Pass

/-!
# Tables of a lineup — its different terms by number, their uses, and how low they reach

What a search looks up besides the slots is derived from them: a term is told by its number, its uses
are counted, and from every place on the least `low` is known.

* `lowFrom_isLeast`: the least `low` from a place on;
* `Lineup.Tabulates`: what the tables of a lineup hold when terms are resolved to it;
* `Lineup.resolve?_tabulates`: terms are resolved exactly if each has a position that passes, and then the
  tables hold that; and one pass over the terms builds them.
-/

namespace TermProximity

/-! ### How low the positions reach -/

namespace Slot

/-- The least `low` of the positions from a place on, as it is looked up. -/
def lowFrom (s : Slot) (i : Nat) : Nat := s.lowsAhead.getD i maxOffset

theorem length_candidates (s : Slot) : s.candidates.length = s.positions.length := by
  rw [← s.map_position_candidates, List.length_map]

theorem lowFrom_of_candidate {s : Slot} {i : Nat} {c : Candidate} (h : s.candidates[i]? = some c) :
    s.lowFrom i = c.lowAhead := by
  have inside := (List.getElem?_eq_some_iff.1 h).1
  rw [lowFrom, lowsAhead, List.getD_eq_getElem?_getD, List.getElem?_append_left (by simpa using inside),
    List.getElem?_map, h]
  rfl

/-- Past the end of the list it is the largest offset. -/
theorem lowFrom_of_length_le {s : Slot} {i : Nat} (past : s.positions.length ≤ i) :
    s.lowFrom i = maxOffset := by
  rw [← length_candidates] at past
  have length : (s.candidates.map (·.lowAhead)).length = s.candidates.length := List.length_map _
  rw [lowFrom, lowsAhead, List.getD_eq_getElem?_getD, List.getElem?_append_right (by omega)]
  cases i - (s.candidates.map (·.lowAhead)).length <;> rfl

/-- Some position from the place of a candidate on reaches back as far as the candidate says. -/
theorem exists_low_eq_lowAhead {first i : Nat} {ps : List Position} {c : Candidate}
    (h : (candidatesFrom first ps)[i]? = some c) : ∃ p ∈ ps.drop i, p.low = c.lowAhead := by
  induction ps generalizing first i c with
  | nil => simp [candidatesFrom] at h
  | cons p rest ih =>
    cases i with
    | zero =>
      simp only [candidatesFrom, List.getElem?_cons_zero, Option.some_inj] at h
      subst h
      cases later : candidatesFrom (first + 1) rest with
      | nil => exact ⟨p, List.mem_cons_self, rfl⟩
      | cons d _ =>
        have at_front : (candidatesFrom (first + 1) rest)[0]? = some d := by rw [later]; rfl
        obtain ⟨q, hq, low⟩ := ih at_front
        show ∃ q ∈ p :: rest, q.low = min p.low d.lowAhead
        rcases Nat.le_total p.low d.lowAhead with le | le
        · exact ⟨p, List.mem_cons_self, (Nat.min_eq_left le).symm⟩
        · exact ⟨q, List.mem_cons_of_mem p hq, low.trans (Nat.min_eq_right le).symm⟩
    | succ i => exact ih (i := i) (by simpa [candidatesFrom] using h)

/-- It is the least `low` of the positions from the place on. -/
theorem lowFrom_isLeast {s : Slot} {i : Nat} (inside : i < s.positions.length) :
    IsLeast {low | ∃ p ∈ s.positions.drop i, p.low = low} (s.lowFrom i) := by
  rw [← length_candidates] at inside
  obtain ⟨c, hc⟩ : ∃ c, s.candidates[i]? = some c := ⟨_, List.getElem?_eq_getElem inside⟩
  rw [lowFrom_of_candidate hc]
  refine ⟨exists_low_eq_lowAhead hc, ?_⟩
  rintro low ⟨p, hp, rfl⟩
  have split : s.candidates.drop i = c :: s.candidates.drop (i + 1) := by
    rw [List.drop_eq_getElem_cons inside, ← (List.getElem?_eq_some_iff.1 hc).2]
  rw [← s.map_position_candidates, ← List.map_drop, split] at hp
  obtain ⟨d, hd, rfl⟩ := List.mem_map.1 hp
  exact lowAhead_le (split ▸ List.drop_suffix i s.candidates) d hd

end Slot

/-! ### Terms by number -/

namespace Lineup

variable {l : Lineup} {s t : Slot}

/-- A term is numbered by the different terms that come before its first use. -/
theorem numberOf_of_first {before after : List String} {term : String}
    (terms : l.slots.map (·.term) = before ++ term :: after) (new : term ∉ before) :
    l.numberOf term = before.toFinset.card := by
  rw [numberOf_eq_idxOf, map_term_distinct, terms, idxOf_eraseDups new]

theorem term_mem_distinct (h : s ∈ l.slots) : s.term ∈ l.distinct.map (·.term) := by
  rw [map_term_distinct, List.mem_eraseDups]
  exact List.mem_map_of_mem h

theorem numberOf_eq_iff (hs : s ∈ l.slots) (term : String) :
    l.numberOf s.term = l.numberOf term ↔ s.term = term := by
  rw [numberOf_eq_idxOf, numberOf_eq_idxOf]
  exact List.idxOf_inj (term_mem_distinct hs)

/-- Under the number of its term a slot finds its own positions. -/
theorem getElem?_distinct_numberOf (ordered : l.Orderly) (hs : s ∈ l.slots) :
    l.distinct[l.numberOf s.term]? = some s := by
  have at_number : (l.distinct.map (·.term))[l.numberOf s.term]? = some s.term := by
    rw [numberOf_eq_idxOf]
    exact List.getElem?_idxOf (term_mem_distinct hs)
  rw [List.getElem?_map] at at_number
  obtain ⟨t, ht, term⟩ := Option.map_eq_some_iff.1 at_number
  have in_slots := mem_slots_of_mem_distinct (List.mem_of_getElem? ht)
  have positions := ordered.same t in_slots s hs term
  obtain ⟨_, _⟩ := s
  obtain ⟨_, _⟩ := t
  cases term
  cases positions
  exact ht

/-- A different term stands under its own number. -/
theorem numberOf_of_getElem? {k : Nat} (h : l.distinct[k]? = some s) : l.numberOf s.term = k := by
  have distinct : (l.distinct.map (·.term)).Nodup := by
    rw [map_term_distinct]
    exact nodup_eraseDups _
  obtain ⟨inside, rfl⟩ := List.getElem?_eq_some_iff.1 h
  have := distinct.idxOf_getElem k (by simpa using inside)
  rwa [List.getElem_map, ← numberOf_eq_idxOf] at this

/-- The uses of the term numbered `k` are the slots with this number. -/
theorem uses_of_getElem? {k : Nat} (h : l.distinct[k]? = some s) :
    l.uses s.term = l.slots.countP fun t => l.numberOf t.term = k := by
  refine List.countP_congr fun t ht => ?_
  rw [beq_iff_eq, decide_eq_true_iff, ← numberOf_of_getElem? h, numberOf_eq_iff ht]

theorem sum_uses (l : Lineup) : (l.distinct.map fun s => l.uses s.term).sum = l.slots.length := by
  have counted : ∀ s ∈ l.distinct, l.uses s.term = (l.slots.map (·.term)).count s.term := by
    intro s _
    rw [uses, List.count_eq_countP, List.countP_map]
    rfl
  have whole := sum_count_eraseDups (l.slots.map (·.term))
  rw [← map_term_distinct, List.map_map, List.length_map] at whole
  rw [← whole]
  exact congrArg List.sum (List.map_congr_left counted)

/-! ### What is resolved -/

/-- A position passes a limit if it has no weight, or one that is not above the limit. -/
def Passes (limit : Option Weight) (p : Position) : Prop :=
  ∀ most ∈ limit, p.weight = none ∨ ∃ w, p.weight = some w ∧ w ≤ most

theorem all_isWithin_iff {limit : Option Weight} {p : Position} :
    limit.all p.isWithin = true ↔ Passes limit p := by
  cases limit with
  | none => simp [Passes]
  | some most =>
    rw [Option.all_some, Position.isWithin, Passes]
    cases p.weight <;> simp

theorem mem_usable_iff {postings : Postings} {zone : Zone.Id} {limit : Option Weight} {term : String}
    {p : Position} :
    p ∈ usable postings zone limit term ↔ p ∈ postings.positions term zone ∧ Passes limit p := by
  rw [usable, List.mem_filter, all_isWithin_iff]

/-- What the tables of a lineup hold when terms are resolved to it in a zone. -/
structure Tabulates (l : Lineup) (postings : Postings) (zone : Zone.Id) (limit : Option Weight)
    (terms : List String) : Prop where
  /-- There is a slot for each term, in order. -/
  slots : l.slots.map (·.term) = terms
  /-- A term is numbered by the different terms that come before its first use. -/
  numberOf : ∀ before term after, terms = before ++ term :: after → term ∉ before →
    l.numberOf term = before.toFinset.card
  /-- Two slots have one number exactly if they are of one term. -/
  numberOf_eq_iff : ∀ (i j : Nat) (s t : Slot), l.slots[i]? = some s → l.slots[j]? = some t →
    (l.numberOf s.term = l.numberOf t.term ↔ terms[i]? = terms[j]?)
  /-- Under the number of its term a slot finds its own positions. -/
  numbered : ∀ s ∈ l.slots, l.distinct[l.numberOf s.term]? = some s
  /-- The uses of a term are the slots with its number. -/
  uses : ∀ (k : Nat) (s : Slot), l.distinct[k]? = some s →
    l.uses s.term = l.slots.countP fun t => l.numberOf t.term = k
  /-- All uses together are as many as there are terms. -/
  sum_uses : (l.distinct.map fun s => l.uses s.term).sum = terms.length
  /-- No slot is without a position. -/
  positions_ne_nil : ∀ s ∈ l.slots, s.positions ≠ []
  /-- The positions of a slot stand in order of their offsets, and none at the same one. -/
  ascending : ∀ s ∈ l.slots, s.positions.Pairwise fun p q => p.offset < q.offset
  /-- They are the positions of its term in the zone that pass the limit. -/
  mem_positions : ∀ s ∈ l.slots, ∀ p,
    p ∈ s.positions ↔ p ∈ postings.positions s.term zone ∧ Passes limit p
  /-- From every place on the least `low` is known. -/
  lowFrom_isLeast : ∀ s ∈ l.slots, ∀ i < s.positions.length,
    IsLeast {low | ∃ p ∈ s.positions.drop i, p.low = low} (s.lowFrom i)
  /-- Past the end it is the largest offset. -/
  lowFrom_of_length_le : ∀ s ∈ l.slots, ∀ i ≥ s.positions.length, s.lowFrom i = maxOffset

variable (postings : Postings) (zone : Zone.Id) (limit : Option Weight) (terms : List String)

theorem tabulates_lineUp (some_usable : ∀ term ∈ terms, usable postings zone limit term ≠ []) :
    (lineUp postings zone limit terms).Tabulates postings zone limit terms := by
  have terms_eq : (lineUp postings zone limit terms).slots.map (·.term) = terms := by
    simp [lineUp, Function.comp_def]
  have ordered : (lineUp postings zone limit terms).Orderly := orderly_lineUp terms
  refine ⟨terms_eq, ?_, ?_, fun s hs => getElem?_distinct_numberOf ordered hs,
    fun k s h => uses_of_getElem? h, ?_, ?_, ordered.ascending, ?_,
    fun s _ i inside => Slot.lowFrom_isLeast inside, fun s _ i past => Slot.lowFrom_of_length_le past⟩
  · intro before term after split new
    exact numberOf_of_first (terms_eq.trans split) new
  · intro i j s t hs ht
    rw [Lineup.numberOf_eq_iff (List.mem_of_getElem? hs), ← terms_eq, List.getElem?_map,
      List.getElem?_map, hs, ht]
    simp
  · rw [Lineup.sum_uses, ← List.length_map Slot.term, terms_eq]
  · intro s hs
    obtain ⟨term, mem, rfl⟩ := List.mem_map.1 hs
    exact some_usable term mem
  · intro s hs p
    obtain ⟨term, -, rfl⟩ := List.mem_map.1 hs
    exact mem_usable_iff

/--
Terms are resolved to no lineup exactly if some term has no position in the zone that passes the
limit; otherwise the tables of the lineup hold what they should.  They are what one pass over the terms
builds.
-/
theorem resolve?_tabulates :
    (match resolve? postings zone limit terms with
    | none => ∃ term ∈ terms, ∀ p ∈ postings.positions term zone, ¬ Passes limit p
    | some l =>
      (∀ term ∈ terms, ∃ p ∈ postings.positions term zone, Passes limit p) ∧
        l.Tabulates postings zone limit terms) ∧
    Tables.build? postings zone limit terms = (resolve? postings zone limit terms).map tables := by
  refine ⟨?_, Tables.build?_eq_map_tables postings zone limit terms⟩
  cases resolved : resolve? postings zone limit terms with
  | none =>
    by_contra all
    push Not at all
    have some_usable : ∀ term ∈ terms, usable postings zone limit term ≠ [] := by
      intro term mem
      obtain ⟨p, hp, passes⟩ := all term mem
      exact List.ne_nil_of_mem (mem_usable_iff.2 ⟨hp, passes⟩)
    rw [resolve?_eq_some_iff.2 ⟨some_usable, rfl⟩] at resolved
    contradiction
  | some l =>
    obtain ⟨some_usable, rfl⟩ := resolve?_eq_some_iff.1 resolved
    refine ⟨fun term mem => ?_, tabulates_lineUp postings zone limit terms some_usable⟩
    obtain ⟨p, hp⟩ := List.exists_mem_of_ne_nil _ (some_usable term mem)
    exact ⟨p, mem_usable_iff.1 hp⟩

end Lineup

end TermProximity
