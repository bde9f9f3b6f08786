import Mathlib.Data.List.Nodup
import Mathlib.Data.List.Perm.Subperm
import Mathlib.Logic.Function.Basic
import TermProximity.Window
import TermProximity.Proofs.Resolution

/-!
# Counting instead of choosing — when every slot can take a position of a kind

Positions of some kind can be chosen for all slots exactly if every term has as many of them as it
has slots: slots of one term take them in turn, and slots of different terms do not compete.

* `Binding.uses_le`: a choice uses as many different positions of a term as the term has slots;
* `Orderly.exists_binding_of_uses_le`: and where there are so many, a choice can be made, in which
  the first of them is taken.
-/

namespace TermProximity

namespace Lineup

variable {l : Lineup} {chosen : List Position} {s : Slot} {p : Position}

/-! ### Slots with what they take -/

/-- What a binding is, told of the pairs of a slot and the position that it takes. -/
theorem binding_iff_zip :
    l.Binding chosen ↔ chosen.length = l.slots.length ∧
      (∀ x ∈ l.slots.zip chosen, x.2 ∈ x.1.positions) ∧
      (l.slots.zip chosen).Pairwise fun x y => x.1.term = y.1.term → x.2 ≠ y.2 := by
  constructor
  · intro h
    refine ⟨h.length_eq, fun x hx => ?_, List.pairwise_iff_getElem.2 ?_⟩
    · obtain ⟨i, hi⟩ := List.getElem?_of_mem hx
      obtain ⟨slot, taken⟩ := List.getElem?_zip_eq_some.1 hi
      exact h.mem_positions i x.1 x.2 slot taken
    · intro i j hi hj lt term
      obtain ⟨slot, taken⟩ := List.getElem?_zip_eq_some.1 (List.getElem?_eq_getElem hi)
      obtain ⟨slot', taken'⟩ := List.getElem?_zip_eq_some.1 (List.getElem?_eq_getElem hj)
      exact h.apart i j _ _ _ _ lt slot slot' term taken taken'
  · rintro ⟨length, mem, apart⟩
    refine ⟨⟨Nat.le_of_eq length, ?_, ?_⟩, length⟩
    · intro i s p slot taken
      exact mem (s, p) (List.mem_of_getElem? (List.getElem?_zip_eq_some.2 ⟨slot, taken⟩))
    · intro i j s t p q lt slot slot' term taken taken'
      obtain ⟨hi, ei⟩ := List.getElem?_eq_some_iff.1
        (List.getElem?_zip_eq_some (z := (s, p)) |>.2 ⟨slot, taken⟩)
      obtain ⟨hj, ej⟩ := List.getElem?_eq_some_iff.1
        (List.getElem?_zip_eq_some (z := (t, q)) |>.2 ⟨slot', taken'⟩)
      have := List.pairwise_iff_getElem.1 apart i j hi hj lt
      rw [ei, ej] at this
      exact this term

theorem Binding.map_fst_zip (h : l.Binding chosen) : (l.slots.zip chosen).map Prod.fst = l.slots :=
  List.map_fst_zip (Nat.le_of_eq h.length_eq.symm)

theorem Binding.map_snd_zip (h : l.Binding chosen) : (l.slots.zip chosen).map Prod.snd = chosen :=
  List.map_snd_zip (Nat.le_of_eq h.length_eq)

/-- What is taken for a slot is one of its positions. -/
theorem Binding.exists_slot_of_mem (h : l.Binding chosen) (hp : p ∈ chosen) :
    ∃ s ∈ l.slots, p ∈ s.positions := by
  rw [← h.map_snd_zip] at hp
  obtain ⟨x, hx, rfl⟩ := List.mem_map.1 hp
  exact ⟨x.1, (List.of_mem_zip hx).1, (binding_iff_zip.1 h).2.1 x hx⟩

/-! ### From a choice to the count -/

/-- A choice uses as many different positions of a term as the term has slots. -/
theorem Binding.uses_le (ordered : l.Orderly) (h : l.Binding chosen) {fit : Position → Bool}
    (all : ∀ p ∈ chosen, fit p = true) (hs : s ∈ l.slots) :
    l.uses s.term ≤ s.positions.countP fit := by
  obtain ⟨-, mem, apart⟩ := binding_iff_zip.1 h
  let pairs := (l.slots.zip chosen).filter fun x => x.1.term == s.term
  have count : l.uses s.term = (pairs.map (·.2)).length := by
    calc l.uses s.term
        = ((l.slots.zip chosen).map Prod.fst).countP (·.term == s.term) := by
          rw [h.map_fst_zip]
          rfl
      _ = (l.slots.zip chosen).countP fun x => x.1.term == s.term := List.countP_map
      _ = (pairs.map (·.2)).length := by rw [List.length_map, List.countP_eq_length_filter]
  have nodup : (pairs.map (·.2)).Nodup := by
    refine List.pairwise_map.2 ((apart.filter _).imp_of_mem fun hx hy ne => ne ?_)
    have termx := (List.mem_filter.1 hx).2
    have termy := (List.mem_filter.1 hy).2
    rw [beq_iff_eq] at termx termy
    rw [termx, termy]
  have subset : pairs.map (·.2) ⊆ s.positions.filter fit := by
    intro p hp
    obtain ⟨x, hx, rfl⟩ := List.mem_map.1 hp
    obtain ⟨hx, term⟩ := List.mem_filter.1 hx
    obtain ⟨slot, taken⟩ := List.of_mem_zip hx
    refine List.mem_filter.2 ⟨?_, all _ taken⟩
    rw [← ordered.same x.1 slot s hs (beq_iff_eq.1 term)]
    exact mem x hx
  rw [count, List.countP_eq_length_filter]
  exact (List.subperm_of_subset nodup subset).length_le

/-! ### From the count to a choice -/

/-- Slots of one term take the positions at hand for the term in turn. -/
theorem exists_choice {slots : List Slot} {atHand : String → List Position}
    (nodup : ∀ term, (atHand term).Nodup)
    (enough : ∀ term, slots.countP (·.term == term) ≤ (atHand term).length) :
    ∃ chosen : List Position, chosen.length = slots.length ∧
      (∀ x ∈ slots.zip chosen, x.2 ∈ atHand x.1.term) ∧
      ((slots.zip chosen).Pairwise fun x y => x.1.term = y.1.term → x.2 ≠ y.2) ∧
      ∀ s ∈ slots, ∀ p, (atHand s.term).head? = some p → p ∈ chosen := by
  induction slots generalizing atHand with
  | nil => exact ⟨[], rfl, by simp, by simp, by simp⟩
  | cons s rest ih =>
    have some_left := enough s.term
    rw [List.countP_cons_of_pos (by simp)] at some_left
    obtain ⟨p, later, split⟩ := List.exists_cons_of_length_pos (by omega : 0 < (atHand s.term).length)
    have p_fresh : p ∉ later := (List.nodup_cons.1 (split ▸ nodup s.term)).1
    let atHand' := Function.update atHand s.term later
    have here : atHand' s.term = later := Function.update_self ..
    have elsewhere {term : String} (ne : term ≠ s.term) : atHand' term = atHand term :=
      Function.update_of_ne ne ..
    have subset (term : String) : atHand' term ⊆ atHand term := by
      by_cases e : term = s.term
      · subst e
        rw [here, split]
        exact List.subset_cons_self ..
      · rw [elsewhere e]
        exact List.Subset.refl _
    have nodup' (term : String) : (atHand' term).Nodup := by
      by_cases e : term = s.term
      · subst e
        rw [here]
        exact (List.nodup_cons.1 (split ▸ nodup s.term)).2
      · rw [elsewhere e]
        exact nodup term
    have enough' (term : String) : rest.countP (·.term == term) ≤ (atHand' term).length := by
      by_cases e : term = s.term
      · subst e
        rw [split, List.length_cons] at some_left
        rw [here]
        omega
      · have all := enough term
        rw [List.countP_cons_of_neg (by simpa using Ne.symm e)] at all
        rw [elsewhere e]
        exact all
    obtain ⟨chosen, length, mem, apart, first⟩ := ih nodup' enough'
    refine ⟨p :: chosen, congrArg Nat.succ length, ?_, ?_, ?_⟩
    · intro x hx
      rcases List.mem_cons.1 hx with rfl | hx
      · exact split ▸ List.mem_cons_self
      · exact subset _ (mem x hx)
    · refine List.pairwise_cons.2 ⟨fun x hx term taken => ?_, apart⟩
      have := mem x hx
      rw [← term, here, ← taken] at this
      exact p_fresh this
    · intro t ht q hq
      by_cases e : t.term = s.term
      · rw [e, split, List.head?_cons, Option.some_inj] at hq
        exact hq ▸ List.mem_cons_self
      · rcases List.mem_cons.1 ht with rfl | ht
        · exact absurd rfl e
        · exact List.mem_cons_of_mem _ (first t ht q (by rw [elsewhere e]; exact hq))

/-- The positions of the slots of a term. -/
def positionsOf (l : Lineup) (term : String) : List Position :=
  ((l.slots.find? fun s => s.term == term).map (·.positions)).getD []

theorem Orderly.positionsOf_term (ordered : l.Orderly) (hs : s ∈ l.slots) :
    l.positionsOf s.term = s.positions := by
  obtain ⟨t, ht⟩ : ∃ t, l.slots.find? (fun t => t.term == s.term) = some t :=
    Option.isSome_iff_exists.1 (List.find?_isSome.2 ⟨s, hs, beq_self_eq_true _⟩)
  have term : t.term = s.term := by
    have passes := List.find?_some ht
    exact beq_iff_eq.1 passes
  rw [positionsOf, ht]
  exact ordered.same t (List.mem_of_find?_eq_some ht) s hs term

theorem Orderly.nodup_positionsOf (ordered : l.Orderly) (term : String) :
    (l.positionsOf term).Nodup := by
  unfold positionsOf
  cases found : l.slots.find? fun s => s.term == term with
  | none => exact List.nodup_nil
  | some s =>
    refine (ordered.ascending s (List.mem_of_find?_eq_some found)).imp ?_
    rintro p _ lt rfl
    exact UInt32.lt_irrefl _ lt

/-- Where every term has as many positions of a kind as slots, such positions can be chosen. -/
theorem Orderly.exists_binding_of_uses_le (ordered : l.Orderly) {fit : Position → Bool}
    (enough : ∀ s ∈ l.slots, l.uses s.term ≤ s.positions.countP fit) :
    ∃ chosen, l.Binding chosen ∧ (∀ p ∈ chosen, fit p = true) ∧
      ∀ s ∈ l.slots, ∀ p, (s.positions.filter fit).head? = some p → p ∈ chosen := by
  have enough' (term : String) :
      l.slots.countP (·.term == term) ≤ ((l.positionsOf term).filter fit).length := by
    by_cases occurs : ∃ s ∈ l.slots, s.term = term
    · obtain ⟨s, hs, rfl⟩ := occurs
      rw [ordered.positionsOf_term hs, ← List.countP_eq_length_filter]
      exact enough s hs
    · have none_left : l.slots.countP (·.term == term) = 0 :=
        List.countP_eq_zero.2 fun s hs e => occurs ⟨s, hs, beq_iff_eq.1 e⟩
      omega
  obtain ⟨chosen, length, mem, apart, first⟩ :=
    exists_choice (fun term => (ordered.nodup_positionsOf term).filter fit) enough'
  have mem_filter : ∀ x ∈ l.slots.zip chosen, x.2 ∈ x.1.positions.filter fit := by
    intro x hx
    rw [← ordered.positionsOf_term (List.of_mem_zip hx).1]
    exact mem x hx
  refine ⟨chosen, binding_iff_zip.2 ⟨length, fun x hx => ?_, apart⟩, fun p hp => ?_, ?_⟩
  · exact (List.mem_filter.1 (mem_filter x hx)).1
  · rw [← List.map_snd_zip (Nat.le_of_eq length)] at hp
    obtain ⟨x, hx, rfl⟩ := List.mem_map.1 hp
    exact (List.mem_filter.1 (mem_filter x hx)).2
  · intro s hs p hp
    refine first s hs p ?_
    rwa [ordered.positionsOf_term hs]

end Lineup

end TermProximity
