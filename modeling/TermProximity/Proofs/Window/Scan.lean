import Mathlib.Order.Bounds.Defs
import TermProximity.Window.Scan
import TermProximity.Proofs.Window.Counting

/-!
# Scans for windows — the first offset that the scan finds is the least of all

* `gather_eq`: looking through the candidates ahead stops early only when the answer is known;
* `meetAll_spec`: one offset is answered right, and every demand still has all it may ever need,
  also those that were not looked at;
* `anchor_scanFrom`: over a whole scan, the first offset is found at which the counts are met;
* `scan_spec`: counts are met at an offset exactly if a window can begin there.
-/

namespace TermProximity

/-! ### Lists -/

/-- Where repetitions of an ascending list are left out, it ascends strictly and has all members. -/
theorem eraseReps_loop_spec {a : Nat} {as acc : List Nat} (sorted : (a :: as).Pairwise (· ≤ ·))
    (done : (a :: acc).Pairwise (· > ·)) :
    (List.eraseRepsBy.loop (· == ·) a as acc).Pairwise (· < ·) ∧
      ∀ x, x ∈ List.eraseRepsBy.loop (· == ·) a as acc ↔ x ∈ acc ∨ x ∈ a :: as := by
  induction as generalizing a acc with
  | nil =>
    refine ⟨List.pairwise_reverse.2 done, fun x => ?_⟩
    rw [List.eraseRepsBy.loop, List.mem_reverse, List.mem_cons, List.mem_singleton, or_comm]
  | cons b rest ih =>
    obtain ⟨least, sorted⟩ := List.pairwise_cons.1 sorted
    rw [List.eraseRepsBy.loop]
    by_cases e : a = b
    · subst e
      rw [beq_self_eq_true]
      obtain ⟨ascending, mem⟩ := ih sorted done
      refine ⟨ascending, fun x => ?_⟩
      rw [mem x, List.mem_cons (b := a) (l := a :: rest)]
      simp
    · rw [beq_eq_false_iff_ne.2 e]
      have lt : a < b := Nat.lt_of_le_of_ne (least b List.mem_cons_self) e
      have done' : (b :: a :: acc).Pairwise (· > ·) := by
        refine List.pairwise_cons.2 ⟨fun x hx => ?_, done⟩
        rcases List.mem_cons.1 hx with rfl | hx
        · exact lt
        · exact Nat.lt_trans ((List.pairwise_cons.1 done).1 x hx) lt
      obtain ⟨ascending, mem⟩ := ih sorted done'
      refine ⟨ascending, fun x => ?_⟩
      rw [mem x, List.mem_cons, List.mem_cons (b := a) (l := b :: rest), or_assoc, or_left_comm]

theorem eraseReps_spec {as : List Nat} (sorted : as.Pairwise (· ≤ ·)) :
    as.eraseReps.Pairwise (· < ·) ∧ ∀ x, x ∈ as.eraseReps ↔ x ∈ as := by
  cases as with
  | nil => exact ⟨List.Pairwise.nil, fun x => Iff.rfl⟩
  | cons a as =>
    obtain ⟨ascending, mem⟩ := eraseReps_loop_spec sorted (List.pairwise_singleton ..)
    exact ⟨ascending, fun x => (mem x).trans (by simp)⟩

/-- What is left out first would be left out all the same. -/
theorem dropWhile_dropWhile {α : Type} {p q : α → Bool} {l : List α}
    (imp : ∀ a, p a = true → q a = true) : (l.dropWhile p).dropWhile q = l.dropWhile q := by
  induction l with
  | nil => rfl
  | cons a l ih =>
    by_cases h : p a = true
    · rw [List.dropWhile_cons_of_pos h, List.dropWhile_cons_of_pos (imp a h), ih]
    · rw [List.dropWhile_cons_of_neg h]

/-! ### Offsets and terms -/

namespace Lineup

variable {l : Lineup} {s : Slot}

theorem uses_pos (h : s ∈ l.slots) : 0 < l.uses s.term :=
  List.countP_pos_iff.2 ⟨s, h, beq_self_eq_true _⟩

theorem anchors_spec (l : Lineup) : l.anchors.Pairwise (· < ·) ∧
    ∀ anchor, anchor ∈ l.anchors ↔ ∃ s ∈ l.distinct, ∃ p ∈ s.positions, p.offset.toNat = anchor := by
  let offsets := l.distinct.flatMap fun s => s.positions.map fun p => p.offset.toNat
  have sorted : (offsets.mergeSort fun a b => a ≤ b).Pairwise (· ≤ ·) := by
    refine (List.pairwise_mergeSort ?_ ?_ offsets).imp of_decide_eq_true
    · intro a b c ab bc
      exact decide_eq_true (Nat.le_trans (of_decide_eq_true ab) (of_decide_eq_true bc))
    · intro a b
      rw [Bool.or_eq_true, decide_eq_true_iff, decide_eq_true_iff]
      exact Nat.le_total a b
  obtain ⟨ascending, mem⟩ := eraseReps_spec sorted
  refine ⟨ascending, fun anchor => ?_⟩
  rw [anchors, mem, List.mem_mergeSort, List.mem_flatMap]
  simp only [List.mem_map]

theorem mem_anchors_iff (ordered : l.Orderly) {anchor : Nat} :
    anchor ∈ l.anchors ↔ ∃ s ∈ l.slots, ∃ p ∈ s.positions, p.offset.toNat = anchor := by
  rw [l.anchors_spec.2]
  constructor
  · rintro ⟨s, hs, h⟩
    exact ⟨s, mem_slots_of_mem_distinct hs, h⟩
  · -- The slot itself may be left out for an earlier one of its term.
    rintro ⟨s, hs, h⟩
    obtain ⟨t, ht, term⟩ := exists_mem_distinct hs
    refine ⟨t, ht, ?_⟩
    rwa [ordered.same t (mem_slots_of_mem_distinct ht) s hs term.symm]

end Lineup

/-! ### One offset -/

/-- Whether a position may be taken in the window of some width that begins at an offset. -/
def Position.fits (anchor width : Nat) (p : Position) : Bool :=
  anchor ≤ p.offset.toNat && p.low ≤ anchor + width

/-- Whether a term has as many positions as slots in the window that begins at an offset. -/
def Lineup.suffices (l : Lineup) (width anchor : Nat) (s : Slot) : Bool :=
  l.uses s.term ≤ s.positions.countP (Position.fits anchor width)

/-- Whether every term has so many. -/
def Lineup.holds (l : Lineup) (width anchor : Nat) : Bool :=
  l.distinct.all (l.suffices width anchor)

namespace WindowScan

variable {l : Lineup} {s : Slot} {d : Demand} {anchor width bound needed : Nat}

/-- Enough candidates reach back to the bound exactly if that many of all that are ahead do. -/
theorem gather_eq {cs : List Candidate} (ahead : cs <:+ s.candidates) (pos : 0 < needed) :
    (gather bound needed cs).1 = decide (needed ≤ cs.countP fun c => c.position.low ≤ bound) := by
  induction cs generalizing needed with
  | nil =>
    rw [gather, List.countP_nil, eq_comm, decide_eq_false_iff_not]
    omega
  | cons c rest ih =>
    have later : rest <:+ s.candidates := (List.suffix_cons c rest).trans ahead
    rw [gather]
    by_cases beyond : bound < c.lowAhead
    · -- No later candidate reaches back further than this one says.
      have none_reaches : (c :: rest).countP (fun c => c.position.low ≤ bound) = 0 := by
        refine List.countP_eq_zero.2 fun d hd reaches => ?_
        have := Slot.lowAhead_le ahead d hd
        have := of_decide_eq_true reaches
        omega
      rw [if_pos beyond, none_reaches, eq_comm, decide_eq_false_iff_not]
      omega
    · rw [if_neg beyond]
      by_cases reaches : c.position.low ≤ bound
      · have counted := List.countP_cons_of_pos (l := rest)
          (p := fun c : Candidate => decide (c.position.low ≤ bound)) (decide_eq_true reaches)
        rw [if_pos reaches, counted]
        by_cases last : needed ≤ 1
        · rw [if_pos last, eq_comm, decide_eq_true_iff]
          omega
        · rw [if_neg last]
          refine (ih later (by omega)).trans (decide_eq_decide.2 ?_)
          omega
      · rw [if_neg reaches, List.countP_cons_of_neg (by simpa using reaches)]
        exact ih later pos

/-- What is kept of a term when no offset before `anchor` is tried any more. -/
structure Demand.Serves (l : Lineup) (anchor : Nat) (d : Demand) (s : Slot) : Prop where
  uses : d.uses = l.uses s.term
  ahead : ∃ before ≤ anchor,
    d.ahead = s.candidates.dropWhile fun c => c.position.offset.toNat < before

theorem Demand.Serves.skipTo (h : d.Serves l anchor s) :
    (d.skipTo anchor).uses = l.uses s.term ∧ (d.skipTo anchor).ahead =
      s.candidates.dropWhile fun c => c.position.offset.toNat < anchor := by
  obtain ⟨uses, before, le, ahead⟩ := h
  refine ⟨uses, ?_⟩
  rw [Demand.skipTo, ahead]
  refine dropWhile_dropWhile fun c lt => ?_
  rw [decide_eq_true_iff] at lt ⊢
  exact Nat.lt_of_lt_of_le lt le

/-- The candidates from an offset on that reach back into a window are those that fit in it. -/
theorem countP_dropWhile (ascending : s.positions.Pairwise fun p q => p.offset < q.offset) :
    ((s.candidates.dropWhile fun c => c.position.offset.toNat < anchor).countP
      fun c => c.position.low ≤ moveOn anchor width) =
        s.positions.countP (Position.fits anchor width) := by
  rw [dropWhile_eq_filter, List.countP_filter, ← s.map_position_candidates, List.countP_map]
  · refine List.countP_congr fun c _ => ?_
    simp only [Position.low_le_moveOn, Function.comp, Position.fits, Bool.and_eq_true,
      Bool.not_eq_true', decide_eq_true_iff, decide_eq_false_iff_not, Nat.not_lt]
    exact and_comm
  · refine (Slot.ascending_candidates ascending).imp fun lt later => ?_
    rw [decide_eq_true_iff] at later ⊢
    exact Nat.lt_trans (UInt32.lt_iff_toNat_lt.1 lt) later

/-- One offset: the counts are compared, and demands that are passed over still serve. -/
theorem meetAll_spec (anchor width : Nat) {demands : List Demand} {slots : List Slot}
    (serves : List.Forall₂ (Demand.Serves l anchor) demands slots)
    (ordered : l.Orderly) (sub : ∀ s ∈ slots, s ∈ l.slots) :
    (meetAll anchor (moveOn anchor width) demands).1 = slots.all (l.suffices width anchor) ∧
      List.Forall₂ (Demand.Serves l anchor) (meetAll anchor (moveOn anchor width) demands).2.2
        slots := by
  induction serves with
  | nil => exact ⟨rfl, List.Forall₂.nil⟩
  | @cons d s demands slots first rest ih =>
    obtain ⟨here, sub⟩ := List.forall_mem_cons.1 sub
    obtain ⟨met, serves⟩ := ih sub
    obtain ⟨uses, ahead⟩ := first.skipTo
    have cut : (d.skipTo anchor).Serves l anchor s := ⟨uses, anchor, Nat.le_refl _, ahead⟩
    have enough : (gather (moveOn anchor width) (d.skipTo anchor).uses (d.skipTo anchor).ahead).1 =
        l.suffices width anchor s := by
      rw [uses, ahead, gather_eq (List.dropWhile_suffix _) (Lineup.uses_pos here),
        countP_dropWhile (ordered.ascending s here)]
      rfl
    rw [List.all_cons, ← enough, ← met, meetAll]
    split
    · rename_i found
      rw [found]
      exact ⟨rfl, List.Forall₂.cons cut rest⟩
    · rename_i found
      rw [found]
      exact ⟨rfl, List.Forall₂.cons cut serves⟩

/-! ### All offsets -/

theorem Demand.Serves.mono {later : Nat} (h : d.Serves l anchor s) (le : anchor ≤ later) :
    d.Serves l later s := by
  obtain ⟨uses, before, before_le, ahead⟩ := h
  exact ⟨uses, before, Nat.le_trans before_le le, ahead⟩

theorem serves_demands (l : Lineup) :
    List.Forall₂ (Demand.Serves l 0) l.demands l.distinct := by
  refine List.forall₂_map_left_iff.2 (List.forall₂_same.2 fun s _ => ⟨rfl, 0, Nat.le_refl 0, ?_⟩)
  simp only [Nat.not_lt_zero, decide_false]
  cases s.candidates <;> rfl

/-- A scan stops at the first offset at which every term has enough positions. -/
theorem anchor_scanFrom {anchors : List Nat} {demands : List Demand} {before visited : Nat}
    (serves : List.Forall₂ (Demand.Serves l before) demands l.distinct) (ordered : l.Orderly)
    (ascending : (before :: anchors).Pairwise (· ≤ ·)) :
    (scanFrom width anchors demands visited).anchor =
      anchors.find? (l.holds width) := by
  induction anchors generalizing demands before visited with
  | nil => rfl
  | cons anchor later ih =>
    obtain ⟨le, ascending⟩ := List.pairwise_cons.1 ascending
    have serves' := serves.imp fun _ _ h => Demand.Serves.mono h (le anchor List.mem_cons_self)
    obtain ⟨met, serves'⟩ := meetAll_spec anchor width serves' ordered
      fun s hs => Lineup.mem_slots_of_mem_distinct hs
    rw [scanFrom, List.find?_cons, Lineup.holds, ← met]
    split
    · rename_i found
      rw [found]
    · rename_i found
      rw [found] at serves' ⊢
      exact ih serves' ascending

theorem anchor_scan (ordered : l.Orderly) (width : UInt32) :
    (l.scan width).anchor = l.anchors.find? (l.holds width.toNat) := by
  refine anchor_scanFrom (serves_demands l) ordered (List.pairwise_cons.2 ⟨?_, ?_⟩)
  · exact fun anchor _ => Nat.zero_le anchor
  · exact l.anchors_spec.1.imp Nat.le_of_lt

end WindowScan

/-! ### Windows -/

theorem leastOffset?_eq_some_iff {ps : List Position} {anchor : Nat} :
    leastOffset? ps = some anchor ↔
      (∃ p ∈ ps, p.offset.toNat = anchor) ∧ ∀ p ∈ ps, anchor ≤ p.offset.toNat := by
  rw [leastOffset?, List.min?_eq_some_iff, List.mem_map, List.forall_mem_map]

namespace Lineup

variable {l : Lineup} {s : Slot} {chosen : List Position} {anchor width : Nat}

/-- The position at an offset is the first that may be taken in a window that begins there. -/
theorem head?_filter_fits (ascending : s.positions.Pairwise fun p q => p.offset < q.offset)
    {p : Position} (hp : p ∈ s.positions) (at_anchor : p.offset.toNat = anchor) :
    (s.positions.filter (Position.fits anchor width)).head? = some p := by
  have fits : p.fits anchor width = true := by
    have := p.low_le_offset
    rw [Position.fits, Bool.and_eq_true, decide_eq_true_iff, decide_eq_true_iff]
    omega
  have mem : p ∈ s.positions.filter (Position.fits anchor width) := List.mem_filter.2 ⟨hp, fits⟩
  cases split : s.positions.filter (Position.fits anchor width) with
  | nil => rw [split] at mem; contradiction
  | cons q later =>
    have ascending := split ▸ ascending.filter (Position.fits anchor width)
    rcases List.mem_cons.1 (split ▸ mem) with rfl | mem
    · rfl
    · have q_fits : q.fits anchor width = true := by
        have q_mem := split ▸ List.mem_cons_self (a := q) (l := later)
        exact (List.mem_filter.1 q_mem).2
      have lt := UInt32.lt_iff_toNat_lt.1 ((List.pairwise_cons.1 ascending).1 p mem)
      rw [Position.fits, Bool.and_eq_true, decide_eq_true_iff] at q_fits
      omega

/-- Counting the different terms counts the slots. -/
theorem holds_iff (ordered : l.Orderly) :
    l.holds width anchor = true ↔
      ∀ s ∈ l.slots, l.uses s.term ≤ s.positions.countP (Position.fits anchor width) := by
  rw [holds, List.all_eq_true]
  constructor
  · intro enough s hs
    obtain ⟨t, ht, term⟩ := exists_mem_distinct hs
    have := of_decide_eq_true (enough t ht)
    rwa [← term, ordered.same t (mem_slots_of_mem_distinct ht) s hs term.symm] at this
  · exact fun enough s hs => decide_eq_true (enough s (mem_slots_of_mem_distinct hs))

/-- Where every term has enough positions at an offset of one of them, a window begins. -/
theorem beginsWindow_of_holds (ordered : l.Orderly) (mem : anchor ∈ l.anchors)
    (enough : l.holds width anchor = true) : l.BeginsWindow width anchor := by
  have enough' := (holds_iff ordered).1 enough
  obtain ⟨chosen, binding, all, first⟩ := ordered.exists_binding_of_uses_le enough'
  simp only [Position.fits, Bool.and_eq_true, decide_eq_true_iff] at all
  refine ⟨chosen, ⟨binding, fun p hp q hq => ?_⟩, leastOffset?_eq_some_iff.2 ⟨?_, ?_⟩⟩
  · have := (all p hp).2
    have := (all q hq).1
    omega
  · obtain ⟨s, hs, p, hp, at_anchor⟩ := (mem_anchors_iff ordered).1 mem
    have head : (s.positions.filter (Position.fits anchor width)).head? = some p :=
      head?_filter_fits (ordered.ascending s hs) hp at_anchor
    exact ⟨p, first s hs p head, at_anchor⟩
  · exact fun p hp => (all p hp).1

/-- A window begins at an offset of a position, and there every term has enough positions. -/
theorem holds_of_beginsWindow (ordered : l.Orderly) (h : l.BeginsWindow width anchor) :
    anchor ∈ l.anchors ∧ l.holds width anchor = true := by
  obtain ⟨chosen, window, least⟩ := h
  obtain ⟨⟨p, hp, at_anchor⟩, least⟩ := leastOffset?_eq_some_iff.1 least
  constructor
  · obtain ⟨s, hs, mem⟩ := window.toBinding.exists_slot_of_mem hp
    exact (mem_anchors_iff ordered).2 ⟨s, hs, p, mem, at_anchor⟩
  · have fits : ∀ q ∈ chosen, q.fits anchor width = true := by
      intro q hq
      rw [Position.fits, Bool.and_eq_true, decide_eq_true_iff, decide_eq_true_iff]
      exact ⟨least q hq, at_anchor ▸ window.close q hq p hp⟩
    exact (holds_iff ordered).2 fun s hs => window.toBinding.uses_le ordered fits hs

/-- A window begins at an offset of a position from which every term has enough positions. -/
theorem beginsWindow_iff (ordered : l.Orderly) :
    l.BeginsWindow width anchor ↔
      (∃ s ∈ l.slots, ∃ p ∈ s.positions, p.offset.toNat = anchor) ∧
        ∀ s ∈ l.slots, l.uses s.term ≤ s.positions.countP (Position.fits anchor width) := by
  rw [← mem_anchors_iff ordered, ← holds_iff ordered]
  exact ⟨holds_of_beginsWindow ordered, fun h => beginsWindow_of_holds ordered h.1 h.2⟩

/-- Every window of a lineup that has slots begins somewhere. -/
theorem Window.exists_leastOffset? (window : l.Window width chosen) (slots : l.slots ≠ []) :
    ∃ anchor, leastOffset? chosen = some anchor := by
  have taken : chosen ≠ [] := by
    rintro rfl
    exact slots (List.eq_nil_of_length_eq_zero window.length_eq.symm)
  refine Option.isSome_iff_exists.1 (List.isSome_min?_of_ne_nil ?_)
  exact fun none_left => taken (List.map_eq_nil_iff.1 none_left)

/-- What a scan finds: an offset exactly if there is a window, and then the least of all. -/
theorem scan_spec (ordered : l.Orderly) (slots : l.slots ≠ []) (width : UInt32) :
    ((l.scan width).anchor.isSome ↔ ∃ chosen, l.Window width.toNat chosen) ∧
      ∀ anchor, (l.scan width).anchor = some anchor →
        IsLeast {start | l.BeginsWindow width.toNat start} anchor := by
  rw [WindowScan.anchor_scan ordered]
  constructor
  · rw [List.find?_isSome]
    constructor
    · rintro ⟨anchor, mem, enough⟩
      obtain ⟨chosen, window, -⟩ := beginsWindow_of_holds ordered mem enough
      exact ⟨chosen, window⟩
    · rintro ⟨chosen, window⟩
      obtain ⟨anchor, least⟩ := window.exists_leastOffset? slots
      exact ⟨anchor, holds_of_beginsWindow ordered ⟨chosen, window, least⟩⟩
  · intro anchor found
    obtain ⟨enough, earlier, later, split, fail⟩ := List.find?_eq_some_iff_append.1 found
    refine ⟨beginsWindow_of_holds ordered (List.mem_of_find?_eq_some found) enough, ?_⟩
    intro start begins
    obtain ⟨mem, enough⟩ := holds_of_beginsWindow ordered begins
    rcases List.mem_append.1 (split ▸ mem) with mem | mem
    · -- An earlier offset was tried and given up.
      have := fail start mem
      rw [enough] at this
      contradiction
    · have ascending := (List.pairwise_append.1 (split ▸ l.anchors_spec.1)).2.1
      rcases List.mem_cons.1 mem with rfl | mem
      · exact Nat.le_refl _
      · exact Nat.le_of_lt ((List.pairwise_cons.1 ascending).1 start mem)

/-- A scan finds the least offset at which a window begins. -/
theorem anchor_scan_eq_some_iff (ordered : l.Orderly) (slots : l.slots ≠ []) {width : UInt32} :
    (l.scan width).anchor = some anchor ↔
      IsLeast {start | l.BeginsWindow width.toNat start} anchor := by
  obtain ⟨isSome_iff, least⟩ := scan_spec ordered slots width
  refine ⟨least anchor, fun isLeast => ?_⟩
  obtain ⟨chosen, window, -⟩ := isLeast.1
  obtain ⟨anchor', found⟩ := Option.isSome_iff_exists.1 (isSome_iff.2 ⟨chosen, window⟩)
  have isLeast' := least anchor' found
  rw [found, Nat.le_antisymm (isLeast'.2 isLeast.1) (isLeast.2 isLeast'.1)]

/-- Positions lie in a window if the largest `low` is no more than its width past the least offset. -/
theorem window_iff_spread_le {high least : Nat} (top : (chosen.map (·.low)).max? = some high)
    (bottom : leastOffset? chosen = some least) :
    l.Window width chosen ↔ l.Binding chosen ∧ (high : Int) - least ≤ width := by
  obtain ⟨⟨q, hq, at_least⟩, above⟩ := leastOffset?_eq_some_iff.1 bottom
  rw [List.max?_eq_some_iff, List.mem_map, List.forall_mem_map] at top
  obtain ⟨⟨p, hp, at_high⟩, below⟩ := top
  constructor
  · intro window
    have := window.close p hp q hq
    exact ⟨window.toBinding, by omega⟩
  · rintro ⟨binding, spread⟩
    refine ⟨binding, fun p hp q hq => ?_⟩
    have := below p hp
    have := above q hq
    omega

variable {postings : Postings} {zone : Zone.Id} {limit : Option Weight} {terms : List String}

/--
A scan of the resolved lineup of some terms finds an offset exactly if there is a window of the
given width, and it is the least offset at which one begins.  Such a window is a binding whose largest
`low` is no more than the width past its least offset.
-/
theorem scan_of_resolve? (resolved : resolve? postings zone limit terms = some l)
    (some_term : terms ≠ []) (width : UInt32) :
    ((l.scan width).anchor.isSome ↔ ∃ chosen, l.Window width.toNat chosen) ∧
      (∀ anchor, (l.scan width).anchor = some anchor →
        IsLeast {start | l.BeginsWindow width.toNat start} anchor) ∧
      ∀ (chosen : List Position) (high least : Nat), (chosen.map (·.low)).max? = some high →
        leastOffset? chosen = some least →
        (l.Window width.toNat chosen ↔ l.Binding chosen ∧ (high : Int) - least ≤ width.toNat) := by
  have some_slot : l.slots ≠ [] := by
    obtain ⟨-, rfl⟩ := resolve?_eq_some_iff.1 resolved
    exact fun none_left => some_term (List.map_eq_nil_iff.1 none_left)
  obtain ⟨isSome_iff, isLeast⟩ := scan_spec (orderly_of_resolve? resolved) some_slot width
  exact ⟨isSome_iff, isLeast, fun _ _ _ top bottom => window_iff_spread_le top bottom⟩

/-- Both positions of the repeated term and one of the other term lie in a window of width one. -/
theorem scan_of_resolve?_sample :
    let chosen : List Position := [{ offset := 5 }, { offset := 4 }, { offset := 4 }]
    resolve? samplePostings ⟨"BODY", "doc"⟩ none ["a", "b", "a"] = some sampleLineup ∧
      ((sampleLineup.scan 1).anchor.isSome ↔ ∃ chosen, sampleLineup.Window 1 chosen) ∧
      (∀ anchor, (sampleLineup.scan 1).anchor = some anchor →
        IsLeast {start | sampleLineup.BeginsWindow 1 start} anchor) ∧
      (chosen.map (·.low)).max? = some 5 ∧ leastOffset? chosen = some 4 ∧
      (sampleLineup.Window 1 chosen ↔ sampleLineup.Binding chosen ∧ (5 : Int) - 4 ≤ 1) := by
  intro chosen
  have resolved : resolve? samplePostings ⟨"BODY", "doc"⟩ none ["a", "b", "a"] = some sampleLineup := by
    decide
  have top : (chosen.map (·.low)).max? = some 5 := by decide
  have bottom : leastOffset? chosen = some 4 := by decide
  obtain ⟨isSome_iff, isLeast, spread⟩ := scan_of_resolve? resolved (by decide) 1
  exact ⟨resolved, isSome_iff, isLeast, top, bottom, spread chosen 5 4 top bottom⟩

end Lineup

end TermProximity
