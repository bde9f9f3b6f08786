import TermProximity.Lineup.Tables
import TermProximity.Proofs.Resolution

/-!
# The pass over the terms — it builds the tables of the lineup

After some terms the pass knows the different ones of them, in the order in which they came first; under
the number of each there are its usable positions and the number of times that it has come
(`Pass.after`).  One more term keeps this (`step?_after`), so it holds when all terms are read.

* `distinct_lineUp`: the different terms of a lineup, in the same order;
* `build?_eq_map_tables`: the pass fails where the terms are not resolved, and otherwise builds the tables
  of the lineup that they are resolved to.
-/

namespace TermProximity.Lineup

variable {postings : Postings} {zone : Zone.Id} {limit : Option Weight} {terms : List String}

/-! ### The tables of resolved terms -/

theorem distinct_lineUp (terms : List String) :
    (lineUp postings zone limit terms).distinct =
      terms.eraseDups.map fun term => ⟨term, usable postings zone limit term⟩ := by
  have keys : (lineUp postings zone limit terms).distinct.map (·.term) = terms.eraseDups := by
    rw [map_term_distinct]
    simp [lineUp, Function.comp_def]
  have own : ∀ s ∈ (lineUp postings zone limit terms).distinct,
      (⟨s.term, usable postings zone limit s.term⟩ : Slot) = s := by
    intro s hs
    obtain ⟨term, -, rfl⟩ := List.mem_map.1 (mem_slots_of_mem_distinct hs)
    rfl
  rw [← keys, List.map_map]
  exact ((List.map_congr_left own).trans (List.map_id' _)).symm

theorem uses_lineUp (terms : List String) (term : String) :
    (lineUp postings zone limit terms).uses term = terms.count term := by
  simp [uses, lineUp, List.count, List.countP_map, Function.comp_def]

theorem numberOf_lineUp (terms : List String) (term : String) :
    (lineUp postings zone limit terms).numberOf term = terms.eraseDups.idxOf term := by
  rw [numberOf_eq_idxOf, distinct_lineUp, List.map_map]
  exact congrArg _ (List.map_id _)

namespace Tables

theorem gatherLows_eq_candidatesFrom (index : Nat) (positions : List Position) :
    gatherLows positions = (Slot.candidatesFrom index positions).map (·.lowAhead) ++ [maxOffset] := by
  induction positions generalizing index with
  | nil => rfl
  | cons p rest ih =>
    have later := ih (index + 1)
    rw [gatherLows] at later ⊢
    rw [List.foldr_cons, later, Slot.candidatesFrom]
    cases Slot.candidatesFrom (index + 1) rest with
    | nil => simp [Nat.min_eq_left p.low_le_maxOffset]
    | cons c _ => rfl

/-- Gathered from the end, the least `low` from each place on is the one that is looked up. -/
theorem gatherLows_eq (s : Slot) : gatherLows s.positions = s.lowsAhead :=
  gatherLows_eq_candidatesFrom 0 s.positions

theorem tables_lineUp (terms : List String) :
    (lineUp postings zone limit terms).tables =
      { lists := terms.eraseDups.map (usable postings zone limit)
        lows := terms.eraseDups.map fun term => gatherLows (usable postings zone limit term)
        uses := terms.eraseDups.map terms.count
        slots := terms.map terms.eraseDups.idxOf } := by
  have slots : ((lineUp postings zone limit terms).slots.map fun s =>
      (lineUp postings zone limit terms).numberOf s.term) = terms.map terms.eraseDups.idxOf := by
    rw [lineUp, List.map_map]
    exact List.map_congr_left fun term _ => numberOf_lineUp terms term
  rw [tables, slots, distinct_lineUp]
  simp [uses_lineUp, ← gatherLows_eq]

/-! ### Numbers -/

section Numbers

variable {α : Type} [DecidableEq α] {known : List α} {a : α}

theorem lookup_zipIdx (mem : a ∈ known) (first : Nat) :
    (known.zipIdx first).lookup a = some (first + known.idxOf a) := by
  induction known generalizing first with
  | nil => contradiction
  | cons b known ih =>
    rw [List.zipIdx_cons, List.lookup_cons, List.idxOf_cons]
    by_cases same : a = b
    · simp [same]
    · have later := ih ((List.mem_cons.1 mem).resolve_left same) (first + 1)
      simp only [beq_false_of_ne same, beq_false_of_ne (Ne.symm same), later]
      simp only [cond_false, Option.some_inj]
      omega

theorem lookup_zipIdx_eq_none (new : a ∉ known) (first : Nat) :
    (known.zipIdx first).lookup a = none := by
  refine List.lookup_eq_none_iff.2 fun m mem => bne_iff_ne.2 ?_
  rintro rfl
  exact new (List.fst_mem_of_mem_zipIdx mem)

/-- Where one member of a list changes what it stands for, the entry of its number changes. -/
theorem modify_map_idxOf {β : Type} {f g : α → β} {change : β → β} (distinct : known.Nodup)
    (mem : a ∈ known) (here : g a = change (f a)) (others : ∀ b ∈ known, b ≠ a → g b = f b) :
    (known.map f).modify (known.idxOf a) change = known.map g := by
  induction known with
  | nil => contradiction
  | cons b known ih =>
    obtain ⟨apart, distinct⟩ := List.nodup_cons.1 distinct
    rw [List.map_cons, List.idxOf_cons, List.map_cons]
    by_cases same : b = a
    · subst same
      have rest : known.map f = known.map g := List.map_congr_left fun c hc =>
        (others c (List.mem_cons_of_mem _ hc) (ne_of_mem_of_not_mem hc apart)).symm
      simp [rest, here]
    · have later := ih distinct ((List.mem_cons.1 mem).resolve_left (Ne.symm same))
        fun c hc => others c (List.mem_cons_of_mem _ hc)
      rw [beq_false_of_ne same, cond_false, List.modify_succ_cons, later,
        others b List.mem_cons_self same]

end Numbers

/-! ### One term after another -/

namespace Pass

/-- What the pass knows when `known` are the terms that have numbers, and the terms have been read. -/
def after (positions : String → List Position) (known terms : List String) : Pass where
  numbers := known.zipIdx
  lists := known.map positions
  uses := known.map terms.count
  slots := terms.map known.idxOf

/-- A term that has not come before is given the next number, the number of terms that have one. -/
theorem after_concat {positions : String → List Position} {term : String} (new : term ∉ terms) :
    after positions (terms.eraseDups ++ [term]) terms =
      { numbers := (after positions terms.eraseDups terms).numbers ++ [(term, terms.eraseDups.length)]
        lists := (after positions terms.eraseDups terms).lists ++ [positions term]
        uses := (after positions terms.eraseDups terms).uses ++ [0]
        slots := (after positions terms.eraseDups terms).slots } := by
  have slots : terms.map (terms.eraseDups ++ [term]).idxOf = terms.map terms.eraseDups.idxOf := by
    refine List.map_congr_left fun t mem => ?_
    rw [List.idxOf_append, if_pos (List.mem_eraseDups.2 mem)]
  simp [after, slots, List.zipIdx_append, List.count_eq_zero_of_not_mem new]

/-- A term is known by the number of different terms before it, unless it has no usable position. -/
theorem number?_after (resolved : ∀ term ∈ terms, usable postings zone limit term ≠ [])
    (term : String) :
    (after (usable postings zone limit) terms.eraseDups terms).number? postings zone limit term =
      if usable postings zone limit term = [] then none
      else some ((terms ++ [term]).eraseDups.idxOf term,
        after (usable postings zone limit) (terms ++ [term]).eraseDups terms) := by
  rw [eraseDups_concat]
  by_cases seen : term ∈ terms
  · have found := lookup_zipIdx (List.mem_eraseDups.2 seen) 0
    rw [Nat.zero_add] at found
    rw [if_pos seen, if_neg (resolved term seen), number?]
    simp only [after, found]
  · have unseen : term ∉ terms.eraseDups := fun there => seen (List.mem_eraseDups.1 there)
    have lookup : (after (usable postings zone limit) terms.eraseDups terms).numbers.lookup term =
        none := lookup_zipIdx_eq_none unseen 0
    rw [if_neg seen, number?, lookup]
    simp only [slot?_eq]
    by_cases nothing : usable postings zone limit term = []
    · simp [nothing]
    · rw [if_neg nothing, if_neg nothing, Option.map_some, after_concat seen, List.idxOf_append,
        if_neg unseen, List.idxOf_cons_self, Nat.zero_add]
      simp [after]

/-- A term is counted under its number. -/
theorem use_after {positions : String → List Position} {known : List String} (distinct : known.Nodup)
    {term : String} (mem : term ∈ known) (terms : List String) :
    (after positions known terms).use (known.idxOf term) = after positions known (terms ++ [term]) := by
  have counted : (known.map terms.count).modify (known.idxOf term) (· + 1) =
      known.map (terms ++ [term]).count := by
    refine modify_map_idxOf distinct mem (by simp) fun other _ ne => ?_
    rw [List.count_append, List.count_singleton, beq_false_of_ne ne.symm]
    rfl
  simp [use, after, counted]

/-- One more term is numbered and counted, unless it has no usable position. -/
theorem step?_after (resolved : ∀ term ∈ terms, usable postings zone limit term ≠ []) (term : String) :
    (after (usable postings zone limit) terms.eraseDups terms).step? postings zone limit term =
      if usable postings zone limit term = [] then none
      else some (after (usable postings zone limit) (terms ++ [term]).eraseDups (terms ++ [term])) := by
  have mem : term ∈ (terms ++ [term]).eraseDups := by simp
  rw [step?, number?_after resolved]
  split
  · rfl
  · exact congrArg some (use_after (nodup_eraseDups _) mem terms)

/-- The pass gets through some terms if each has a usable position. -/
theorem foldlM_step? (terms : List String) :
    terms.foldlM (step? postings zone limit) {} =
      if ∀ term ∈ terms, usable postings zone limit term ≠ [] then
        some (after (usable postings zone limit) terms.eraseDups terms)
      else none := by
  induction terms using List.reverseRecOn with
  | nil => rfl
  | append_singleton terms term ih =>
    rw [List.foldlM_append, ih]
    by_cases resolved : ∀ term ∈ terms, usable postings zone limit term ≠ []
    · rw [if_pos resolved, Option.bind_eq_bind, Option.bind_some, List.foldlM_cons, step?_after resolved]
      by_cases nothing : usable postings zone limit term = []
      · simp [nothing]
      · have all : ∀ t ∈ terms ++ [term], usable postings zone limit t ≠ [] :=
          List.forall_mem_append.2 ⟨resolved, List.forall_mem_singleton.2 nothing⟩
        rw [if_neg nothing, if_pos all]
        rfl
    · rw [if_neg resolved, if_neg fun all => resolved fun t mem => all t (List.mem_append_left _ mem)]
      rfl

end Pass

/-- The pass fails where the terms are not resolved, and otherwise builds the tables of their lineup. -/
theorem build?_eq_map_tables (postings : Postings) (zone : Zone.Id) (limit : Option Weight)
    (terms : List String) :
    build? postings zone limit terms = (resolve? postings zone limit terms).map tables := by
  rw [build?, Pass.foldlM_step?]
  split
  · rename_i resolved
    rw [resolve?_eq_some_iff.2 ⟨resolved, rfl⟩, Option.map_some, Option.map_some, tables_lineUp]
    simp [Pass.after]
  · rename_i unresolved
    cases resolves : resolve? postings zone limit terms with
    | none => rfl
    | some l => exact absurd (resolve?_eq_some_iff.1 resolves).1 unresolved

end Tables

end TermProximity.Lineup
