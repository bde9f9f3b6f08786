import TermProximity.Proofs.DocumentIndex.History

/-!
# Merging — occurrences of a term put together

Occurrences are merged zone by zone, and in each zone offset by offset, and what was there first stays,
the marks of the zones among it.  So it makes no difference in which groups batches are merged, and
their order makes none just when they agree where they meet (`AgreesWith`).

* `append_eq_foldl_put`: merging is putting in one zone after another;
* `append_comm_iff_agreesWith`: when the order makes no difference;
* `Postings.occurrences?_add`: a term that is not present is given the occurrences as they are;
* `laws_of_merging`: the laws together.
-/

namespace TermProximity

theorem Zone.eq_of_id {z z' : Zone} (same : z.id = z'.id) (mark : z.expansion = z'.expansion) :
    z = z' := by
  cases z
  cases z'
  cases same
  cases mark
  rfl

namespace Occurrences

/-- Where two terms meet, they have one mark for a zone and one position at an offset. -/
structure AgreesWith (o o' : Occurrences) : Prop where
  marks : ∀ z ∈ o.zones, ∀ z' ∈ o'.zones, z.id = z'.id → z.expansion = z'.expansion
  positions : ∀ zone, ∀ p ∈ o.positions zone, ∀ q ∈ o'.positions zone, p.offset = q.offset → p = q

variable {o o' : Occurrences}

theorem find?_eq_of_views (o : Occurrences) (zone : Zone.Id) :
    o.find? zone = (o.zone? zone).map fun z => ⟨z, o.positionsIn zone⟩ := by
  unfold zone? positionsIn
  cases o.find? zone <;> rfl

/-- Occurrences are told apart by their zones and by the positions in them. -/
theorem ext_views (zones : ∀ zone, o.zone? zone = o'.zone? zone)
    (positions : ∀ zone, o.positionsIn zone = o'.positionsIn zone) : o = o' := by
  refine KeyedList.ext_find? fun zone => ?_
  rw [find?_eq_of_views, find?_eq_of_views, zones, positions]

/-! ### Merging with itself, and in some zones at a time -/

theorem append_self (o : Occurrences) : o ++ o = o := by
  refine KeyedList.append_self (fun e => ?_) o
  show (⟨e.zone, e.positions ++ e.positions⟩ : ZoneOccurrences) = e
  rw [KeyedList.append_self fun _ => rfl]

/-- Merging is putting in one zone after another. -/
theorem append_eq_foldl_put (o o' : Occurrences) :
    o ++ o' = o'.entries.foldl (fun o e => o.put e.zone e.positions.entries) o := by
  have step : (fun (o : Occurrences) (e : ZoneOccurrences) => o.put e.zone e.positions.entries) =
      fun o e => o ++ .single e := by
    funext o e
    rw [put, inZone, KeyedList.ofList_entries]
  rw [step, KeyedList.foldl_append_single, KeyedList.ofList_entries]

/-! ### Merging in either order -/

theorem zone?_append_comm_iff :
    (∀ zone, (o ++ o').zone? zone = (o' ++ o).zone? zone) ↔
      ∀ z ∈ o.zones, ∀ z' ∈ o'.zones, z.id = z'.id → z.expansion = z'.expansion := by
  simp only [zone?_append, mem_zones_iff]
  constructor
  · intro same z here z' there id_eq
    have both := same z.id
    rw [← id_eq] at there
    rw [here, there] at both
    exact congrArg Zone.expansion (Option.some.inj both)
  · intro marks zone
    cases here : o.zone? zone with
    | none => simp
    | some z =>
      cases there : o'.zone? zone with
      | none => simp
      | some z' =>
        have id_eq := id_of_zone? here
        have id_eq' := id_of_zone? there
        have same_id : z.id = z'.id := id_eq.trans id_eq'.symm
        have mark := marks z (by rw [id_eq, here]) z' (by rw [id_eq', there]) same_id
        rw [Zone.eq_of_id same_id mark]

theorem positionsIn_append_comm_iff {zone : Zone.Id} :
    (o ++ o').positionsIn zone = (o' ++ o).positionsIn zone ↔
      ∀ p ∈ o.positions zone, ∀ q ∈ o'.positions zone, p.offset = q.offset → p = q := by
  rw [positionsIn_append, positionsIn_append, KeyedList.append_comm_iff, positions_eq_positionsIn,
    positions_eq_positionsIn]
  simp only [KeyedList.find?_eq_some_iff]
  constructor
  · intro same p mem q mem' offset_eq
    exact same p.offset.toNat p q ⟨mem, rfl⟩ ⟨mem', congrArg UInt32.toNat offset_eq.symm⟩
  · rintro same _ p q ⟨mem, rfl⟩ ⟨mem', offset_eq⟩
    exact same p mem q mem' (UInt32.toNat_inj.1 offset_eq.symm)

/-- The order in which occurrences are merged makes no difference just when they agree. -/
theorem append_comm_iff_agreesWith : o ++ o' = o' ++ o ↔ o.AgreesWith o' := by
  constructor
  · intro same
    refine ⟨zone?_append_comm_iff.1 fun zone => ?_, fun zone => positionsIn_append_comm_iff.1 ?_⟩
    · rw [same]
    · rw [same]
  · intro agree
    refine ext_views (zone?_append_comm_iff.2 agree.marks) fun zone => ?_
    exact positionsIn_append_comm_iff.2 (agree.positions zone)

example :
    let marked := inZone ⟨"BODY", true, "doc"⟩ []
    let plain := inZone ⟨"BODY", false, "doc"⟩ []
    marked ++ plain ≠ plain ++ marked := by
  decide

end Occurrences

/-! ### Merging under a term -/

namespace Postings

variable {postings postings' : Postings} {term : String}

theorem find?_eq_of_occurrences? (postings : Postings) (term : String) :
    postings.find? term = (postings.occurrences? term).map (TermOccurrences.mk term) := by
  unfold occurrences?
  cases found : postings.find? term with
  | none => rfl
  | some e =>
    obtain ⟨-, rfl⟩ := KeyedList.find?_eq_some_iff.1 found
    rfl

/-- Postings are told apart by the occurrences of their terms. -/
theorem ext_occurrences? (same : ∀ term, postings.occurrences? term = postings'.occurrences? term) :
    postings = postings' := by
  refine KeyedList.ext_find? fun term => ?_
  rw [find?_eq_of_occurrences?, find?_eq_of_occurrences?, same]

/-- A term that is present has occurrences merged into its own; to another they are given as they are. -/
theorem occurrences?_add (postings : Postings) (term other : String) (o : Occurrences) :
    (postings.add term o).occurrences? other =
      if other = term then some ((postings.occurrences? term).elim o (· ++ o))
      else postings.occurrences? other := by
  unfold occurrences? add
  rw [KeyedList.find?_append, KeyedList.find?_single_eq]
  show Option.map _ (Option.merge _ _ (if term = other then _ else none)) = _
  by_cases here : other = term
  · subst here
    rw [if_pos rfl, if_pos rfl]
    cases postings.find? other <;> rfl
  · rw [if_neg here, if_neg (Ne.symm here), Option.merge_none_right]

end Postings

/--
Merging occurrences, with the marks of their zones: it does not matter how they are grouped, and
merging none, or the same once more, changes nothing; it is putting in one zone after another, and the
order does not matter just when the two agree.  A term that is not present is given occurrences as
they are, which is what merging them into none makes of them.
-/
theorem laws_of_merging :
    (∀ a b c : Occurrences, a ++ b ++ c = a ++ (b ++ c)) ∧
    (∀ a : Occurrences, ∅ ++ a = a ∧ a ++ ∅ = a ∧ a ++ a = a) ∧
    (∀ a b : Occurrences,
      a ++ b = b.entries.foldl (fun o e => o.put e.zone e.positions.entries) a) ∧
    (∀ a b : Occurrences, a ++ b = b ++ a ↔ a.AgreesWith b) ∧
    ∀ (postings postings' : Postings) (term : String) (o : Occurrences),
      postings.occurrences? term = none → postings'.occurrences? term = some ∅ →
      (∀ other, other ≠ term → postings.occurrences? other = postings'.occurrences? other) →
        (postings.add term o).occurrences? term = some o ∧
          postings.add term o = postings'.add term o := by
  refine ⟨KeyedList.append_assoc, fun a => ⟨?_, ?_, a.append_self⟩, Occurrences.append_eq_foldl_put,
    fun _ _ => Occurrences.append_comm_iff_agreesWith, ?_⟩
  · exact KeyedList.empty_append a
  · exact KeyedList.append_empty a
  · intro postings postings' term o absent empty same
    constructor
    · rw [Postings.occurrences?_add, if_pos rfl, absent]
      rfl
    · refine Postings.ext_occurrences? fun other => ?_
      rw [Postings.occurrences?_add, Postings.occurrences?_add, absent, empty]
      by_cases here : other = term
      · simp [here]
      · rw [if_neg here, if_neg here, same other here]

/-- A term that is not present and one without occurrences, beside another term. -/
theorem laws_of_merging_sample :
    let o : Occurrences := .inZone ⟨"BODY", true, "doc"⟩ [{ offset := 4 }]
    let postings : Postings := .add ∅ "b" o
    let postings' := postings.add "a" ∅
    postings.occurrences? "a" = none ∧ postings'.occurrences? "a" = some ∅ ∧
      (∀ other, other ≠ "a" → postings.occurrences? other = postings'.occurrences? other) ∧
      (postings.add "a" o).occurrences? "a" = some o ∧ postings.add "a" o = postings'.add "a" o := by
  intro o postings postings'
  have absent : postings.occurrences? "a" = none := by decide
  have empty : postings'.occurrences? "a" = some ∅ := by decide
  have same : ∀ other, other ≠ "a" → postings.occurrences? other = postings'.occurrences? other := by
    intro other apart
    rw [postings.occurrences?_add "a" other ∅, if_neg apart]
  exact ⟨absent, empty, same, laws_of_merging.2.2.2.2 postings postings' "a" o absent empty same⟩

end TermProximity
