import TermProximity.Proofs.Evaluation.Series

/-!
# Histories — what a document index knows after any operations

Positions come into an index one insertion after another, singly or as occurrences that were put
together beforehand.  The index refines the history of these insertions: of the insertions of a term
it keeps each zone as first given, and of the positions given at an offset of the zone the first.

* `Occurrences.Recipe`, `DocumentIndex.Operation`: how occurrences are made, and what may be done to
  an index;
* `Insertion`: a single entry of the history;
* `DocumentIndex.after_history`: what is known of a term, told by the history alone.
-/

namespace TermProximity

/-- Positions given for a zone. -/
structure Insertion where
  zone : Zone
  positions : List Position
  deriving DecidableEq

/-- What is known once positions were given for a zone. -/
def Insertion.entry (i : Insertion) : ZoneOccurrences := ⟨i.zone, .ofList i.positions⟩

@[simp] theorem Insertion.zone_entry (i : Insertion) : i.entry.zone = i.zone := rfl

@[simp] theorem Insertion.positions_entry (i : Insertion) :
    i.entry.positions = .ofList i.positions := rfl

namespace Occurrences

/-- A way to put occurrences together. -/
inductive Recipe where
  | empty
  | inZone (zone : Zone) (positions : List Position)
  | put (first : Recipe) (zone : Zone) (positions : List Position)
  | merge (first second : Recipe)

namespace Recipe

/-- The occurrences put together. -/
def occurrences : Recipe → Occurrences
  | empty => ∅
  | inZone zone positions => .inZone zone positions
  | put first zone positions => first.occurrences.put zone positions
  | merge first second => first.occurrences ++ second.occurrences

/-- The insertions made on the way. -/
def insertions : Recipe → List Insertion
  | empty => []
  | inZone zone positions => [⟨zone, positions⟩]
  | put first zone positions => first.insertions ++ [⟨zone, positions⟩]
  | merge first second => first.insertions ++ second.insertions

end Recipe

end Occurrences

namespace DocumentIndex

/-- What may be done to an index. -/
inductive Operation where
  | put (term : String) (zone : Zone) (positions : List Position)
  | install (term : String) (recipe : Occurrences.Recipe)
  | recordSpan (name : String) (s : Span)
  | clearSpans
  | ask (q : Query)

namespace Operation

/-- The index after an operation. -/
def apply (d : DocumentIndex) : Operation → DocumentIndex
  | put term zone positions => { d with postings := d.postings.put term zone positions }
  | install term recipe => { d with postings := d.postings.add term recipe.occurrences }
  | recordSpan name s => { d with spans := d.spans.record name s }
  | clearSpans => { d with spans := ∅ }
  | ask q => (q.answer d).2

/-- The term under which an operation inserts, if it does. -/
def term? : Operation → Option String
  | put term _ _ | install term _ => some term
  | _ => none

/-- The insertions of an operation. -/
def insertions : Operation → List Insertion
  | put _ zone positions => [⟨zone, positions⟩]
  | install _ recipe => recipe.insertions
  | _ => []

end Operation

/-- An empty index after some operations, one after another. -/
def after (ops : List Operation) : DocumentIndex := ops.foldl Operation.apply {}

/-- The insertions made under a term, in order. -/
def history (ops : List Operation) (term : String) : List Insertion :=
  (ops.filter (·.term? = some term)).flatMap Operation.insertions

/-- The positions given for a zone, in order. -/
def given (history : List Insertion) (zone : Zone.Id) : List Position :=
  (history.filter (·.zone.id = zone)).flatMap Insertion.positions

theorem history_cons (op : Operation) (ops : List Operation) (term : String) :
    history (op :: ops) term =
      if op.term? = some term then op.insertions ++ history ops term else history ops term := by
  by_cases here : op.term? = some term <;> simp [history, here]

theorem given_cons (i : Insertion) (history : List Insertion) (zone : Zone.Id) :
    given (i :: history) zone =
      if i.zone.id = zone then i.positions ++ given history zone else given history zone := by
  by_cases here : i.zone.id = zone <;> simp [given, here]

theorem mem_history {ops : List Operation} {term : String} {i : Insertion} :
    i ∈ history ops term ↔ ∃ op ∈ ops, op.term? = some term ∧ i ∈ op.insertions := by
  simp only [history, List.mem_flatMap, List.mem_filter, decide_eq_true_eq, and_assoc]

theorem mem_given {history : List Insertion} {zone : Zone.Id} {p : Position} :
    p ∈ given history zone ↔ ∃ i ∈ history, i.zone.id = zone ∧ p ∈ i.positions := by
  simp only [given, List.mem_flatMap, List.mem_filter, decide_eq_true_eq, and_assoc]

end DocumentIndex

/-- An insertion into a zone that a history knows, with positions at offsets that it knows there. -/
def Insertion.Known (i : Insertion) (history : List Insertion) : Prop :=
  (∃ i' ∈ history, i'.zone.id = i.zone.id) ∧
    ∀ p ∈ i.positions, ∃ q ∈ DocumentIndex.given history i.zone.id, q.offset = p.offset

/-- An operation that inserts nothing but what some operations have inserted already. -/
def DocumentIndex.Operation.Repeats (op : Operation) (ops : List Operation) : Prop :=
  ∀ term, op.term? = some term → (∃ earlier ∈ ops, earlier.term? = some term) ∧
    ∀ i ∈ op.insertions, i.Known (history ops term)

/-! ### What is known, view by view -/

/-- The positions of a zone, none where it is not registered. -/
def Occurrences.positionsIn (o : Occurrences) (zone : Zone.Id) : KeyedList Position :=
  (o.find? zone).elim ∅ ZoneOccurrences.positions

/-- The zone that is registered for an identity. -/
def Occurrences.zone? (o : Occurrences) (zone : Zone.Id) : Option Zone :=
  (o.find? zone).map ZoneOccurrences.zone

/-- The occurrences of a term, none where it is not present. -/
def Postings.occurrencesOf (postings : Postings) (term : String) : Occurrences :=
  (postings.find? term).elim ∅ TermOccurrences.occurrences

namespace Occurrences

variable (o o' : Occurrences) (zone : Zone.Id)

theorem positions_eq_positionsIn : o.positions zone = (o.positionsIn zone).entries := by
  unfold positions positionsIn
  cases o.find? zone <;> rfl

theorem mem_zones_iff {zone : Zone} : zone ∈ o.zones ↔ o.zone? zone.id = some zone := by
  unfold zones zone?
  rw [List.mem_map, Option.map_eq_some_iff]
  constructor
  · rintro ⟨e, mem, rfl⟩
    exact ⟨e, KeyedList.find?_key mem, rfl⟩
  · rintro ⟨e, found, rfl⟩
    exact ⟨e, (KeyedList.find?_eq_some_iff.1 found).1, rfl⟩

theorem id_of_zone? {o : Occurrences} {zone : Zone.Id} {z : Zone}
    (found : o.zone? zone = some z) : z.id = zone := by
  unfold zone? at found
  obtain ⟨e, here, rfl⟩ := Option.map_eq_some_iff.1 found
  exact (KeyedList.find?_eq_some_iff.1 here).2

theorem positionsIn_append :
    (o ++ o').positionsIn zone = o.positionsIn zone ++ o'.positionsIn zone := by
  unfold positionsIn
  rw [KeyedList.find?_append]
  cases o.find? zone <;> cases o'.find? zone <;> simp [Entry.join]

/-- The zone registered first stays. -/
theorem zone?_append : (o ++ o').zone? zone = (o.zone? zone).or (o'.zone? zone) := by
  unfold zone?
  rw [KeyedList.find?_append]
  cases o.find? zone <;> cases o'.find? zone <;> rfl

theorem positionsIn_single (e : ZoneOccurrences) :
    positionsIn (.single e) zone = if e.zone.id = zone then e.positions else ∅ := by
  rw [positionsIn, KeyedList.find?_single_eq]
  exact apply_ite (Option.elim · ∅ ZoneOccurrences.positions) ..

theorem zone?_single (e : ZoneOccurrences) :
    zone? (.single e) zone = if e.zone.id = zone then some e.zone else none := by
  rw [zone?, KeyedList.find?_single_eq]
  exact apply_ite (Option.map ZoneOccurrences.zone) ..

theorem positionsIn_ofList (history : List Insertion) :
    positionsIn (.ofList (history.map Insertion.entry)) zone =
      .ofList (DocumentIndex.given history zone) := by
  induction history with
  | nil => rfl
  | cons i history ih =>
    rw [List.map_cons, KeyedList.ofList_cons, positionsIn_append, ih, positionsIn_single,
      DocumentIndex.given_cons, Insertion.zone_entry, Insertion.positions_entry]
    by_cases here : i.zone.id = zone
    · rw [if_pos here, if_pos here, KeyedList.ofList_append]
    · rw [if_neg here, if_neg here, KeyedList.empty_append]

theorem zone?_ofList (history : List Insertion) :
    zone? (.ofList (history.map Insertion.entry)) zone =
      (history.find? (·.zone.id = zone)).map Insertion.zone := by
  induction history with
  | nil => rfl
  | cons i history ih =>
    rw [List.map_cons, KeyedList.ofList_cons, zone?_append, ih, zone?_single, List.find?_cons]
    by_cases here : i.zone.id = zone <;> simp [here]

/-- Positions at offsets that are taken already add nothing. -/
theorem ofList_append_of_offsets {given again : List Position}
    (known : ∀ p ∈ again, ∃ q ∈ given, q.offset = p.offset) :
    KeyedList.ofList given ++ KeyedList.ofList again = KeyedList.ofList given := by
  refine KeyedList.append_eq_self fun offset p found => ?_
  have mem : offset ∈ (KeyedList.ofList again).keys := KeyedList.mem_keys_iff.2 (by rw [found]; rfl)
  obtain ⟨p', hp, rfl⟩ := List.mem_map.1 (KeyedList.mem_keys_ofList.1 mem)
  obtain ⟨q, hq, same⟩ := known p' hp
  have earlier : Entry.key p' ∈ (KeyedList.ofList given).keys :=
    KeyedList.mem_keys_ofList.2 (List.mem_map.2 ⟨q, hq, congrArg UInt32.toNat same⟩)
  obtain ⟨first, found'⟩ := Option.isSome_iff_exists.1 (KeyedList.mem_keys_iff.1 earlier)
  exact ⟨first, found', rfl⟩

theorem mem_keys_ofList {history : List Insertion} {zone : Zone.Id} :
    zone ∈ (KeyedList.ofList (history.map Insertion.entry)).keys ↔
      ∃ i ∈ history, i.zone.id = zone := by
  rw [KeyedList.mem_keys_ofList, List.map_map, List.mem_map]
  exact Iff.rfl

/-- Insertions that a history knows add nothing to the occurrences that were made of it. -/
theorem ofList_append_of_known {history again : List Insertion}
    (known : ∀ i ∈ again, i.Known history) :
    (.ofList (history.map Insertion.entry) ++ .ofList (again.map Insertion.entry) : Occurrences) =
      .ofList (history.map Insertion.entry) := by
  refine KeyedList.append_eq_self fun zone e found => ?_
  obtain ⟨i, hi, rfl⟩ := mem_keys_ofList.1 (KeyedList.mem_keys_iff.2 (by rw [found]; rfl))
  have earlier := KeyedList.mem_keys_iff.1 (mem_keys_ofList.2 (known i hi).1)
  obtain ⟨e', found'⟩ := Option.isSome_iff_exists.1 earlier
  have offsets : ∀ p ∈ DocumentIndex.given again i.zone.id,
      ∃ q ∈ DocumentIndex.given history i.zone.id, q.offset = p.offset := by
    intro p hp
    obtain ⟨i', hi', same, hp⟩ := DocumentIndex.mem_given.1 hp
    rw [← same]
    exact (known i' hi').2 p hp
  have same := ofList_append_of_offsets offsets
  rw [← positionsIn_ofList, ← positionsIn_ofList, positionsIn, positionsIn, found, found'] at same
  exact ⟨e', found', congrArg (ZoneOccurrences.mk e'.zone) same⟩

theorem Recipe.occurrences_eq_ofList (r : Recipe) :
    r.occurrences = .ofList (r.insertions.map Insertion.entry) := by
  induction r with
  | empty => rfl
  | inZone zone positions => exact (KeyedList.ofList_singleton _).symm
  | put first zone positions ih =>
    rw [occurrences, Occurrences.put, ih, insertions, List.map_append, KeyedList.ofList_append,
      List.map_singleton, KeyedList.ofList_singleton]
    rfl
  | merge first second ih ih' =>
    rw [occurrences, ih, ih', insertions, List.map_append, KeyedList.ofList_append]

end Occurrences

namespace Postings

variable (postings postings' : Postings) (term : String)

theorem occurrencesOf_append :
    (postings ++ postings').occurrencesOf term =
      postings.occurrencesOf term ++ postings'.occurrencesOf term := by
  unfold occurrencesOf
  rw [KeyedList.find?_append]
  cases postings.find? term <;> cases postings'.find? term <;> simp [Entry.join]

theorem occurrencesOf_single (e : TermOccurrences) :
    occurrencesOf (.single e) term = if e.term = term then e.occurrences else ∅ := by
  rw [occurrencesOf, KeyedList.find?_single_eq]
  exact apply_ite (Option.elim · ∅ TermOccurrences.occurrences) ..

theorem positions_eq_positionsIn (zone : Zone.Id) :
    postings.positions term zone = ((postings.occurrencesOf term).positionsIn zone).entries := by
  unfold positions occurrences? occurrencesOf
  cases postings.find? term with
  | none => rfl
  | some e => exact Occurrences.positions_eq_positionsIn ..

theorem mem_zones_iff {zone : Zone} :
    zone ∈ postings.zones term ↔ (postings.occurrencesOf term).zone? zone.id = some zone := by
  unfold zones occurrences? occurrencesOf
  cases postings.find? term with
  | none => simp [Occurrences.zone?]
  | some e => exact Occurrences.mem_zones_iff _

end Postings

/-! ### Operations -/

namespace DocumentIndex

namespace Operation

/-- What an operation adds to the postings. -/
def addition? (op : Operation) : Option TermOccurrences :=
  op.term?.map fun term => ⟨term, .ofList (op.insertions.map Insertion.entry)⟩

theorem postings_apply (d : DocumentIndex) (op : Operation) :
    (apply d op).postings = d.postings ++ .ofList op.addition?.toList := by
  cases op with
  | put term zone positions =>
    have one : Occurrences.inZone zone positions = .ofList [Insertion.entry ⟨zone, positions⟩] :=
      (KeyedList.ofList_singleton (Insertion.entry ⟨zone, positions⟩)).symm
    rw [apply, Postings.put, Postings.add, one, ← KeyedList.ofList_singleton]
    rfl
  | install term recipe =>
    rw [apply, Postings.add, recipe.occurrences_eq_ofList, ← KeyedList.ofList_singleton]
    rfl
  | recordSpan name s => exact (KeyedList.append_empty _).symm
  | clearSpans => exact (KeyedList.append_empty _).symm
  | ask q => exact (Query.leaves_answer q d).postings.trans (KeyedList.append_empty _).symm

end Operation

/-- The postings are made of what the operations added, one after another. -/
theorem postings_after (ops : List Operation) :
    (after ops).postings = .ofList (ops.filterMap Operation.addition?) := by
  suffices ∀ d, (ops.foldl Operation.apply d).postings =
      d.postings ++ .ofList (ops.filterMap Operation.addition?) from
    (this {}).trans (KeyedList.empty_append _)
  induction ops with
  | nil => exact fun d => (KeyedList.append_empty _).symm
  | cons op ops ih =>
    intro d
    rw [List.foldl_cons, ih, Operation.postings_apply, KeyedList.append_assoc,
      ← KeyedList.ofList_append]
    cases added : op.addition? with
    | none => rw [List.filterMap_cons_none added]; rfl
    | some e => rw [List.filterMap_cons_some added]; rfl

theorem mem_keys_postings_after {ops : List Operation} {term : String} :
    term ∈ (after ops).postings.keys ↔ ∃ op ∈ ops, op.term? = some term := by
  rw [postings_after, KeyedList.mem_keys_ofList, List.mem_map]
  constructor
  · rintro ⟨e, mem, rfl⟩
    obtain ⟨op, hop, added⟩ := List.mem_filterMap.1 mem
    obtain ⟨term, names, rfl⟩ := Option.map_eq_some_iff.1 added
    exact ⟨op, hop, names⟩
  · rintro ⟨op, hop, names⟩
    refine ⟨_, List.mem_filterMap.2 ⟨op, hop, Option.map_eq_some_iff.2 ⟨term, names, rfl⟩⟩, rfl⟩

theorem occurrencesOf_after (ops : List Operation) (term : String) :
    (after ops).postings.occurrencesOf term = .ofList ((history ops term).map Insertion.entry) := by
  rw [postings_after]
  induction ops with
  | nil => rfl
  | cons op ops ih =>
    rw [history_cons]
    cases names : op.term? with
    | none =>
      have added : op.addition? = none := by rw [Operation.addition?, names]; rfl
      rw [List.filterMap_cons_none added, ih, if_neg (Option.some_ne_none term).symm]
    | some named =>
      have added : op.addition? = some ⟨named, .ofList (op.insertions.map Insertion.entry)⟩ := by
        rw [Operation.addition?, names]; rfl
      rw [List.filterMap_cons_some added, KeyedList.ofList_cons, Postings.occurrencesOf_append, ih,
        Postings.occurrencesOf_single]
      by_cases here : named = term
      · rw [if_pos here, if_pos (congrArg some here), List.map_append, KeyedList.ofList_append]
      · rw [if_neg here, if_neg (mt Option.some.inj here), KeyedList.empty_append]

/-! ### Repetitions -/

theorem Operation.repeats_of_mem {ops : List Operation} {op : Operation} (mem : op ∈ ops) :
    op.Repeats ops := by
  intro term names
  refine ⟨⟨op, mem, names⟩, fun i hi => ?_⟩
  have earlier : i ∈ history ops term := mem_history.2 ⟨op, mem, names, hi⟩
  exact ⟨⟨i, earlier, rfl⟩, fun p hp => ⟨p, mem_given.2 ⟨i, earlier, rfl, hp⟩, rfl⟩⟩

/-- Operations that insert nothing new change no posting. -/
theorem postings_after_append {ops again : List Operation}
    (repeated : ∀ op ∈ again, op.Repeats ops) :
    (after (ops ++ again)).postings = (after ops).postings := by
  have joined : (after (ops ++ again)).postings =
      (after ops).postings ++ (after again).postings := by
    rw [postings_after, postings_after, postings_after, List.filterMap_append,
      KeyedList.ofList_append]
  rw [joined]
  refine KeyedList.append_eq_self fun term e found => ?_
  have inserted : term ∈ (after again).postings.keys := by
    rw [KeyedList.mem_keys_iff, found]
    rfl
  obtain ⟨op, hop, names⟩ := mem_keys_postings_after.1 inserted
  have earlier : term ∈ (after ops).postings.keys :=
    mem_keys_postings_after.2 (repeated op hop term names).1
  obtain ⟨e', found'⟩ := Option.isSome_iff_exists.1 (KeyedList.mem_keys_iff.1 earlier)
  have known : ∀ i ∈ history again term, i.Known (history ops term) := by
    intro i mem
    obtain ⟨op, hop, names, hi⟩ := mem_history.1 mem
    exact (repeated op hop term names).2 i hi
  have same := Occurrences.ofList_append_of_known known
  rw [← occurrencesOf_after, ← occurrencesOf_after, Postings.occurrencesOf, Postings.occurrencesOf,
    found, found'] at same
  exact ⟨e', found', congrArg (TermOccurrences.mk e'.term) same⟩

/-! ### The history told -/

variable (ops : List Operation) (term : String)

theorem isSome_occurrences?_after :
    ((after ops).postings.occurrences? term).isSome ↔ ∃ op ∈ ops, op.term? = some term := by
  rw [Postings.occurrences?, Option.isSome_map, ← KeyedList.mem_keys_iff, mem_keys_postings_after]

theorem mem_zones_after {zone : Zone} :
    zone ∈ (after ops).postings.zones term ↔
      ((history ops term).find? (·.zone.id = zone.id)).map Insertion.zone = some zone := by
  rw [Postings.mem_zones_iff, occurrencesOf_after, Occurrences.zone?_ofList]

theorem mem_positions_after {zone : Zone.Id} {p : Position} :
    p ∈ (after ops).postings.positions term zone ↔
      (given (history ops term) zone).find? (·.offset = p.offset) = some p := by
  rw [Postings.positions_eq_positionsIn, occurrencesOf_after, Occurrences.positionsIn_ofList]
  have first := KeyedList.find?_ofList_of_first (fun _ _ => rfl) (given (history ops term) zone)
    p.offset.toNat
  have same : (fun q : Position => compare p.offset.toNat (Entry.key q) == .eq) =
      fun q => decide (q.offset = p.offset) := by
    funext q
    have same : compare p.offset.toNat (Entry.key q) = .eq ↔ q.offset = p.offset := by
      rw [Std.compare_eq_iff_eq, eq_comm]
      exact UInt32.toNat_inj
    rw [Bool.eq_iff_iff, beq_iff_eq, same, decide_eq_true_iff]
  rw [same] at first
  rw [← first, KeyedList.find?_eq_some_iff]
  exact (and_iff_left rfl).symm

/--
What is known after any operations: the terms under which something was inserted; their zones in
order, each as first given; and in each zone the first position given at every offset, in order.
Nothing changes when operations are repeated, or insert what is there already in some other way.
-/
theorem after_history (ops : List Operation) :
    (∀ term, ((after ops).postings.occurrences? term).isSome ↔ ∃ op ∈ ops, op.term? = some term) ∧
    (∀ term, ((after ops).postings.zones term).Pairwise (fun z z' => compare z.id z'.id = .lt) ∧
      ∀ zone, zone ∈ (after ops).postings.zones term ↔
        ((history ops term).find? (·.zone.id = zone.id)).map Insertion.zone = some zone) ∧
    (∀ term zone,
      ((after ops).postings.positions term zone).Pairwise (fun p q => p.offset < q.offset) ∧
      ∀ p, p ∈ (after ops).postings.positions term zone ↔
        (given (history ops term) zone).find? (·.offset = p.offset) = some p) ∧
    ∀ again, (∀ op ∈ again, op ∈ ops ∨ op.Repeats ops) →
      (after (ops ++ again)).postings = (after ops).postings := by
  refine ⟨isSome_occurrences?_after ops, fun term => ⟨?_, fun zone => mem_zones_after ops term⟩,
    fun term zone => ⟨?_, fun p => mem_positions_after ops term⟩, fun again repeated => ?_⟩
  · exact Request.ascending_zones (after ops).postings term
  · exact Lineup.ascending_positions (after ops).postings term zone
  · refine postings_after_append fun op hop => ?_
    rcases repeated op hop with before | repeats
    · exact Operation.repeats_of_mem before
    · exact repeats

end DocumentIndex

end TermProximity
