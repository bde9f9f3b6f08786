import Mathlib.Data.List.Nodup
import TermProximity.Record

/-!
# Records — what is written says the value, and what says it is read as it

The fields of a shape have different names, so a member belongs to one field, and a member that is left
out is found nowhere else.  Members that are left out say no more than their absence
(`Shape.saidBy_of_perm`); where a shape is faithful, the members that are not written are of this kind.

* `Record.saidBy_written`: what is written for a value says it;
* `Record.ofMembers?_of_saidBy`: a value is made of any members that say it;
* `Record.read_of_write`: a library that keeps its promises reads what it writes.
-/

namespace TermProximity

/-! ### Members by name -/

section Members

variable {α β : Type} {members : List (String × α)} {name : String} {a : α}

theorem mem_namesOf (mem : (name, a) ∈ members) : name ∈ namesOf members := List.mem_map_of_mem mem

theorem lookup_of_mem (distinct : (namesOf members).Nodup) (mem : (name, a) ∈ members) :
    members.lookup name = some a := by
  obtain ⟨before, after, rfl⟩ := List.append_of_mem mem
  refine List.lookup_eq_some_iff.2 ⟨before, after, rfl, fun m earlier => ?_⟩
  rw [namesOf, List.map_append, List.nodup_append] at distinct
  rw [bne_iff_ne]
  exact (distinct.2.2 m.1 (List.mem_map_of_mem earlier) name List.mem_cons_self).symm

theorem lookup_of_not_mem (missing : name ∉ namesOf members) : members.lookup name = none := by
  refine List.lookup_eq_none_iff.2 fun m mem => ?_
  rw [bne_iff_ne]
  rintro rfl
  exact missing (List.mem_map_of_mem mem)

theorem lookup_map (embed : α → β) (members : List (String × α)) (name : String) :
    (members.map fun m => (m.1, embed m.2)).lookup name = (members.lookup name).map embed := by
  induction members with
  | nil => rfl
  | cons m members ih =>
    rw [List.map_cons, List.lookup_cons, List.lookup_cons, ih]
    split <;> rfl

theorem namesOf_map (embed : α → β) (members : List (String × α)) :
    namesOf (members.map fun m => (m.1, embed m.2)) = namesOf members := by
  simp [namesOf]

end Members

/-! ### Members of a shape -/

namespace Shape

variable {s : Shape} {f : Field} {values : List Scalar} {members left : List (String × Scalar)}

theorem nodup_names (s : Shape) : s.names.Nodup := s.distinct

theorem namesOf_members (same : values.length = s.fields.length) :
    namesOf (s.members values) = s.names := by
  have fields : (s.fields.zip values).map Prod.fst = s.fields := List.map_fst_zip (Nat.le_of_eq same.symm)
  rw [namesOf, Shape.members, List.map_map, names, ← congrArg (List.map Field.name) fields, List.map_map]
  rfl

/-- A field is known by its name. -/
theorem standard_of_mem_standards {v : Scalar} (field : f ∈ s.fields) (mem : (f.name, v) ∈ s.standards) :
    f.standard = some v := by
  obtain ⟨g, other, has⟩ := List.mem_filterMap.1 mem
  obtain ⟨w, standard, pair⟩ := Option.map_eq_some_iff.1 has
  obtain ⟨name, rfl⟩ := Prod.mk.inj pair
  rwa [List.inj_on_of_nodup_map s.nodup_names field other name.symm]

/-- Members in any order, less some that say no more than their absence, say what all of them do. -/
theorem saidBy_of_perm (same : values.length = s.fields.length)
    (split : (members ++ left).Perm (s.members values)) (standard : left ⊆ s.standards) :
    s.SaidBy values members := by
  have names_perm : (namesOf members ++ namesOf left).Perm s.names := by
    rw [← namesOf_members same, namesOf, namesOf, ← List.map_append]
    exact split.map _
  obtain ⟨distinct, -, apart⟩ := List.nodup_append.1 (names_perm.nodup_iff.2 s.nodup_names)
  refine ⟨distinct, fun name mem => names_perm.subset (List.mem_append_left _ mem), fun h mem => ?_⟩
  have member : (h.1.name, h.2) ∈ s.members values := List.mem_map_of_mem mem
  rcases List.mem_append.1 (split.mem_iff.2 member) with here | gone
  · exact .inl here
  · refine .inr ⟨fun here => apart _ here _ (mem_namesOf gone) rfl, ?_⟩
    exact standard_of_mem_standards (List.of_mem_zip mem).1 (standard gone)

/-- A shape of which everything is written is faithful. -/
theorem faithful_of_omits (all : ∀ f ∈ s.fields, ∀ v, f.omits v = false) : s.Faithful := by
  intro f field v omits
  rw [all f field v] at omits
  contradiction

/-- Where a shape is faithful, what is written says the values. -/
theorem saidBy_written (faithful : s.Faithful) (same : values.length = s.fields.length) :
    s.SaidBy values (s.written values) := by
  have split := (List.filter_append_perm (fun h => !h.1.omits h.2) (s.fields.zip values)).map
    fun h => (h.1.name, h.2)
  rw [List.map_append] at split
  refine saidBy_of_perm same split fun m mem => ?_
  obtain ⟨h, omits, rfl⟩ := List.mem_map.1 mem
  obtain ⟨held, gone⟩ := List.mem_filter.1 omits
  have field := (List.of_mem_zip held).1
  refine List.mem_filterMap.2 ⟨h.1, field, ?_⟩
  rw [faithful h.1 field h.2 (by simpa using gone)]
  rfl

/-! ### Values of members -/

theorem pick?_of_saidBy {β : Type} {embed : Scalar → β} (said : s.SaidBy values members) :
    s.pick? (members.map fun m => (m.1, embed m.2)) =
      some (s.names.map fun n => (members.lookup n).map embed) := by
  have once : s.names.all (fun n => (namesOf members).count n ≤ 1) = true :=
    List.all_eq_true.2 fun n _ => decide_eq_true (List.nodup_iff_count.1 said.distinct n)
  have known : (namesOf members).all (s.names.contains ·) = true :=
    List.all_eq_true.2 fun n mem => List.contains_iff_mem.2 (said.known n mem)
  rw [pick?, namesOf_map, if_pos ⟨once, fun _ => known⟩]
  simp only [lookup_map]

/-- Fields that are found or hold their standard have the values that they should. -/
theorem mapM_zip_eq_some {β : Type} {step : Field × Option β → Option Scalar}
    (find : String → Option β) {fields : List Field} (same : values.length = fields.length)
    (finds : ∀ h ∈ fields.zip values, step (h.1, find h.1.name) = some h.2) :
    (fields.zip (fields.map fun f => find f.name)).mapM step = some values := by
  induction fields generalizing values with
  | nil =>
    obtain rfl := List.eq_nil_of_length_eq_zero same
    rfl
  | cons f fields ih =>
    obtain ⟨v, later, rfl⟩ := List.exists_cons_of_length_eq_add_one same
    obtain ⟨here, others⟩ := List.forall_mem_cons.1 finds
    rw [List.map_cons, List.zip_cons_cons, List.mapM_cons, here, ih (Nat.succ.inj same) others]
    rfl

theorem complete?_of_saidBy {β : Type} {embed : Scalar → β} {read : β → Option Scalar}
    (reads : ∀ v, read (embed v) = some v) (same : values.length = s.fields.length)
    (said : s.SaidBy values members) :
    s.complete? read (s.names.map fun n => (members.lookup n).map embed) = some values := by
  rw [complete?, names, List.map_map]
  refine mapM_zip_eq_some (fun n => (members.lookup n).map embed) same fun h mem => ?_
  rcases said.holds h mem with here | ⟨missing, standard⟩
  · simp [lookup_of_mem said.distinct here, reads]
  · simp [lookup_of_not_mem missing, standard]

end Shape

/-! ### Records -/

namespace Record

variable {α : Type} [Record α] {a : α} {members : List (String × Scalar)}

theorem mem_values_of_mem_written {m : String × Scalar} (mem : m ∈ written a) : m.2 ∈ values a := by
  obtain ⟨h, kept, rfl⟩ := List.mem_map.1 mem
  exact (List.of_mem_zip (List.mem_filter.1 kept).1).2

/-- What is written for a value says it. -/
theorem saidBy_written (faithful : (shape α).Faithful) (a : α) : SaidBy a (written a) :=
  Shape.saidBy_written faithful (length_values a)

/-- A value is made of any members that say it. -/
theorem ofMembers?_of_saidBy {β : Type} (embed : Scalar → β) {read : β → Option Scalar}
    (reads : ∀ v, read (embed v) = some v) (said : SaidBy a members) :
    ofMembers? read (members.map fun m => (m.1, embed m.2)) = some a := by
  rw [ofMembers?, Shape.pick?_of_saidBy said, Option.bind_some, ofFound?,
    Shape.complete?_of_saidBy reads (length_values a) said, Option.bind_some, ofValues?_values]

/-- A library that keeps its promises reads what it writes, if the shape is faithful. -/
theorem read_of_write {library : Library} {format : TextFormat}
    (implements : library.Implements format) (faithful : (shape α).Faithful) {a : α}
    (holds : ∀ v ∈ values a, format.Holds v) :
    ∃ text, library.write a = some text ∧ library.read text = some a := by
  obtain ⟨text, written, spells⟩ := implements.writes a holds
  exact ⟨text, written, implements.reads a _ text holds (saidBy_written faithful a) spells⟩

end Record

end TermProximity
