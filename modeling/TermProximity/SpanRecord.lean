import Std.Data.TreeSet
import TermProximity.KeyedList.Lemmas
import TermProximity.Span
import TermProximity.Zone

/-!
# Span records — the spans found under each zone name

Recording a span under a name appends it to the spans of that name unless it is among them.  Under
`anyField` a record shows the spans of all names, each once and in order.

* `appendAllNew_eq_foldl`: many spans are appended as if one after another;
* `SpanRecord.find?_record`: a span is recorded under its name alone, and once;
* `SpanRecord.recordEach_eq_foldl`: many are recorded as if one after another.
-/

namespace TermProximity

/-! ### Lists without repetitions -/

/-- Appends a span unless it is there. -/
def appendNew (spans : List Span) (s : Span) : List Span :=
  if s ∈ spans then spans else spans ++ [s]

/-- The spans of a list that have not been seen, each once. -/
def unseen (seen : Std.TreeSet Span) : List Span → List Span
  | [] => []
  | s :: rest => if seen.contains s then unseen seen rest else s :: unseen (seen.insert s) rest

/-- Appends the spans of a list that are not there, each once. -/
def appendAllNew (spans more : List Span) : List Span :=
  spans ++ unseen (Std.TreeSet.ofList spans) more

theorem append_unseen_eq_foldl {seen : Std.TreeSet Span} {spans : List Span}
    (h : ∀ s, seen.contains s = true ↔ s ∈ spans) (more : List Span) :
    spans ++ unseen seen more = more.foldl appendNew spans := by
  induction more generalizing seen spans with
  | nil => simp [unseen]
  | cons s rest ih =>
    rw [unseen, List.foldl_cons, appendNew]
    by_cases there : s ∈ spans
    · rw [if_pos ((h s).2 there), if_pos there, ih h]
    · rw [if_neg fun seen => there ((h s).1 seen), if_neg there, List.append_cons]
      refine ih fun t => ?_
      rw [Std.TreeSet.contains_insert, Bool.or_eq_true, h, List.mem_append, List.mem_singleton,
        beq_iff_eq, Std.compare_eq_iff_eq, or_comm, eq_comm]

/-- Many spans are appended as if one after another. -/
theorem appendAllNew_eq_foldl (spans more : List Span) :
    appendAllNew spans more = more.foldl appendNew spans :=
  append_unseen_eq_foldl (by simp [Std.TreeSet.contains_ofList]) more

theorem mem_foldl_appendNew {s : Span} {spans more : List Span} :
    s ∈ more.foldl appendNew spans ↔ s ∈ spans ∨ s ∈ more := by
  induction more generalizing spans with
  | nil => simp
  | cons t rest ih =>
    rw [List.foldl_cons, ih, appendNew, List.mem_cons]
    split
    · rename_i there
      exact ⟨.imp_right .inr, fun h => h.elim .inl (·.elim (fun e => .inl (e ▸ there)) .inr)⟩
    · rw [List.mem_append, List.mem_singleton, or_assoc]

theorem foldl_appendNew_appendNew (spans more : List Span) (s : Span) :
    (appendNew more s).foldl appendNew spans = appendNew (more.foldl appendNew spans) s := by
  rw [appendNew]
  split
  · rename_i there
    rw [appendNew, if_pos (mem_foldl_appendNew.2 (.inr there))]
  · simp

theorem appendAllNew_assoc (a b c : List Span) :
    appendAllNew (appendAllNew a b) c = appendAllNew a (appendAllNew b c) := by
  simp only [appendAllNew_eq_foldl]
  induction c generalizing b with
  | nil => rfl
  | cons s rest ih => rw [List.foldl_cons, List.foldl_cons, ← foldl_appendNew_appendNew, ih]

/-! ### Records -/

/-- The spans found under one zone name, in the order in which they were found. -/
structure NamedSpans where
  name : String
  spans : List Span
  deriving DecidableEq

instance : Entry NamedSpans String where
  key e := e.name
  join first second := ⟨first.name, appendAllNew first.spans second.spans⟩
  key_join _ _ := rfl
  join_assoc _ _ _ := congrArg _ (appendAllNew_assoc ..)

/-- The spans found under each zone name, in the order of the names. -/
abbrev SpanRecord := KeyedList NamedSpans

namespace SpanRecord

/-- The record with a span appended under a name. -/
def record (r : SpanRecord) (name : String) (s : Span) : SpanRecord := r ++ .single ⟨name, [s]⟩

/-- The record with spans appended under a name, one after another. -/
def recordEach (r : SpanRecord) (name : String) (spans : List Span) : SpanRecord :=
  if spans.isEmpty then r else r ++ .single ⟨name, appendAllNew [] spans⟩

theorem record_append_single (r : SpanRecord) (name : String) (spans : List Span) (s : Span) :
    record (r ++ .single ⟨name, spans⟩) name s = r ++ .single ⟨name, appendNew spans s⟩ := by
  have both : KeyedList.single (NamedSpans.mk name spans) ++ .single ⟨name, [s]⟩ =
      .single ⟨name, appendAllNew spans [s]⟩ :=
    KeyedList.single_append_single Std.ReflCmp.compare_self
  rw [record, KeyedList.append_assoc, both, appendAllNew_eq_foldl]
  rfl

/-- A span is appended to those of its name unless it is among them; other names keep theirs. -/
theorem find?_record (r : SpanRecord) (name other : String) (s : Span) :
    (r.record name s).find? other =
      if other = name then
        some ⟨name, appendNew ((r.find? name).elim [] NamedSpans.spans) s⟩
      else r.find? other := by
  have eq_iff : compare other (Entry.key (NamedSpans.mk name [s])) = .eq ↔ other = name :=
    Std.compare_eq_iff_eq
  rw [record, KeyedList.find?_append, KeyedList.find?_single]
  by_cases same : other = name
  · subst same
    rw [if_pos (eq_iff.2 rfl), if_pos rfl]
    cases found : r.find? other with
    | none => rfl
    | some e =>
      have key : other = e.name := Std.compare_eq_iff_eq.1 (KeyedList.mem_of_findIn? found).2
      show some (NamedSpans.mk e.name (appendAllNew e.spans [s])) = _
      rw [appendAllNew_eq_foldl, ← key]
      rfl
  · rw [if_neg fun eq => same (eq_iff.1 eq), if_neg same, Option.merge_none_right]

/-- Many spans are recorded as if one after another. -/
theorem recordEach_eq_foldl (r : SpanRecord) (name : String) (spans : List Span) :
    r.recordEach name spans = spans.foldl (fun r s => r.record name s) r := by
  have go (l rest : List Span) :
      r ++ .single ⟨name, rest.foldl appendNew l⟩ =
        rest.foldl (fun r s => r.record name s) (r ++ .single ⟨name, l⟩) := by
    induction rest generalizing l with
    | nil => rfl
    | cons s rest ih => rw [List.foldl_cons, List.foldl_cons, ih, record_append_single]
  cases spans with
  | nil => rfl
  | cons s rest =>
    rw [recordEach, if_neg (by simp), appendAllNew_eq_foldl]
    exact go [s] rest

/-- The spans of all names, each once, in order. -/
def all (r : SpanRecord) : List Span :=
  (KeyedList.ofList (r.entries.flatMap (·.spans))).entries

/-- The spans of a name in the order of recording; under `anyField`, those of all names. -/
def spans (r : SpanRecord) (name : String) : List Span :=
  if name = anyField then r.all
  else match r.find? name with
    | some found => found.spans
    | none => []

/-- What the record shows under each of its names, in the order of the names. -/
def byName (r : SpanRecord) : List (String × List Span) :=
  r.entries.map fun e => (e.name, r.spans e.name)

/-- The number of spans recorded, name by name. -/
def count (r : SpanRecord) : Nat := (r.entries.flatMap (·.spans)).length

end SpanRecord

end TermProximity
