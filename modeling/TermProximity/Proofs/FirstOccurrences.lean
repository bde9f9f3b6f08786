import Mathlib.Algebra.BigOperators.Group.Finset.Basic
import Mathlib.Algebra.GroupWithZero.Nat
import Mathlib.Data.Finset.Card

/-!
# First occurrences — what is left of a list when repetitions are left out

* `eraseDups_concat`: one more member at the end;
* `idxOf_eraseDups`: a member comes after as many others as there are different ones before it;
* `map_eraseDupsBy`: members told apart by a key, as their keys.
-/

namespace TermProximity

section Members

variable {α : Type} [DecidableEq α]

theorem eraseDups_concat (l : List α) (a : α) :
    (l ++ [a]).eraseDups = if a ∈ l then l.eraseDups else l.eraseDups ++ [a] := by
  rw [List.eraseDups_append]
  by_cases there : a ∈ l
  · simp [List.removeAll, there]
  · simp [List.removeAll, there, List.eraseDups_cons]

theorem nodup_eraseDups (l : List α) : l.eraseDups.Nodup := by
  induction l using List.reverseRecOn with
  | nil => simp
  | append_singleton l a ih =>
    rw [eraseDups_concat]
    split
    · exact ih
    · rename_i new
      simpa using ih.concat fun there => new (List.mem_eraseDups.1 there)

@[simp] theorem toFinset_eraseDups (l : List α) : l.eraseDups.toFinset = l.toFinset := by
  ext a
  simp

/-- The first occurrences are as many as there are different members. -/
theorem length_eraseDups (l : List α) : l.eraseDups.length = l.toFinset.card := by
  rw [← toFinset_eraseDups, List.toFinset_card_of_nodup (nodup_eraseDups l)]

/-- A member comes after as many others as there are different ones before its first occurrence. -/
theorem idxOf_eraseDups {before after : List α} {a : α} (new : a ∉ before) :
    (before ++ a :: after).eraseDups.idxOf a = before.toFinset.card := by
  have kept : (a :: after).removeAll before = a :: after.removeAll before := by
    simp [List.removeAll, new]
  have unseen : a ∉ before.eraseDups := fun there => new (List.mem_eraseDups.1 there)
  rw [List.eraseDups_append, kept, List.eraseDups_cons, List.idxOf_append, if_neg unseen,
    List.idxOf_cons_self, Nat.zero_add, length_eraseDups]

/-- Every member is counted once with the first occurrence that it repeats. -/
theorem sum_count_eraseDups (l : List α) : (l.eraseDups.map l.count).sum = l.length := by
  rw [← List.sum_toFinset l.count (nodup_eraseDups l), toFinset_eraseDups,
    List.sum_toFinset_count_eq_length]

end Members

/-- Where members are told apart by a key, the first occurrences have the keys that come first. -/
theorem map_eraseDupsBy {α β : Type} [BEq β] (key : α → β) (l : List α) :
    (l.eraseDupsBy fun a b => key a == key b).map key = (l.map key).eraseDups := by
  match l with
  | [] => rfl
  | a :: l =>
    have ih := map_eraseDupsBy key (l.filter fun b => !key b == key a)
    rw [List.eraseDupsBy_cons, List.map_cons, List.map_cons, List.eraseDups_cons, List.filter_map]
    simp only [Bool.decide_eq_false]
    exact congrArg _ ih
termination_by l.length
decreasing_by exact Nat.lt_succ_of_le (List.length_filter_le ..)

end TermProximity
