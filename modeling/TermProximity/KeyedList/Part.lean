import TermProximity.KeyedList.Lemmas

/-!
# Parts of keyed lists — entries left out, and entries changed under their keys

* `find?_filter`: where entries are left out, what is found under a key is what passes the test;
* `find?_map`: where entries are changed, what is found under a key is changed.
-/

namespace TermProximity.KeyedList

open Entry

variable {α κ : Type} [Ord κ] [Entry α κ]

/-- The entries that pass a test. -/
def filter (p : α → Bool) (xs : KeyedList α) : KeyedList α :=
  ⟨xs.entries.filter p, xs.ascending.filter p⟩

/-- The entries changed in a way that keeps their keys. -/
def map (f : α → α) (key_eq : ∀ a, key (f a) = key a) (xs : KeyedList α) : KeyedList α where
  entries := xs.entries.map f
  ascending := List.pairwise_map.2 (xs.ascending.imp fun lt => by rwa [key_eq, key_eq])

theorem find?_filter [Std.TransOrd κ] [Std.LawfulEqOrd κ] (p : α → Bool) (xs : KeyedList α)
    (k : κ) : (xs.filter p).find? k = (xs.find? k).filter p := by
  refine Option.ext fun a => ?_
  rw [find?_eq_some_iff, Option.filter_eq_some_iff, find?_eq_some_iff, filter, List.mem_filter,
    and_right_comm]

theorem find?_map (f : α → α) (key_eq : ∀ a, key (f a) = key a) (xs : KeyedList α) (k : κ) :
    (xs.map f key_eq).find? k = (xs.find? k).map f := by
  have test : (fun a : α => compare k (key a) == .eq) ∘ f = fun a => compare k (key a) == .eq := by
    funext a
    rw [Function.comp, key_eq]
  rw [find?, findIn?, map, List.find?_map, test]
  rfl

end TermProximity.KeyedList
