/-!
# Keyed lists — entries in increasing key order, at most one of each key

An entry knows its key, and two entries of one key join into one.  A keyed list is built by putting
entries in front of others (`++`): where a key is present on both sides, the entry in front is
joined with the one behind it, so with a `join` that keeps its first argument the first entry of a
key wins.

The order of the entries is part of the type, so every keyed list is sorted and free of repeated
keys, however it was built.
-/

namespace TermProximity

/-- What a keyed list needs to know of its entries. -/
class Entry (α : Type) (κ : outParam Type) where
  /-- What tells the entry apart from the others. -/
  key : α → κ
  /-- The entry made of two entries of one key, of which the first comes first. -/
  join : α → α → α
  key_join (a b : α) : key (join a b) = key a
  join_assoc (a b c : α) : join (join a b) c = join a (join b c)

open Entry

/-- Entries in increasing order of their keys. -/
structure KeyedList (α : Type) {κ : Type} [Ord κ] [Entry α κ] where
  entries : List α
  ascending : entries.Pairwise fun a b => compare (key a) (key b) = .lt

namespace KeyedList

variable {α κ : Type} [Ord κ] [Entry α κ]

@[ext] theorem ext_entries {xs ys : KeyedList α} (h : xs.entries = ys.entries) : xs = ys := by
  cases xs; cases ys; cases h; rfl

instance [DecidableEq α] : DecidableEq (KeyedList α) := fun xs ys =>
  if h : xs.entries = ys.entries then isTrue (ext_entries h)
  else isFalse fun e => h (congrArg entries e)

instance : EmptyCollection (KeyedList α) := ⟨⟨[], List.Pairwise.nil⟩⟩

instance : Inhabited (KeyedList α) := ⟨∅⟩

/-- The entry of a key in a list of entries. -/
def findIn? (l : List α) (k : κ) : Option α := l.find? fun a => compare k (key a) == .eq

/-- The entry of a key. -/
def find? (xs : KeyedList α) (k : κ) : Option α := findIn? xs.entries k

/-- Whether there is an entry of the key. -/
def contains (xs : KeyedList α) (k : κ) : Bool := (xs.find? k).isSome

/-- The keys, in increasing order. -/
def keys (xs : KeyedList α) : List κ := xs.entries.map key

/-- A keyed list is empty when it has no entry. -/
def isEmpty (xs : KeyedList α) : Bool := xs.entries.isEmpty

/--
Puts an entry at the place of its key, joining it with the entry of its key if there is one, and
goes on with the entries that stand after that place.
-/
def place (a : α) (later : List α → List α) : List α → List α
  | [] => a :: later []
  | b :: rest =>
    match compare (key a) (key b) with
    | .lt => a :: later (b :: rest)
    | .eq => join a b :: later rest
    | .gt => b :: place a later rest

/-- Two ascending lists in one, the entries of the first coming first. -/
def merge : List α → List α → List α
  | [], m => m
  | a :: rest, m => place a (merge rest) m

@[simp] theorem merge_nil (m : List α) : merge [] m = m := rfl

theorem merge_cons_nil (a : α) (l : List α) : merge (a :: l) [] = a :: merge l [] := rfl

theorem merge_cons_cons (a b : α) (l m : List α) :
    merge (a :: l) (b :: m) =
      match compare (key a) (key b) with
      | .lt => a :: merge l (b :: m)
      | .eq => join a b :: merge l m
      | .gt => b :: merge (a :: l) m := rfl

/-- An entry of two lists in one has a key of one of the lists. -/
theorem key_of_mem_merge {c : α} {l m : List α} (h : c ∈ merge l m) :
    ∃ b ∈ l ++ m, key c = key b := by
  induction l generalizing m with
  | nil => exact ⟨c, by simpa using h, rfl⟩
  | cons a l ih =>
    induction m with
    | nil =>
      rcases List.mem_cons.1 h with rfl | h
      · exact ⟨c, by simp, rfl⟩
      · obtain ⟨b, hb, e⟩ := ih h
        exact ⟨b, List.mem_cons_of_mem _ hb, e⟩
    | cons b m ihm =>
      rw [merge_cons_cons] at h
      split at h
      · rcases List.mem_cons.1 h with rfl | h
        · exact ⟨c, by simp, rfl⟩
        · obtain ⟨d, hd, e⟩ := ih h
          exact ⟨d, List.mem_cons_of_mem _ hd, e⟩
      · rcases List.mem_cons.1 h with rfl | h
        · exact ⟨a, by simp, key_join a b⟩
        · obtain ⟨d, hd, e⟩ := ih h
          have within := (List.sublist_cons_self a l).append (List.sublist_cons_self b m)
          exact ⟨d, within.subset hd, e⟩
      · rcases List.mem_cons.1 h with rfl | h
        · exact ⟨c, by simp, rfl⟩
        · obtain ⟨d, hd, e⟩ := ihm h
          exact ⟨d, ((List.sublist_cons_self b m).append_left (a :: l)).subset hd, e⟩

variable [Std.TransOrd κ]

theorem ascending_merge {l m : List α}
    (hl : l.Pairwise fun a b => compare (key a) (key b) = .lt)
    (hm : m.Pairwise fun a b => compare (key a) (key b) = .lt) :
    (merge l m).Pairwise fun a b => compare (key a) (key b) = .lt := by
  induction l generalizing m with
  | nil => exact hm
  | cons a l ih =>
    obtain ⟨beforeL, tailL⟩ := List.pairwise_cons.1 hl
    -- What stands before all entries of two lists stands before all entries of them in one.
    have before {x : α} {m' : List α} (hL : ∀ c ∈ l, compare (key x) (key c) = .lt)
        (hM : ∀ c ∈ m', compare (key x) (key c) = .lt) :
        ∀ c ∈ merge l m', compare (key x) (key c) = .lt := fun c hc => by
      obtain ⟨d, hd, e⟩ := key_of_mem_merge hc
      rw [e]
      exact (List.mem_append.1 hd).elim (hL d) (hM d)
    induction m with
    | nil => exact List.pairwise_cons.2 ⟨before beforeL (by simp), ih tailL hm⟩
    | cons b m ihm =>
      obtain ⟨beforeM, tailM⟩ := List.pairwise_cons.1 hm
      rw [merge_cons_cons]
      split
      · rename_i lt
        refine List.pairwise_cons.2 ⟨before beforeL fun c hc => ?_, ih tailL hm⟩
        rcases List.mem_cons.1 hc with rfl | hc
        · exact lt
        · exact Std.TransCmp.lt_trans lt (beforeM c hc)
      · rename_i eq
        refine List.pairwise_cons.2 ⟨?_, ih tailL tailM⟩
        simp only [key_join]
        exact before beforeL fun c hc => Std.TransCmp.lt_of_eq_of_lt eq (beforeM c hc)
      · rename_i gt
        refine List.pairwise_cons.2 ⟨fun c hc => ?_, ihm tailM⟩
        obtain ⟨d, hd, e⟩ := key_of_mem_merge hc
        rw [e]
        have lt := Std.OrientedCmp.lt_of_gt gt
        rcases List.mem_append.1 hd with hd | hd
        · rcases List.mem_cons.1 hd with rfl | hd
          · exact lt
          · exact Std.TransCmp.lt_trans lt (beforeL d hd)
        · exact beforeM d hd

/-- Two keyed lists in one, the entries of the first coming first. -/
protected def append (xs ys : KeyedList α) : KeyedList α :=
  ⟨merge xs.entries ys.entries, ascending_merge xs.ascending ys.ascending⟩

instance : Append (KeyedList α) := ⟨KeyedList.append⟩

/-- The keyed list of one entry. -/
def single (a : α) : KeyedList α := ⟨[a], List.pairwise_singleton _ a⟩

/-- Joins the first keyed list with the second, the third with the fourth, and so on. -/
def joinPairs : List (KeyedList α) → List (KeyedList α)
  | xs :: ys :: rest => (xs ++ ys) :: joinPairs rest
  | rest => rest

/-- All keyed lists in one, the entries of earlier ones coming first; at first pairs are joined. -/
def joinAll : Nat → List (KeyedList α) → KeyedList α
  | 0, parts => parts.foldr (· ++ ·) ∅
  | rounds + 1, parts => joinAll rounds (joinPairs parts)

/-- The keyed list of entries given in the order in which they come. -/
def ofList (as : List α) : KeyedList α := joinAll (as.length.log2 + 1) (as.map single)

end KeyedList

end TermProximity
