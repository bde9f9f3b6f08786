import TermProximity.KeyedList

/-!
# Keyed lists — what is found under a key after each operation

* `find?_append`: putting in front joins what the two sides hold under a key;
* `find?_ofList_of_first`: a list of entries whose first one stays holds its first entry of each key;
* `ext_find?`: two keyed lists that hold the same under every key are equal;
* `append_assoc`: it makes no difference which of three keyed lists are put together first;
* `append_eq_self`: entries that what stands in front takes in unchanged add nothing;
* `append_comm_iff`: two keyed lists can change places when their entries of each key can;
* `mem_keys_ofList`: a list of entries has the keys of all of them.
-/

namespace TermProximity.KeyedList

open Entry

variable {α κ : Type} [Ord κ] [Entry α κ]

@[simp] theorem findIn?_nil (k : κ) : findIn? ([] : List α) k = none := rfl

theorem findIn?_cons (b : α) (l : List α) (k : κ) :
    findIn? (b :: l) k = if compare k (key b) = .eq then some b else findIn? l k := by
  by_cases h : compare k (key b) = .eq <;> simp [findIn?, h]

@[simp] theorem find?_empty (k : κ) : (∅ : KeyedList α).find? k = none := rfl

/-- Below the least key nothing is found. -/
theorem findIn?_eq_none_of_lt {l : List α} {k : κ} (h : ∀ b ∈ l, compare k (key b) = .lt) :
    findIn? l k = none := by
  simp only [findIn?, List.find?_eq_none]
  intro b hb
  simp [h b hb]

/-- What is found is an entry of the list, and has a key equal to the one asked for. -/
theorem mem_of_findIn? {l : List α} {k : κ} {a : α} (h : findIn? l k = some a) :
    a ∈ l ∧ compare k (key a) = .eq :=
  ⟨List.mem_of_find?_eq_some h, by simpa using List.find?_some h⟩

variable [Std.TransOrd κ]

theorem findIn?_merge {l m : List α}
    (hl : l.Pairwise fun a b => compare (key a) (key b) = .lt)
    (hm : m.Pairwise fun a b => compare (key a) (key b) = .lt) (k : κ) :
    findIn? (merge l m) k = Option.merge join (findIn? l k) (findIn? m k) := by
  induction l generalizing m with
  | nil => simp
  | cons a l ih =>
    obtain ⟨beforeL, tailL⟩ := List.pairwise_cons.1 hl
    induction m with
    | nil =>
      rw [merge_cons_nil, findIn?_cons, findIn?_cons, ih tailL hm]
      split <;> simp
    | cons b m ihm =>
      obtain ⟨beforeM, tailM⟩ := List.pairwise_cons.1 hm
      have noneL (h : compare k (key a) = .eq) : findIn? l k = none :=
        findIn?_eq_none_of_lt fun c hc => Std.TransCmp.lt_of_eq_of_lt h (beforeL c hc)
      have noneM (h : compare k (key b) = .eq) : findIn? m k = none :=
        findIn?_eq_none_of_lt fun c hc => Std.TransCmp.lt_of_eq_of_lt h (beforeM c hc)
      rw [merge_cons_cons]
      split
      · rename_i lt
        rw [findIn?_cons, findIn?_cons (b := a), ih tailL hm]
        by_cases ka : compare k (key a) = .eq
        · have none : findIn? (b :: m) k = none := findIn?_eq_none_of_lt fun c hc => by
            refine Std.TransCmp.lt_of_eq_of_lt ka ?_
            rcases List.mem_cons.1 hc with rfl | hc
            · exact lt
            · exact Std.TransCmp.lt_trans lt (beforeM c hc)
          simp [ka, none]
        · simp [ka]
      · rename_i eq
        rw [findIn?_cons, findIn?_cons, findIn?_cons, key_join, ih tailL tailM]
        by_cases ka : compare k (key a) = .eq
        · simp [ka, Std.TransCmp.eq_trans ka eq]
        · have kb : compare k (key b) ≠ .eq := fun kb =>
            ka (Std.TransCmp.eq_trans kb (Std.OrientedCmp.eq_symm eq))
          simp [ka, kb]
      · rename_i gt
        rw [findIn?_cons, ihm tailM, findIn?_cons (b := b)]
        by_cases kb : compare k (key b) = .eq
        · have lt {c : α} (h : compare (key b) (key c) = .lt) : compare k (key c) = .lt :=
            Std.TransCmp.lt_of_eq_of_lt kb h
          have none : findIn? (a :: l) k = none := findIn?_eq_none_of_lt fun c hc => by
            rcases List.mem_cons.1 hc with rfl | hc
            · exact lt (Std.OrientedCmp.lt_of_gt gt)
            · exact lt (Std.TransCmp.lt_trans (Std.OrientedCmp.lt_of_gt gt) (beforeL c hc))
          simp [kb, none]
        · simp [kb]

/-- Under a key, two keyed lists in one hold the join of what each of them holds. -/
theorem find?_append (xs ys : KeyedList α) (k : κ) :
    (xs ++ ys).find? k = Option.merge join (xs.find? k) (ys.find? k) :=
  findIn?_merge xs.ascending ys.ascending k

omit [Std.TransOrd κ] in
theorem find?_single (a : α) (k : κ) :
    (single a).find? k = if compare k (key a) = .eq then some a else none :=
  findIn?_cons a [] k

/-- Every entry of a keyed list is found under its key. -/
theorem find?_key {xs : KeyedList α} {a : α} (h : a ∈ xs.entries) :
    xs.find? (key a) = some a := by
  obtain ⟨l, asc⟩ := xs
  simp only [find?] at *
  induction l with
  | nil => cases h
  | cons b rest ih =>
    obtain ⟨before, tail⟩ := List.pairwise_cons.1 asc
    rw [findIn?_cons]
    rcases List.mem_cons.1 h with rfl | h
    · simp
    · have lt := before a h
      rw [if_neg fun e => by rw [Std.OrientedCmp.eq_symm e] at lt; cases lt]
      exact ih tail h

theorem entries_eq_of_findIn? {l m : List α}
    (hl : l.Pairwise fun a b => compare (key a) (key b) = .lt)
    (hm : m.Pairwise fun a b => compare (key a) (key b) = .lt)
    (h : ∀ k, findIn? l k = findIn? m k) : l = m := by
  induction l generalizing m with
  | nil =>
    cases m with
    | nil => rfl
    | cons b rest => have := h (key b); simp [findIn?_cons] at this
  | cons a rest ih =>
    cases m with
    | nil => have := h (key a); simp [findIn?_cons] at this
    | cons b rest' =>
      obtain ⟨beforeA, tailA⟩ := List.pairwise_cons.1 hl
      obtain ⟨beforeB, tailB⟩ := List.pairwise_cons.1 hm
      have ha := h (key a)
      have hb := h (key b)
      rw [findIn?_cons, findIn?_cons, if_pos Std.ReflCmp.compare_self] at ha
      rw [findIn?_cons, findIn?_cons, if_pos (Std.ReflCmp.compare_self (a := key b))] at hb
      -- The two first keys are equal: the smaller one could not be found on the other side.
      have ab : compare (key a) (key b) = .eq := by
        cases e : compare (key a) (key b) with
        | eq => rfl
        | lt =>
          rw [if_neg (by simp [e]), findIn?_eq_none_of_lt fun c hc =>
            Std.TransCmp.lt_trans e (beforeB c hc)] at ha
          cases ha
        | gt =>
          have lt := Std.OrientedCmp.lt_of_gt e
          rw [if_neg (by simp [lt]), findIn?_eq_none_of_lt fun c hc =>
            Std.TransCmp.lt_trans lt (beforeA c hc)] at hb
          cases hb
      rw [if_pos ab] at ha
      cases ha
      refine congrArg _ (ih tailA tailB fun k => ?_)
      by_cases ka : compare k (key a) = .eq
      · rw [findIn?_eq_none_of_lt fun c hc => Std.TransCmp.lt_of_eq_of_lt ka (beforeA c hc),
          findIn?_eq_none_of_lt fun c hc => Std.TransCmp.lt_of_eq_of_lt ka (beforeB c hc)]
      · have := h k
        rwa [findIn?_cons, findIn?_cons, if_neg ka, if_neg ka] at this

/-- Two keyed lists that hold the same under every key are equal. -/
theorem ext_find? {xs ys : KeyedList α} (h : ∀ k, xs.find? k = ys.find? k) : xs = ys :=
  ext_entries (entries_eq_of_findIn? xs.ascending ys.ascending h)

@[simp] theorem append_empty (xs : KeyedList α) : xs ++ ∅ = xs :=
  ext_find? fun k => by simp [find?_append]

@[simp] theorem empty_append (xs : KeyedList α) : ∅ ++ xs = xs :=
  ext_find? fun k => by simp [find?_append]

theorem append_assoc (xs ys zs : KeyedList α) : xs ++ ys ++ zs = xs ++ (ys ++ zs) :=
  ext_find? fun k => by
    simp only [find?_append]
    cases xs.find? k <;> cases ys.find? k <;> cases zs.find? k <;> simp [join_assoc]

omit [Std.TransOrd κ] in
theorem merge_singles {a b : α} (h : compare (key a) (key b) = .eq) :
    merge [a] [b] = [join a b] := by
  rw [merge_cons_cons, h]; rfl

theorem single_append_single {a b : α} (h : compare (key a) (key b) = .eq) :
    single a ++ single b = single (join a b) :=
  ext_entries (merge_singles h)

theorem foldr_joinPairs (parts : List (KeyedList α)) :
    (joinPairs parts).foldr (· ++ ·) ∅ = parts.foldr (· ++ ·) ∅ := by
  fun_induction joinPairs parts with
  | case1 xs ys rest ih => simp [ih, append_assoc]
  | case2 => rfl

/-- In how many rounds pairs are joined makes no difference. -/
theorem joinAll_eq_foldr (rounds : Nat) (parts : List (KeyedList α)) :
    joinAll rounds parts = parts.foldr (· ++ ·) ∅ := by
  induction rounds generalizing parts with
  | zero => rfl
  | succ rounds ih => rw [joinAll, ih, foldr_joinPairs]

@[simp] theorem ofList_nil : ofList ([] : List α) = ∅ := rfl

/-- The first entry of a list stands in front of all others. -/
@[simp] theorem ofList_cons (a : α) (as : List α) : ofList (a :: as) = single a ++ ofList as := by
  simp [ofList, joinAll_eq_foldr]

@[simp] theorem ofList_singleton (a : α) : ofList [a] = single a := append_empty (single a)

/-- Where the first entry of a key stays, a list of entries holds its first entry of each key. -/
theorem find?_ofList_of_first (first : ∀ a b : α, join a b = a) (as : List α) (k : κ) :
    (ofList as).find? k = as.find? fun a => compare k (key a) == .eq := by
  induction as with
  | nil => rfl
  | cons a as ih =>
    rw [ofList_cons, find?_append, find?_single, ih]
    by_cases ka : compare k (key a) = .eq
    · rw [if_pos ka, List.find?_cons_of_pos (by simp [ka])]
      cases as.find? fun a => compare k (key a) == .eq <;> simp [first]
    · rw [if_neg ka, List.find?_cons_of_neg (by simp [ka]), Option.merge_none_left]

theorem ofList_append (as bs : List α) : ofList (as ++ bs) = ofList as ++ ofList bs := by
  induction as with
  | nil => simp
  | cons a as ih => rw [List.cons_append, ofList_cons, ofList_cons, ih, append_assoc]

/-- Entries that join into those of their keys without a change add nothing. -/
theorem append_eq_self {xs ys : KeyedList α}
    (taken : ∀ k b, ys.find? k = some b → ∃ a, xs.find? k = some a ∧ join a b = a) :
    xs ++ ys = xs :=
  ext_find? fun k => by
    rw [find?_append]
    cases found : ys.find? k with
    | none => rw [Option.merge_none_right]
    | some b =>
      obtain ⟨a, here, same⟩ := taken k b found
      rw [here, Option.merge_some_some, same]

theorem append_self (idem : ∀ a : α, join a a = a) (xs : KeyedList α) : xs ++ xs = xs :=
  append_eq_self fun _ a found => ⟨a, found, idem a⟩

/-- Two keyed lists can change places just when their entries of each key can. -/
theorem append_comm_iff {xs ys : KeyedList α} :
    xs ++ ys = ys ++ xs ↔
      ∀ k a b, xs.find? k = some a → ys.find? k = some b → join a b = join b a := by
  constructor
  · intro same k a b here there
    have found := congrArg (·.find? k) same
    simpa [find?_append, here, there] using found
  · intro changes
    refine ext_find? fun k => ?_
    rw [find?_append, find?_append]
    cases here : xs.find? k with
    | none => simp
    | some a =>
      cases there : ys.find? k with
      | none => simp
      | some b => simp [changes k a b here there]

/-- A keyed list is that of its entries. -/
theorem ofList_entries (xs : KeyedList α) : ofList xs.entries = xs := by
  obtain ⟨l, ascending⟩ := xs
  induction l with
  | nil => rfl
  | cons a rest ih =>
    obtain ⟨before, tail⟩ := List.pairwise_cons.1 ascending
    rw [ofList_cons, ih tail]
    apply ext_entries
    cases rest with
    | nil => rfl
    | cons b rest =>
      show merge [a] (b :: rest) = a :: b :: rest
      rw [merge_cons_cons, before b List.mem_cons_self]
      rfl

/-- Entries put behind a keyed list one after another. -/
theorem foldl_append_single (xs : KeyedList α) (as : List α) :
    as.foldl (fun ys a => ys ++ single a) xs = xs ++ ofList as := by
  induction as generalizing xs with
  | nil => simp
  | cons a as ih => rw [List.foldl_cons, ih, ofList_cons, append_assoc]

/-! ### Keys -/

section Keys

variable [Std.LawfulEqOrd κ] {xs ys : KeyedList α} {k : κ}

theorem find?_eq_some_iff {a : α} : xs.find? k = some a ↔ a ∈ xs.entries ∧ key a = k := by
  constructor
  · intro found
    obtain ⟨mem, eq⟩ := mem_of_findIn? found
    exact ⟨mem, (Std.LawfulEqCmp.eq_of_compare eq).symm⟩
  · rintro ⟨mem, rfl⟩
    exact find?_key mem

omit [Std.TransOrd κ] in
theorem find?_single_eq [DecidableEq κ] (a : α) (k : κ) :
    (single a).find? k = if key a = k then some a else none := by
  have same : compare k (key a) = .eq ↔ key a = k := Std.compare_eq_iff_eq.trans eq_comm
  rw [find?_single]
  by_cases here : key a = k
  · rw [if_pos here, if_pos (same.2 here)]
  · rw [if_neg here, if_neg (mt same.1 here)]

/-- Two keyed lists of the same entries are equal. -/
theorem ext_mem (h : ∀ a, a ∈ xs.entries ↔ a ∈ ys.entries) : xs = ys :=
  ext_find? fun k => Option.ext fun a => by
    simp only [find?_eq_some_iff, h]

/-- The keys are those under which something is found. -/
theorem mem_keys_iff : k ∈ xs.keys ↔ (xs.find? k).isSome := by
  rw [keys, List.mem_map]
  constructor
  · rintro ⟨a, ha, rfl⟩
    rw [find?_key ha]
    rfl
  · intro h
    obtain ⟨a, found⟩ := Option.isSome_iff_exists.1 h
    obtain ⟨mem, eq⟩ := mem_of_findIn? found
    exact ⟨a, mem, (Std.LawfulEqCmp.eq_of_compare eq).symm⟩

theorem mem_keys_append : k ∈ (xs ++ ys).keys ↔ k ∈ xs.keys ∨ k ∈ ys.keys := by
  rw [mem_keys_iff, mem_keys_iff, mem_keys_iff, find?_append]
  cases xs.find? k <;> cases ys.find? k <;> simp

/-- A list of entries has all their keys. -/
theorem mem_keys_ofList {as : List α} : k ∈ (ofList as).keys ↔ k ∈ as.map key := by
  induction as with
  | nil => rfl
  | cons a rest ih =>
    have first : k ∈ (single a).keys ↔ k = key a := List.mem_singleton
    rw [ofList_cons, mem_keys_append, ih, first, List.map_cons, List.mem_cons]

end Keys

end TermProximity.KeyedList
