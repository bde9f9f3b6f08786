/-!
# Code point ranges — sets of characters given by ascending closed ranges

A character class of a standard is a list of disjoint closed ranges of code points in ascending
order; `Ranges.contains` stops at the first range that lies wholly above the character.
-/

namespace TermProximity.Text

/-- A set of code points: disjoint closed ranges in ascending order. -/
abbrev Ranges := List (Nat × Nat)

/-- Whether a code point lies in one of the ranges. -/
def Ranges.contains : Ranges → Nat → Bool
  | [], _ => false
  | (first, last) :: rest, code =>
    if code < first then false else code ≤ last || Ranges.contains rest code

theorem Ranges.contains_cons_of_le {first last : Nat} {rest : Ranges} {code : Nat}
    (above : first ≤ code) (below : code ≤ last) :
    Ranges.contains ((first, last) :: rest) code = true := by
  simp [contains, Nat.not_lt.2 above, below]

theorem Ranges.contains_cons_of_contains {first last : Nat} {rest : Ranges} {code : Nat}
    (above : first ≤ code) (later : rest.contains code = true) :
    Ranges.contains ((first, last) :: rest) code = true := by
  simp [contains, Nat.not_lt.2 above, later]

/-- What `Ranges.contains` finds is in some range of the list. -/
theorem Ranges.exists_of_contains {ranges : Ranges} {code : Nat}
    (h : ranges.contains code = true) : ∃ r ∈ ranges, r.1 ≤ code ∧ code ≤ r.2 := by
  induction ranges with
  | nil => simp [contains] at h
  | cons r rest ih =>
    obtain ⟨first, last⟩ := r
    simp only [contains] at h
    split at h
    · simp at h
    · rename_i above
      simp only [Bool.or_eq_true, decide_eq_true_eq] at h
      rcases h with here | later
      · exact ⟨_, List.mem_cons_self, by simp only; omega, here⟩
      · obtain ⟨r, hr, hb⟩ := ih later
        exact ⟨r, List.mem_cons_of_mem _ hr, hb⟩

end TermProximity.Text
