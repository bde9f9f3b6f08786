/-!
# Bisection — the first place at which a test holds

For a test that holds on from some place, halving what is left finds that place in as many steps as
the number of places has binary digits.

* `not_test_of_lt_firstPlace`, `test_of_firstPlace_le`: the test fails before the place that is
  found, and holds from it on.
-/

namespace TermProximity

/-- Looks for the place among `count` places from `first` on, in at most so many steps. -/
def bisect (test : Nat → Bool) : Nat → Nat → Nat → Nat
  | 0, first, _ => first
  | steps + 1, first, count =>
    if count = 0 then first
    else
      let half := count / 2
      if test (first + half) then bisect test steps first half
      else bisect test steps (first + half + 1) (count - half - 1)

/-- The first of the places below `count` at which a test holds; `count` if it holds at none. -/
def firstPlace (test : Nat → Bool) (count : Nat) : Nat := bisect test count 0 count

theorem bisect_bounds (test : Nat → Bool) (steps first count : Nat) :
    first ≤ bisect test steps first count ∧ bisect test steps first count ≤ first + count := by
  fun_induction bisect test steps first count with
  | case1 => omega
  | case2 => omega
  | case3 steps first count _ half _ ih => omega
  | case4 steps first count _ half _ ih => omega

theorem firstPlace_le (test : Nat → Bool) (count : Nat) : firstPlace test count ≤ count := by
  have := bisect_bounds test count 0 count
  rw [firstPlace]
  omega

variable {test : Nat → Bool} {count : Nat}

/-- A test that holds on from some place fails below what bisection finds, and holds from there. -/
theorem test_eq_bisect_le {steps first : Nat} (enough : count ≤ steps)
    (up : ∀ i j, i ≤ j → test i = true → test j = true) {i : Nat} (above : first ≤ i)
    (below : i < first + count) : test i = decide (bisect test steps first count ≤ i) := by
  fun_induction bisect test steps first count with
  | case1 => omega
  | case2 => omega
  | case3 steps first count _ half holds ih =>
    by_cases low : i < first + half
    · exact ih (by omega) above low
    · have := bisect_bounds test steps first half
      rw [up _ _ (Nat.le_of_not_lt low) holds, eq_comm, decide_eq_true_iff]
      omega
  | case4 steps first count _ half fails ih =>
    by_cases low : i ≤ first + half
    · have := bisect_bounds test steps (first + half + 1) (count - half - 1)
      have before : test i = false := Bool.eq_false_iff.2 fun holds => fails (up _ _ low holds)
      rw [before, eq_comm, decide_eq_false_iff_not]
      omega
    · exact ih (by omega) (by omega) (by omega)

theorem test_of_firstPlace_le (up : ∀ i j, i ≤ j → test i = true → test j = true) {i : Nat}
    (above : firstPlace test count ≤ i) (below : i < count) : test i = true := by
  rw [test_eq_bisect_le (Nat.le_refl count) up (Nat.zero_le i) (by omega), decide_eq_true_iff]
  exact above

theorem not_test_of_lt_firstPlace (up : ∀ i j, i ≤ j → test i = true → test j = true) {i : Nat}
    (below : i < firstPlace test count) : test i = false := by
  have := firstPlace_le test count
  rw [test_eq_bisect_le (Nat.le_refl count) up (Nat.zero_le i) (by omega), decide_eq_false_iff_not]
  exact Nat.not_le_of_lt below

end TermProximity
