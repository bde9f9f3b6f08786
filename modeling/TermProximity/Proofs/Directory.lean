import TermProximity.Directory

/-!
# Directories — what has been written is there

A file is put where no directory is.  So every path still leads through the directories that it led
through before, and the path of the file leads to its place as it did when the file was written.

* `find?_of_write?`: after writing, the path leads to a file of the bytes written;
* `readText?_of_write?`: a text that is written is the text read.
-/

namespace TermProximity.Directory

variable {d : Directory} {p q : Place} {n : Node}

theorem isAbove_eq_false (file : d.isDirectory p = false) : p.isAbove = false := by
  rw [← Bool.not_eq_true]
  intro above
  simp [isDirectory, node?, above] at file

theorem node?_put_self (inside : p.isAbove = false) : (d.put p n).node? p = some n := by
  simp [node?, put, inside]

theorem node?_put_of_ne (other : q ≠ p) : (d.put p n).node? q = d.node? q := by
  have kept : (d.without p).nodes.find? (·.1 == q) = d.nodes.find? (·.1 == q) := by
    simp only [without, List.find?_filter]
    congr 1
    funext m
    by_cases same : m.1 = q <;> simp [same, other]
  rw [node?, node?, put, List.find?_cons_of_neg (by simpa using other.symm), kept]

/-- A way through directories is not changed by what is put where no directory is. -/
theorem walk?_put (file : d.isDirectory p = false) {parts : List String} {place : Place}
    (way : d.walk? q parts = some place) : (d.put p n).walk? q parts = some place := by
  induction parts generalizing q with
  | nil => exact way
  | cons part rest ih =>
    rw [walk?] at way ⊢
    split at way
    · rename_i passes
      have other : q ≠ p := by
        rintro rfl
        exact absurd passes.1 (by simp [file])
      rw [isDirectory, node?_put_of_ne other, ← isDirectory, if_pos passes]
      exact ih way
    · contradiction

theorem place?_put (file : d.isDirectory p = false) {path : String} {place : Place}
    (way : d.place? path = some place) : (d.put p n).place? path = some place := by
  unfold place? at way ⊢
  split at way
  · contradiction
  · rename_i admitted
    rw [if_neg admitted]
    exact walk?_put file way

/-- After writing, the path leads to a file of the bytes written. -/
theorem find?_of_write? {written : Directory} {path : String} {bytes : ByteArray}
    (writes : d.write? path bytes = some written) : written.find? path = some (.file bytes) := by
  unfold write? at writes
  split at writes
  · contradiction
  · rename_i p way
    split at writes
    · contradiction
    · rename_i directory
      have file : d.isDirectory p = false := Bool.eq_false_iff.2 directory
      cases writes
      rw [find?, place?_put file way, Option.bind_some, node?_put_self (isAbove_eq_false file)]

/-- A text that is written is the text read. -/
theorem readText?_of_write? {written : Directory} {path text : String}
    (writes : d.write? path text.toUTF8 = some written) : written.readText? path = some text := by
  rw [readText?, find?_of_write? writes]
  exact dif_pos text.isValidUTF8

end TermProximity.Directory
