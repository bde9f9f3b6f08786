import TermProximity.Proofs.Evaluation.Matching

/-!
# Permutations — terms in any order are found in any order

A window asks for positions of every term, as many as the term has slots, and in none of this does
the order of the slots play a part.  The zones that come into question are those of the first term;
but a zone that answers is a zone of every term, so where a filter goes by names alone, or by
nothing, the names that match are the same whichever term comes first.

* `Lineup.anchor_scan_eq_of_perm`: a scan finds the same in any order of the slots;
* `Request.evaluate_of_perm`: the same names match in any order of the terms.
-/

namespace TermProximity

/-! ### Windows -/

namespace Lineup

variable {l l' : Lineup}

theorem uses_eq_of_perm (perm : l.slots.Perm l'.slots) (term : String) :
    l.uses term = l'.uses term := perm.countP_eq _

theorem Orderly.of_perm (ordered : l.Orderly) (perm : l.slots.Perm l'.slots) : l'.Orderly where
  ascending s hs := ordered.ascending s (perm.mem_iff.2 hs)
  same s hs t ht := ordered.same s (perm.mem_iff.2 hs) t (perm.mem_iff.2 ht)

theorem beginsWindow_iff_of_perm (ordered : l.Orderly) (perm : l.slots.Perm l'.slots)
    {width anchor : Nat} : l.BeginsWindow width anchor ↔ l'.BeginsWindow width anchor := by
  rw [beginsWindow_iff ordered, beginsWindow_iff (ordered.of_perm perm)]
  simp only [perm.mem_iff, uses_eq_of_perm perm]

/-- A scan finds the same in any order of the slots. -/
theorem anchor_scan_eq_of_perm (ordered : l.Orderly) (slots : l.slots ≠ [])
    (perm : l.slots.Perm l'.slots) (width : UInt32) :
    (l.scan width).anchor = (l'.scan width).anchor := by
  have slots' : l'.slots ≠ [] := fun none_left => slots (none_left ▸ perm).eq_nil
  refine Option.ext fun anchor => ?_
  rw [anchor_scan_eq_some_iff ordered slots,
    anchor_scan_eq_some_iff (ordered.of_perm perm) slots']
  simp only [beginsWindow_iff_of_perm ordered perm]

/-- Terms that are resolved are in any order, to the same slots in that order. -/
theorem exists_resolve?_of_perm {postings : Postings} {zone : Zone.Id} {limit : Option Weight}
    {terms terms' : List String} (perm : terms.Perm terms')
    (resolved : resolve? postings zone limit terms = some l) :
    ∃ l', resolve? postings zone limit terms' = some l' ∧ l.slots.Perm l'.slots := by
  obtain ⟨some_usable, rfl⟩ := resolve?_eq_some_iff.1 resolved
  refine ⟨_, resolve?_eq_some_iff.2 ⟨fun term mem => ?_, rfl⟩, perm.map _⟩
  exact some_usable term (perm.mem_iff.2 mem)

end Lineup

/-! ### Requests -/

namespace Request

variable {r : Request} {settings : Settings} {postings : Postings} {terms : List String}

theorem check_of_perm (perm : r.terms.Perm terms) (sensible : r.check = .ok ()) :
    { r with terms }.check = .ok () :=
  check_of_subset sensible perm.symm.subset (perm.length_eq ▸ two_le_length_of_check sensible)

theorem spread?_of_perm (perm : r.terms.Perm terms) : { r with terms }.spread? = r.spread? := by
  unfold spread?
  rw [perm.length_eq]

/-- A zone that answers for terms in any order does so in every order of them. -/
theorem isSome_answerIn?_of_perm (unordered : r.arrangement.isOrdered = false)
    (some_term : r.terms ≠ []) (perm : r.terms.Perm terms) {zone : Zone.Id}
    (answered : (r.answerIn? settings postings zone).isSome) :
    ({ r with terms }.answerIn? settings postings zone).isSome := by
  obtain ⟨width, spread⟩ :=
    Option.isSome_iff_exists.1 (isSome_spread?_of_not_isOrdered unordered)
  obtain ⟨l, resolved, finds⟩ := isSome_answerIn?_iff.1 answered
  obtain ⟨l', resolved', slots_perm⟩ := Lineup.exists_resolve?_of_perm perm resolved
  have spread' : { r with terms }.spread? = some width := (spread?_of_perm perm).trans spread
  refine isSome_answerIn?_iff.2 ⟨l', resolved', (finds_iff_of_spread? spread').2 ?_⟩
  rw [← Lineup.anchor_scan_eq_of_perm (Lineup.orderly_of_resolve? resolved)
    (Lineup.slots_ne_nil_of_resolve? some_term resolved) slots_perm]
  exact (finds_iff_of_spread? spread).1 finds

/-- A name that matches for terms in any order does so in every order of them. -/
theorem mem_matched_outcome_of_perm (unordered : r.arrangement.isOrdered = false)
    (byName : r.zones.isAll = false ∨ settings.expansionZonesOnly = false)
    (some_term : r.terms ≠ []) (perm : r.terms.Perm terms) {name : String}
    (matched : name ∈ (r.outcome settings postings).matched.entries) :
    name ∈ ({ r with terms }.outcome settings postings).matched.entries := by
  rw [mem_matched_outcome_iff_matches] at matched ⊢
  obtain ⟨zone, ⟨considered, answered⟩, named⟩ := matched
  have answered' := isSome_answerIn?_of_perm unordered some_term perm answered
  have some_term' : terms ≠ [] := fun none_left => some_term (none_left ▸ perm).eq_nil
  exact ⟨zone, ⟨considers_of_byName byName rfl some_term' considered answered', answered'⟩, named⟩

/--
In whatever order the terms are given that may stand in any order, the same names match, where the
filter goes by names or the settings ask for no marks.
-/
theorem evaluate_of_perm (settings : Settings) (document : DocumentIndex)
    (sensible : r.check = .ok ()) (unordered : r.arrangement.isOrdered = false)
    (byName : r.zones.isAll = false ∨ settings.expansionZonesOnly = false)
    (perm : r.terms.Perm terms) :
    ∃ outcome outcome', (r.evaluate settings document).1 = .ok outcome ∧
      ({ r with terms }.evaluate settings document).1 = .ok outcome' ∧
      outcome.matched = outcome'.matched := by
  have sensible' := check_of_perm perm sensible
  refine ⟨r.outcome settings document.postings, { r with terms }.outcome settings document.postings,
    ?_, ?_, KeyedList.ext_mem fun name => ⟨?_, ?_⟩⟩
  · rw [evaluate_eq settings document sensible]
  · rw [evaluate_eq settings document sensible']
  · exact mem_matched_outcome_of_perm unordered byName (terms_ne_nil_of_check sensible) perm
  · exact mem_matched_outcome_of_perm (r := { r with terms }) unordered byName
      (terms_ne_nil_of_check sensible') perm.symm

/-- Asks for three terms in a window of width one, two of them the same. -/
def sampleWindow : Request where
  arrangement := .within 1
  zones := .named "BODY"
  terms := ["a", "b", "a"]

theorem evaluate_of_perm_sample :
    sampleWindow.check = .ok () ∧ sampleWindow.arrangement.isOrdered = false ∧
      sampleWindow.zones.isAll = false ∧ sampleWindow.terms.Perm ["b", "a", "a"] ∧
      ∃ outcome outcome',
        (sampleWindow.evaluate .standard { postings := samplePostings }).1 = .ok outcome ∧
        ({ sampleWindow with terms := ["b", "a", "a"] }.evaluate .standard
          { postings := samplePostings }).1 = .ok outcome' ∧
        outcome.matched = outcome'.matched := by
  have sensible : sampleWindow.check = .ok () := by decide
  have perm : sampleWindow.terms.Perm ["b", "a", "a"] := by decide
  exact ⟨sensible, rfl, rfl, perm,
    evaluate_of_perm .standard { postings := samplePostings } sensible rfl (.inl rfl) perm⟩

end Request

end TermProximity
