import TermProximity.Proofs.Evaluation.Matching

/-!
# Relaxation — a request that asks for less loses no zone

A window may grow wider, and terms may be left out of it anywhere; of terms in order, a stretch may
be taken.  What was taken for the terms that remain can still be taken for them, whichever of the
terms comes first now; so where a filter goes by names, or by nothing, all zones that matched do.

* `Lineup.Binding.of_sublist`: some of the slots are bound by what they take among all of them;
* `Lineup.Window.exists_of_sublist`, `Lineup.Chain.exists_of_isInfix`: windows and chains that are left;
* `Request.evaluate_of_relaxesTo`: every zone that a request matches is matched by a relaxed one.
-/

namespace TermProximity

/-! ### Some of the slots -/

namespace Lineup

variable {l l' : Lineup} {chosen : List Position} {width width' : Nat}

/-- Some of the slots are bound by what they take among all of them. -/
theorem Binding.of_sublist (binding : l.Binding chosen) {pairs : List (Slot × Position)}
    (sub : pairs.Sublist (l.slots.zip chosen)) (slots : l'.slots = pairs.map Prod.fst) :
    l'.Binding (pairs.map Prod.snd) := by
  obtain ⟨-, mem, apart⟩ := binding_iff_zip.1 binding
  have zip : l'.slots.zip (pairs.map Prod.snd) = pairs := (List.zip_of_prod slots.symm rfl).symm
  rw [binding_iff_zip, zip, slots, List.length_map, List.length_map]
  exact ⟨rfl, fun x hx => mem x (sub.subset hx), apart.sublist sub⟩

theorem Window.mono (window : l.Window width chosen) (le : width ≤ width') :
    l.Window width' chosen where
  toBinding := window.toBinding
  close p hp q hq := Nat.le_trans (window.close p hp q hq) (Nat.add_le_add_left le _)

/-- A window that holds all slots holds some of them. -/
theorem Window.exists_of_sublist (window : l.Window width chosen)
    (sub : l'.slots.Sublist l.slots) : ∃ chosen', l'.Window width chosen' := by
  rw [← window.map_fst_zip, List.sublist_map_iff] at sub
  obtain ⟨pairs, sub, slots⟩ := sub
  have taken : pairs.map Prod.snd ⊆ chosen := by
    rw [← window.map_snd_zip]
    exact (sub.map Prod.snd).subset
  refine ⟨_, window.toBinding.of_sublist sub slots, fun p hp q hq => ?_⟩
  exact window.close p (taken hp) q (taken hq)

/-- A chain through all slots goes through every stretch of them. -/
theorem Chain.exists_of_isInfix (chain : l.Chain chosen) (part : l'.slots <:+: l.slots) :
    ∃ chosen', l'.Chain chosen' := by
  rw [← chain.map_fst_zip, List.infix_map_iff] at part
  obtain ⟨pairs, part, slots⟩ := part
  have taken : pairs.map Prod.snd <:+: chosen := by
    rw [← chain.map_snd_zip]
    exact part.map Prod.snd
  have binding := chain.toBinding.of_sublist part.sublist slots
  have hops := List.IsChain.infix (Position.hops_iff_isChain.1 chain.hops) taken
  exact ⟨_, ⟨binding.toPartialBinding, Position.hops_iff_isChain.2 hops⟩, binding.length_eq⟩

end Lineup

/-! ### Relaxed requests -/

/-- Whether a request comes of another one by asking for less. -/
inductive Request.RelaxesTo (r : Request) : Request → Prop
  /-- In a window that is no narrower. -/
  | wider {distance distance' : UInt32} (window : r.arrangement = .within distance)
    (le : distance ≤ distance') : r.RelaxesTo { r with arrangement := .within distance' }
  /-- With terms left out of a window, so that two remain. -/
  | fewer {distance : UInt32} {terms : List String} (window : r.arrangement = .within distance)
    (sub : terms.Sublist r.terms) (two : 2 ≤ terms.length) : r.RelaxesTo { r with terms }
  /-- For a stretch of terms in order, of two at least. -/
  | stretch {terms : List String} (inOrder : r.arrangement.isOrdered = true)
    (part : terms <:+: r.terms) (two : 2 ≤ terms.length) : r.RelaxesTo { r with terms }

namespace Request

variable {r r' : Request} {settings : Settings} {postings : Postings} {zone : Zone.Id}

theorem spread?_of_within {distance : UInt32} (window : r.arrangement = .within distance) :
    r.spread? = some distance := by rw [spread?, window]

theorem RelaxesTo.zones_eq (relaxed : r.RelaxesTo r') : r'.zones = r.zones := by
  cases relaxed <;> rfl

/-- A request that is relaxed makes as much sense. -/
theorem RelaxesTo.check (relaxed : r.RelaxesTo r') (sensible : r.check = .ok ()) :
    r'.check = .ok () := by
  cases relaxed with
  | @wider distance distance' window le =>
    have number := (check_eq_ok_iff.1 sensible).1
    have positive : distance ≠ 0 := by
      rintro rfl
      rw [window] at number
      contradiction
    have positive' : distance' ≠ 0 := by
      rintro rfl
      exact positive (UInt32.le_antisymm le UInt32.zero_le)
    exact check_of_checkNumber sensible (if_neg positive')
  | fewer window sub two => exact check_of_subset sensible sub.subset two
  | stretch inOrder part two => exact check_of_subset sensible part.subset two

/-- A zone that answers a request answers a relaxed one. -/
theorem RelaxesTo.isSome_answerIn? (relaxed : r.RelaxesTo r') (sensible : r.check = .ok ())
    (answered : (r.answerIn? settings postings zone).isSome) :
    (r'.answerIn? settings postings zone).isSome := by
  have some_term := terms_ne_nil_of_check sensible
  have some_term' := terms_ne_nil_of_check (relaxed.check sensible)
  cases relaxed with
  | wider window le =>
    rw [isSome_answerIn?_iff_window some_term (spread?_of_within window)] at answered
    rw [isSome_answerIn?_iff_window some_term' rfl, lineupIn_of_limit? (by rw [window]; rfl)]
    obtain ⟨chosen, isWindow⟩ := answered
    exact ⟨chosen, isWindow.mono (UInt32.le_iff_toNat_le.1 le)⟩
  | fewer window sub two =>
    rw [isSome_answerIn?_iff_window some_term (spread?_of_within window)] at answered
    rw [isSome_answerIn?_iff_window some_term' (spread?_of_within window)]
    obtain ⟨chosen, isWindow⟩ := answered
    exact isWindow.exists_of_sublist (sub.map _)
  | stretch inOrder part two =>
    rw [isSome_answerIn?_iff_chain some_term inOrder] at answered
    rw [isSome_answerIn?_iff_chain some_term' inOrder]
    obtain ⟨chain, isChain⟩ := answered
    exact isChain.exists_of_isInfix (part.map _)

/--
A request that asks for less matches every zone that the request matched, where the filter goes by
names or the settings ask for no marks.
-/
theorem evaluate_of_relaxesTo (settings : Settings) (document : DocumentIndex)
    (sensible : r.check = .ok ())
    (byName : r.zones.isAll = false ∨ settings.expansionZonesOnly = false)
    (relaxed : r.RelaxesTo r') :
    ∃ outcome outcome', r.Reports settings document outcome ∧
      r'.Reports settings document outcome' ∧
      (∀ zone, r.Matches settings document.postings zone →
        r'.Matches settings document.postings zone) ∧
      ∀ name ∈ outcome.matched.entries, name ∈ outcome'.matched.entries := by
  have sensible' := relaxed.check sensible
  have kept (zone : Zone.Id) (isMatch : r.Matches settings document.postings zone) :
      r'.Matches settings document.postings zone := by
    have answered := relaxed.isSome_answerIn? sensible isMatch.answered
    exact ⟨considers_of_byName byName relaxed.zones_eq (terms_ne_nil_of_check sensible')
      isMatch.considered answered, answered⟩
  have reports := reports_outcome settings document sensible
  have reports' := reports_outcome settings document sensible'
  refine ⟨_, _, reports, reports', kept, fun name matched => ?_⟩
  obtain ⟨zone, isMatch, named⟩ := (reports.matched name).1 matched
  exact (reports'.matched name).2 ⟨zone, kept zone isMatch, named⟩

/-- Of a phrase of three terms, the last two: now another term comes first. -/
theorem evaluate_of_relaxesTo_sample :
    let r : Request := { sample with zones := .named "BODY" }
    let r' : Request := { r with terms := ["b", "a"] }
    r.check = .ok () ∧ r.zones.isAll = false ∧ r.RelaxesTo r' ∧
      ∃ outcome outcome', r.Reports .standard { postings := samplePostings } outcome ∧
        r'.Reports .standard { postings := samplePostings } outcome' ∧
        (∀ zone, r.Matches .standard samplePostings zone → r'.Matches .standard samplePostings zone) ∧
        ∀ name ∈ outcome.matched.entries, name ∈ outcome'.matched.entries := by
  intro r r'
  have sensible : r.check = .ok () := by decide
  have relaxed : r.RelaxesTo r' := .stretch rfl ⟨["a"], [], rfl⟩ (by decide)
  exact ⟨sensible, rfl, relaxed,
    evaluate_of_relaxesTo .standard { postings := samplePostings } sensible (.inl rfl) relaxed⟩

end Request

end TermProximity
