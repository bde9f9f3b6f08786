import TermProximity.Proofs.Evaluation.Adjacency

/-!
# Widths — how far the spans of a phrase reach

A chain goes forward, so the spans that are recorded for a phrase do.  The width of such a span is the
number of offsets from its first to its last one; a 32-bit number holds it for every span but the one
from the least offset to the largest.  Skips reach back from any offset to the least, so there are
phrases with that span.

* `Span.width?_eq_some_iff`, `Span.width?_eq_none_iff`: the width of a span that goes forward;
* `Lineup.Spans.first_le_last`: the spans of a lineup go forward;
* `Request.spans_go_forward`: what is recorded for a phrase, and how wide it is;
* `Request.evaluate_sampleReach`: a phrase whose span is too wide.
-/

namespace TermProximity

namespace Span

variable {s : Span}

/-- A span has as its width the number of its offsets. -/
theorem width?_eq_some_iff {w : UInt32} :
    s.width? = some w ↔ w.toNat = s.last.toNat - s.first.toNat + 1 := by
  have bound : w.toNat < 2 ^ 32 := w.toNat_lt
  unfold width? maxOffset
  dsimp only
  by_cases fits : s.last.toNat - s.first.toNat + 1 ≤ 0xffffffff
  · have same : (UInt32.ofNat (s.last.toNat - s.first.toNat + 1)).toNat =
        s.last.toNat - s.first.toNat + 1 := UInt32.toNat_ofNat_of_lt' (Nat.lt_succ_of_le fits)
    rw [if_pos fits, Option.some_inj, ← UInt32.toNat_inj, same, eq_comm]
  · rw [if_neg fits]
    simp only [reduceCtorEq, false_iff]
    omega

/-- The one span without a width is that of all offsets. -/
theorem width?_eq_none_iff :
    s.width? = none ↔ s.first.toNat = 0 ∧ s.last.toNat = maxOffset := by
  have bound : s.last.toNat < 2 ^ 32 := s.last.toNat_lt
  unfold width? maxOffset
  simp only [ite_eq_right_iff, reduceCtorEq, imp_false]
  omega

end Span

/-! ### Spans of chains -/

/-- The spans of a lineup go forward. -/
theorem Lineup.Spans.first_le_last {l : Lineup} {spans : List Span} (h : l.Spans spans) {s : Span}
    (mem : s ∈ spans) : s.first ≤ s.last := by
  obtain ⟨p, chain, isLeast, first_eq, last_eq⟩ := h.least s mem
  obtain ⟨q, ends, last_eq⟩ := Option.map_eq_some_iff.1 last_eq
  have between := isLeast.toPartialChain.offset_between isLeast.begins ends
  have reaches := (between p (isLeast.begins.subset List.mem_cons_self)).2
  rw [first_eq, ← last_eq, UInt32.le_iff_toNat_le]
  exact reaches

namespace Request

variable {r : Request} {settings : Settings} {postings : Postings} {zone : Zone.Id} {l : Lineup}

/-- What is found for terms in order: the spans of their lineup, or the first of them, if any. -/
theorem answerIn?_of_isOrdered (inOrder : r.arrangement.isOrdered = true)
    (resolved : Lineup.resolve? postings zone r.arrangement.limit? r.terms = some l) :
    r.answerIn? settings postings zone =
      let spans := if settings.everySpan then ChainSearch.spansOf l else (ChainSearch.spansOf l).take 1
      if spans = [] then none else some spans := by
  unfold answerIn?
  rw [resolved, spread?_of_isOrdered inOrder]
  dsimp only
  rw [(ChainSearch.search_spec settings.everySpan (ChainSearch.Memo.sound_empty l)).1]
  split
  · rename_i nothing
    rw [if_pos nothing]
  · rename_i something
    rw [if_neg something]

/-- The spans found for terms in order go forward. -/
theorem first_le_last_of_answerIn? (inOrder : r.arrangement.isOrdered = true) {spans : List Span}
    (found : r.answerIn? settings postings zone = some spans) : ∀ s ∈ spans, s.first ≤ s.last := by
  have answered : (r.answerIn? settings postings zone).isSome := by rw [found]; rfl
  obtain ⟨l, resolved, -⟩ := isSome_answerIn?_iff.1 answered
  have isSpans := ChainSearch.spans_spansOf (Lineup.orderly_of_resolve? resolved)
  rw [answerIn?_of_isOrdered inOrder resolved] at found
  obtain ⟨-, shown⟩ := Option.ite_none_left_eq_some.1 found
  intro s mem
  rw [← Option.some.inj shown] at mem
  refine isSpans.first_le_last ?_
  split at mem
  · exact mem
  · exact List.mem_of_mem_take mem

/--
What is recorded for a phrase are the spans of the zones that match.  They go forward, and the width of
each is the number of its offsets, unless these are all offsets there are.
-/
theorem spans_go_forward (settings : Settings) (document : DocumentIndex)
    (sensible : r.check = .ok ()) (inOrder : r.arrangement.isOrdered = true) :
    (r.evaluate settings document).2.spans =
      (if settings.recordSpans then
        document.spans.recordAll (r.answers settings document.postings) else document.spans) ∧
    ∀ zone spans, (zone, spans) ∈ r.answers settings document.postings → ∀ s ∈ spans,
      s.first ≤ s.last ∧
      (∀ w, s.width? = some w ↔ w.toNat = s.last.toNat - s.first.toNat + 1) ∧
      (s.width? = none ↔ s.first.toNat = 0 ∧ s.last.toNat = maxOffset) := by
  constructor
  · unfold evaluate
    rw [sensible]
    simp only [SpanRecord.foldl_recordEach]
  · intro zone spans answered s mem
    have found := (mem_answers.1 answered).2
    exact ⟨first_le_last_of_answerIn? inOrder found s mem, fun w => Span.width?_eq_some_iff,
      Span.width?_eq_none_iff⟩

/-- A document of two zones; in the first a term at the largest offset reaches back to the least. -/
def sampleReach : DocumentIndex := .after
  [.put "a" ⟨"BODY", true, "doc"⟩ [{ offset := 0 }],
    .put "b" ⟨"BODY", true, "doc"⟩ [{ offset := 0xffffffff, skips := 0xffffffff }],
    .put "a" ⟨"TITLE", true, "doc"⟩ [{ offset := 4 }],
    .put "b" ⟨"TITLE", true, "doc"⟩ [{ offset := 5 }]]

/-- Asks for the two terms in order. -/
def samplePair : Request := { arrangement := .phrase, terms := ["a", "b"] }

theorem answers_sampleReach : samplePair.answers .standard sampleReach.postings =
    [(⟨"BODY", true, "doc"⟩, [⟨0, 0xffffffff⟩]), (⟨"TITLE", true, "doc"⟩, [⟨4, 5⟩])] := by
  have body : samplePair.answerIn? .standard sampleReach.postings ⟨"BODY", "doc"⟩ =
      some [⟨0, 0xffffffff⟩] := by
    rw [answerIn?_of_isOrdered rfl rfl]
    with_unfolding_all rfl
  have title : samplePair.answerIn? .standard sampleReach.postings ⟨"TITLE", "doc"⟩ =
      some [⟨4, 5⟩] := by
    rw [answerIn?_of_isOrdered rfl rfl]
    with_unfolding_all rfl
  have candidates : samplePair.candidateZones .standard sampleReach.postings =
      [⟨"BODY", true, "doc"⟩, ⟨"TITLE", true, "doc"⟩] := rfl
  simp [answers, candidates, Zone.id, body, title]

/-- The span of two neighbours is two offsets wide. -/
theorem spans_go_forward_sample :
    samplePair.check = .ok () ∧ samplePair.arrangement.isOrdered = true ∧
      (samplePair.evaluate .standard sampleReach).2.spans =
        SpanRecord.recordAll ∅ (samplePair.answers .standard sampleReach.postings) ∧
      (⟨4, 5⟩ : Span).first ≤ (⟨4, 5⟩ : Span).last ∧ Span.width? ⟨4, 5⟩ = some 2 := by
  have sensible : samplePair.check = .ok () := rfl
  obtain ⟨recorded, forward⟩ := spans_go_forward .standard sampleReach sensible rfl
  have mem : ((⟨"TITLE", true, "doc"⟩, [⟨4, 5⟩]) : Zone × List Span) ∈
      samplePair.answers .standard sampleReach.postings := by
    rw [answers_sampleReach]
    exact List.mem_cons_of_mem _ List.mem_cons_self
  obtain ⟨le, wide, -⟩ := forward _ _ mem ⟨4, 5⟩ List.mem_cons_self
  exact ⟨sensible, rfl, recorded, le, (wide 2).2 rfl⟩

/-- The span of a term and one that reaches back over all offsets has no width. -/
theorem evaluate_sampleReach :
    samplePair.check = .ok () ∧ samplePair.arrangement.isOrdered = true ∧
      ⟨0, 0xffffffff⟩ ∈ (samplePair.evaluate .standard sampleReach).2.spans.under "BODY" ∧
      Span.width? ⟨0, 0xffffffff⟩ = none := by
  have sensible : samplePair.check = .ok () := rfl
  refine ⟨sensible, rfl, ?_, rfl⟩
  rw [evaluate_eq .standard sampleReach sensible, SpanRecord.mem_under_append,
    Query.mem_under_record sensible, answers_sampleReach]
  exact .inr ⟨rfl, _, List.mem_cons_self, rfl, List.mem_cons_self⟩

end Request

end TermProximity
