import TermProximity.Proofs.ChainSearch.Cost
import TermProximity.Proofs.ChainSearch.Least

/-!
# The attempts of a chain search — where every call of it stands

`complete` is called for one position after another, down the slots and back.  The search is told here
a second time with a log of these calls: each with its state, with the positions that the calls around
it have bound, and with the memo that it begins with (`Attempt`).  Without the log it is the search
itself (`inquireLogged_fst`).

* `Lineup.StandsAt`: the state that bound positions put a search in;
* `Lineup.Hopeless`: a state from which nothing leads to the end of a chain;
* `completeLogged_accounts`: the step, down one slot: every call stands where its state says, and only
  hopeless states of calls are noted;
* `Lineup.attempts_inquireLogged`: so it is with any inquiries, one after another.
-/

namespace TermProximity

open ChainSearch

namespace Lineup

/--
The state that bound positions put a search in: its slot is the last one bound, its index the place
of the position there, and its run begins with the first of the slots up to this one that are bound to
one offset.
-/
structure StandsAt (l : Lineup) (bound : List Position) (state : State) : Prop where
  slot_lt : state.slot < l.slots.length
  index_lt : state.index < l.slots[state.slot].positions.length
  length_eq : bound.length = state.slot + 1
  last : bound.getLast? = some l.slots[state.slot].positions[state.index]
  runStart_le : state.runStart ≤ state.slot
  within : ∀ (i : Nat) (p q : Position), state.runStart ≤ i → bound[i]? = some p →
    bound.getLast? = some q → p.offset = q.offset
  maximal : ∀ (i : Nat) (p q : Position), i + 1 = state.runStart → bound[i]? = some p →
    bound.getLast? = some q → p.offset ≠ q.offset

/-- No chain goes on from positions that put a search in the state. -/
def Hopeless (l : Lineup) (state : State) : Prop :=
  ∀ bound, l.PartialChain bound → l.StandsAt bound state → ∀ chain, l.Chain chain → ¬ bound <+: chain

variable {l : Lineup} {bound : List Position} {here : Position} {slot runStart : Nat} {s : Slot}

/-- The run of a state is the one in which the positions end. -/
theorem StandsAt.runsFrom {state : State} (stands : l.StandsAt bound state)
    (partly : l.PartialChain bound) (last : bound.getLast? = some here) :
    RunsFrom bound state.runStart here := by
  refine ⟨last, fun i b hb early => ?_, fun i b hb late => stands.within i b here late hb last⟩
  obtain ⟨k, hk⟩ : ∃ k, k + 1 = state.runStart := ⟨state.runStart - 1, by omega⟩
  have inside : k < bound.length := by
    have := stands.length_eq
    have := stands.runStart_le
    omega
  have at_k := List.getElem?_eq_getElem inside
  have apart := stands.maximal k _ here hk at_k last
  -- Offsets never fall, so before the run they are lower than in it.
  have ascending := partly.ascending
  have le_here : bound[k].offset.toNat ≤ here.offset.toNat := by
    obtain ⟨before, rfl⟩ := List.getLast?_eq_some_iff.1 last
    rcases List.mem_append.1 (List.getElem_mem inside) with mem | mem
    · exact (List.pairwise_append.1 ascending).2.2 _ mem here List.mem_cons_self
    · rw [List.mem_singleton.1 mem]
  have le_k : b.offset.toNat ≤ bound[k].offset.toNat := by
    obtain ⟨hi, rfl⟩ := List.getElem?_eq_some_iff.1 hb
    rcases Nat.lt_or_eq_of_le (show i ≤ k by omega) with lt | rfl
    · exact List.pairwise_iff_getElem.1 ascending i k hi inside lt
    · exact Nat.le_refl _
  have ne : bound[k].offset.toNat ≠ here.offset.toNat := fun e => apart (UInt32.toNat_inj.1 e)
  exact UInt32.lt_iff_toNat_lt.2 (by omega)

/-- The last position is that of the candidate which the state tells by its slot and index. -/
theorem StandsAt.exists_candidate {state : State} (stands : l.StandsAt bound state) :
    ∃ s c, l.slots[state.slot]? = some s ∧ s.candidates[state.index]? = some c ∧
      bound.getLast? = some c.position := by
  have slot_lt := stands.slot_lt
  have at_index : l.slots[state.slot].positions[state.index]? = bound.getLast? := by
    rw [stands.last]
    exact List.getElem?_eq_getElem stands.index_lt
  rw [← Slot.map_position_candidates, List.getElem?_map, stands.last] at at_index
  obtain ⟨c, hc, position⟩ := Option.map_eq_some_iff.1 at_index
  exact ⟨_, c, List.getElem?_eq_getElem slot_lt, hc, by rw [stands.last, position]⟩

/-- Positions stand at the state made of their last slot, its place and the run that they end in. -/
theorem standsAt_of_runsFrom {c : Candidate} (runs : RunsFrom bound runStart c.position)
    (length : bound.length = slot + 1) (hs : l.slots[slot]? = some s) (mem : c ∈ s.candidates) :
    l.StandsAt bound ⟨slot, c.index, runStart⟩ := by
  obtain ⟨slot_lt, rfl⟩ := List.getElem?_eq_some_iff.1 hs
  have at_index : l.slots[slot].positions[c.index]? = some c.position := by
    rw [← Slot.map_position_candidates, List.getElem?_map, Slot.getElem?_candidates_index mem]
    rfl
  obtain ⟨index_lt, position⟩ := List.getElem?_eq_some_iff.1 at_index
  refine ⟨slot_lt, index_lt, length, ?_, ?_, ?_, ?_⟩
  · rw [runs.last, position]
  · have := runs.runStart_lt
    show runStart ≤ slot
    omega
  · intro i p q late hp hq
    obtain rfl := Option.some_inj.1 (runs.last.symm.trans hq)
    exact runs.within i p hp late
  · intro i p q before hp hq
    obtain rfl := Option.some_inj.1 (runs.last.symm.trans hq)
    exact UInt32.ne_of_lt (runs.before i p hp (Nat.lt_of_succ_le (Nat.le_of_eq before)))

end Lineup

namespace ChainSearch

open Lineup

/-! ### A search with a log -/

/-- One call of `complete`: its state, the positions bound by then, and the memo it begins with. -/
structure Attempt where
  state : State
  bound : List Position
  memo : Memo

/-- A result, and the attempts made for it, in order. -/
abbrev Logged (α : Type) := α × List Attempt

/-- `tryEach` for attempts that keep a log. -/
def tryEachLogged (reach : Nat) (enter? : Position → Option Nat)
    (attempt : Nat → Candidate → Memo → Logged (Option UInt32 × Memo)) :
    List Candidate → Memo → Logged (Option UInt32 × Memo)
  | [], memo => ((none, memo), [])
  | next :: rest, memo =>
    if reach < next.lowAhead then ((none, memo), [])
    else
      match enter? next.position with
      | none => tryEachLogged reach enter? attempt rest memo.visit
      | some runStart =>
        match attempt runStart next memo.visit with
        | ((some last, memo), tried) => ((some last, memo), tried)
        | ((none, memo), tried) =>
          let (found, later) := tryEachLogged reach enter? attempt rest memo
          (found, tried ++ later)

/-- `complete` with a log; `bound` are the positions bound up to that of the candidate `here`. -/
def completeLogged (l : Lineup) :
    List Lane → Nat → Nat → List Position → Candidate → Memo → Logged (Option UInt32 × Memo)
  | [], slot, runStart, bound, here, memo =>
    ((some here.position.offset, memo), [⟨⟨slot, here.index, runStart⟩, bound, memo⟩])
  | next :: rest, slot, runStart, bound, here, memo =>
    let state : State := ⟨slot, here.index, runStart⟩
    let call : Attempt := ⟨state, bound, memo⟩
    if memo.hopeless.contains state then ((none, memo), [call])
    else
      match tryEachLogged (moveOn here.position.offset.toNat 1)
          (runAfter? l slot runStart next.term here.position)
          (fun run c => completeLogged l rest (slot + 1) run (bound ++ [c.position]) c)
          (next.candidatesFrom here.position.offset) memo with
      | ((some last, memo), tried) => ((some last, memo), call :: tried)
      | ((none, memo), tried) => ((none, memo.giveUp state), call :: tried)

/-- `spansFrom` for attempts that keep a log. -/
def spansFromLogged (every : Bool) (attempt : Candidate → Memo → Logged (Option UInt32 × Memo)) :
    List Candidate → Memo → Logged (List Span × Memo)
  | [], memo => (([], memo), [])
  | start :: rest, memo =>
    match attempt start memo with
    | ((none, memo), tried) =>
      let (found, later) := spansFromLogged every attempt rest memo
      (found, tried ++ later)
    | ((some last, memo), tried) =>
      let ((others, memo), later) :=
        if every then spansFromLogged every attempt rest memo else (([], memo), [])
      ((⟨start.position.offset, last⟩ :: others, memo), tried ++ later)

/-- `Lineup.search` with a log. -/
def searchLogged (l : Lineup) (every : Bool) (memo : Memo) : Logged (List Span × Memo) :=
  match l.lanes with
  | [] => (([], memo), [])
  | first :: rest =>
    spansFromLogged every (fun c => completeLogged l rest 0 0 [c.position] c) first.candidates memo

/-- `Lineup.answer` with a log. -/
def answerLogged (l : Lineup) : Inquiry → Memo → Logged (List Span × Memo)
  | .firstMatch, memo =>
    let ((spans, memo), tried) := searchLogged l false memo
    ((spans.head?.toList, memo), tried)
  | .allMatches, memo => searchLogged l true memo
  | .search every, memo => searchLogged l every memo

/-- Inquiries made one after another: their answers, the memo after them, and the log of all. -/
def inquireLogged (l : Lineup) : List Inquiry → Memo → Logged (List (List Span) × Memo)
  | [], memo => (([], memo), [])
  | inquiry :: rest, memo =>
    let ((spans, memo), tried) := answerLogged l inquiry memo
    let ((answers, memo), later) := inquireLogged l rest memo
    ((spans :: answers, memo), tried ++ later)

/-! ### Without the log it is the search -/

theorem tryEachLogged_fst {reach : Nat} {enter? : Position → Option Nat}
    {logged : Nat → Candidate → Memo → Logged (Option UInt32 × Memo)}
    {attempt : Nat → Candidate → Memo → Option UInt32 × Memo}
    (same : ∀ run c m, (logged run c m).1 = attempt run c m) (cs : List Candidate) (memo : Memo) :
    (tryEachLogged reach enter? logged cs memo).1 = tryEach reach enter? attempt cs memo := by
  induction cs generalizing memo with
  | nil => rfl
  | cons c rest ih =>
    rw [tryEachLogged, tryEach]
    split
    · rfl
    · cases enter? c.position with
      | none => exact ih memo.visit
      | some run =>
        dsimp only
        rw [← same]
        rcases logged run c memo.visit with ⟨⟨_ | last, memo'⟩, tried⟩
        · exact ih memo'
        · rfl

theorem completeLogged_fst (l : Lineup) (rest : List Lane) (slot runStart : Nat)
    (bound : List Position) (here : Candidate) (memo : Memo) :
    (completeLogged l rest slot runStart bound here memo).1 =
      complete l rest slot runStart here memo := by
  induction rest generalizing slot runStart bound here memo with
  | nil => rfl
  | cons next rest ih =>
    rw [completeLogged, complete]
    split
    · rfl
    · rw [← tryEachLogged_fst fun run c m => ih (slot + 1) run (bound ++ [c.position]) c m]
      rcases tryEachLogged _ _ _ _ memo with ⟨⟨_ | last, memo'⟩, tried⟩
      · rfl
      · rfl

theorem spansFromLogged_fst {every : Bool}
    {logged : Candidate → Memo → Logged (Option UInt32 × Memo)}
    {attempt : Candidate → Memo → Option UInt32 × Memo}
    (same : ∀ c m, (logged c m).1 = attempt c m) (starts : List Candidate) (memo : Memo) :
    (spansFromLogged every logged starts memo).1 = spansFrom every attempt starts memo := by
  induction starts generalizing memo with
  | nil => rfl
  | cons start rest ih =>
    rw [spansFromLogged, spansFrom, ← same]
    rcases logged start memo with ⟨⟨_ | last, memo'⟩, tried⟩
    · exact ih memo'
    · cases every with
      | false => rfl
      | true =>
        dsimp only
        rw [if_pos rfl, if_pos rfl, ← ih memo']

theorem searchLogged_fst (l : Lineup) (every : Bool) (memo : Memo) :
    (searchLogged l every memo).1 = l.search every memo := by
  unfold searchLogged Lineup.search
  cases l.lanes with
  | nil => rfl
  | cons first rest =>
    exact spansFromLogged_fst (fun c m => completeLogged_fst l rest 0 0 [c.position] c m) _ memo

theorem answerLogged_fst (l : Lineup) (inquiry : Inquiry) (memo : Memo) :
    (answerLogged l inquiry memo).1 = l.answer inquiry memo := by
  cases inquiry with
  | firstMatch =>
    rw [answerLogged, answer, firstMatch, ← searchLogged_fst]
  | allMatches => exact searchLogged_fst l true memo
  | search every => exact searchLogged_fst l every memo

/-- Without the log, inquiries are answered as they are, and leave the memo that they leave. -/
theorem inquireLogged_fst (l : Lineup) (inquiries : List Inquiry) (memo : Memo) :
    (inquireLogged l inquiries memo).1 = (l.inquire inquiries memo, l.memoAfter inquiries memo) := by
  induction inquiries generalizing memo with
  | nil => rfl
  | cons inquiry rest ih =>
    have after : l.memoAfter (inquiry :: rest) memo =
        l.memoAfter rest (answerLogged l inquiry memo).1.2 := by
      rw [answerLogged_fst]
      rfl
    obtain ⟨answers, memo_eq⟩ := Prod.ext_iff.1 (ih (answerLogged l inquiry memo).1.2)
    rw [inquireLogged, inquire, ← answerLogged_fst, after]
    exact Prod.ext (congrArg (_ :: ·) answers) memo_eq

/-! ### What the log tells -/

variable {l : Lineup} {bound : List Position} {slot runStart : Nat} {s : Slot} {here : Candidate}
  {memo memo' memo'' : Memo} {log log' : List Attempt}

/-- An attempt is in order if a partial chain is bound that stands at its state, with a sound memo. -/
structure Attempt.InOrder (l : Lineup) (a : Attempt) : Prop where
  partly : l.PartialChain a.bound
  stands : l.StandsAt a.bound a.state
  sound : a.memo.Sound l

/-- A log accounts for what happens between two memos: only states of attempts in order are noted. -/
structure Accounts (l : Lineup) (memo memo' : Memo) (log : List Attempt) : Prop where
  sound : memo'.Sound l
  inOrder : ∀ a ∈ log, a.InOrder l
  noted : ∀ state ∈ memo'.hopeless, state ∈ memo.hopeless ∨ ∃ a ∈ log, a.state = state

namespace Accounts

theorem nil (sound : memo.Sound l) : Accounts l memo memo [] :=
  ⟨sound, fun _ mem => absurd mem List.not_mem_nil, fun _ noted => .inl noted⟩

/-- To examine a candidate notes nothing. -/
theorem of_visit (h : Accounts l memo.visit memo' log) : Accounts l memo memo' log :=
  ⟨h.sound, h.inOrder, h.noted⟩

theorem append (first : Accounts l memo memo' log) (second : Accounts l memo' memo'' log') :
    Accounts l memo memo'' (log ++ log') := by
  refine ⟨second.sound, fun a mem => ?_, fun state noted => ?_⟩
  · exact (List.mem_append.1 mem).elim (first.inOrder a) (second.inOrder a)
  · rcases second.noted state noted with noted | ⟨a, mem, rfl⟩
    · refine (first.noted state noted).imp id ?_
      rintro ⟨a, mem, rfl⟩
      exact ⟨a, List.mem_append_left _ mem, rfl⟩
    · exact .inr ⟨a, List.mem_append_right _ mem, rfl⟩

/-- An attempt in order may stand in front of what accounts for the rest. -/
theorem cons {a : Attempt} (first : a.InOrder l) (rest : Accounts l memo memo' log) :
    Accounts l memo memo' (a :: log) := by
  refine ⟨rest.sound, List.forall_mem_cons.2 ⟨first, rest.inOrder⟩, fun state noted => ?_⟩
  refine (rest.noted state noted).imp id ?_
  rintro ⟨b, mem, rfl⟩
  exact ⟨b, List.mem_cons_of_mem a mem, rfl⟩

/-- The state of an attempt may be noted if the memo stays sound. -/
theorem giveUp {a : Attempt} (mem : a ∈ log) (h : Accounts l memo memo' log)
    (sound : (memo'.giveUp a.state).Sound l) : Accounts l memo (memo'.giveUp a.state) log := by
  refine ⟨sound, h.inOrder, fun state noted => ?_⟩
  rcases Std.HashSet.mem_insert.1 noted with same | noted
  · exact .inr ⟨a, mem, beq_iff_eq.1 same⟩
  · exact h.noted state noted

end Accounts

/-- Trying candidates keeps accounts if every attempt does. -/
theorem tryEachLogged_accounts (reach : Nat) {enter? : Position → Option Nat}
    {attempt : Nat → Candidate → Memo → Logged (Option UInt32 × Memo)} {cs : List Candidate}
    (spec : ∀ c ∈ cs, ∀ run, enter? c.position = some run → ∀ m, m.Sound l →
      Accounts l m (attempt run c m).1.2 (attempt run c m).2) (sound : memo.Sound l) :
    Accounts l memo (tryEachLogged reach enter? attempt cs memo).1.2
      (tryEachLogged reach enter? attempt cs memo).2 := by
  induction cs generalizing memo with
  | nil => exact Accounts.nil sound
  | cons c rest ih =>
    have later {m : Memo} (h : m.Sound l) := ih (fun d hd => spec d (List.mem_cons_of_mem c hd)) h
    rw [tryEachLogged]
    split
    · exact Accounts.nil sound
    · cases entered : enter? c.position with
      | none => exact (later sound.visit).of_visit
      | some run =>
        have tried := (spec c List.mem_cons_self run entered memo.visit sound.visit).of_visit
        dsimp only
        generalize attempt run c memo.visit = attempted at tried
        obtain ⟨⟨_ | last, memo'⟩, log⟩ := attempted
        · exact tried.append (later tried.sound)
        · exact tried

/-- Binding the remaining slots keeps accounts, from a partial chain that stands at the state. -/
theorem completeLogged_accounts (ordered : l.Orderly) {rest : List Slot}
    (left : l.slots.drop (slot + 1) = rest) (partly : l.PartialChain bound)
    (length : bound.length = slot + 1) (runs : RunsFrom bound runStart here.position)
    (hs : l.slots[slot]? = some s) (mem : here ∈ s.candidates) (sound : memo.Sound l) :
    Accounts l memo (completeLogged l (rest.map Slot.lane) slot runStart bound here memo).1.2
      (completeLogged l (rest.map Slot.lane) slot runStart bound here memo).2 := by
  induction rest generalizing slot bound runStart s here memo with
  | nil => exact (Accounts.nil sound).cons ⟨partly, standsAt_of_runsFrom runs length hs mem, sound⟩
  | cons next rest ih =>
    have call : Attempt.InOrder l ⟨⟨slot, here.index, runStart⟩, bound, memo⟩ :=
      ⟨partly, standsAt_of_runsFrom runs length hs mem, sound⟩
    have hnext : l.slots[slot + 1]? = some next := by
      rw [← Nat.add_zero (slot + 1), ← List.getElem?_drop, left]
      rfl
    have left' : l.slots.drop (slot + 1 + 1) = rest := by
      rw [← List.drop_drop, left]
      rfl
    have ascending := ordered.ascending next (List.mem_of_getElem? hnext)
    -- What is left behind is what the search leaves behind without a log.
    have kept : (completeLogged l ((next :: rest).map Slot.lane) slot runStart bound here
        memo).1.2.Sound l := by
      have lanes_left : l.lanes.drop (slot + 1) = (next :: rest).map Slot.lane := by
        rw [lanes_eq_map ordered.same, ← List.map_drop, left]
      have lane_here : l.lanes[slot]? = some s.lane := by
        rw [lanes_eq_map ordered.same, List.getElem?_map, hs]
        rfl
      have stands : s.lane.candidates[here.index]? = some here := by
        rw [candidates_lane]
        exact Slot.getElem?_candidates_index mem
      rw [completeLogged_fst]
      exact (complete_spec lanes_left lane_here stands sound).2
    rw [List.map_cons, completeLogged] at kept ⊢
    split
    · exact (Accounts.nil sound).cons call
    · rename_i fresh
      rw [if_neg fresh] at kept
      have spec : ∀ c ∈ next.lane.candidatesFrom here.position.offset, ∀ run,
          runAfter? l slot runStart next.lane.term here.position c.position = some run →
          ∀ m, Memo.Sound l m →
          Accounts l m
            (completeLogged l (rest.map Slot.lane) (slot + 1) run (bound ++ [c.position]) c m).1.2
            (completeLogged l (rest.map Slot.lane) (slot + 1) run (bound ++ [c.position]) c m).2 := by
        intro c hc run entered m h
        rw [Slot.candidatesFrom_lane_eq_filter here.position.offset ascending] at hc
        obtain ⟨hc, forward⟩ := List.mem_filter.1 hc
        have taken := runAfter?_spec ordered partly length runs hnext
          (Slot.mem_positions_iff.2 ⟨c, hc, rfl⟩) (of_decide_eq_true forward)
        rw [show runAfter? l slot runStart next.term here.position c.position = some run from entered]
          at taken
        exact ih left' taken.1 (by rw [List.length_append, length]; rfl) taken.2 hnext hc h
      have tried := tryEachLogged_accounts (moveOn here.position.offset.toNat 1) spec sound
      rcases found : tryEachLogged _ _ _ _ memo with ⟨⟨_ | last, memo'⟩, log⟩
      all_goals
        rw [found] at tried kept
      · exact (tried.cons call).giveUp List.mem_cons_self kept
      · exact tried.cons call

/-! ### One search after another -/

/-- Looking for spans keeps accounts if every attempt does. -/
theorem spansFromLogged_accounts {every : Bool}
    {attempt : Candidate → Memo → Logged (Option UInt32 × Memo)} {starts : List Candidate}
    (spec : ∀ c ∈ starts, ∀ m, m.Sound l → Accounts l m (attempt c m).1.2 (attempt c m).2)
    (sound : memo.Sound l) :
    Accounts l memo (spansFromLogged every attempt starts memo).1.2
      (spansFromLogged every attempt starts memo).2 := by
  induction starts generalizing memo with
  | nil => exact Accounts.nil sound
  | cons start rest ih =>
    have later {m : Memo} (h : m.Sound l) := ih (fun d hd => spec d (List.mem_cons_of_mem start hd)) h
    have tried := spec start List.mem_cons_self memo sound
    rw [spansFromLogged]
    generalize attempt start memo = attempted at tried
    obtain ⟨⟨_ | last, memo'⟩, log⟩ := attempted
    · exact tried.append (later tried.sound)
    · cases every with
      | false => exact tried.append (Accounts.nil tried.sound)
      | true => exact tried.append (later tried.sound)

theorem searchLogged_accounts (ordered : l.Orderly) (every : Bool) (sound : memo.Sound l) :
    Accounts l memo (searchLogged l every memo).1.2 (searchLogged l every memo).2 := by
  unfold searchLogged
  rw [lanes_eq_map ordered.same]
  cases slots : l.slots with
  | nil => exact Accounts.nil sound
  | cons first rest =>
    refine spansFromLogged_accounts (fun c hc m h => ?_) sound
    have hs : l.slots[0]? = some first := by rw [slots]; rfl
    have hc : c ∈ first.candidates := candidates_lane first ▸ hc
    have mem : c.position ∈ first.positions := Slot.mem_positions_iff.2 ⟨c, hc, rfl⟩
    exact completeLogged_accounts ordered (by rw [slots]; rfl) (PartialChain.single hs mem) rfl
      (RunsFrom.single c.position) hs hc h

theorem answerLogged_accounts (ordered : l.Orderly) (inquiry : Inquiry) (sound : memo.Sound l) :
    Accounts l memo (answerLogged l inquiry memo).1.2 (answerLogged l inquiry memo).2 := by
  cases inquiry with
  | firstMatch => exact searchLogged_accounts ordered false sound
  | allMatches => exact searchLogged_accounts ordered true sound
  | search every => exact searchLogged_accounts ordered every sound

theorem inquireLogged_accounts (ordered : l.Orderly) (inquiries : List Inquiry)
    (sound : memo.Sound l) :
    Accounts l memo (inquireLogged l inquiries memo).1.2 (inquireLogged l inquiries memo).2 := by
  induction inquiries generalizing memo with
  | nil => exact Accounts.nil sound
  | cons inquiry rest ih =>
    have first := answerLogged_accounts ordered inquiry sound
    exact first.append (ih first.sound)

/-- A state that a sound memo holds is hopeless. -/
theorem Memo.Sound.hopeless (sound : memo.Sound l) (ordered : l.Orderly) {state : State}
    (noted : state ∈ memo.hopeless) : l.Hopeless state := by
  intro bound partly stands
  obtain ⟨s, c, hs, hc, last⟩ := stands.exists_candidate
  have runs := stands.runsFrom partly last
  have nothing := sound state noted s.lane c
    (by rw [lanes_eq_map ordered.same, List.getElem?_map, hs]; rfl)
    (by rw [candidates_lane, hc])
  rw [lanes_eq_map ordered.same, ← List.map_drop] at nothing
  have found := ending?_spec ordered rfl partly stands.length_eq runs
  rw [nothing] at found
  exact found

end ChainSearch

namespace Lineup

variable {postings : Postings} {zone : Zone.Id} {limit : Option Weight} {terms : List String}
  {l : Lineup}

/--
Whatever is asked of one search of a resolved lineup: told with a log, it answers as it does, and at
every call a partial chain is bound that stands at the state of the call.  Every state that is noted,
by then or in the end, is hopeless, and it is the state of a call.
-/
theorem attempts_inquireLogged (resolved : resolve? postings zone limit terms = some l)
    (inquiries : List Inquiry) :
    (inquireLogged l inquiries {}).1 = (l.inquire inquiries {}, l.memoAfter inquiries {}) ∧
      (∀ a ∈ (inquireLogged l inquiries {}).2, l.PartialChain a.bound ∧ l.StandsAt a.bound a.state ∧
        ∀ state ∈ a.memo.hopeless, l.Hopeless state) ∧
      ∀ state ∈ (l.memoAfter inquiries {}).hopeless, l.Hopeless state ∧
        ∃ a ∈ (inquireLogged l inquiries {}).2, a.state = state := by
  have ordered := orderly_of_resolve? resolved
  have same := inquireLogged_fst l inquiries {}
  have accounts := inquireLogged_accounts ordered inquiries (Memo.sound_empty l)
  refine ⟨same, fun a mem => ?_, fun state noted => ?_⟩
  · have inOrder := accounts.inOrder a mem
    exact ⟨inOrder.partly, inOrder.stands, fun state noted => inOrder.sound.hopeless ordered noted⟩
  · rw [same] at accounts
    refine ⟨accounts.sound.hopeless ordered noted, ?_⟩
    exact (accounts.noted state noted).resolve_left Std.HashSet.not_mem_empty

/-- Three inquiries of one search among two slots of one term and a third one. -/
theorem attempts_inquireLogged_sample :
    resolve? samplePostings ⟨"BODY", "doc"⟩ none ["a", "b", "a"] = some sampleLineup ∧
      ∀ a ∈ (inquireLogged sampleLineup [.firstMatch, .allMatches, .search true] {}).2,
        sampleLineup.PartialChain a.bound ∧ sampleLineup.StandsAt a.bound a.state := by
  have resolved : resolve? samplePostings ⟨"BODY", "doc"⟩ none ["a", "b", "a"] = some sampleLineup := by
    decide
  have attempts := (attempts_inquireLogged resolved [.firstMatch, .allMatches, .search true]).2.1
  exact ⟨resolved, fun a mem => ⟨(attempts a mem).1, (attempts a mem).2.1⟩⟩

end Lineup

end TermProximity
