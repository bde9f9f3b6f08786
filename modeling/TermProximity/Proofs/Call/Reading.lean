import TermProximity.Call
import TermProximity.Proofs.Call.Grammar
import TermProximity.Proofs.Evaluation

/-!
# Reading — the requests that texts spell

What a call says is read off its form: the function, the numeral and the zone names among the
arguments before the variable, and the literals after it.  `Form.Says` is this reading,
`Reading.IsSensible` tells which readings make sense, and `Reading.Gives` is the request that a
reading gives.

A text is accepted exactly if its tokens make a form that says something sensible, and then it gives
the request of that reading and no other.
-/

namespace TermProximity

open Numeric

/-! ### Filters by the names that ask for them -/

/-- The filter that zone names ask for, where none are given, one alone, or several. -/
inductive Zone.Filter.Selects : Zone.Filter → Option (List String) → Prop where
  | all : Selects .all none
  | named {name : String} {names : List String} (given : ∀ n, n ∈ names ↔ n = name) :
    Selects (.named name) (some names)
  | anyOf {set : Names} {names : List String} (several : ∃ n ∈ names, ∃ m ∈ names, n ≠ m)
    (given : ∀ n, n ∈ set.entries ↔ n ∈ names) : Selects (.anyOf set) (some names)

namespace Zone.Filter

theorem check_named {name : String} :
    (named name).check = .ok () ↔ Text.isBlankText name = false := by
  unfold check
  by_cases blank : Text.isBlankText name = true
  · simp [blank]
  · simp [blank]

theorem check_anyOf {set : Names} :
    (anyOf set).check = .ok () ↔
      set.entries ≠ [] ∧ ∀ name ∈ set.entries, Text.isBlankText name = false := by
  have unfolded : (anyOf set).check =
      if set.entries.isEmpty then .error .noZoneName
      else if set.entries.any Text.isBlankText then .error .blankZoneName else .ok () := rfl
  rw [unfolded]
  by_cases empty : set.entries = []
  · simp [empty]
  · rw [if_neg (by simpa using empty)]
    by_cases blank : set.entries.any Text.isBlankText = true
    · rw [if_pos blank]
      simp at blank
      simpa [empty] using blank
    · rw [if_neg blank]
      simp at blank
      simpa [empty] using blank

section ofNames

variable {names : List String} {filter : Zone.Filter}

theorem selects_iff_of_one {name : String}
    (one : (KeyedList.ofList names : Names).entries = [name]) :
    filter.Selects (some names) ↔ filter = named name := by
  have given (n : String) : n ∈ names ↔ n = name := by
    rw [← mem_entries_ofList, one, List.mem_singleton]
  constructor
  · intro h
    cases h with
    | named given' => rw [(given _).1 ((given' _).2 rfl)]
    | anyOf several _ =>
      obtain ⟨n, hn, m, hm, apart⟩ := several
      exact absurd (((given n).1 hn).trans ((given m).1 hm).symm) apart
  · rintro rfl
    exact .named given

theorem selects_iff_of_several {a b : String} {rest : List String}
    (several : (KeyedList.ofList names : Names).entries = a :: b :: rest) :
    filter.Selects (some names) ↔ filter = anyOf (KeyedList.ofList names) := by
  have apart : a ≠ b := by
    have ascending := (KeyedList.ofList names : Names).ascending
    rw [several] at ascending
    have below := (List.pairwise_cons.1 ascending).1 b List.mem_cons_self
    rintro rfl
    rw [Std.compare_self] at below
    contradiction
  have ha : a ∈ names := mem_entries_ofList.1 (by rw [several]; simp)
  have hb : b ∈ names := mem_entries_ofList.1 (by rw [several]; simp)
  constructor
  · intro h
    cases h with
    | named given => exact absurd (((given a).1 ha).trans ((given b).1 hb).symm) apart
    | anyOf _ given =>
      congr 1
      exact KeyedList.ext_mem fun n => (given n).trans mem_entries_ofList.symm
  · rintro rfl
    exact .anyOf ⟨a, ha, b, hb, apart⟩ fun n => mem_entries_ofList

theorem ofNames_of_one {name : String}
    (one : (KeyedList.ofList names : Names).entries = [name]) :
    ofNames names = (named name).check.map fun _ => named name := by
  unfold ofNames
  simp only [one]

theorem ofNames_of_not_one (other : ∀ name, (KeyedList.ofList names : Names).entries ≠ [name]) :
    ofNames names =
      (anyOf (KeyedList.ofList names)).check.map fun _ => anyOf (KeyedList.ofList names) := by
  unfold ofNames
  cases entries : (KeyedList.ofList names : Names).entries with
  | nil => simp only [entries]
  | cons a others =>
    cases others with
    | nil => exact absurd entries (other a)
    | cons b rest => simp only [entries]

theorem map_check_eq_ok_iff {chosen : Zone.Filter} :
    chosen.check.map (fun _ => chosen) = .ok filter ↔ chosen.check = .ok () ∧ filter = chosen := by
  rw [map_eq_ok_iff]
  constructor
  · rintro ⟨⟨⟩, sensible, rfl⟩
    exact ⟨sensible, rfl⟩
  · rintro ⟨sensible, rfl⟩
    exact ⟨(), sensible, rfl⟩

/-- Names give the filter that they ask for, if none of them is blank. -/
theorem ofNames_eq_ok_iff :
    ofNames names = .ok filter ↔
      filter.Selects (some names) ∧ ∀ name ∈ names, Text.isBlankText name = false := by
  cases entries : (KeyedList.ofList names : Names).entries with
  | nil =>
    have none_given (n : String) : n ∉ names := by
      rw [← mem_entries_ofList, entries]
      exact List.not_mem_nil
    rw [ofNames_of_not_one (by simp [entries]), map_check_eq_ok_iff, check_anyOf]
    constructor
    · rintro ⟨⟨some_name, -⟩, -⟩
      exact absurd entries some_name
    · rintro ⟨selects, -⟩
      cases selects with
      | named given => exact absurd ((given _).2 rfl) (none_given _)
      | anyOf several _ =>
        obtain ⟨n, mem, -⟩ := several
        exact absurd mem (none_given n)
  | cons a others =>
    cases others with
    | nil =>
      have only (p : String → Prop) : (∀ name ∈ names, p name) ↔ p a := by
        simp only [← mem_entries_ofList, entries, List.mem_singleton, forall_eq]
      rw [ofNames_of_one entries, map_check_eq_ok_iff, check_named, selects_iff_of_one entries,
        only, and_comm]
    | cons b rest =>
      have some_name : (KeyedList.ofList names : Names).entries ≠ [] := by simp [entries]
      rw [ofNames_of_not_one (by simp [entries]), map_check_eq_ok_iff, check_anyOf,
        selects_iff_of_several entries, and_comm]
      simp only [mem_entries_ofList, some_name, ne_eq, not_false_eq_true, true_and]

theorem exists_selects (some_name : names ≠ []) :
    ∃ filter : Zone.Filter, filter.Selects (some names) := by
  cases entries : (KeyedList.ofList names : Names).entries with
  | nil =>
    obtain ⟨name, mem⟩ := List.exists_mem_of_ne_nil names some_name
    rw [← mem_entries_ofList, entries] at mem
    contradiction
  | cons a others =>
    cases others with
    | nil => exact ⟨_, (selects_iff_of_one entries).2 rfl⟩
    | cons b rest => exact ⟨_, (selects_iff_of_several entries).2 rfl⟩

theorem check_of_ofNames (h : ofNames names = .ok filter) : filter.check = .ok () := by
  unfold ofNames at h
  obtain ⟨checked, sensible, rfl⟩ := map_eq_ok_iff.1 h
  exact sensible

end ofNames

end Zone.Filter

namespace Call

/-! ### Readings -/

/-- The name of a function. -/
def Function.name : Function → String
  | within => "within"
  | adjacent => "adjacent"
  | phrase => "phrase"
  | scoredPhrase => "scoredPhrase"

/-- The numeral that an argument is. -/
def Argument.numeral? : Argument → Option String
  | numeral text _ => some text
  | _ => none

/-- The zone names that an argument gives. -/
def Argument.zoneNames? : Argument → Option (List String)
  | name text _ | literal text _ => some [text]
  | group names _ => some names
  | numeral .. => none

/-- The text of an argument in quotes. -/
def Argument.literal? : Argument → Option String
  | literal text _ => some text
  | _ => none

/-- What a call says: its function, the numeral and the zone names if it has any, and its terms. -/
structure Reading where
  function : Function
  numeral : Option String
  zones : Option (List String)
  terms : List String

/--
What a form says where the term offset map goes by `mapVariable`: before the first mention of the
variable stand at most one numeral and at most one argument with zone names, after it the terms.
-/
structure Form.Says (form : Form) (mapVariable : String) (r : Reading) : Prop where
  function : form.function = r.function.name
  arguments : ∃ before byte after, form.arguments = before ++ .name mapVariable byte :: after ∧
    (∀ byte, .name mapVariable byte ∉ before) ∧
    before.filterMap Argument.numeral? = r.numeral.toList ∧
    before.filterMap Argument.zoneNames? = r.zones.toList ∧
    after.map Argument.literal? = r.terms.map some

/-- A positive distance in digits, in front of which a plus may stand. -/
def IsDistance (text : String) (distance : UInt32) : Prop :=
  ∃ digits, (text.toList = digits ∨ text.toList = '+' :: digits) ∧ digits ≠ [] ∧
    (∀ c ∈ digits, c.isDigit = true) ∧ natOfDigits digits = distance.toNat ∧ 1 ≤ distance.toNat

/-- The arrangement that a function asks for with a numeral or without one. -/
inductive Function.Takes : Function → Option String → Arrangement → Prop where
  | within {text : String} {distance : UInt32} (number : IsDistance text distance) :
    Takes .within (some text) (.within distance)
  | adjacent : Takes .adjacent none .adjacent
  | phrase : Takes .phrase none .phrase
  | scoredPhrase {text : String} {threshold : Score}
    (number : Score.read? text.toList = some threshold) (finite : threshold.isFinite = true) :
    Takes .scoredPhrase (some text) (.scoredPhrase threshold)

/-- A reading makes sense with the numeral that its function wants, two terms, and no empty name. -/
structure Reading.IsSensible (r : Reading) : Prop where
  number : ∃ arrangement, r.function.Takes r.numeral arrangement
  zones : ∀ names ∈ r.zones, ∀ name ∈ names, Text.isBlankText name = false
  enough : 2 ≤ r.terms.length
  terms : ∀ term ∈ r.terms, term.isEmpty = false

/-- The request that a reading gives. -/
structure Reading.Gives (r : Reading) (request : Request) : Prop where
  arrangement : r.function.Takes r.numeral request.arrangement
  zones : request.zones.Selects r.zones
  terms : request.terms = r.terms

/-! ### Numbers -/

theorem Function.ofName?_eq_some_iff {name : String} {f : Function} :
    ofName? name = some f ↔ name = f.name := by
  constructor
  · intro h
    unfold ofName? at h
    split at h
    · cases h; assumption
    split at h
    · cases h; assumption
    split at h
    · cases h; assumption
    split at h
    · cases h; assumption
    · cases h
  · rintro rfl
    cases f <;> decide

theorem readWhole?_eq_some_iff {text : List Char} {n : Nat} :
    readWhole? text = some n ↔ ∃ digits, (text = digits ∨ text = '+' :: digits) ∧ digits ≠ [] ∧
      (∀ c ∈ digits, c.isDigit = true) ∧ natOfDigits digits = n := by
  have read (digits : List Char) :
      (if digits.isEmpty || !digits.all Char.isDigit then none else some (natOfDigits digits)) =
        some n ↔ digits ≠ [] ∧ (∀ c ∈ digits, c.isDigit = true) ∧ natOfDigits digits = n := by
    simp [and_assoc]
  unfold readWhole?
  constructor
  · intro h
    split at h
    · exact ⟨_, .inr rfl, (read _).1 h⟩
    · exact ⟨_, .inl rfl, (read _).1 h⟩
  · rintro ⟨digits, rfl | rfl, spelled⟩
    · split
      · exact absurd (spelled.2.1 '+' List.mem_cons_self) (by decide)
      · exact (read _).2 spelled
    · exact (read _).2 spelled

theorem distance?_eq_some_iff {text : String} {distance : UInt32} :
    distance? text = some distance ∧ distance ≠ 0 ↔ IsDistance text distance := by
  unfold distance?
  constructor
  · rintro ⟨found, positive⟩
    cases read : readWhole? text.toList with
    | none => rw [read] at found; cases found
    | some n =>
      rw [read] at found
      by_cases fits : n ≤ maxOffset
      · simp only [if_pos fits, Option.some.injEq] at found
        subst found
        obtain ⟨digits, shape, some_digit, all, rfl⟩ := readWhole?_eq_some_iff.1 read
        have value : (UInt32.ofNat (natOfDigits digits)).toNat = natOfDigits digits :=
          UInt32.toNat_ofNat_of_lt' (Nat.lt_of_le_of_lt fits (by decide))
        refine ⟨digits, shape, some_digit, all, value.symm, ?_⟩
        rw [Nat.one_le_iff_ne_zero]
        exact fun zero => positive (UInt32.toNat_inj.1 zero)
      · simp only [if_neg fits] at found
        cases found
  · rintro ⟨digits, shape, some_digit, all, value, positive⟩
    have fits : natOfDigits digits ≤ maxOffset := by
      have := distance.toNat_lt
      unfold maxOffset
      omega
    rw [readWhole?_eq_some_iff.2 ⟨digits, shape, some_digit, all, rfl⟩]
    rw [value] at fits ⊢
    simp only [if_pos fits, UInt32.ofNat_toNat, true_and]
    rintro rfl
    contradiction

theorem Function.Takes.checkNumber {function : Function} {numeral : Option String} {a : Arrangement}
    (takes : function.Takes numeral a) : Request.checkNumber a = .ok () := by
  cases takes with
  | within number =>
    obtain ⟨-, positive⟩ := distance?_eq_some_iff.2 number
    exact if_neg positive
  | adjacent => rfl
  | phrase => rfl
  | scoredPhrase _ finite => exact if_pos finite

/-- The arrangement of a sensible number is the one that the function takes. -/
theorem arrangement_eq_ok_iff {function : Function} {numeral : Option (String × Nat)}
    {a : Arrangement} :
    arrangement function numeral = .ok a ∧ Request.checkNumber a = .ok () ↔
      function.Takes (numeral.map Prod.fst) a := by
  constructor
  · rintro ⟨h, sensible⟩
    unfold arrangement at h
    split at h
    · cases h
    · rename_i text byte
      split at h
      · rename_i distance found
        cases h
        have positive : distance ≠ 0 := by
          rintro rfl
          contradiction
        exact .within (distance?_eq_some_iff.1 ⟨found, positive⟩)
      · cases h
    · cases h
    · rename_i text byte
      split at h
      · rename_i threshold found
        cases h
        by_cases finite : threshold.isFinite = true
        · exact .scoredPhrase found finite
        · rw [Request.checkNumber, if_neg finite] at sensible
          cases sensible
      · cases h
    · cases h; exact .adjacent
    · cases h; exact .phrase
    · cases h
    · cases h
  · intro takes
    refine ⟨?_, takes.checkNumber⟩
    generalize given : numeral.map Prod.fst = number at takes
    cases takes with
    | within number =>
      obtain ⟨⟨text, byte⟩, rfl, rfl⟩ := Option.map_eq_some_iff.1 given
      obtain ⟨found, -⟩ := distance?_eq_some_iff.2 number
      unfold arrangement
      simp only [found]
    | adjacent =>
      obtain rfl := Option.map_eq_none_iff.1 given
      rfl
    | phrase =>
      obtain rfl := Option.map_eq_none_iff.1 given
      rfl
    | scoredPhrase number finite =>
      obtain ⟨⟨text, byte⟩, rfl, rfl⟩ := Option.map_eq_some_iff.1 given
      unfold arrangement
      simp only [number]

/-! ### Arguments -/

theorem isVariable_iff {mapVariable : String} {a : Argument} :
    isVariable mapVariable a = true ↔ ∃ byte, a = .name mapVariable byte := by
  cases a <;> simp [isVariable]

theorem splitArguments_eq_ok_iff {mapVariable : String} {arguments before after : List Argument} :
    splitArguments mapVariable arguments = .ok (before, after) ↔
      ∃ byte, arguments = before ++ .name mapVariable byte :: after ∧
        ∀ byte, .name mapVariable byte ∉ before := by
  have none_before : (∀ a ∈ before, (!isVariable mapVariable a) = true) ↔
      ∀ byte, .name mapVariable byte ∉ before := by
    simp only [Bool.not_eq_true', ← Bool.not_eq_true, isVariable_iff]
    constructor
    · intro h byte mem
      exact h _ mem ⟨byte, rfl⟩
    · rintro h a mem ⟨byte, rfl⟩
      exact h byte mem
  constructor
  · intro h
    unfold splitArguments at h
    split at h
    · rename_i a terms dropped
      cases h
      have mentions : isVariable mapVariable a = true := by
        have head := List.head?_dropWhile_not (!isVariable mapVariable ·) arguments
        rw [dropped] at head
        simpa using head
      obtain ⟨byte, rfl⟩ := isVariable_iff.1 mentions
      refine ⟨byte, ?_, none_before.1 fun a mem => List.all_eq_true.1 List.all_takeWhile a mem⟩
      rw [← dropped, List.takeWhile_append_dropWhile]
    · split at h <;> cases h
  · rintro ⟨byte, rfl, apart⟩
    have here : isVariable mapVariable (.name mapVariable byte) = true := isVariable_iff.2 ⟨byte, rfl⟩
    have dropped : (before ++ .name mapVariable byte :: after).dropWhile
        (!isVariable mapVariable ·) = .name mapVariable byte :: after := by
      rw [List.dropWhile_append_of_pos (none_before.2 apart),
        List.dropWhile_cons_of_neg (by simp [here])]
    have taken : (before ++ .name mapVariable byte :: after).takeWhile
        (!isVariable mapVariable ·) = before := by
      rw [List.takeWhile_append_of_pos (none_before.2 apart),
        List.takeWhile_cons_of_neg (by simp [here]), List.append_nil]
    unfold splitArguments
    rw [dropped, taken]

theorem term_eq_ok_iff {a : Argument} {text : String} :
    term a = .ok text ↔ a.literal? = some text := by
  cases a <;> simp [term, Argument.literal?]

theorem mapM_term_eq_ok_iff {arguments : List Argument} {terms : List String} :
    arguments.mapM term = .ok terms ↔ arguments.map Argument.literal? = terms.map some := by
  induction arguments generalizing terms with
  | nil => cases terms <;> simp [pure, Except.pure]
  | cons a rest ih =>
    rw [List.mapM_cons, List.map_cons]
    constructor
    · intro h
      obtain ⟨text, here, h⟩ := bind_eq_ok_iff.1 h
      obtain ⟨later, others, h⟩ := bind_eq_ok_iff.1 h
      cases h
      rw [term_eq_ok_iff.1 here, ih.1 others, List.map_cons]
    · intro h
      obtain ⟨text, later, rfl, here, others⟩ := List.map_eq_cons_iff.1 h.symm
      exact bind_eq_ok_iff.2 ⟨text, term_eq_ok_iff.2 here.symm,
        bind_eq_ok_iff.2 ⟨later, ih.2 others.symm, rfl⟩⟩

/-! ### The arguments before the variable -/

/-- The numeral that an argument is, with the byte offset at which it begins. -/
def Argument.placedNumeral? : Argument → Option (String × Nat)
  | numeral text byte => some (text, byte)
  | _ => none

section Slots

variable {α β : Type} {o o' : Option α} {rest : List β}

theorem toList_inj : o.toList = o'.toList ↔ o = o' := by
  cases o <;> cases o' <;> simp

/-- A place for one takes in what it holds only while it is empty. -/
theorem map_toList_eq_append_cons_iff {g : α → β} {b : β} :
    o'.toList.map g = o.toList.map g ++ b :: rest ↔
      o = none ∧ ∃ a, b = g a ∧ o'.toList.map g = (some a).toList.map g ++ rest := by
  cases o with
  | some x => cases o' <;> simp
  | none =>
    cases o' with
    | none => simp
    | some y =>
      constructor
      · intro h
        obtain ⟨same, more⟩ := List.cons_eq_cons.1 h
        exact ⟨rfl, y, same.symm, congrArg (g y :: ·) more⟩
      · rintro ⟨-, a, rfl, h⟩
        exact h

theorem toList_eq_append_cons_iff {a : α} {rest : List α} :
    o'.toList = o.toList ++ a :: rest ↔ o = none ∧ o'.toList = (some a).toList ++ rest := by
  have step : o'.toList.map id = o.toList.map id ++ a :: rest ↔ _ := map_toList_eq_append_cons_iff
  simpa using step

end Slots

namespace Leading

variable {l l' : Leading}

theorem add_numeral_eq_ok_iff {text : String} {byte : Nat} :
    l.add (.numeral text byte) = .ok l' ↔
      l.numeral = none ∧ l' = { l with numeral := some (text, byte) } := by
  unfold add
  cases l.numeral <;> simp [eq_comm]

theorem setZones_eq_ok_iff {zones : Zone.Filter} {byte : Nat} :
    l.setZones zones byte = .ok l' ↔
      l.zones = none ∧ zones.check = .ok () ∧ l' = { l with zones := some zones } := by
  unfold setZones
  cases l.zones with
  | some _ => simp
  | none => cases zones.check <;> simp [Except.map, eq_comm]

theorem add_zones_eq_ok_iff {a : Argument} {names : List String}
    (given : a.zoneNames? = some names) :
    l.add a = .ok l' ↔ l.zones = none ∧
      ∃ filter, Zone.Filter.ofNames names = .ok filter ∧ l' = { l with zones := some filter } := by
  have one (text : String) (byte : Nat) : l.setZones (.named text) byte = .ok l' ↔ l.zones = none ∧
      ∃ filter, Zone.Filter.ofNames [text] = .ok filter ∧ l' = { l with zones := some filter } := by
    have alone : (KeyedList.ofList [text] : Names).entries = [text] := by
      rw [KeyedList.ofList_singleton]
      rfl
    rw [setZones_eq_ok_iff, Zone.Filter.ofNames_of_one alone]
    simp only [Zone.Filter.map_check_eq_ok_iff, and_assoc, exists_eq_left, exists_and_left]
  cases a with
  | numeral text byte => cases given
  | name text byte =>
    cases given
    exact one text byte
  | literal text byte =>
    cases given
    exact one text byte
  | group group byte =>
    cases given
    have taken : l.add (.group names byte) =
        (Zone.Filter.ofNames names >>= fun zones => l.setZones zones byte) := by
      simp only [add]
      cases Zone.Filter.ofNames names <;> rfl
    rw [taken, bind_eq_ok_iff]
    constructor
    · rintro ⟨zones, chosen, h⟩
      obtain ⟨unset, -, rfl⟩ := setZones_eq_ok_iff.1 h
      exact ⟨unset, zones, chosen, rfl⟩
    · rintro ⟨unset, zones, chosen, rfl⟩
      exact ⟨zones, chosen,
        setZones_eq_ok_iff.2 ⟨unset, Zone.Filter.check_of_ofNames chosen, rfl⟩⟩

/-- Arguments are taken in if there is one numeral and one argument with zones in all, or less. -/
theorem foldlM_add_eq_ok_iff {before : List Argument} :
    before.foldlM Leading.add l = .ok l' ↔
      l'.numeral.toList = l.numeral.toList ++ before.filterMap Argument.placedNumeral? ∧
        l'.zones.toList.map .ok = l.zones.toList.map .ok ++
          (before.filterMap Argument.zoneNames?).map Zone.Filter.ofNames := by
  induction before generalizing l with
  | nil =>
    have ok_inj (xs ys : List Zone.Filter) :
        xs.map (Except.ok (ε := ArgumentFault)) = ys.map .ok ↔ xs = ys :=
      List.map_inj_right fun x y h => by cases h; rfl
    obtain ⟨zones, numeral⟩ := l
    obtain ⟨zones', numeral'⟩ := l'
    simp only [List.foldlM_nil, List.filterMap_nil, List.map_nil, List.append_nil, ok_inj,
      toList_inj]
    constructor
    · intro h
      cases h
      exact ⟨rfl, rfl⟩
    · rintro ⟨rfl, rfl⟩
      rfl
  | cons a rest ih =>
    rw [List.foldlM_cons, bind_eq_ok_iff]
    simp only [ih]
    cases given : a.zoneNames? with
    | none =>
      cases a with
      | numeral text byte =>
        have placed : Argument.placedNumeral? (.numeral text byte) = some (text, byte) := rfl
        simp only [add_numeral_eq_ok_iff, List.filterMap_cons, given, placed,
          toList_eq_append_cons_iff]
        constructor
        · rintro ⟨l'', ⟨unset, rfl⟩, numerals, zones⟩
          exact ⟨⟨unset, numerals⟩, zones⟩
        · rintro ⟨⟨unset, numerals⟩, zones⟩
          exact ⟨_, ⟨unset, rfl⟩, numerals, zones⟩
      | name => cases given
      | literal => cases given
      | group => cases given
    | some names =>
      have placed : a.placedNumeral? = none := by
        cases a with
        | numeral => cases given
        | name | literal | group => rfl
      simp only [add_zones_eq_ok_iff given, List.filterMap_cons, given, placed, List.map_cons,
        map_toList_eq_append_cons_iff]
      constructor
      · rintro ⟨l'', ⟨unset, filter, chosen, rfl⟩, numerals, zones⟩
        exact ⟨numerals, unset, filter, chosen, zones⟩
      · rintro ⟨numerals, unset, filter, chosen, zones⟩
        exact ⟨_, ⟨unset, filter, chosen, rfl⟩, numerals, zones⟩

end Leading

/-! ### The request of a form -/

theorem exists_toList_of_length_le {α : Type} {xs : List α} (few : xs.length ≤ 1) :
    ∃ o : Option α, o.toList = xs := by
  match xs, few with
  | [], _ => exact ⟨none, rfl⟩
  | [x], _ => exact ⟨some x, rfl⟩

theorem filterMap_numeral? (arguments : List Argument) :
    arguments.filterMap Argument.numeral? =
      (arguments.filterMap Argument.placedNumeral?).map Prod.fst := by
  rw [List.map_filterMap]
  congr 1
  funext a
  cases a <;> rfl

theorem selects_iff_exists {given : Option (List String)} {zones : Zone.Filter} :
    (zones.Selects given ∧ ∀ names ∈ given, ∀ name ∈ names, Text.isBlankText name = false) ↔
      ∃ chosen : Option Zone.Filter, chosen.getD .all = zones ∧
        chosen.toList.map .ok = given.toList.map Zone.Filter.ofNames := by
  cases given with
  | none =>
    constructor
    · rintro ⟨selects, -⟩
      cases selects
      exact ⟨none, rfl, rfl⟩
    · rintro ⟨chosen, rfl, h⟩
      cases chosen with
      | none => exact ⟨.all, fun names mem => by cases mem⟩
      | some _ => cases h
  | some names =>
    have one : (zones.Selects (some names) ∧
        ∀ names' ∈ some names, ∀ name ∈ names', Text.isBlankText name = false) ↔
          Zone.Filter.ofNames names = .ok zones := by
      rw [Zone.Filter.ofNames_eq_ok_iff]
      simp only [Option.mem_some_iff, forall_eq']
    rw [one]
    constructor
    · intro h
      exact ⟨some zones, rfl, congrArg (fun x => [x]) h.symm⟩
    · rintro ⟨chosen, rfl, h⟩
      cases chosen with
      | none => cases h
      | some zones => exact (List.cons_eq_cons.1 h).1.symm

theorem check_of_selects {given : Option (List String)} {zones : Zone.Filter}
    (selects : zones.Selects given)
    (named : ∀ names ∈ given, ∀ name ∈ names, Text.isBlankText name = false) :
    zones.check = .ok () := by
  cases given with
  | none => cases selects; rfl
  | some names =>
    exact Zone.Filter.check_of_ofNames (Zone.Filter.ofNames_eq_ok_iff.2 ⟨selects, named names rfl⟩)

/-- What the arguments before the variable give, by what stands among them. -/
theorem exists_leading_iff {before : List Argument} {function : Function} {a : Arrangement}
    {zones : Zone.Filter} :
    (∃ leading, before.foldlM Leading.add {} = .ok leading ∧
      (arrangement function leading.numeral = .ok a ∧ Request.checkNumber a = .ok ()) ∧
        leading.zones.getD .all = zones) ↔
      ∃ numeral given, before.filterMap Argument.numeral? = numeral.toList ∧
        before.filterMap Argument.zoneNames? = given.toList ∧ function.Takes numeral a ∧
          zones.Selects given ∧ ∀ names ∈ given, ∀ name ∈ names, Text.isBlankText name = false := by
  constructor
  · rintro ⟨leading, leads, number, rfl⟩
    obtain ⟨numerals, zones⟩ := Leading.foldlM_add_eq_ok_iff.1 leads
    have few : (before.filterMap Argument.zoneNames?).length ≤ 1 := by
      have length := congrArg List.length zones
      simp only [Option.toList_none, List.map_nil, List.nil_append, List.length_map] at length
      rw [← length]
      exact Option.length_toList_le
    obtain ⟨given, given_eq⟩ := exists_toList_of_length_le few
    refine ⟨leading.numeral.map Prod.fst, given, ?_, given_eq.symm, arrangement_eq_ok_iff.1 number,
      selects_iff_exists.2 ⟨leading.zones, rfl, given_eq ▸ zones⟩⟩
    rw [filterMap_numeral?, Option.toList_map, numerals]
    rfl
  · rintro ⟨numeral, given, numerals, zones, takes, filter⟩
    obtain ⟨chosen, rfl, chosen_zones⟩ := selects_iff_exists.1 filter
    have few : (before.filterMap Argument.placedNumeral?).length ≤ 1 := by
      have length := congrArg List.length numerals
      rw [filterMap_numeral?, List.length_map] at length
      rw [length]
      exact Option.length_toList_le
    obtain ⟨placed, placed_eq⟩ := exists_toList_of_length_le few
    have same : placed.map Prod.fst = numeral := by
      rw [← toList_inj, Option.toList_map, placed_eq, ← filterMap_numeral?, numerals]
    refine ⟨⟨chosen, placed⟩, ?_, arrangement_eq_ok_iff.2 (same ▸ takes), rfl⟩
    exact Leading.foldlM_add_eq_ok_iff.2 ⟨placed_eq, by rw [chosen_zones, zones]; rfl⟩

/-- A sensible reading gives a request that makes sense. -/
theorem Reading.Gives.check {r : Reading} {request : Request} (gives : r.Gives request)
    (sensible : r.IsSensible) : request.check = .ok () := by
  have terms : request.checkTerms = .ok () := by
    rw [Request.checkTerms_eq_ok_iff, gives.terms]
    exact ⟨sensible.enough, sensible.terms⟩
  have zones : request.zones.check = .ok () := check_of_selects gives.zones sensible.zones
  exact Request.check_eq_ok_iff.2 ⟨gives.arrangement.checkNumber, terms, zones⟩

/-- A form means exactly the request of what it says, where that makes sense. -/
theorem Form.resolve_eq_ok_iff {form : Form} {mapVariable : String} {c : Call} :
    form.resolve mapVariable = .ok c ↔
      ∃ r, form.Says mapVariable r ∧ r.IsSensible ∧ c.mapVariable = mapVariable ∧
        r.Gives c.request := by
  unfold resolve
  constructor
  · intro h
    cases named : Function.ofName? form.function with
    | none => rw [named] at h; cases h
    | some function =>
      rw [named] at h
      obtain ⟨⟨before, after⟩, split, h⟩ := bind_eq_ok_iff.1 h
      obtain ⟨leading, leads, h⟩ := bind_eq_ok_iff.1 h
      obtain ⟨a, number, h⟩ := bind_eq_ok_iff.1 h
      obtain ⟨terms, listed, h⟩ := bind_eq_ok_iff.1 h
      obtain ⟨⟨⟩, sensible, h⟩ := bind_eq_ok_iff.1 h
      cases h
      obtain ⟨number_sensible, terms_sensible, -⟩ := Request.check_eq_ok_iff.1 sensible
      obtain ⟨enough, not_empty⟩ := Request.checkTerms_eq_ok_iff.1 terms_sensible
      obtain ⟨byte, arguments, apart⟩ := splitArguments_eq_ok_iff.1 split
      obtain ⟨numeral, given, numerals, zones, takes, selects, named_zones⟩ :=
        exists_leading_iff.1 ⟨leading, leads, ⟨number, number_sensible⟩, rfl⟩
      refine ⟨⟨function, numeral, given, terms⟩, ⟨?_, ?_⟩, ?_, rfl, ⟨takes, selects, rfl⟩⟩
      · exact Function.ofName?_eq_some_iff.1 named
      · exact ⟨before, byte, after, arguments, apart, numerals, zones, mapM_term_eq_ok_iff.1 listed⟩
      · exact ⟨⟨a, takes⟩, named_zones, enough, not_empty⟩
  · rintro ⟨r, said, sensible, rfl, gives⟩
    obtain ⟨before, byte, after, arguments, apart, numerals, zones, terms⟩ := said.arguments
    obtain ⟨leading, leads, ⟨number, -⟩, filter⟩ := exists_leading_iff.2
      ⟨r.numeral, r.zones, numerals, zones, gives.arrangement, gives.zones, sensible.zones⟩
    have listed : after.mapM term = .ok c.request.terms := by
      rw [mapM_term_eq_ok_iff, terms, gives.terms]
    rw [Function.ofName?_eq_some_iff.2 said.function]
    refine bind_eq_ok_iff.2 ⟨_, splitArguments_eq_ok_iff.2 ⟨byte, arguments, apart⟩, ?_⟩
    refine bind_eq_ok_iff.2 ⟨_, leads, bind_eq_ok_iff.2 ⟨_, number, ?_⟩⟩
    refine bind_eq_ok_iff.2 ⟨_, listed, ?_⟩
    simp only [filter]
    exact bind_eq_ok_iff.2 ⟨(), gives.check sensible, rfl⟩

theorem parse_eq_ok_iff_resolve {text mapVariable : String} {c : Call} :
    parse text mapVariable = .ok c ↔
      ∃ ts form, tokens text = .ok ts ∧ IsForm ts form ∧ form.resolve mapVariable = .ok c := by
  have resolved (form : Form) : (form.resolve mapVariable).mapError Failure.argument = .ok c ↔
      form.resolve mapVariable = .ok c := by
    cases form.resolve mapVariable <;> simp [Except.mapError]
  unfold parse
  simp only [bind_eq_ok_iff, Form.ofTokens_eq_ok_iff, resolved, exists_and_left]

/-- Zone names that are given are at least one. -/
theorem Form.Says.names_ne_nil {ts : List Token} {form : Form} {mapVariable : String} {r : Reading}
    (said : form.Says mapVariable r) (spelled : IsForm ts form) {names : List String}
    (given : r.zones = some names) : names ≠ [] := by
  obtain ⟨before, byte, after, arguments, -, -, zones, -⟩ := said.arguments
  have mem : names ∈ before.filterMap Argument.zoneNames? := by
    rw [zones, given]
    exact List.mem_singleton_self names
  obtain ⟨a, mem, names_eq⟩ := List.mem_filterMap.1 mem
  cases a with
  | name | literal => cases names_eq; exact List.cons_ne_nil _ _
  | numeral => cases names_eq
  | group group byte =>
    cases names_eq
    exact spelled.names_ne_nil (by rw [arguments]; exact List.mem_append_left _ mem)

/-- A text is accepted as the call of what it says, and otherwise refused. -/
theorem parse_eq_ok_iff (text mapVariable : String) :
    ((∃ c, parse text mapVariable = .ok c) ↔
      ∃ ts form r, tokens text = .ok ts ∧ IsForm ts form ∧ form.Says mapVariable r ∧
        r.IsSensible) ∧
    ∀ c, parse text mapVariable = .ok c ↔
      ∃ ts form r, tokens text = .ok ts ∧ IsForm ts form ∧ form.Says mapVariable r ∧
        r.IsSensible ∧ c.mapVariable = mapVariable ∧ r.Gives c.request := by
  have read (c : Call) : parse text mapVariable = .ok c ↔
      ∃ ts form r, tokens text = .ok ts ∧ IsForm ts form ∧ form.Says mapVariable r ∧
        r.IsSensible ∧ c.mapVariable = mapVariable ∧ r.Gives c.request := by
    rw [parse_eq_ok_iff_resolve]
    simp only [Form.resolve_eq_ok_iff, exists_and_left]
  refine ⟨⟨?_, ?_⟩, read⟩
  · rintro ⟨c, accepted⟩
    obtain ⟨ts, form, r, read, spelled, said, sensible, -⟩ := (read c).1 accepted
    exact ⟨ts, form, r, read, spelled, said, sensible⟩
  · rintro ⟨ts, form, r, cut, spelled, said, sensible⟩
    obtain ⟨a, takes⟩ := sensible.number
    have selected : ∃ zones : Zone.Filter, zones.Selects r.zones := by
      cases given : r.zones with
      | none => exact ⟨.all, .all⟩
      | some names => exact Zone.Filter.exists_selects (said.names_ne_nil spelled given)
    obtain ⟨zones, selects⟩ := selected
    exact ⟨⟨⟨a, zones, r.terms⟩, mapVariable⟩, (read _).2
      ⟨ts, form, r, cut, spelled, said, sensible, rfl, takes, selects, rfl⟩⟩

end Call

end TermProximity
