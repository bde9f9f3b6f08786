import TermProximity.Proofs.Call.Printing

/-!
# Round trip — written calls are read back

The text of a sensible request under a variable that is a name is read back as the same call, but
for one thing: a set of a single zone name comes back as that name.  This changes neither the answer
of an evaluation nor the spans it leaves, and a call that has been read is read back unchanged; but
the call made of a request for such a set is not the one that is read (`parse_ofRequest`).
-/

namespace TermProximity

open Numeric

/-! ### Sets of a single name -/

/-- The filter with a set of a single name replaced by that name. -/
def Zone.Filter.plain : Zone.Filter → Zone.Filter
  | all => all
  | named name => named name
  | anyOf names =>
    match names.entries with
    | [name] => named name
    | _ => anyOf names

namespace Zone.Filter

variable {names : Names}

theorem plain_of_one {name : String} (one : names.entries = [name]) :
    (anyOf names).plain = named name := by
  unfold plain
  simp only [one]

theorem plain_of_several {a b : String} {rest : List String}
    (several : names.entries = a :: b :: rest) : (anyOf names).plain = anyOf names := by
  unfold plain
  simp only [several]

theorem plain_of_nil (none_given : names.entries = []) : (anyOf names).plain = anyOf names := by
  unfold plain
  simp only [none_given]

/-- A set of a single name is the only filter that `plain` replaces. -/
theorem plain_cases (filter : Zone.Filter) :
    filter.plain = filter ∨
      ∃ names name, filter = anyOf names ∧ names.entries = [name] ∧ filter.plain = named name := by
  cases filter with
  | all => exact .inl rfl
  | named name => exact .inl rfl
  | anyOf names =>
    cases entries : names.entries with
    | nil => exact .inl (plain_of_nil entries)
    | cons a others =>
      cases others with
      | nil => exact .inr ⟨names, a, rfl, entries, plain_of_one entries⟩
      | cons b rest => exact .inl (plain_of_several entries)

/-- It is replaced wherever it stands. -/
theorem plain_eq_self_iff {filter : Zone.Filter} :
    filter.plain = filter ↔ ∀ name, filter ≠ anyOf (KeyedList.single name) := by
  constructor
  · rintro same name rfl
    rw [plain_of_one (rfl : (KeyedList.single name).entries = [name])] at same
    contradiction
  · intro other
    rcases plain_cases filter with same | ⟨names, name, rfl, entries, -⟩
    · exact same
    · have one : names = KeyedList.single name := KeyedList.ext_entries entries
      exact absurd (congrArg anyOf one) (other name)

theorem check_plain (filter : Zone.Filter) : filter.plain.check = filter.check := by
  rcases plain_cases filter with same | ⟨names, name, rfl, entries, replaced⟩
  · rw [same]
  · have some_name : names.isEmpty = false := by
      rw [KeyedList.isEmpty, entries]
      rfl
    rw [replaced]
    unfold check
    simp [some_name, entries]

theorem admits_plain (filter : Zone.Filter) (expansionOnly : Bool) (zone : Zone) :
    filter.plain.admits expansionOnly zone = filter.admits expansionOnly zone := by
  rcases plain_cases filter with same | ⟨names, name, rfl, entries, replaced⟩
  · rw [same]
  · have alone : names.contains zone.name = (zone.name == name) := by
      rw [KeyedList.contains, KeyedList.find?, entries, KeyedList.findIn?_cons, Bool.eq_iff_iff,
        beq_iff_eq]
      by_cases same : zone.name = name
      · simp [same, Entry.key]
      · simp [same, Entry.key]
    rw [replaced]
    exact alone.symm

theorem plain_of_selects {filter : Zone.Filter} {given : Option (List String)}
    (selects : filter.Selects given) : filter.plain = filter := by
  rcases plain_cases filter with same | ⟨names, name, rfl, entries, -⟩
  · exact same
  · cases selects with
    | anyOf several given =>
      obtain ⟨n, hn, m, hm, apart⟩ := several
      rw [← given, entries, List.mem_singleton] at hn hm
      exact absurd (hn.trans hm.symm) apart

end Zone.Filter

namespace Request

/-- The request with a set of a single zone name replaced by that name. -/
def plain (r : Request) : Request := { r with zones := r.zones.plain }

theorem check_plain (r : Request) : r.plain.check = r.check := by
  unfold check
  rw [show r.plain.zones.check = r.zones.check from r.zones.check_plain]
  rfl

/-- The replacement does not show in an evaluation. -/
theorem evaluate_plain (r : Request) (settings : Settings) (document : DocumentIndex) :
    r.plain.evaluate settings document = r.evaluate settings document := by
  have candidates : r.plain.candidateZones settings document.postings =
      r.candidateZones settings document.postings := by
    unfold candidateZones
    rw [show r.plain.terms = r.terms from rfl]
    cases r.terms with
    | nil => rfl
    | cons term rest =>
      refine List.filter_congr fun zone _ => ?_
      exact r.zones.admits_plain _ zone
  have found : r.plain.answers settings document.postings =
      r.answers settings document.postings := by
    unfold answers
    rw [candidates]
    rfl
  unfold evaluate
  rw [check_plain, candidates, found]

end Request

namespace Call

/-! ### What a written call says -/

/-- The zone names of a filter. -/
def zonesGiven : Zone.Filter → Option (List String)
  | .all => none
  | .named name => some [name]
  | .anyOf names => some names.entries

/-- The numeral of an arrangement. -/
def numeralGiven : Arrangement → Option String
  | .within distance => some (String.ofList (digitsOfNat distance.toNat))
  | .scoredPhrase threshold => some (String.ofList threshold.write)
  | .adjacent | .phrase => none

/-- What the text of a request says. -/
def readingOf (r : Request) : Reading :=
  ⟨functionOf r.arrangement, numeralGiven r.arrangement, zonesGiven r.zones, r.terms⟩

theorem takes_of_check {a : Arrangement} (sensible : Request.checkNumber a = .ok ()) :
    (functionOf a).Takes (numeralGiven a) a := by
  cases a with
  | adjacent => exact .adjacent
  | phrase => exact .phrase
  | within distance =>
    have positive : distance ≠ 0 := by
      rintro rfl
      contradiction
    refine .within ⟨digitsOfNat distance.toNat, .inl String.toList_ofList, Nat.toDigits_ne_nil,
      fun c => isDigit_of_mem_digitsOfNat, natOfDigits_digitsOfNat _, ?_⟩
    rw [Nat.one_le_iff_ne_zero]
    exact fun zero => positive (UInt32.toNat_inj.1 zero)
  | scoredPhrase threshold =>
    have finite := isFinite_of_checkNumber sensible
    refine .scoredPhrase ?_ finite
    rw [String.toList_ofList]
    exact Score.read?_write finite

theorem selects_plain {filter : Zone.Filter} (sensible : filter.check = .ok ()) :
    filter.plain.Selects (zonesGiven filter) := by
  cases filter with
  | all => exact .all
  | named name => exact .named fun n => List.mem_singleton
  | anyOf names =>
    have whole : (KeyedList.ofList names.entries : Names) = names :=
      KeyedList.ext_mem fun n => mem_entries_ofList
    cases entries : names.entries with
    | nil => exact absurd entries (Zone.Filter.check_anyOf.1 sensible).1
    | cons a others =>
      cases others with
      | nil =>
        rw [Zone.Filter.plain_of_one entries]
        exact (Zone.Filter.selects_iff_of_one (whole.symm ▸ entries)).2 rfl
      | cons b rest =>
        rw [Zone.Filter.plain_of_several entries]
        exact (Zone.Filter.selects_iff_of_several (whole.symm ▸ entries)).2 (by rw [whole])

theorem not_blank_of_check {filter : Zone.Filter} (sensible : filter.check = .ok ()) :
    ∀ names ∈ zonesGiven filter, ∀ name ∈ names, Text.isBlankText name = false := by
  intro names given
  cases filter with
  | all => cases given
  | named name =>
    cases given
    exact List.forall_mem_singleton.2 (Zone.Filter.check_named.1 sensible)
  | anyOf set =>
    cases given
    exact (Zone.Filter.check_anyOf.1 sensible).2

/-- What the text of a sensible request says is sensible, and gives the request back. -/
theorem gives_plain {r : Request} (sensible : r.check = .ok ()) :
    (readingOf r).IsSensible ∧ (readingOf r).Gives r.plain := by
  obtain ⟨number, terms, zones⟩ := Request.check_eq_ok_iff.1 sensible
  obtain ⟨enough, not_empty⟩ := Request.checkTerms_eq_ok_iff.1 terms
  have takes := takes_of_check number
  exact ⟨⟨⟨_, takes⟩, not_blank_of_check zones, enough, not_empty⟩,
    ⟨takes, selects_plain zones, rfl⟩⟩

theorem numeral?_zonesArguments (filter : Zone.Filter) :
    (zonesArguments filter).filterMap Argument.numeral? = [] := by
  cases filter <;> rfl

theorem numeral?_numberArguments (a : Arrangement) :
    (numberArguments a).filterMap Argument.numeral? = (numeralGiven a).toList := by
  cases a <;> rfl

theorem zoneNames?_zonesArguments (filter : Zone.Filter) :
    (zonesArguments filter).filterMap Argument.zoneNames? = (zonesGiven filter).toList := by
  cases filter <;> rfl

theorem zoneNames?_numberArguments (a : Arrangement) :
    (numberArguments a).filterMap Argument.zoneNames? = [] := by
  cases a <;> rfl

/-- Zones and numbers are never written as bare names, so nothing is taken for the variable. -/
theorem name_not_mem_leading (r : Request) {text : String} {byte : Nat} :
    .name text byte ∉ zonesArguments r.zones ++ numberArguments r.arrangement := by
  rw [List.mem_append, not_or]
  constructor
  · cases r.zones <;> simp [zonesArguments]
  · cases r.arrangement <;> simp [numberArguments]

theorem says_of_arguments {form : Form} {c : Call}
    (function : form.function = c.request.arrangement.name)
    (same : form.arguments.map (·.place 0) = c.arguments) :
    form.Says c.mapVariable (readingOf c.request) := by
  obtain ⟨before, rest, arguments_eq, before_eq, rest_eq⟩ := List.map_eq_append_iff.1
    (same.trans (List.append_assoc _ _ _).symm)
  obtain ⟨v, after, rfl, v_eq, after_eq⟩ := List.map_eq_cons_iff.1 rest_eq
  obtain ⟨byte, rfl⟩ : ∃ byte, v = .name c.mapVariable byte := by
    cases v with
    | name text byte => cases v_eq; exact ⟨byte, rfl⟩
    | literal | numeral | group => cases v_eq
  -- Where an argument begins makes no difference to what it says.
  have numerals : Argument.numeral? ∘ (·.place 0) = Argument.numeral? := by
    funext a
    cases a <;> rfl
  have zones : Argument.zoneNames? ∘ (·.place 0) = Argument.zoneNames? := by
    funext a
    cases a <;> rfl
  have literals : Argument.literal? ∘ (·.place 0) = Argument.literal? := by
    funext a
    cases a <;> rfl
  refine ⟨function.trans (name_functionOf _).symm, before, byte, after, arguments_eq, ?_, ?_, ?_, ?_⟩
  · intro byte mem
    have placed := List.mem_map_of_mem (f := (·.place 0)) mem
    rw [before_eq] at placed
    exact name_not_mem_leading c.request placed
  · rw [← numerals, ← List.filterMap_map, before_eq, List.filterMap_append, numeral?_zonesArguments,
      numeral?_numberArguments, List.nil_append]
    rfl
  · rw [← zones, ← List.filterMap_map, before_eq, List.filterMap_append, zoneNames?_zonesArguments,
      zoneNames?_numberArguments, List.append_nil]
    rfl
  · rw [← literals, ← List.map_map, after_eq, List.map_map]
    rfl

/-- The text of a sensible request is read back, under a variable that is a name. -/
theorem parse_toText_of_check {r : Request} {mapVariable : String} (sensible : r.check = .ok ())
    (named : IsName mapVariable.toList) :
    parse (toText ⟨r, mapVariable⟩) mapVariable = .ok ⟨r.plain, mapVariable⟩ := by
  obtain ⟨ts, form, cut, spelled, function, same⟩ :=
    exists_isForm (c := ⟨r, mapVariable⟩) named sensible
  obtain ⟨reads, gives⟩ := gives_plain sensible
  have said : form.Says mapVariable (readingOf r) :=
    says_of_arguments (c := ⟨r, mapVariable⟩) function same
  have resolved : form.resolve mapVariable = .ok ⟨r.plain, mapVariable⟩ :=
    Form.resolve_eq_ok_iff.2 ⟨readingOf r, said, reads, rfl, gives⟩
  exact parse_eq_ok_iff_resolve.2 ⟨ts, form, cut, spelled, resolved⟩

/-- A text that is read has the variable as a name among its tokens. -/
theorem exists_name_of_parse_eq_ok {text mapVariable : String} {c : Call}
    (read : parse text mapVariable = .ok c) :
    ∃ ts byte, tokens text = .ok ts ∧ ⟨.name mapVariable, byte⟩ ∈ ts := by
  obtain ⟨ts, form, cut, spelled, resolved⟩ := parse_eq_ok_iff_resolve.1 read
  obtain ⟨r, said, -⟩ := Form.resolve_eq_ok_iff.1 resolved
  obtain ⟨before, byte, after, arguments, -⟩ := said.arguments
  have mentioned : .name mapVariable byte ∈ form.arguments := by
    rw [arguments]
    exact List.mem_append_right _ List.mem_cons_self
  obtain ⟨used, spelled, subset⟩ := spelled.exists_of_mem mentioned
  cases spelled with
  | name => exact ⟨ts, byte, cut, subset List.mem_cons_self⟩

/-- What is read is a sensible request under a variable that is a name. -/
theorem of_parse_eq_ok {text mapVariable : String} {c : Call}
    (read : parse text mapVariable = .ok c) :
    c.mapVariable = mapVariable ∧ IsName mapVariable.toList ∧ c.request.check = .ok () ∧
      c.request.plain = c.request := by
  obtain ⟨ts, byte, cut, mem⟩ := exists_name_of_parse_eq_ok read
  have named := isName_of_mem_tokensFrom cut mem rfl
  obtain ⟨-, form, -, -, resolved⟩ := parse_eq_ok_iff_resolve.1 read
  obtain ⟨r, said, sensible, same, gives⟩ := Form.resolve_eq_ok_iff.1 resolved
  have same_zones : c.request.zones.plain = c.request.zones := Zone.Filter.plain_of_selects gives.zones
  exact ⟨same, named, gives.check sensible, by rw [Request.plain, same_zones]⟩

/--
Written calls are read back, sets of a single zone name as that name, and what has been read comes
back unchanged.
-/
theorem parse_toText :
    (∀ (r : Request) (mapVariable : String), r.check = .ok () →
      tokens mapVariable = .ok [⟨.name mapVariable, 0⟩] →
        parse (toText ⟨r, mapVariable⟩) mapVariable = .ok ⟨r.plain, mapVariable⟩ ∧
          ∀ settings document,
            r.plain.evaluate settings document = r.evaluate settings document) ∧
    (∀ settings : Settings, settings.check = .ok () →
      tokens settings.mapVariable = .ok [⟨.name settings.mapVariable, 0⟩]) ∧
    ∀ (text mapVariable : String) (c : Call), parse text mapVariable = .ok c →
      parse c.toText mapVariable = .ok c := by
  refine ⟨fun r mapVariable sensible named => ?_, fun settings sensible => ?_,
    fun text mapVariable c read => ?_⟩
  · exact ⟨parse_toText_of_check sensible (tokens_eq_name_iff.1 named), r.evaluate_plain⟩
  · unfold Settings.check at sensible
    split at sensible
    · rename_i identifier
      exact tokens_eq_name_iff.2 (isName_of_isIdentifier identifier)
    · cases sensible
  · obtain ⟨rfl, named, sensible, same⟩ := of_parse_eq_ok read
    have back := parse_toText_of_check sensible named
    rw [same] at back
    exact back

/-- A request for a phrase with a threshold of minus one half, in the zones of a single name. -/
def sampleRequest : Request where
  arrangement := .scoredPhrase ⟨0xbf000000⟩
  zones := .anyOf (KeyedList.single "title")
  terms := ["it's", "here"]

theorem parse_toText_sample :
    sampleRequest.check = .ok () ∧ tokens "offsets" = .ok [⟨.name "offsets", 0⟩] ∧
      parse (toText ⟨sampleRequest, "offsets"⟩) "offsets" =
        .ok ⟨{ sampleRequest with zones := .named "title" }, "offsets"⟩ := by
  have sensible : sampleRequest.check = .ok () := by decide
  have named : tokens "offsets" = .ok [⟨.name "offsets", 0⟩] :=
    tokens_eq_name_iff.2 (isName_of_isIdentifier (by decide))
  exact ⟨sensible, named, (parse_toText.1 sampleRequest "offsets" sensible named).1⟩

/-! ### Calls made of requests -/

theorem ofRequest_eq_ok_iff {r : Request} {c : Call} :
    ofRequest r = .ok c ↔ r.check = .ok () ∧ c = ⟨r, Settings.standard.mapVariable⟩ := by
  unfold ofRequest
  cases r.check with
  | error fault => exact ⟨fun h => by contradiction, fun h => by cases h.1⟩
  | ok _ => exact ⟨fun h => ⟨rfl, (Except.ok.inj h).symm⟩, fun h => congrArg Except.ok h.2.symm⟩

theorem isName_standard : IsName Settings.standard.mapVariable.toList :=
  isName_of_isIdentifier (by decide)

/--
The call made of a request is read back with the zones as they are, but for a set of a single name,
which comes back as that name: it is for these sets alone that another call is read than was written.
-/
theorem parse_ofRequest {r : Request} {c : Call} (made : ofRequest r = .ok c) :
    parse c.toText Settings.standard.mapVariable = .ok { c with request := r.plain } ∧
      (parse c.toText Settings.standard.mapVariable = .ok c ↔
        ∀ name, r.zones ≠ .anyOf (KeyedList.single name)) ∧
      ∀ name, r.zones = .anyOf (KeyedList.single name) →
        r.plain = { r with zones := .named name } := by
  obtain ⟨sensible, rfl⟩ := ofRequest_eq_ok_iff.1 made
  have back := parse_toText_of_check sensible isName_standard
  refine ⟨back, ?_, fun name one => ?_⟩
  · rw [back, ← Zone.Filter.plain_eq_self_iff]
    constructor
    · intro same
      exact congrArg (Request.zones ∘ Call.request) (Except.ok.inj same)
    · intro same
      rw [Request.plain, same]
  · have named : r.zones.plain = .named name := by
      rw [one]
      exact Zone.Filter.plain_of_one rfl
    rw [Request.plain, named]

theorem parse_ofRequest_sample :
    ofRequest sampleRequest = .ok ⟨sampleRequest, Settings.standard.mapVariable⟩ ∧
      parse (toText ⟨sampleRequest, Settings.standard.mapVariable⟩) Settings.standard.mapVariable =
        .ok ⟨{ sampleRequest with zones := .named "title" }, Settings.standard.mapVariable⟩ := by
  have made : ofRequest sampleRequest = .ok ⟨sampleRequest, Settings.standard.mapVariable⟩ :=
    ofRequest_eq_ok_iff.2 ⟨by decide, rfl⟩
  obtain ⟨back, -, named⟩ := parse_ofRequest made
  rw [named "title" rfl] at back
  exact ⟨made, back⟩

/-- A request for a phrase in the zones of a set that holds a single name. -/
def sampleSingle : Request where
  arrangement := .phrase
  zones := .anyOf (KeyedList.single "title")
  terms := ["a", "b"]

/-- Not every call made of a request is read back as it was. -/
theorem exists_ofRequest_not_read_back :
    ofRequest sampleSingle = .ok ⟨sampleSingle, Settings.standard.mapVariable⟩ ∧
      parse (toText ⟨sampleSingle, Settings.standard.mapVariable⟩) Settings.standard.mapVariable ≠
        .ok ⟨sampleSingle, Settings.standard.mapVariable⟩ := by
  have sensible : sampleSingle.check = .ok () := by decide
  refine ⟨ofRequest_eq_ok_iff.2 ⟨sensible, rfl⟩, ?_⟩
  rw [parse_toText_of_check sensible isName_standard]
  intro same
  have same_zones : sampleSingle.zones.plain = sampleSingle.zones :=
    congrArg (Request.zones ∘ Call.request) (Except.ok.inj same)
  exact Zone.Filter.plain_eq_self_iff.1 same_zones "title" rfl

end Call

end TermProximity
