import TermProximity.Call.Form

/-!
# Grammar — the tokens that make a form

The shape of a call as a relation between tokens and what they spell, without regard to how they are
read.  Every reader takes off the front exactly the tokens that spell what it returns, so a form is
read from tokens just when they spell it.
-/

namespace TermProximity

section Except

variable {ε α β : Type}

theorem bind_eq_ok_iff {x : Except ε α} {f : α → Except ε β} {b : β} :
    (x >>= f) = .ok b ↔ ∃ a, x = .ok a ∧ f a = .ok b := by
  cases x with
  | error e =>
    constructor
    · intro h
      cases h
    · rintro ⟨a, h, -⟩
      cases h
  | ok a =>
    constructor
    · intro h
      exact ⟨a, rfl, h⟩
    · rintro ⟨a', h, done⟩
      cases h
      exact done

theorem map_eq_ok_iff {x : Except ε α} {f : α → β} {b : β} :
    x.map f = .ok b ↔ ∃ a, x = .ok a ∧ f a = b := by
  have same : x.map f = (x >>= fun a => .ok (f a)) := by cases x <;> rfl
  rw [same, bind_eq_ok_iff]
  simp only [Except.ok.injEq]

theorem bind_eq_error_iff {x : Except ε α} {f : α → Except ε β} {e : ε} :
    (x >>= f) = .error e ↔ x = .error e ∨ ∃ a, x = .ok a ∧ f a = .error e := by
  cases x with
  | error e' =>
    constructor
    · intro h
      cases h
      exact .inl rfl
    · rintro (h | ⟨a, h, -⟩)
      · cases h
        rfl
      · cases h
  | ok a =>
    constructor
    · intro h
      exact .inr ⟨a, rfl, h⟩
    · rintro (h | ⟨a', h, failed⟩)
      · cases h
      · cases h
        exact failed

theorem map_eq_error_iff {x : Except ε α} {f : α → β} {e : ε} :
    x.map f = .error e ↔ x = .error e := by
  have same : x.map f = (x >>= fun a => .ok (f a)) := by cases x <;> rfl
  rw [same, bind_eq_error_iff]
  simp only [reduceCtorEq, and_false, exists_false, or_false]

end Except

namespace Call

/-- Zone names, bare or quoted, with two bars between neighbours and a parenthesis at the end. -/
inductive IsGroup : List Token → List String → Prop where
  | last {t : Token} {name : String} (zone : t.word = .name name ∨ t.word = .literal name)
    (byte : Nat) : IsGroup [t, ⟨.closeParen, byte⟩] [name]
  | more {t : Token} {name : String} (zone : t.word = .name name ∨ t.word = .literal name)
    (byte : Nat) {ts : List Token} {names : List String} :
    IsGroup ts names → IsGroup (t :: ⟨.bars, byte⟩ :: ts) (name :: names)

/-- A name, a literal, a numeral, or a group of zone names. -/
inductive IsArgument : List Token → Argument → Prop where
  | name (text : String) (byte : Nat) : IsArgument [⟨.name text, byte⟩] (.name text byte)
  | literal (text : String) (byte : Nat) : IsArgument [⟨.literal text, byte⟩] (.literal text byte)
  | numeral (text : String) (byte : Nat) : IsArgument [⟨.numeral text, byte⟩] (.numeral text byte)
  | group (byte : Nat) {ts : List Token} {names : List String} :
    IsGroup ts names → IsArgument (⟨.openParen, byte⟩ :: ts) (.group names byte)

/-- Arguments, one at least, with a comma between neighbours and a parenthesis at the end. -/
inductive IsArguments : List Token → List Argument → Prop where
  | last {ts : List Token} {a : Argument} (byte : Nat) :
    IsArgument ts a → IsArguments (ts ++ [⟨.closeParen, byte⟩]) [a]
  | more {ts ts' : List Token} {a : Argument} {as : List Argument} (byte : Nat) :
    IsArgument ts a → IsArguments ts' as → IsArguments (ts ++ ⟨.comma, byte⟩ :: ts') (a :: as)

/-- Arguments, or none, between parentheses. -/
inductive IsParenthesised : List Token → List Argument → Prop where
  | none (byte byte' : Nat) : IsParenthesised [⟨.openParen, byte⟩, ⟨.closeParen, byte'⟩] []
  | some (byte : Nat) {ts : List Token} {as : List Argument} :
    IsArguments ts as → IsParenthesised (⟨.openParen, byte⟩ :: ts) as

/-- A function name, alone or in the namespace of content functions, and its arguments. -/
inductive IsForm : List Token → Form → Prop where
  | bare (function : String) (byte : Nat) {ts : List Token} {as : List Argument} :
    IsParenthesised ts as → IsForm (⟨.name function, byte⟩ :: ts) ⟨function, byte, as⟩
  | qualified (content colon : Nat) (function : String) (byte : Nat) {ts : List Token}
    {as : List Argument} : IsParenthesised ts as →
      IsForm (⟨.name contentNamespace, content⟩ :: ⟨.colon, colon⟩ :: ⟨.name function, byte⟩ :: ts)
        ⟨function, byte, as⟩

theorem IsGroup.names_ne_nil {ts : List Token} {names : List String} (h : IsGroup ts names) :
    names ≠ [] := by
  cases h with
  | last => exact List.cons_ne_nil _ _
  | more => exact List.cons_ne_nil _ _

theorem IsArguments.exists_of_mem {ts : List Token} {as : List Argument} {a : Argument}
    (h : IsArguments ts as) (mem : a ∈ as) : ∃ used, IsArgument used a ∧ used ⊆ ts := by
  induction h with
  | last _ spelled =>
    obtain rfl := List.mem_singleton.1 mem
    exact ⟨_, spelled, List.subset_append_left _ _⟩
  | more _ spelled _ ih =>
    rcases List.mem_cons.1 mem with rfl | mem
    · exact ⟨_, spelled, List.subset_append_left _ _⟩
    · obtain ⟨used, spelled, subset⟩ := ih mem
      exact ⟨used, spelled, fun t mem =>
        List.mem_append_right _ (List.mem_cons_of_mem _ (subset mem))⟩

/-- Every argument of a form is spelled by some of its tokens. -/
theorem IsForm.exists_of_mem {ts : List Token} {form : Form} {a : Argument} (h : IsForm ts form)
    (mem : a ∈ form.arguments) : ∃ used, IsArgument used a ∧ used ⊆ ts := by
  have listed {ts : List Token} {as : List Argument} (h : IsParenthesised ts as) (mem : a ∈ as) :
      ∃ used, IsArgument used a ∧ used ⊆ ts := by
    cases h with
    | none => contradiction
    | some byte spelled =>
      obtain ⟨used, spelled, subset⟩ := spelled.exists_of_mem mem
      exact ⟨used, spelled, List.subset_cons_of_subset _ subset⟩
  cases h with
  | bare _ _ spelled =>
    obtain ⟨used, spelled, subset⟩ := listed spelled mem
    exact ⟨used, spelled, List.subset_cons_of_subset _ subset⟩
  | qualified _ _ _ _ spelled =>
    obtain ⟨used, spelled, subset⟩ := listed spelled mem
    exact ⟨used, spelled, List.subset_cons_of_subset _
      (List.subset_cons_of_subset _ (List.subset_cons_of_subset _ subset))⟩

/-- No group of a call is without names. -/
theorem IsForm.names_ne_nil {ts : List Token} {form : Form} {names : List String} {byte : Nat}
    (h : IsForm ts form) (mem : .group names byte ∈ form.arguments) : names ≠ [] := by
  obtain ⟨used, spelled, -⟩ := h.exists_of_mem mem
  cases spelled with
  | group _ group => exact group.names_ne_nil

/-- No argument begins with a closing parenthesis. -/
theorem IsArguments.head_ne {ts : List Token} {as : List Argument} (h : IsArguments ts as) :
    ∃ t rest, ts = t :: rest ∧ t.word ≠ .closeParen := by
  have first {ts : List Token} {a : Argument} (h : IsArgument ts a) :
      ∃ t rest, ts = t :: rest ∧ t.word ≠ .closeParen := by
    cases h with
    | name text byte => exact ⟨_, _, rfl, by simp⟩
    | literal text byte => exact ⟨_, _, rfl, by simp⟩
    | numeral text byte => exact ⟨_, _, rfl, by simp⟩
    | group byte names => exact ⟨_, _, rfl, by simp⟩
  cases h with
  | last byte h =>
    obtain ⟨t, rest, rfl, apart⟩ := first h
    exact ⟨t, _, rfl, apart⟩
  | more byte h _ =>
    obtain ⟨t, rest, rfl, apart⟩ := first h
    exact ⟨t, _, rfl, apart⟩

namespace Form

variable (stop : Nat) {ts rest : List Token}

theorem zoneName?_eq_some_iff {w : Word} {name : String} :
    zoneName? w = some name ↔ w = .name name ∨ w = .literal name := by
  cases w <;> simp [zoneName?]

theorem groupNames_append {names : List String} (h : IsGroup ts names) (rest : List Token) :
    groupNames stop (ts ++ rest) = .ok (names, rest) := by
  induction h with
  | last zone byte =>
    rw [List.cons_append, groupNames, zoneName?_eq_some_iff.2 zone]
    rfl
  | more zone byte _ ih =>
    rw [List.cons_append, groupNames, zoneName?_eq_some_iff.2 zone]
    simp only [List.cons_append, ih]
    rfl

/-- The names of a group are read from the tokens that spell it. -/
theorem groupNames_eq_ok_iff {names : List String} :
    groupNames stop ts = .ok (names, rest) ↔ ∃ used, ts = used ++ rest ∧ IsGroup used names := by
  constructor
  · intro read
    fun_induction groupNames stop ts generalizing names rest with
    | case1 => cases read
    | case2 => cases read
    | case3 t text zone byte more ih =>
      obtain ⟨⟨later, after⟩, read', same⟩ := map_eq_ok_iff.1 read
      cases same
      obtain ⟨used, rfl, group⟩ := ih read'
      exact ⟨t :: ⟨.bars, byte⟩ :: used, rfl, .more (zoneName?_eq_some_iff.1 zone) byte group⟩
    | case4 t text zone byte after =>
      cases read
      exact ⟨[t, ⟨.closeParen, byte⟩], rfl, .last (zoneName?_eq_some_iff.1 zone) byte⟩
    | case5 => cases read
  · rintro ⟨used, rfl, group⟩
    exact groupNames_append stop group rest

theorem argument_append {a : Argument} (h : IsArgument ts a) (rest : List Token) :
    argument stop (ts ++ rest) = .ok (a, rest) := by
  cases h with
  | name text byte => rfl
  | literal text byte => rfl
  | numeral text byte => rfl
  | group byte names =>
    rw [List.cons_append, argument, groupNames_append stop names]
    rfl

/-- An argument is read from the tokens that spell it. -/
theorem argument_eq_ok_iff {a : Argument} :
    argument stop ts = .ok (a, rest) ↔ ∃ used, ts = used ++ rest ∧ IsArgument used a := by
  constructor
  · intro read
    unfold argument at read
    split at read
    · cases read; exact ⟨[_], rfl, .name _ _⟩
    · cases read; exact ⟨[_], rfl, .literal _ _⟩
    · cases read; exact ⟨[_], rfl, .numeral _ _⟩
    · rename_i byte more
      obtain ⟨⟨names, after⟩, read', same⟩ := map_eq_ok_iff.1 read
      cases same
      obtain ⟨used, rfl, group⟩ := (groupNames_eq_ok_iff stop).1 read'
      exact ⟨⟨.openParen, byte⟩ :: used, rfl, .group byte group⟩
    · cases read
  · rintro ⟨used, rfl, spelled⟩
    exact argument_append stop spelled rest

theorem argumentList_of_comma {a : Argument} {byte : Nat}
    (read : argument stop ts = .ok (a, ⟨.comma, byte⟩ :: rest)) :
    argumentList stop ts = (argumentList stop rest).map fun (as, rest) => (a :: as, rest) := by
  rw [argumentList]
  split
  · rename_i failed
    cases read.symm.trans failed
  · rename_i read'
    cases read.symm.trans read'
    rfl
  · rename_i read'
    cases read.symm.trans read'
  · rename_i not_comma _ read'
    cases read.symm.trans read'
    exact (not_comma _ _ rfl).elim

theorem argumentList_of_closeParen {a : Argument} {byte : Nat}
    (read : argument stop ts = .ok (a, ⟨.closeParen, byte⟩ :: rest)) :
    argumentList stop ts = .ok ([a], rest) := by
  rw [argumentList]
  split
  · rename_i failed
    cases read.symm.trans failed
  · rename_i read'
    cases read.symm.trans read'
  · rename_i read'
    cases read.symm.trans read'
    rfl
  · rename_i _ not_closed read'
    cases read.symm.trans read'
    exact (not_closed _ _ rfl).elim

/-- Arguments are read from the tokens that spell them. -/
theorem argumentList_eq_ok_iff {as : List Argument} :
    argumentList stop ts = .ok (as, rest) ↔ ∃ used, ts = used ++ rest ∧ IsArguments used as := by
  constructor
  · intro read
    fun_induction argumentList stop ts generalizing as rest with
    | case1 => cases read
    | case2 ts a byte more first ih =>
      obtain ⟨⟨later, after⟩, read', same⟩ := map_eq_ok_iff.1 read
      cases same
      obtain ⟨own, rfl, spelled⟩ := (argument_eq_ok_iff stop).1 first
      obtain ⟨used, rfl, others⟩ := ih read'
      exact ⟨own ++ ⟨.comma, byte⟩ :: used, by simp, .more byte spelled others⟩
    | case3 ts a byte more first =>
      cases read
      obtain ⟨own, rfl, spelled⟩ := (argument_eq_ok_iff stop).1 first
      exact ⟨own ++ [⟨.closeParen, byte⟩], by simp, .last byte spelled⟩
    | case4 => cases read
  · rintro ⟨used, rfl, spelled⟩
    induction spelled with
    | last byte spelled =>
      rw [List.append_assoc]
      exact argumentList_of_closeParen stop (argument_append stop spelled _)
    | more byte spelled _ ih =>
      rw [List.append_assoc, List.cons_append,
        argumentList_of_comma stop (argument_append stop spelled _), ih]
      rfl

/-- The arguments of a call are read from the tokens that spell them with both parentheses. -/
theorem parenthesised_eq_ok_iff {as : List Argument} :
    parenthesised stop ts = .ok (as, rest) ↔
      ∃ used, ts = used ++ rest ∧ IsParenthesised used as := by
  constructor
  · intro read
    unfold parenthesised at read
    split at read
    · cases read
      exact ⟨[_, _], rfl, .none _ _⟩
    · rename_i byte more _
      obtain ⟨used, rfl, spelled⟩ := (argumentList_eq_ok_iff stop).1 read
      exact ⟨⟨.openParen, byte⟩ :: used, rfl, .some byte spelled⟩
    · cases read
  · rintro ⟨used, rfl, spelled⟩
    cases spelled with
    | none byte byte' => rfl
    | some byte spelled =>
      obtain ⟨t, more, rfl, apart⟩ := spelled.head_ne
      have read : argumentList stop (t :: more ++ rest) = .ok (as, rest) :=
        (argumentList_eq_ok_iff stop).2 ⟨_, rfl, spelled⟩
      unfold parenthesised
      split
      · rename_i eq
        obtain ⟨-, eq⟩ := List.cons_eq_cons.1 eq
        obtain ⟨rfl, -⟩ := List.cons_eq_cons.1 eq
        exact absurd rfl apart
      · rename_i eq
        obtain ⟨-, rfl⟩ := List.cons_eq_cons.1 eq
        exact read
      · rename_i other
        exact (other _ _ rfl).elim

theorem functionName_eq_ok_iff {function : String} {byte : Nat} :
    functionName stop ts = .ok ((function, byte), rest) ↔ ts = ⟨.name function, byte⟩ :: rest := by
  constructor
  · intro read
    unfold functionName at read
    split at read
    · cases read
      rfl
    · cases read
  · rintro rfl
    rfl

/-- A name is read with the namespace in front of it, or else where no colon follows. -/
theorem qualifiedName_eq_ok_iff {function : String} {byte : Nat} :
    qualifiedName stop ts = .ok ((function, byte), rest) ↔
      (ts = ⟨.name function, byte⟩ :: rest ∧ ∀ colon more, rest ≠ ⟨.colon, colon⟩ :: more) ∨
        ∃ content colon, ts = ⟨.name contentNamespace, content⟩ :: ⟨.colon, colon⟩ ::
          ⟨.name function, byte⟩ :: rest := by
  constructor
  · intro read
    unfold qualifiedName at read
    split at read
    · cases read
    · rename_i text byte' colon more first
      obtain rfl := (functionName_eq_ok_iff stop).1 first
      split at read
      · rename_i same
        subst same
        obtain rfl := (functionName_eq_ok_iff stop).1 read
        exact .inr ⟨byte', colon, rfl⟩
      · cases read
    · rename_i no_colon first
      cases read
      obtain rfl := (functionName_eq_ok_iff stop).1 first
      exact .inl ⟨rfl, fun colon more eq => no_colon _ _ _ _ (by rw [eq])⟩
  · rintro (⟨rfl, no_colon⟩ | ⟨content, colon, rfl⟩)
    · unfold qualifiedName functionName
      cases rest with
      | nil => rfl
      | cons t more =>
        obtain ⟨word, at_byte⟩ := t
        cases word with
        | colon => exact absurd rfl (no_colon _ _)
        | name _ | literal _ | numeral _ | openParen | closeParen | comma | bars => rfl
    · rfl

theorem ofTokens_of_qualifiedName {function : String} {byte : Nat} {as : List Argument}
    (named : qualifiedName stop ts = .ok ((function, byte), rest))
    (spelled : IsParenthesised rest as) : ofTokens stop ts = .ok ⟨function, byte, as⟩ := by
  have listed : parenthesised stop rest = .ok (as, []) :=
    (parenthesised_eq_ok_iff stop).2 ⟨rest, (List.append_nil rest).symm, spelled⟩
  unfold ofTokens
  exact bind_eq_ok_iff.2 ⟨_, named, bind_eq_ok_iff.2 ⟨_, listed, rfl⟩⟩

/-- The form of a call is read from the tokens that spell it. -/
theorem ofTokens_eq_ok_iff {form : Form} : ofTokens stop ts = .ok form ↔ IsForm ts form := by
  constructor
  · intro read
    unfold ofTokens at read
    obtain ⟨⟨⟨function, byte⟩, rest⟩, named, read⟩ := bind_eq_ok_iff.1 read
    obtain ⟨⟨as, after⟩, listed, read⟩ := bind_eq_ok_iff.1 read
    cases after with
    | cons t more => cases read
    | nil =>
      cases read
      obtain ⟨used, rfl, spelled⟩ := (parenthesised_eq_ok_iff stop).1 listed
      rw [List.append_nil] at named
      rcases (qualifiedName_eq_ok_iff stop).1 named with ⟨rfl, -⟩ | ⟨content, colon, rfl⟩
      · exact .bare function byte spelled
      · exact .qualified content colon function byte spelled
  · intro spelled
    cases spelled with
    | bare function byte spelled =>
      refine ofTokens_of_qualifiedName stop
        ((qualifiedName_eq_ok_iff stop).2 (.inl ⟨rfl, ?_⟩)) spelled
      cases spelled <;> simp
    | qualified content colon function byte spelled =>
      exact ofTokens_of_qualifiedName stop
        ((qualifiedName_eq_ok_iff stop).2 (.inr ⟨content, colon, rfl⟩)) spelled

end Form

end Call

end TermProximity
