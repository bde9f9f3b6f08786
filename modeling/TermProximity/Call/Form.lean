import TermProximity.Failure

/-!
# Forms — calls by their shape

A call is a function name, which the namespace of content functions may precede, and arguments in
parentheses.  An argument is a name, a literal, a numeral, or a group of zone names in parentheses
with two bars between them.  A form is what tokens spell when they have this shape, whatever the
function and its arguments mean.

Each reader takes tokens off the front and returns what is left; where the shape is broken it names
the byte of the token at fault, or `stop`, the end of the text, when the tokens have run out.
-/

namespace TermProximity.Call

/-- The namespace of content functions. -/
def contentNamespace : String := "content"

/-- An argument as written, with the byte offset at which it begins. -/
inductive Argument where
  | name (text : String) (byte : Nat)
  | literal (text : String) (byte : Nat)
  | numeral (text : String) (byte : Nat)
  | group (names : List String) (byte : Nat)
  deriving DecidableEq

/-- The byte offset at which an argument begins. -/
def Argument.byte : Argument → Nat
  | name _ byte | literal _ byte | numeral _ byte | group _ byte => byte

/-- A call by its shape. -/
structure Form where
  function : String
  /-- The byte offset of the function name. -/
  byte : Nat
  arguments : List Argument
  deriving DecidableEq

namespace Form

variable (stop : Nat)

/-- The complaint that something else was expected where the given tokens begin. -/
def complain (what : Expected) : List Token → Failure
  | [] => .malformed stop (.expected what none)
  | t :: _ => .malformed t.byte (.expected what (some t.word))

/-- Reads the name of a function. -/
def functionName : List Token → Except Failure ((String × Nat) × List Token)
  | ⟨.name text, byte⟩ :: rest => .ok ((text, byte), rest)
  | ts => .error (complain stop .functionName ts)

/-- Reads the name of a function, skipping the namespace in front of it. -/
def qualifiedName (ts : List Token) : Except Failure ((String × Nat) × List Token) :=
  match functionName stop ts with
  | .error e => .error e
  | .ok ((text, _), ⟨.colon, _⟩ :: rest) =>
    if text = contentNamespace then functionName stop rest
    else .error (.argument (.unknownNamespace text))
  | .ok read => .ok read

/-- The zone name that a word of a group gives. -/
def zoneName? : Word → Option String
  | .name text | .literal text => some text
  | _ => none

/-- Reads the names of a group and its closing parenthesis. -/
def groupNames : List Token → Except Failure (List String × List Token)
  | [] => .error (complain stop .zoneName [])
  | t :: rest =>
    match zoneName? t.word with
    | none => .error (complain stop .zoneName (t :: rest))
    | some text =>
      match rest with
      | ⟨.bars, _⟩ :: rest => (groupNames rest).map fun (names, rest) => (text :: names, rest)
      | ⟨.closeParen, _⟩ :: rest => .ok ([text], rest)
      | ts => .error (complain stop .nextZone ts)

/-- Reads an argument. -/
def argument : List Token → Except Failure (Argument × List Token)
  | ⟨.name text, byte⟩ :: rest => .ok (.name text byte, rest)
  | ⟨.literal text, byte⟩ :: rest => .ok (.literal text byte, rest)
  | ⟨.numeral text, byte⟩ :: rest => .ok (.numeral text byte, rest)
  | ⟨.openParen, byte⟩ :: rest =>
    (groupNames stop rest).map fun (names, rest) => (.group names byte, rest)
  | ts => .error (complain stop .argument ts)

theorem groupNames_shorter {ts rest : List Token} {names : List String}
    (h : groupNames stop ts = .ok (names, rest)) : rest.length < ts.length := by
  fun_induction groupNames stop ts generalizing names rest with
  | case1 => cases h
  | case2 => cases h
  | case3 t text found byte rest' ih =>
    cases e : groupNames stop rest' with
    | error => rw [e] at h; cases h
    | ok read =>
      obtain ⟨names', rest''⟩ := read
      rw [e] at h
      cases h
      have := ih e
      simp only [List.length_cons]
      omega
  | case4 => cases h; simp only [List.length_cons]; omega
  | case5 => cases h

theorem argument_shorter {ts rest : List Token} {a : Argument}
    (h : argument stop ts = .ok (a, rest)) : rest.length < ts.length := by
  unfold argument at h
  split at h
  · cases h; simp
  · cases h; simp
  · cases h; simp
  · rename_i byte rest'
    cases e : groupNames stop rest' with
    | error => rw [e] at h; cases h
    | ok read =>
      obtain ⟨names, rest''⟩ := read
      rw [e] at h
      cases h
      have := groupNames_shorter stop e
      simp only [List.length_cons]
      omega
  · cases h

/-- Reads one argument after another, and the closing parenthesis of the call. -/
def argumentList (ts : List Token) : Except Failure (List Argument × List Token) :=
  match _h : argument stop ts with
  | .error e => .error e
  | .ok (a, ⟨.comma, _⟩ :: rest) => (argumentList rest).map fun (as, rest) => (a :: as, rest)
  | .ok (a, ⟨.closeParen, _⟩ :: rest) => .ok ([a], rest)
  | .ok (_, ts) => .error (complain stop .nextArgument ts)
termination_by ts.length
decreasing_by
  have := argument_shorter stop _h
  simp only [List.length_cons] at this
  omega

/-- Reads the arguments of a call with both parentheses. -/
def parenthesised : List Token → Except Failure (List Argument × List Token)
  | ⟨.openParen, _⟩ :: ⟨.closeParen, _⟩ :: rest => .ok ([], rest)
  | ⟨.openParen, _⟩ :: rest => argumentList stop rest
  | ts => .error (complain stop .openParen ts)

/-- The form that tokens spell; `stop` is the byte length of their text. -/
def ofTokens (ts : List Token) : Except Failure Form := do
  let ((function, byte), rest) ← qualifiedName stop ts
  let (arguments, rest) ← parenthesised stop rest
  match rest with
  | [] => .ok ⟨function, byte, arguments⟩
  | t :: _ => .error (.malformed t.byte (.afterCall t.word))

end Form

end TermProximity.Call
