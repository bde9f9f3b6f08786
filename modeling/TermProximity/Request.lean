import TermProximity.Zone.Filter

/-!
# Requests — how terms are to be arranged, and in which zones

A request names an arrangement, the zones it asks about and its terms in order, in which a repeated
term counts as often as it stands there.  `Request.check` says which requests make sense; where
several things are wrong it speaks of the number first, then of the terms, then of the zones.
-/

namespace TermProximity

/-- How the terms of a request are to be arranged. -/
inductive Arrangement where
  /-- On consecutive tokens, in any order. -/
  | adjacent
  /-- In a window of the given width, in any order. -/
  | within (distance : UInt32)
  /-- In order, each term directly after the one before. -/
  | phrase
  /-- As a phrase, over positions that score at least the threshold. -/
  | scoredPhrase (threshold : Score)
  deriving DecidableEq

namespace Arrangement

/-- The name of the function that asks for the arrangement. -/
def name : Arrangement → String
  | adjacent => "adjacent"
  | within _ => "within"
  | phrase => "phrase"
  | scoredPhrase _ => "scoredPhrase"

/-- Whether the terms are to stand in order. -/
def isOrdered : Arrangement → Bool
  | phrase | scoredPhrase _ => true
  | adjacent | within _ => false

/-- The distance of a window, where one is given. -/
def distance? : Arrangement → Option UInt32
  | within distance => some distance
  | _ => none

/-- The least score, where one is given. -/
def threshold? : Arrangement → Option Score
  | scoredPhrase threshold => some threshold
  | _ => none

/-- The largest weight that a position may have, where a least score is given. -/
def limit? (a : Arrangement) : Option Weight := a.threshold?.map Score.weight

end Arrangement

/-- What is asked of a document. -/
structure Request where
  arrangement : Arrangement
  zones : Zone.Filter := .all
  terms : List String
  deriving DecidableEq

namespace Request

/-- The width of the window for terms in any order; `n` adjacent terms fit in one of `n - 1`. -/
def spread? (r : Request) : Option UInt32 :=
  match r.arrangement with
  | .within distance => some distance
  | .adjacent => some (UInt32.ofNat (r.terms.length - 1))
  | .phrase | .scoredPhrase _ => none

/-- Refuses a distance of zero and a threshold that is not finite. -/
def checkNumber (a : Arrangement) : Except ArgumentFault Unit :=
  match a with
  | .within distance => if distance = 0 then .error .zeroDistance else .ok ()
  | .scoredPhrase threshold =>
    if threshold.isFinite then .ok () else .error (.thresholdNotFinite threshold)
  | .adjacent | .phrase => .ok ()

/-- Refuses fewer than two terms and empty terms. -/
def checkTerms (r : Request) : Except ArgumentFault Unit :=
  if r.terms.length < 2 then .error (.tooFewTerms r.arrangement.name r.terms.length)
  else if r.terms.any String.isEmpty then .error .emptyTerm
  else .ok ()

/-- Refuses a request that makes no sense. -/
def check (r : Request) : Except ArgumentFault Unit := do
  checkNumber r.arrangement
  r.checkTerms
  r.zones.check

end Request

end TermProximity
