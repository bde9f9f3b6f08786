import TermProximity.Chain.Search
import TermProximity.Request
import TermProximity.Settings
import TermProximity.Window.Scan

/-!
# Evaluation — which zones of a document answer a request

The zones that come into question are those in which the first term of the request is registered
and which its filter admits.  Each is answered on its own, so positions of different zones are never
put together; the names of the zones that match are the answer.  Phrases leave their spans in the
record of the document, after those that are there.

A request that makes no sense is refused, and then the document stays as it is.
-/

namespace TermProximity

/-- The answer to a request. -/
structure Outcome where
  /-- The names of the zones that match. -/
  matched : Names
  /-- The number of zones that came into question. -/
  zonesSearched : Nat
  deriving DecidableEq

/-- Whether any zone matches. -/
def Outcome.isMatch (o : Outcome) : Bool := !o.matched.isEmpty

namespace Request

/-- The zones that come into question. -/
def candidateZones (r : Request) (settings : Settings) (postings : Postings) : List Zone :=
  match r.terms with
  | [] => []
  | term :: _ => (postings.zones term).filter (r.zones.admits settings.expansionZonesOnly)

/-- The spans found in a zone that matches, which are none for terms in any order. -/
def answerIn? (r : Request) (settings : Settings) (postings : Postings) (zone : Zone.Id) :
    Option (List Span) :=
  match Lineup.resolve? postings zone r.arrangement.limit? r.terms with
  | none => none
  | some lineup =>
    match r.spread? with
    | some width => (lineup.scan width).anchor.map fun _ => []
    | none =>
      match (lineup.search settings.everySpan {}).1 with
      | [] => none
      | spans => some spans

/-- The zones that match, with the spans found in each. -/
def answers (r : Request) (settings : Settings) (postings : Postings) :
    List (Zone × List Span) :=
  (r.candidateZones settings postings).filterMap fun zone =>
    (r.answerIn? settings postings zone.id).map (zone, ·)

/-- The answer to a request, and the document with the spans of its phrases recorded. -/
def evaluate (r : Request) (settings : Settings) (document : DocumentIndex) :
    Except ArgumentFault Outcome × DocumentIndex :=
  match r.check with
  | .error fault => (.error fault, document)
  | .ok () =>
    let found := r.answers settings document.postings
    let outcome : Outcome :=
      ⟨.ofList (found.map (·.1.name)), (r.candidateZones settings document.postings).length⟩
    let spans :=
      if settings.recordSpans then
        found.foldl (fun spans answer => spans.recordEach answer.1.name answer.2) document.spans
      else document.spans
    (.ok outcome, { document with spans := spans })

end Request

end TermProximity
