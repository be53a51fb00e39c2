import TeamOrders.Help
import TeamOrders.Reading.Meaning
import TeamOrders.Settings

/-!
# Reading one instruction

Every phrase that fits a segment and has a meaning is a candidate. The first of the surest candidates
is chosen; the others are kept as alternatives, the surest first, as far as they are sure enough and
mean something different.
-/

namespace TeamOrders

/-- Why a text could not be read. -/
inductive ReadingError where
  | emptyInput
  | noMatch (segment : String) (hints : List String)
deriving DecidableEq

namespace ReadingError

def message : ReadingError → String
  | emptyInput => "Empty command input"
  | noMatch segment _ => "Could not understand command: \"" ++ segment ++ "\""

/-- The warning that accompanies an error. -/
def hint : ReadingError → String
  | emptyInput => message emptyInput
  | noMatch segment hints =>
    if hints.isEmpty then "Known commands: " ++ listed (Kind.all.map Kind.name)
    else "Did you mean one of these for \"" ++ segment ++ "\"? " ++ " | ".intercalate hints

end ReadingError

/-- A possible reading of a segment. -/
structure Candidate where
  order : Order
  notes : List String
  confidence : Double
deriving DecidableEq

namespace Candidate

/-- The possible readings of a segment, in the order of the phrases. -/
def ofSegment (segment : List Char) : List Candidate :=
  Phrase.table.filterMap fun phrase =>
    ((phrase.match? segment).bind (Meaning.ofMatch? phrase.kind)).map fun meant =>
      ⟨meant.order, meant.notes, Meaning.baseConfidence phrase.kind⟩

/-- The first of the surest candidates, and the others in their order. -/
def choose : List Candidate → Option (Candidate × List Candidate)
  | [] => none
  | first :: rest =>
    match choose rest with
    | none => some (first, [])
    | some (best, others) =>
      if first.confidence.below best.confidence then some (best, first :: others)
      else some (first, rest)

/-- The candidates whose orders are none of these, each order once. -/
def withNewOrders (known : List Order) : List Candidate → List Candidate
  | [] => []
  | candidate :: rest =>
    if candidate.order ∈ known then withNewOrders known rest
    else candidate :: withNewOrders (candidate.order :: known) rest

/-- The candidates that are kept beside the chosen one. -/
def alternatives (settings : Settings) (chosen : Candidate) (others : List Candidate) :
    List Candidate :=
  let sure := others.filter fun c => !c.confidence.atMost settings.threshold
  -- Before the sort: of candidates for one order, the one whose phrase comes first is kept.
  let different := withNewOrders [chosen.order] sure
  (different.mergeSort fun a b => b.confidence.atMost a.confidence).take settings.maxAlternatives

def toCommand (segment actor : String) (now : Timestamp) (candidate : Candidate) : Command :=
  .new segment actor now (.single candidate.order) candidate.confidence

end Candidate

/-- The command that a segment means, with notes for the sender. -/
def readSegment (settings : Settings) (actor : String) (now : Timestamp) (segment : List Char) :
    Except ReadingError (Command × List String) :=
  let text := String.ofList segment
  match Candidate.choose (Candidate.ofSegment segment) with
  | none => .error (.noMatch text (Help.hints settings.nearMisses segment))
  | some (chosen, others) =>
    let kept := Candidate.alternatives settings chosen others
    .ok ({ chosen.toCommand text actor now with
      alternatives := kept.map (Candidate.toCommand text actor now) }, chosen.notes)

end TeamOrders
