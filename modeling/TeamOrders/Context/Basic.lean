import TeamOrders.Json.Value
import TeamOrders.Text.Trim
import TeamOrders.Number.Unsigned
import TeamOrders.Text.Fold

/-!
# The context of a comment

What is known about the ticket that a comment was posted on: where answers go, the wave in progress,
the teams and tasks that exist, who belongs to which team, and further state such as the weights of
the teams. Reading, checking and carrying out commands never change it.
-/

namespace TeamOrders

/-- A snapshot of what commands are understood against. -/
structure Context where
  issue : Nat
  repository : String
  currentWave : Option Nat
  teams : NameSet
  tasks : NameSet
  memberships : Table String
  state : Table Json
  actor : Option String
deriving Inhabited

/-- Why a context cannot be used. -/
inductive ContextError where
  | noRepository
  | noIssue
deriving DecidableEq

def ContextError.message : ContextError → String
  | noRepository => "context has no repository"
  | noIssue => "context has no issue number"

/-- The name of a sender of whom nothing is known. -/
def unknownActor : String := "unknown"

/-- The number behind the first `wave` in a title that is followed by digits of any script. Digits
of other scripts than the Latin one denote no number. -/
def waveNumber? (title : String) : Option Nat :=
  go none title.toList
where
  /-- Looks on from a place in the title, given the character before it. -/
  go : Option Char → List Char → Option Nat
    | _, [] => none
    | before, c :: rest =>
      match digitsBehindWave before (c :: rest) with
      | some digits => Number.readUnsigned Number.halfWordLimit digits
      | none => go (some c) rest
  /-- The digits behind the word `wave` at this place. -/
  digitsBehindWave (before : Option Char) (s : List Char) : Option (List Char) :=
    if Text.endsInWord before then none
    else
      match Text.dropWord "wave".toList s with
      | none => none
      | some rest =>
        let digits := (rest.dropWhile Text.isBlank).takeWhile Text.isDigit
        if (rest.takeWhile Text.isBlank).isEmpty || digits.isEmpty then none else some digits

namespace Context

def new (repository : String) (issue : Nat) : Context :=
  { issue, repository, currentWave := none, teams := .empty, tasks := .empty, memberships := .empty
    state := .empty, actor := none }

/-- The context says where results go. -/
def check (context : Context) : Except ContextError Unit :=
  if Text.isBlankText context.repository then .error .noRepository
  else if context.issue = 0 then .error .noIssue
  else .ok ()

/-- The team is known, whatever the case of its ASCII letters. -/
def hasTeam (context : Context) (team : String) : Bool :=
  context.teams.names.any (Text.sameIgnoringCase team)

def hasTask (context : Context) (task : String) : Bool :=
  context.tasks.names.any (Text.sameIgnoringCase task)

/-- Who sent the comment: the stated sender, else the first who belongs to a team. -/
def sender (context : Context) : String :=
  match context.actor.filter (!Text.isBlankText ·) with
  | some actor => actor
  | none => (context.memberships.keys.head?).getD unknownActor

/-- The number recorded for a team in a table of the state. -/
def teamWeight (context : Context) (key team : String) : Option Double :=
  match (context.state.find? key).bind (Json.member? team) with
  | some (.int n) => some (.ofInt n)
  | some (.double x) => some x
  | _ => none

/-- Takes the current wave from a title that states one. -/
def withTitle (context : Context) (title : String) : Context :=
  match waveNumber? title with
  | some wave => { context with currentWave := some wave }
  | none => context

def withWave (context : Context) (wave : Nat) : Context :=
  { context with currentWave := some wave }

def withTeams (context : Context) (teams : List String) : Context :=
  { context with teams := teams.foldl NameSet.insert context.teams }

def withTasks (context : Context) (tasks : List String) : Context :=
  { context with tasks := tasks.foldl NameSet.insert context.tasks }

def withMembership (context : Context) (actor team : String) : Context :=
  { context with memberships := context.memberships.insert actor team }

def withState (context : Context) (key : String) (value : Json) : Context :=
  { context with state := context.state.insert key value }

def withActor (context : Context) (actor : String) : Context :=
  { context with actor := some actor }

end Context

end TeamOrders
