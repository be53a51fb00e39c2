import TeamOrders.Command.Basic
import TeamOrders.Phrase.Table
import TeamOrders.Roster
import TeamOrders.Text.Fold

/-!
# From phrases to orders

What the parts of a matched phrase mean. A phrase that cannot be carried out as it stands, such as
one whose list of teams names no team, has no meaning. Where only one team can be meant and more are
listed, the first counts and a note says so.
-/

namespace TeamOrders.Meaning

open Text

/-- An order, with notes for the sender. -/
structure Meant where
  order : Order
  notes : List String
deriving DecidableEq

/-- The condition of a block that states none. -/
def defaultCondition : String := "completion"

/-- The constraint that bounds the tasks of a team. -/
def maxTasksKey : String := "max_tasks_per_team"

/-- The sureness of a reading as a kind of command. -/
def baseConfidence : Kind → Double
  | .waveStart => .ofDecimal false 9 (-1)
  | .teamAssign | .taskAssign => .ofDecimal false 85 (-2)
  | .teamBlock | .loadBalance => .ofDecimal false 8 (-1)
  | .teamSync => .ofDecimal false 75 (-2)
  | .batch => .zero

/-- The text in a slot, empty if there is none. -/
def textIn (m : Phrase.Match) (slot : Slot) : List Char := (m.get? slot).getD []

/-- The teams in a slot, each once. -/
def teamsIn (m : Phrase.Match) (slot : Slot) : List String :=
  (Roster.distinct (Roster.teams (textIn m slot))).map String.ofList

/-- A name without number signs in front. -/
def unsigned (s : List Char) : String := String.ofList (trimStartBy (· == '#') s)

/-- The stated priority, or the normal one. -/
def priorityIn (m : Phrase.Match) : Priority :=
  (((m.get? .priority).map String.ofList).bind Priority.ofWord?).getD .normal

/-- A text without quotes around it. -/
def unquote (s : List Char) : List Char := trim (trimBy (· == '"') (trim s))

/-- The first of the teams in a role, with a note on the others. -/
def singleTeam (role : String) : List String → Option (String × List String)
  | [] => none
  | [team] => some (team, [])
  | team :: others =>
    some (team, ["Only one " ++ role ++ " team is supported; using " ++ team ++ " and ignoring "
      ++ listed others])

/-- A word that speaks of completion stands at this place, and it stands there as the start of a
word. -/
def speaksOfCompletionAt (before : Option Char) (s : List Char) : Bool :=
  -- The first two may go on, as in `completed`; `done` has to be a whole word.
  !endsInWord before &&
    ("complet".toList.isPrefixOf s || "finish".toList.isPrefixOf s ||
      ("done".toList.isPrefixOf s && !startsInWord (s.drop 4)))

/-- The text speaks of completion from some place on. -/
def speaksOfCompletion (before : Option Char) : List Char → Bool
  | [] => false
  | c :: rest => speaksOfCompletionAt before (c :: rest) || speaksOfCompletion (some c) rest

def waveStart (m : Phrase.Match) : Option Meant := do
  let wave ← m.get? .wave
  some ⟨.startWave { wave := unsigned wave, teams := teamsIn m .teams }, []⟩

def teamAssignment (m : Phrase.Match) : Option Meant := do
  let fragment ← m.get? .tasks
  let teams := teamsIn m .teams
  let tasks := (Roster.distinct (Roster.tasks fragment)).map String.ofList
  if teams.isEmpty || tasks.isEmpty then none
  else some ⟨.assignTeams { teams, tasks, priority := priorityIn m }, []⟩

def taskAssignment (m : Phrase.Match) : Option Meant := do
  let task ← m.get? .task
  let (team, notes) ← singleTeam "target" (teamsIn m .teams)
  some ⟨.assignTask { task := unsigned task, team, priority := priorityIn m }, notes⟩

def blockingRelation (m : Phrase.Match) : Option Meant := do
  let (blocked, blockedNotes) ← singleTeam "blocked" (teamsIn m .blockedTeams)
  let (blocking, blockingNotes) ← singleTeam "blocking" (teamsIn m .blockingTeams)
  let condition := (((m.get? .condition).map unquote).filter (!·.isEmpty)).map String.ofList
  let until? := if m.get? .connector = some "until".toList then condition else none
  some ⟨.blockTeam { blocked, blocking, condition := condition.getD defaultCondition, until? },
    blockedNotes ++ blockingNotes⟩

/-- The meaning of a synchronisation. Without a condition the condition is empty. -/
def syncPoint (m : Phrase.Match) : Option Meant :=
  let teams := teamsIn m .teams
  if teams.isEmpty then none
  else
    let condition := unquote (textIn m .condition)
    let trigger := if speaksOfCompletion none condition then .completion else .custom
    some ⟨.syncTeams { teams, condition := String.ofList condition, trigger }, []⟩

/-- The meaning of a request to spread work. A bound that does not fit 64 bits is not kept. -/
def balanceRequest (m : Phrase.Match) : Option Meant :=
  let teams := teamsIn m .teams
  if teams.isEmpty then none
  else
    let strategy := (((m.get? .strategy).map String.ofList).bind Strategy.ofPhrase?).getD .roundRobin
    let constraints := match (m.get? .maxPerTeam).bind (Number.readUnsigned Number.wordLimit) with
      | some bound => Table.empty.insert maxTasksKey (Json.nat bound)
      | none => .empty
    some ⟨.balanceLoad { teams, strategy, constraints }, []⟩

/-- The meaning of a matched phrase of a kind. -/
def ofMatch? (kind : Kind) (m : Phrase.Match) : Option Meant :=
  match kind with
  | .waveStart => waveStart m
  | .teamAssign => teamAssignment m
  | .taskAssign => taskAssignment m
  | .teamBlock => blockingRelation m
  | .teamSync => syncPoint m
  | .loadBalance => balanceRequest m
  | .batch => none

end TeamOrders.Meaning
