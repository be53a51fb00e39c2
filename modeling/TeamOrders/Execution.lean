import TeamOrders.Distribution
import TeamOrders.Json.Members
import TeamOrders.Report.Outcome

/-!
# Carrying out commands

Carrying out a command describes the changes that it asks for; making them is the caller's work. A
command whose kind is not that of its payload is refused. The members of a batch are carried out in
order, a batch among them is refused, and the batch succeeds if any member does.
-/

namespace TeamOrders

/-- Why a command cannot be carried out. -/
inductive ExecutionError where
  | nestedBatch
  | mismatch (kind found : Kind)
  | emptyBatch
deriving DecidableEq

def ExecutionError.message : ExecutionError → String
  | nestedBatch => "unsupported command type: nested " ++ Kind.batch.name
  | mismatch kind found =>
    "parameters for " ++ found.name ++ " do not match command kind " ++ kind.name
  | emptyBatch => "batch operation contains no commands"

namespace Execution

open Json

/-- The message and the actions of an order. -/
structure Effect where
  message : String
  actions : List Action

/-- Tells a team why it is concerned. -/
def notify (team reason : String) (details : List (String × Json)) : Action :=
  .new "notify_team" team (("reason", .string reason) :: details)

def startWave (p : WaveStart) (context : Context) : Effect where
  message :=
    if p.teams.isEmpty then "Started wave " ++ p.wave
    else "Started wave " ++ p.wave ++ " with " ++ listed p.teams
  actions :=
    .new "start_wave" ("wave-" ++ p.wave)
      [("wave", .string p.wave), ("teams", strings p.teams), ("issue", nat context.issue),
        ("repository", .string context.repository)]
    :: p.teams.map fun team => notify team "wave_started" [("wave", .string p.wave)]

def assignTeams (p : TeamAssignment) : Effect where
  message := "Assigned " ++ toString p.tasks.length ++ " task(s) to " ++ listed p.teams ++ " with "
    ++ p.priority.name ++ " priority"
  actions := p.teams.map fun team =>
    .new "assign_tasks" team
      [("tasks", strings p.tasks), ("priority", .string p.priority.name)]

def assignTask (p : TaskAssignment) : Effect where
  message := "Moved task " ++ p.task ++ " to " ++ p.team
  actions :=
    [.new "reassign_task" p.task
        [("team", .string p.team), ("priority", .string p.priority.name)],
      notify p.team "task_reassigned" [("task", .string p.task)]]

def blockTeam (p : BlockingRelation) : Effect where
  message := p.blocked ++ " is blocked on " ++ p.blocking ++ " until " ++ p.condition
  actions :=
    [.new "block_team" p.blocked <|
        [("blocked_by", .string p.blocking), ("condition", .string p.condition)]
        ++ (p.until?.map fun u => ("until", .string u)).toList,
      notify p.blocking "blocking_team" [("blocked_team", .string p.blocked)]]

def syncTeams (p : SyncPoint) : Effect where
  message := "Created " ++ p.trigger.name ++ " sync point for " ++ listed p.teams ++ " on "
    ++ p.condition
  actions :=
    .new "create_sync_point" ("+".intercalate p.teams)
      [("teams", strings p.teams), ("condition", .string p.condition),
        ("trigger", .string p.trigger.name)]
    :: p.teams.map fun team => notify team "sync_point" [("condition", .string p.condition)]

def balanceLoad (p : BalanceRequest) (context : Context) : Effect :=
  let plan := Distribution.plan p context
  let distribution := Table.ofList (plan.rows.map fun row => (row.team, strings row.tasks))
  { message := "Balanced " ++ toString plan.assignedCount ++ " task(s) across "
      ++ toString p.teams.length ++ " team(s) using " ++ p.strategy.name
      ++ (if plan.unassigned.isEmpty then ""
        else ", " ++ toString plan.unassigned.length ++ " left unassigned")
    actions :=
      .new "balance_load" p.strategy.name
        [("teams", strings p.teams), ("constraints", ofTable id p.constraints),
          ("distribution", ofTable id distribution), ("unassigned", strings plan.unassigned)]
      :: (plan.rows.filter fun row => !row.tasks.isEmpty).map fun row =>
        .new "assign_tasks" row.team
          [("tasks", strings row.tasks), ("strategy", .string p.strategy.name)] }

def ofOrder (context : Context) : Order → Effect
  | .startWave p => startWave p context
  | .assignTeams p => assignTeams p
  | .assignTask p => assignTask p
  | .blockTeam p => blockTeam p
  | .syncTeams p => syncTeams p
  | .balanceLoad p => balanceLoad p context

/-- The outcome of a member of a batch, which may not be a batch itself. -/
def ofMember (context : Context) (command : Command) : Except ExecutionError Outcome :=
  if command.kind = .batch then .error .nestedBatch
  else if command.kind ≠ command.payload.kind then
    .error (.mismatch command.kind command.payload.kind)
  else
    match command.payload with
    | .single order =>
      let effect := ofOrder context order
      .ok (.succeeded command effect.message effect.actions)
    | .batch _ => .error .nestedBatch

/-- What the members of a batch have come to. -/
structure Tally where
  successful : Nat
  actions : List Action
  failures : List String

def Tally.add (context : Context) (tally : Tally) (command : Command) : Tally :=
  match ofMember context command with
  | .ok outcome =>
    { tally with
      successful := tally.successful + 1
      actions := tally.actions ++ outcome.actions }
  | .error e =>
    { tally with failures := tally.failures ++ [command.kind.name ++ ": " ++ e.message] }

def ofBatch (context : Context) (command : Command) (members : List Command) :
    Except ExecutionError Outcome :=
  if members.isEmpty then .error .emptyBatch
  else
    let tally := members.foldl (Tally.add context) ⟨0, [], []⟩
    let message := "Batch operation: " ++ toString tally.successful ++ "/"
      ++ toString members.length ++ " commands succeeded"
    .ok (if 0 < tally.successful then .succeeded command message tally.actions
      else .failed command message ("; ".intercalate tally.failures))

def ofCommand (context : Context) (command : Command) : Except ExecutionError Outcome :=
  if command.kind ≠ command.payload.kind then
    .error (.mismatch command.kind command.payload.kind)
  else
    match command.payload with
    | .single order =>
      let effect := ofOrder context order
      .ok (.succeeded command effect.message effect.actions)
    | .batch members => ofBatch context command members

/-- The outcome of a command, where a refusal is a failure. -/
def outcome (context : Context) (command : Command) : Outcome :=
  match ofCommand context command with
  | .ok outcome => outcome
  | .error e => .failed command ("Failed to execute " ++ command.summary) e.message

end Execution

end TeamOrders
