import TeamOrders.Context.Basic
import TeamOrders.Json.Members
import TeamOrders.Json.Selection

/-!
# Written form of contexts

Only the ticket has to be given. A missing wave and a missing sender are left out in writing.
-/

namespace TeamOrders.Context

open Json

def toJson (context : Context) : Json :=
  .object <|
    [("issue_number", nat context.issue), ("repository", .string context.repository)]
    ++ (context.currentWave.map fun wave => ("current_wave", nat wave)).toList
    ++ [("available_teams", ofNameSet context.teams), ("available_tasks", ofNameSet context.tasks),
      ("team_memberships", ofTable .string context.memberships),
      ("current_state", ofTable id context.state)]
    ++ (context.actor.map fun actor => ("actor", .string actor)).toList

/-- The fields of a context in the order in which they may be listed. -/
def fieldNames : List String :=
  ["issue_number", "repository", "current_wave", "available_teams", "available_tasks",
    "team_memberships", "current_state", "actor"]

def ofJson? (value : Json) : Option Context := do
  let fields ← fields? fieldNames value
  let issue ← fields.required "issue_number" (natBelow? Number.wordLimit)
  let repository ← fields.required "repository" text?
  let currentWave ← fields.optional "current_wave" (natBelow? Number.halfWordLimit)
  let teams ← fields.defaulted "available_teams" .empty nameSet?
  let tasks ← fields.defaulted "available_tasks" .empty nameSet?
  let memberships ← fields.defaulted "team_memberships" .empty (table? text?)
  let state ← fields.defaulted "current_state" .empty opaqueTable?
  let actor ← fields.optional "actor" text?
  some { issue, repository, currentWave, teams, tasks, memberships, state, actor }

def ofText? (s : String) : Option Context := (readRecord fieldNames s).bind ofJson?

end TeamOrders.Context
