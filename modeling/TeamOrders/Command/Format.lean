import TeamOrders.Command.Basic
import TeamOrders.Json.Members

/-!
# Written form of commands

A payload is an object whose member `type` tells its kind, followed by the fields of that kind. A
command writes its fields in order and leaves out an empty list of alternatives; a blocking relation
leaves out a missing `until`.
-/

namespace TeamOrders

open Json

/-- The value of `type` for an order. -/
def Order.tag : Order → String
  | startWave _ => "wave_start"
  | assignTeams _ => "team_assignment"
  | assignTask _ => "task_assignment"
  | blockTeam _ => "blocking_relation"
  | syncTeams _ => "sync_operation"
  | balanceLoad _ => "load_balance_operation"

/-- The value of `type` for a batch. -/
def batchTag : String := "batch_operation"

/-- All values of `type`. Inside a tagged value the position in this list stands for the name. -/
def payloadTags : List String :=
  ["wave_start", "team_assignment", "task_assignment", "blocking_relation", "sync_operation",
    "load_balance_operation", batchTag]

def BalanceRequest.members (p : BalanceRequest) : List (String × Json) :=
  [("teams", strings p.teams), ("strategy", .string p.strategy.name),
    ("constraints", ofTable id p.constraints)]

def Order.members : Order → List (String × Json)
  | startWave p => [("wave", .string p.wave), ("teams", strings p.teams)]
  | assignTeams p =>
    [("teams", strings p.teams), ("tasks", strings p.tasks), ("priority", .string p.priority.name)]
  | assignTask p =>
    [("task_id", .string p.task), ("team", .string p.team), ("priority", .string p.priority.name)]
  | blockTeam p =>
    [("blocked_team", .string p.blocked), ("blocking_team", .string p.blocking),
      ("condition", .string p.condition)] ++ (p.until?.map fun u => ("until", .string u)).toList
  | syncTeams p =>
    [("teams", strings p.teams), ("condition", .string p.condition),
      ("trigger", .string p.trigger.name)]
  | balanceLoad p => p.members

mutual

def Payload.toJson : Payload → Json
  | .single order => .object (("type", .string order.tag) :: order.members)
  | .batch members =>
    .object [("type", .string batchTag), ("commands", .array (commandsToJson members))]

def Command.toJson : Command → Json
  | ⟨kind, rawText, actor, timestamp, payload, confidence, alternatives⟩ =>
    .object ([("kind", .string kind.name), ("raw_text", .string rawText), ("actor", .string actor),
        ("timestamp", .string timestamp.text), ("parameters", payload.toJson),
        ("confidence", .double confidence)] ++
      if alternatives.isEmpty then [] else [("alternatives", .array (commandsToJson alternatives))])

def commandsToJson : List Command → List Json
  | [] => []
  | command :: rest => command.toJson :: commandsToJson rest

end

def BalanceRequest.ofJson? (tagged : Bool) (value : Json) : Option BalanceRequest := do
  let fields ← fields? ["teams", "strategy", "constraints"] value
  let teams ← fields.required "teams" texts?
  let strategy ← fields.required "strategy" (named? tagged Strategy.all Strategy.name)
  let constraints ← fields.defaulted "constraints" .empty opaqueTable?
  some { teams, strategy, constraints }

/-- Reads the fields of an order with a given tag, as they stand inside the tagged value. -/
def Order.ofJson? (tag : String) (value : Json) : Option Order :=
  match tag with
  | "wave_start" => do
    let fields ← fields? ["wave", "teams"] value
    let wave ← fields.required "wave" text?
    let teams ← fields.defaulted "teams" [] texts?
    some (.startWave { wave, teams })
  | "team_assignment" => do
    let fields ← fields? ["teams", "tasks", "priority"] value
    let teams ← fields.required "teams" texts?
    let tasks ← fields.required "tasks" texts?
    let priority ← fields.defaulted "priority" .normal (named? true Priority.all Priority.name)
    some (.assignTeams { teams, tasks, priority })
  | "task_assignment" => do
    let fields ← fields? ["task_id", "team", "priority"] value
    let task ← fields.required "task_id" text?
    let team ← fields.required "team" text?
    let priority ← fields.defaulted "priority" .normal (named? true Priority.all Priority.name)
    some (.assignTask { task, team, priority })
  | "blocking_relation" => do
    let fields ← fields? ["blocked_team", "blocking_team", "condition", "until"] value
    let blocked ← fields.required "blocked_team" text?
    let blocking ← fields.required "blocking_team" text?
    let condition ← fields.required "condition" text?
    let until? ← fields.optionalMember "until" text?
    some (.blockTeam { blocked, blocking, condition, until? })
  | "sync_operation" => do
    let fields ← fields? ["teams", "condition", "trigger"] value
    let teams ← fields.required "teams" texts?
    let condition ← fields.required "condition" text?
    let trigger ← fields.required "trigger" (named? true Trigger.all Trigger.name)
    some (.syncTeams { teams, condition, trigger })
  | "load_balance_operation" => (BalanceRequest.ofJson? true value).map .balanceLoad
  | _ => none

def readTag (tagged : Bool) : Json → Option String
  | .string s => if payloadTags.contains s then some s else none
  | .int n => if tagged && 0 ≤ n then payloadTags[n.toNat]? else none
  | _ => none

/-- Takes a tagged value apart into its tag and the rest. -/
def untag (tagged : Bool) : Json → Option (String × Json)
  | .object members =>
    match members.filter fun m => m.1 == "type" with
    | [(_, tag)] =>
      (readTag tagged tag).map (·, .object (members.filter fun m => m.1 != "type"))
    | _ => none
  | .array (tag :: rest) => (readTag tagged tag).map (·, .array rest)
  | _ => none

mutual

/-- Reads a payload. The fuel bounds the nesting. -/
def readPayload (fuel : Nat) (tagged : Bool) (value : Json) : Option Payload :=
  match fuel with
  | 0 => none
  | fuel + 1 => do
    let (tag, rest) ← untag tagged value
    if tag = batchTag then
      let fields ← fields? ["commands"] rest
      let members ← fields.required "commands" (list? (readCommand fuel true))
      some (.batch members)
    else (Order.ofJson? tag rest).map .single

def readCommand (fuel : Nat) (tagged : Bool) (value : Json) : Option Command :=
  match fuel with
  | 0 => none
  | fuel + 1 => do
    let fields ← fields?
      ["kind", "raw_text", "actor", "timestamp", "parameters", "confidence", "alternatives"] value
    let kind ← fields.required "kind" (named? tagged Kind.all Kind.name)
    let rawText ← fields.required "raw_text" text?
    let actor ← fields.required "actor" text?
    let timestamp ← fields.required "timestamp" fun v => (text? v).bind Timestamp.read
    let payload ← fields.required "parameters" (readPayload fuel tagged)
    let confidence ← fields.required "confidence" double?
    let alternatives ← fields.defaulted "alternatives" [] (list? (readCommand fuel tagged))
    some { kind, rawText, actor, timestamp, payload, confidence, alternatives }

end

def Payload.ofJson? (value : Json) : Option Payload := readPayload (value.depth + 1) false value

def Command.ofJson? (value : Json) : Option Command := readCommand (value.depth + 1) false value

end TeamOrders
