import TeamOrders.Command.Kind
import TeamOrders.Json.Value
import TeamOrders.Timestamp

/-!
# Commands

A command is what one instruction in a comment means. An order is a single instruction of one of six
kinds; a payload is an order or a batch, which holds further commands. The kind that a command
states is a field of its own: a command from outside may state a kind that its payload does not
have, and batches from outside may hold batches.
-/

namespace TeamOrders

/-- Start a wave; with no team listed, all teams take part. -/
structure WaveStart where
  wave : String
  teams : List String
deriving DecidableEq, Inhabited

/-- Give tasks to teams. -/
structure TeamAssignment where
  teams : List String
  tasks : List String
  priority : Priority
deriving DecidableEq, Inhabited

/-- Move one task to another team. -/
structure TaskAssignment where
  task : String
  team : String
  priority : Priority
deriving DecidableEq, Inhabited

/-- Hold one team back until another has met a condition. -/
structure BlockingRelation where
  blocked : String
  blocking : String
  condition : String
  until? : Option String
deriving DecidableEq, Inhabited

/-- Let teams wait for each other. -/
structure SyncPoint where
  teams : List String
  condition : String
  trigger : Trigger
deriving DecidableEq, Inhabited

/-- Spread the open tasks over teams. -/
structure BalanceRequest where
  teams : List String
  strategy : Strategy
  constraints : Table Json
deriving DecidableEq, Inhabited

/-- A single instruction. -/
inductive Order where
  | startWave (wave : WaveStart)
  | assignTeams (assignment : TeamAssignment)
  | assignTask (assignment : TaskAssignment)
  | blockTeam (relation : BlockingRelation)
  | syncTeams (point : SyncPoint)
  | balanceLoad (request : BalanceRequest)
deriving DecidableEq, Inhabited

def Order.kind : Order → Kind
  | startWave _ => .waveStart
  | assignTeams _ => .teamAssign
  | assignTask _ => .taskAssign
  | blockTeam _ => .teamBlock
  | syncTeams _ => .teamSync
  | balanceLoad _ => .loadBalance

mutual

/-- What a command carries: an order, or commands to be carried out one after the other. -/
inductive Payload where
  | single (order : Order)
  | batch (members : List Command)

/-- A command with the text it was read from, its sender, and how sure the reading is. -/
structure Command where
  kind : Kind
  rawText : String
  actor : String
  timestamp : Timestamp
  payload : Payload
  confidence : Double
  alternatives : List Command

end

instance : Inhabited Payload := ⟨.batch []⟩
instance : Inhabited Command := ⟨⟨default, "", "", .epoch, default, .zero, []⟩⟩

def Payload.kind : Payload → Kind
  | single order => order.kind
  | batch _ => .batch

/-- A list of names in running text. -/
def listed (names : List String) : String := ", ".intercalate names

/-- The short description of an order. -/
def Order.summary : Order → String
  | startWave p =>
    if p.teams.isEmpty then "start wave " ++ p.wave
    else "start wave " ++ p.wave ++ " with " ++ listed p.teams
  | assignTeams p =>
    "assign " ++ listed p.teams ++ " to tasks " ++ listed p.tasks ++ " (" ++ p.priority.name
      ++ " priority)"
  | assignTask p =>
    "move task " ++ p.task ++ " to " ++ p.team ++ " (" ++ p.priority.name ++ " priority)"
  | blockTeam p => "block " ++ p.blocked ++ " on " ++ p.blocking ++ " until " ++ p.condition
  | syncTeams p => "sync " ++ listed p.teams ++ " on " ++ p.condition
  | balanceLoad p => "balance " ++ listed p.teams ++ " using " ++ p.strategy.name

namespace Command

/-- A command of the kind of its payload, without alternatives. -/
def new (rawText actor : String) (now : Timestamp) (payload : Payload) (confidence : Double) :
    Command :=
  { kind := payload.kind, rawText, actor, timestamp := now, payload
    confidence := confidence.clamp .zero .one, alternatives := [] }

/-- Several commands as one: their texts joined, and the mean of their confidences. -/
def ofMembers (members : List Command) (actor : String) (now : Timestamp) : Command :=
  new ("; ".intercalate (members.map (·.rawText))) actor now (.batch members)
    (Double.mean (members.map (·.confidence)))

def members? (command : Command) : Option (List Command) :=
  match command.payload with
  | .batch members => some members
  | .single _ => none

def summary (command : Command) : String :=
  match command.payload with
  | .single order => order.summary
  | .batch members => "batch of " ++ toString members.length ++ " commands"

end Command

end TeamOrders
