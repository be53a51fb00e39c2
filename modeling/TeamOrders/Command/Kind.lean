import TeamOrders.Text.Trim

/-!
# The words of commands

The closed lists that commands are made of: their kinds, the priorities of an assignment, what
fires a synchronisation point, and the strategies for spreading work. Each has one written name a
value, and some are also recognised under other words.
-/

namespace TeamOrders

inductive Kind where
  | waveStart
  | teamAssign
  | taskAssign
  | teamBlock
  | teamSync
  | loadBalance
  | batch
deriving DecidableEq, Repr, Inhabited

namespace Kind

/-- All kinds, in the order in which help lists them. -/
def all : List Kind :=
  [waveStart, teamAssign, taskAssign, teamBlock, teamSync, loadBalance, batch]

def name : Kind → String
  | waveStart => "wave_start"
  | teamAssign => "team_assign"
  | taskAssign => "task_assign"
  | teamBlock => "team_block"
  | teamSync => "team_sync"
  | loadBalance => "load_balance"
  | batch => "batch_operation"

end Kind

inductive Priority where
  | low
  | normal
  | high
  | critical
deriving DecidableEq, Repr, Inhabited

namespace Priority

/-- All priorities in ascending order. -/
def all : List Priority := [low, normal, high, critical]

def name : Priority → String
  | low => "low"
  | normal => "normal"
  | high => "high"
  | critical => "critical"

/-- How many priorities are lower. -/
def rank : Priority → Nat
  | low => 0
  | normal => 1
  | high => 2
  | critical => 3

/-- The priority that a word means, whatever its case. -/
def ofWord? (word : String) : Option Priority :=
  match Text.asciiLowered (Text.trimmed word) with
  | "low" => some low
  | "normal" | "medium" => some normal
  | "high" => some high
  | "critical" | "urgent" => some critical
  | _ => none

end Priority

/-- What fires a synchronisation point. -/
inductive Trigger where
  | completion
  | custom
deriving DecidableEq, Repr, Inhabited

namespace Trigger

def all : List Trigger := [completion, custom]

def name : Trigger → String
  | completion => "completion"
  | custom => "custom"

end Trigger

/-- How work is spread over teams. -/
inductive Strategy where
  | roundRobin
  | capacityBased
  | priorityWeighted
deriving DecidableEq, Repr, Inhabited

namespace Strategy

def all : List Strategy := [roundRobin, capacityBased, priorityWeighted]

def name : Strategy → String
  | roundRobin => "round_robin"
  | capacityBased => "capacity_based"
  | priorityWeighted => "priority_weighted"

/-- The strategy that a phrase means, of which only the ASCII letters count. -/
def ofPhrase? (phrase : String) : Option Strategy :=
  let letters := (phrase.toList.map Char.toLower).filter Char.isAlpha
  match String.ofList letters with
  | "roundrobin" => some roundRobin
  | "capacity" | "capacitybased" => some capacityBased
  | "priority" | "priorityweighted" => some priorityWeighted
  | _ => none

end Strategy

end TeamOrders
