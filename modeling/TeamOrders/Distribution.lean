import TeamOrders.Command.Basic
import TeamOrders.Context.Basic
import TeamOrders.Reading.Meaning

/-!
# Spreading tasks over teams

A plan has a row for every listed team, and takes the tasks one by one in their order. In turn, each
goes to the next team that has room. By weight, each goes to the team that has the lowest load for
its weight, the first of several. What no team has room for stays unassigned.
-/

namespace TeamOrders.Distribution

/-- A team with the tasks that it has been given. -/
structure Row where
  team : String
  tasks : List String
deriving DecidableEq

/-- Which tasks go to which team, and which to none. -/
structure Plan where
  rows : List Row
  unassigned : List String
deriving DecidableEq

/-- How many tasks have gone to some team. -/
def Plan.assignedCount (plan : Plan) : Nat := (plan.rows.flatMap (·.tasks)).length

/-- The most tasks that a team may have, if the constraints bound them. -/
def cap? (request : BalanceRequest) : Option Nat :=
  match request.constraints.find? Meaning.maxTasksKey with
  | some (.int n) => if 0 ≤ n then some n.toNat else none
  | _ => none

def hasRoom (cap : Option Nat) (row : Row) : Bool :=
  match cap with
  | some cap => row.tasks.length < cap
  | none => true

def give (task : String) (position : Nat) (rows : List Row) : List Row :=
  rows.modify position fun row => { row with tasks := row.tasks ++ [task] }

/-- A way of choosing rows, with a state that is carried from task to task. -/
structure Chooser (σ : Type) where
  start : σ
  choose : σ → List Row → Option (Nat × σ)

def giveOut {σ : Type} (chooser : Chooser σ) : σ → Plan → List String → Plan
  | _, plan, [] => plan
  | state, plan, task :: rest =>
    match chooser.choose state plan.rows with
    | some (position, state) =>
      giveOut chooser state { plan with rows := give task position plan.rows } rest
    -- The tasks behind it are still tried.
    | none => giveOut chooser state { plan with unassigned := plan.unassigned ++ [task] } rest

/-- The positions of a number of rows, going round from one of them. -/
def around (count next : Nat) : List Nat := (List.range count).map fun i => (next + i) % count

/-- Teams take turns; the state is the position whose turn is next. -/
def inTurn (cap : Option Nat) : Chooser Nat where
  start := 0
  choose next rows :=
    ((around rows.length next).find? fun i => rows[i]?.any (hasRoom cap)).map fun i =>
      (i, (i + 1) % rows.length)

/-- The first position with the lowest value, among those that have one. -/
def lowest (values : List (Option Double)) : Option (Nat × Double) :=
  go 0 none values
where
  /-- Goes on from a position with the lowest value so far. -/
  go (position : Nat) (best : Option (Nat × Double)) :
      List (Option Double) → Option (Nat × Double)
    | [] => best
    | none :: rest => go (position + 1) best rest
    | some value :: rest =>
      match best with
      | some (i, low) =>
        if low.atMost value then go (position + 1) (some (i, low)) rest
        else go (position + 1) (some (position, value)) rest
      | none => go (position + 1) (some (position, value)) rest

/-- The load of a row for its weight. -/
def load (row : Row) (weight : Double) : Double := (Double.ofNat row.tasks.length).div weight

/-- The team with the lowest load for its weight comes next. -/
def byWeight (cap : Option Nat) (weights : List Double) : Chooser Unit where
  start := ()
  choose _ rows :=
    (lowest ((rows.zip weights).map fun (row, weight) =>
      if hasRoom cap row then some (load row weight) else none)).map fun (i, _) => (i, ())

/-- The weight of a team in a table of the state; without a positive number it is one. -/
def weight (context : Context) (key team : String) : Double :=
  match context.teamWeight key team with
  | some w => if Double.zero.below w then w else .one
  | none => .one

/-- The table of the state that holds the weights of a strategy. -/
def weightTable? : Strategy → Option String
  | .roundRobin => none
  | .capacityBased => some "team_capacity"
  | .priorityWeighted => some "team_priority"

/-- The plan before any task is given out. -/
def bare (request : BalanceRequest) : Plan := ⟨request.teams.map (⟨·, []⟩), []⟩

/-- The plan for the open tasks of a context. -/
def plan (request : BalanceRequest) (context : Context) : Plan :=
  let cap := cap? request
  match weightTable? request.strategy with
  | none => giveOut (inTurn cap) (inTurn cap).start (bare request) context.tasks.names
  | some key =>
    let weights := request.teams.map (weight context key)
    giveOut (byWeight cap weights) () (bare request) context.tasks.names

end TeamOrders.Distribution
