import TeamOrders.Command.Kind
import TeamOrders.Spelling
import TeamOrders.Text.Letter

/-!
# Help

What each kind of command is for and how it is written, and the hints for a text that could not be
read: the templates of the kinds that one of its words points to.
-/

namespace TeamOrders

structure HelpEntry where
  kind : Kind
  brief : String
  template : String
  keywords : List String
  examples : List String
deriving DecidableEq

namespace Help

def entries : List HelpEntry :=
  [{ kind := .waveStart
     brief := "Start a wave"
     template := "start wave <name> [with teams <team-list>]"
     keywords := ["start", "begin", "launch", "kickoff", "wave"]
     examples := ["start wave 3 with teams 1-4", "wave 2 go"] },
   { kind := .teamAssign
     brief := "Assign teams to tasks"
     template := "assign teams <team-list> to tasks <task-list> [with <priority> priority]"
     keywords := ["assign", "give", "allocate", "delegate"]
     examples := ["assign team-alpha to task 1",
       "delegate tasks W1.T001, W1.T002 to team beta with high priority"] },
   { kind := .taskAssign
     brief := "Move a task to another team"
     template := "reassign task <id> to team <team> [with <priority> priority]"
     keywords := ["reassign", "move", "transfer", "take"]
     examples := ["move task W1.T003 to team gamma", "have team beta take over task 7"] },
   { kind := .teamBlock
     brief := "Block a team on another team"
     template := "block team <team> on team <team> [until <condition>]"
     keywords := ["block", "blocked", "wait", "waits", "depend", "depends"]
     examples := ["block team-a on team-b until api is merged", "team 3 waits for team 1"] },
   { kind := .teamSync
     brief := "Synchronize teams on a condition"
     template := "sync teams <team-list> on <condition>"
     keywords := ["sync", "synchronize", "synchronise", "coordinate"]
     examples := ["sync teams alpha, beta on deploy", "coordinate teams 1-3 after completion"] },
   { kind := .loadBalance
     brief := "Rebalance work across teams"
     template :=
       "balance load across teams <team-list> [using round_robin|capacity_based|priority_weighted]"
     keywords := ["balance", "rebalance", "distribute", "spread", "load"]
     examples := ["balance load across teams 1-4",
       "distribute tasks across teams a, b using capacity based max 5 per team"] },
   { kind := .batch
     brief := "Run several commands in order"
     template := "<command>; <command> | <command> and then <command>"
     keywords := []
     examples := ["start wave 2; assign team a to task 1 then sync teams a, b on done"] }]

def find? (kind : Kind) : Option HelpEntry := entries.find? fun entry => entry.kind == kind

/-- No more templates are hinted at than this. -/
def maxHints : Nat := 3

/-- The words of a text: its rows of letters and numbers that take more than one byte. -/
def words (s : List Char) : List (List Char) :=
  (Text.fields (fun c => !Text.isAlphanumeric c) s).filter fun word =>
    1 < (String.ofList word).utf8ByteSize

/-- A word points to a keyword that it begins with. If near misses count, it also points to a
keyword of more than three letters at distance one. -/
def pointsTo (nearMisses : Bool) (word keyword : List Char) : Bool :=
  keyword.isPrefixOf word ||
    (nearMisses && 3 < keyword.length && Spelling.distance word keyword ≤ 1)

/-- The templates of the first three kinds that a word of the text points to. -/
def hints (nearMisses : Bool) (s : List Char) : List String :=
  let words := words s
  ((entries.filter fun entry => entry.keywords.any fun keyword =>
    words.any fun word => pointsTo nearMisses word keyword.toList).take maxHints).map (·.template)

end Help

end TeamOrders
