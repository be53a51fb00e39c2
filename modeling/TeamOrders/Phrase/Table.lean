import TeamOrders.Command.Kind
import TeamOrders.Phrase.Pattern
import TeamOrders.Text.Digit
import TeamOrders.Text.Trim

/-!
# The phrases that commands are written in

Twelve phrasings of the six kinds of orders, in a fixed order that decides between equally good
readings. They are written against the normal form of comments: small letters, single blanks, and
`team x` for `team-x`. A list of teams or tasks is part of a phrase as one fragment, which is taken
apart later.
-/

namespace TeamOrders

/-- The role of a part of a phrase. -/
inductive Slot where
  | wave
  | teams
  | tasks
  | task
  | priority
  | blockedTeams
  | blockingTeams
  | connector
  | condition
  | strategy
  | maxPerTeam
deriving DecidableEq, Repr

/-- A way of putting a kind of command. -/
structure Phrase where
  name : String
  kind : Kind
  slots : List Slot
  pattern : Pattern Slot

namespace Phrase

open Pattern

/-- The characters of names: small letters, digits, the underscore, the point and the dash. -/
def isNameChar (c : Char) : Bool :=
  ('a' ≤ c && c ≤ 'z') || ('0' ≤ c && c ≤ '9') || c == '_' || c == '.' || c == '-'

def name? : Pattern Slot := run isNameChar

/-- A number sign, or nothing. -/
def numberSign : Pattern Slot := optional (word "#")

/-- A word, with or without an `s`. -/
def oneOrMany (w : String) : Pattern Slot := all [word w, optional (word "s")]

/-- A word that introduces names, with or without an `s`, or nothing. -/
def introduced (w : String) : Pattern Slot := optional (all [oneOrMany w, blanks])

/-- One item of a list. -/
def item (w : String) : Pattern Slot := all [introduced w, numberSign, name?]

/-- What stands between the items of a list. -/
def listSeparator : Pattern Slot :=
  choice [all [space, word ",", space], all [space, word "&", space],
    all [blanks, word "and", blanks]]

/-- A list whose items a word may introduce. -/
def list (w : String) : Pattern Slot := all [item w, star (all [listSeparator, item w])]

def teamList (role : Slot) : Pattern Slot := slot role (list "team")

def taskList : Pattern Slot := slot .tasks (list "task")

def oneTask : Pattern Slot := all [introduced "task", numberSign, slot .task name?]

/-- A priority at the end, or nothing. -/
def priorityClause : Pattern Slot :=
  optional <| all
    [blanks, oneOf ["with", "at", "as"], blanks,
      slot .priority (oneOf ["low", "normal", "medium", "high", "critical", "urgent"]),
      optional (all [blanks, word "priority"])]

/-- The rest of a line. -/
def restOfLine : Pattern Slot := run (· != '\n')

/-- A condition at the end, or nothing. -/
def conditionClause : Pattern Slot :=
  optional <| all
    [blanks,
      optional (all [slot .connector (oneOf ["until", "when", "because", "for", "after"]), blanks]),
      slot .condition restOfLine]

/-- What may join the parts of the name of a strategy. -/
def joint : Pattern Slot := char fun c => Text.isBlank c || c == '_' || c == '-'

def strategyClause : Pattern Slot :=
  optional <| all
    [blanks, oneOf ["using", "with", "by", "via"], blanks,
      slot .strategy (choice
        [all [word "round", optional joint, word "robin"],
          all [word "capacity", optional (all [joint, word "based"])],
          all [word "priority", optional (all [joint, word "weighted"])]]),
      optional (all [blanks, word "strategy"])]

/-- A bound on the tasks of a team, or nothing. -/
def maxClause : Pattern Slot :=
  optional <| all
    [blanks, word "max", optional (word "imum"), blanks, slot .maxPerTeam (run Text.isDigit), blanks,
      optional (all [oneOrMany "task", blanks]), word "per", blanks, word "team"]

def waveTeams : Pattern Slot :=
  optional (all [blanks, oneOf ["with", "using", "for"], blanks, teamList .teams])

def article : Pattern Slot := optional (all [word "the", blanks])

/-- `load`, `work` or `workload`. -/
def loadWords : List (Pattern Slot) := [word "load", all [word "work", optional (word "load")]]

/-- The words for bringing teams into step. -/
def syncWords : Pattern Slot := oneOf ["sync", "synchronize", "synchronise", "coordinate"]

/-- Start wave 3 with teams 1-4. -/
def waveStart : Phrase where
  name := "wave_start"
  kind := .waveStart
  slots := [.wave, .teams]
  pattern := all
    [choice [word "start", word "launch", word "begin", all [word "kick", space, word "off"]],
      blanks, article, word "wave", blanks, numberSign, slot .wave name?, waveTeams]

/-- Wave 3 starts. -/
def waveStartPostfix : Phrase where
  name := "wave_start_postfix"
  kind := .waveStart
  slots := [.wave, .teams]
  pattern := all
    [word "wave", blanks, numberSign, slot .wave name?, blanks,
      choice [oneOrMany "start", all [word "launch", optional (word "es")], oneOrMany "begin",
        all [word "go", optional (word "es")]], waveTeams]

def teamAssign : Phrase where
  name := "team_assign"
  kind := .teamAssign
  slots := [.teams, .tasks, .priority]
  pattern := all
    [oneOf ["assign", "give"], blanks, teamList .teams, blanks, oneOf ["to", "with"], blanks,
      taskList, priorityClause]

/-- Delegate tasks to teams. -/
def teamAssignInverse : Phrase where
  name := "team_assign_inverse"
  kind := .teamAssign
  slots := [.tasks, .teams, .priority]
  pattern := all
    [oneOf ["allocate", "delegate", "assign", "give"], blanks, taskList, blanks, word "to", blanks,
      teamList .teams, priorityClause]

def taskReassign : Phrase where
  name := "task_reassign"
  kind := .taskAssign
  slots := [.task, .teams, .priority]
  pattern := all
    [oneOf ["reassign", "move", "transfer"], blanks, oneTask, blanks,
      optional (all [word "over", blanks]), word "to", blanks, teamList .teams, priorityClause]

/-- Let a team take a task over. -/
def taskTakeover : Phrase where
  name := "task_takeover"
  kind := .taskAssign
  slots := [.teams, .task, .priority]
  pattern := all
    [oneOf ["let", "have"], blanks, teamList .teams, blanks,
      choice [all [word "take", blanks, word "over"], word "take", word "own", word "handle"],
      blanks, oneTask, priorityClause]

def teamBlock : Phrase where
  name := "team_block"
  kind := .teamBlock
  slots := [.blockedTeams, .blockingTeams, .connector, .condition]
  pattern := all
    [word "block", blanks, teamList .blockedTeams, blanks, oneOf ["on", "by"], blanks,
      teamList .blockingTeams, conditionClause]

/-- A team waits for another. -/
def teamBlockRelation : Phrase where
  name := "team_block_relation"
  kind := .teamBlock
  slots := [.blockedTeams, .blockingTeams, .connector, .condition]
  pattern := all
    [teamList .blockedTeams, blanks,
      choice
        [all [oneOrMany "wait", blanks, oneOf ["for", "on"]],
          all [oneOrMany "depend", blanks, word "on"], all [oneOrMany "block", blanks, word "on"],
          all [oneOf ["is", "are"], blanks, word "blocked", blanks, oneOf ["by", "on"]]],
      blanks, teamList .blockingTeams, conditionClause]

/-- Synchronise teams on a condition. -/
def teamSync : Phrase where
  name := "team_sync"
  kind := .teamSync
  slots := [.teams, .connector, .condition]
  pattern := all
    [syncWords, blanks, teamList .teams, blanks,
      slot .connector (oneOf ["on", "when", "after", "at", "before"]), blanks,
      slot .condition restOfLine]

def teamSyncBare : Phrase where
  name := "team_sync_bare"
  kind := .teamSync
  slots := [.teams]
  pattern := all [syncWords, blanks, teamList .teams]

def loadBalance : Phrase where
  name := "load_balance"
  kind := .loadBalance
  slots := [.teams, .strategy, .maxPerTeam]
  pattern := all
    [oneOf ["balance", "distribute", "rebalance", "spread"],
      optional (all [blanks, article, choice (loadWords ++ [word "tasks"])]),
      optional (all [blanks, oneOf ["across", "between", "among", "over"]]),
      blanks, teamList .teams, strategyClause, maxClause]

/-- Level the load across teams. -/
def loadBalanceLevel : Phrase where
  name := "load_balance_level"
  kind := .loadBalance
  slots := [.teams, .strategy, .maxPerTeam]
  pattern := all
    [choice [all [word "even", blanks, word "out"], word "level"], blanks, article, choice loadWords,
      blanks, oneOf ["across", "between", "among", "for"], blanks, teamList .teams, strategyClause,
      maxClause]

/-- All phrases, in their order. -/
def table : List Phrase :=
  [waveStart, waveStartPostfix, teamAssign, teamAssignInverse, taskReassign, taskTakeover,
    teamBlock, teamBlockRelation, teamSync, teamSyncBare, loadBalance, loadBalanceLevel]

/-- The kinds of the phrases of a table, each where it comes first. -/
def kinds (phrases : List Phrase) : List Kind := (phrases.map (·.kind)).eraseDups

/-- The phrases of a kind. -/
def ofKind (kind : Kind) : List Phrase := table.filter fun phrase => phrase.kind == kind

/-- The parts of a text that a phrase matches. -/
structure Match where
  filled : List (Slot × List Char)
deriving DecidableEq

/-- The parts of a text that is put in this phrase, if it is. -/
def match? (phrase : Phrase) (s : List Char) : Option Match :=
  (phrase.pattern.fullMatch? s).map fun slots =>
    ⟨slots.map fun (role, span) => (role, span.text)⟩

/-- The first part with a role that is not blank, trimmed. -/
def Match.get? (m : Match) (role : Slot) : Option (List Char) :=
  (m.filled.find? fun (name, text) => name == role && !(Text.trim text).isEmpty).map
    fun (_, text) => Text.trim text

end Phrase

end TeamOrders
