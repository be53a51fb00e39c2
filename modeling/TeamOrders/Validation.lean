import TeamOrders.Context.Basic
import TeamOrders.Number.Decimal
import TeamOrders.Report.Verdict
import TeamOrders.Settings
import TeamOrders.Spelling
import TeamOrders.Command.Basic

/-!
# Checking commands against their context

Unknown teams are errors. Unknown tasks are only worth a warning, since tasks may be kept elsewhere,
and so is a reading that is not sure enough.
-/

namespace TeamOrders.Validation

/-- Checks that a team is known; if not, names that it may have meant are suggested. -/
def checkTeam (settings : Settings) (context : Context) (verdict : Verdict) (team : String) :
    Verdict :=
  if context.hasTeam team then verdict
  else
    let verdict := verdict.withError ("Unknown team: " ++ team)
    let close := if settings.nearMisses then Spelling.suggest team context.teams.names else []
    if close.isEmpty then verdict
    else verdict.withSuggestion
      ("Did you mean " ++ " or ".intercalate close ++ " instead of " ++ team ++ "?")

def checkTeams (settings : Settings) (context : Context) (verdict : Verdict)
    (teams : List String) : Verdict :=
  teams.foldl (checkTeam settings context) verdict

/-- Warns of a task that is not loaded. -/
def checkTask (context : Context) (verdict : Verdict) (task : String) : Verdict :=
  if context.hasTask task then verdict
  else verdict.withWarning ("Task " ++ task ++ " is not in the loaded task list")

def checkTasks (context : Context) (verdict : Verdict) (tasks : List String) : Verdict :=
  tasks.foldl (checkTask context) verdict

/-- The wave is the one in progress. -/
def isActiveWave (context : Context) (wave : String) : Bool :=
  match Number.readUnsigned Number.halfWordLimit wave.toList with
  | some n => context.currentWave == some n
  | none => false

def ofOrder (settings : Settings) (context : Context) : Order → Verdict
  | .startWave p =>
    let verdict := checkTeams settings context .clean p.teams
    if isActiveWave context p.wave then
      verdict.withWarning ("Wave " ++ p.wave ++ " is already active")
    else verdict
  | .assignTeams p => checkTasks context (checkTeams settings context .clean p.teams) p.tasks
  | .assignTask p => checkTask context (checkTeam settings context .clean p.team) p.task
  | .blockTeam p =>
    if Text.sameIgnoringCase p.blocked p.blocking then
      checkTeam settings context
        (Verdict.clean.withError ("Team " ++ p.blocked ++ " cannot block itself")) p.blocked
    else
      checkTeam settings context (checkTeam settings context .clean p.blocked) p.blocking
  | .syncTeams p =>
    let verdict := checkTeams settings context .clean p.teams
    if Text.isBlankText p.condition then verdict.withError "Sync condition must not be empty"
    else verdict
  | .balanceLoad p =>
    let verdict := checkTeams settings context .clean p.teams
    if p.teams.length < 2 then
      verdict.withWarning ("Load balancing across " ++ toString p.teams.length
        ++ " team has no effect; list at least two teams")
    else verdict

/-- Warns of a reading below the threshold. -/
def checkConfidence (settings : Settings) (confidence : Double) (rawText : String)
    (verdict : Verdict) : Verdict :=
  if confidence.below settings.threshold then
    verdict.withWarning ("Low confidence (" ++ confidence.fixed 2 ++ ") for \"" ++ rawText
      ++ "\"; consider rephrasing the command")
  else verdict

mutual

/-- The verdict on a payload. A batch is judged by its members, of which there has to be one. -/
def ofPayload (settings : Settings) (context : Context) : Payload → Verdict
  | .single order => ofOrder settings context order
  | .batch members =>
    let verdict : Verdict :=
      if members.isEmpty then Verdict.clean.withError "Batch operation contains no commands"
      else .clean
    ofMembers settings context verdict members

def ofCommand (settings : Settings) (context : Context) : Command → Verdict
  | ⟨_, rawText, _, _, payload, confidence, _⟩ =>
    checkConfidence settings confidence rawText (ofPayload settings context payload)

/-- Adds the verdicts on commands to a verdict. -/
def ofMembers (settings : Settings) (context : Context) (verdict : Verdict) :
    List Command → Verdict
  | [] => verdict
  | command :: rest =>
    ofMembers settings context (verdict.merge (ofCommand settings context command)) rest

end

end TeamOrders.Validation
