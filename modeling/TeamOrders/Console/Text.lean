import TeamOrders.Context.Basic
import TeamOrders.Dispatch
import TeamOrders.Help
import TeamOrders.Report.Format
import TeamOrders.Json.Writer

/-!
# Texts for the console

How readings, verdicts, contexts and the help are shown to a person at a console.
-/

namespace TeamOrders.Console

/-- Lines as a text, in which every line is ended. -/
def ended (lines : List String) : String := String.join (lines.map (· ++ "\n"))

/-- A command with its kind and its confidence. -/
def commandLine (command : Command) : String :=
  command.kind.name ++ " (" ++ command.confidence.fixed 2 ++ "): " ++ command.summary

def margin (depth : Nat) : String := String.ofList (List.replicate (2 * depth) ' ')

mutual

/-- The lines on a command, its members and its alternatives. -/
def commandLines (depth : Nat) : Command → List String
  | ⟨kind, rawText, actor, timestamp, payload, confidence, alternatives⟩ =>
    let command : Command := ⟨kind, rawText, actor, timestamp, payload, confidence, alternatives⟩
    (margin depth ++ commandLine command) :: memberLines depth payload
      ++ alternatives.map fun other => margin depth ++ "  or " ++ commandLine other

/-- The lines on the members of a payload, one level further in. -/
def memberLines (depth : Nat) : Payload → List String
  | .single _ => []
  | .batch members => commandsLines (depth + 1) members

def commandsLines (depth : Nat) : List Command → List String
  | [] => []
  | command :: rest => commandLines depth command ++ commandsLines depth rest

end

def messageLines (errors warnings : List String) : List String :=
  errors.map ("error: " ++ ·) ++ warnings.map ("warning: " ++ ·)

def readingText (reading : Reading) : String :=
  ended <|
    commandsLines 0 reading.commands
    ++ (if reading.commands.isEmpty then ["No commands parsed"] else [])
    ++ ["confidence " ++ reading.confidence.fixed 2 ++ ", ambiguity " ++ reading.ambiguity.fixed 2
      ++ ", " ++ reading.milliseconds.fixed 2 ++ " ms"]
    ++ messageLines reading.errors reading.warnings

/-- The lines on a command and its verdict. -/
def verdictLines (command : Command) (verdict : Verdict) : List String :=
  ((if verdict.valid then "✓ " else "✗ ") ++ command.summary ++ " [" ++ command.kind.name ++ "]")
    :: verdict.errors.map ("    error: " ++ ·)
    ++ verdict.warnings.map ("    warning: " ++ ·)
    ++ verdict.suggestions.map ("    hint: " ++ ·)

/-- The help on one kind among all kinds. -/
def entryLines (entry : HelpEntry) : List String :=
  let phrases := (Phrase.ofKind entry.kind).map (·.name)
  [entry.kind.name ++ " - " ++ entry.brief, "  usage:    " ++ entry.template]
  ++ (if phrases.isEmpty then [] else ["  grammars: " ++ listed phrases])
  ++ entry.examples.map ("  e.g.      " ++ ·)
  ++ [""]

/-- Templates, phrases and examples of every kind. -/
def patternsText : String := ended (Help.entries.flatMap entryLines)

def topicText (entry : HelpEntry) : String :=
  ended <|
    [entry.kind.name ++ " - " ++ entry.brief, "Usage: " ++ entry.template]
    ++ (if entry.examples.isEmpty then [] else ["Examples:"])
    ++ entry.examples.map ("  " ++ ·)

/-- Names in running text, or a sign that there are none. -/
def listedOrNone (names : List String) : String :=
  if names.isEmpty then "(none)" else listed names

def contextText (context : Context) : String :=
  "\n".intercalate
    ["Repository: " ++ context.repository ++ "#" ++ toString context.issue,
      "Current wave: " ++ (context.currentWave.map toString).getD "(none)",
      "Actor: " ++ context.sender,
      "Teams: " ++ listedOrNone context.teams.names,
      "Tasks: " ++ listedOrNone context.tasks.names]

end TeamOrders.Console
