import TeamOrders.Console.Text
import TeamOrders.Report.Markdown

/-!
# Subcommands

What the program can be told to do with a comment: read it, check it, or answer it, and to print the
result as a text or as data; or to list what it understands, or to hold a conversation.
-/

namespace TeamOrders.Console

inductive Format where
  | text
  | json
deriving DecidableEq, Inhabited

/-- What the program is told to do; a comment comes as words. -/
inductive Subcommand where
  | parse (words : List String) (format : Format)
  | validate (words : List String) (format : Format)
  | dispatch (words : List String) (format : Format) (strict : Bool)
  | patterns
  | repl
deriving DecidableEq

namespace Subcommand

def settingsMessage (e : SettingsError) : String := "parser error: " ++ e.message

def comment (words : List String) : String := " ".intercalate words

def parsed (format : Format) (reading : Reading) : String :=
  match format with
  | .json => reading.toJson.pretty ++ "\n"
  | .text => readingText reading

def validated (format : Format) (reading : Reading) (reports : List (Command × Verdict)) : String :=
  match format with
  | .json =>
    let results := reports.map fun (command, verdict) =>
      Json.object [("command", command.toJson), ("validation", verdict.toJson)]
    (Json.object [("results", .array results), ("errors", .strings reading.errors),
      ("warnings", .strings reading.warnings)]).sorted.pretty ++ "\n"
  | .text =>
    ended (reports.flatMap (fun (command, verdict) => verdictLines command verdict)
      ++ messageLines reading.errors reading.warnings)

def dispatched (format : Format) (response : Response) : String :=
  match format with
  | .json => response.toJson.pretty ++ "\n"
  | .text => response.markdown

/-- What a subcommand prints. A conversation prints nothing by itself. -/
def run (settings : Settings) (policy : Policy) (context : Context) (now : Timestamp) :
    Subcommand → Except SettingsError String
  | parse words format => do
    let dispatcher ← Dispatcher.new settings policy
    return parsed format (Reading.ofComment dispatcher.settings context now (comment words))
  | validate words format => do
    let dispatcher ← Dispatcher.new settings policy
    let reading := Reading.ofComment dispatcher.settings context now (comment words)
    let reports := (Dispatcher.unwrapped reading.commands).map fun command =>
      (command, Validation.ofCommand dispatcher.settings context command)
    return validated format reading reports
  | dispatch words format strict => do
    let dispatcher ← Dispatcher.new settings (if strict then .all else policy)
    return dispatched format (dispatcher.respond context now (comment words))
  | patterns => .ok patternsText
  | repl => .ok ""

end Subcommand

end TeamOrders.Console
