import TeamOrders.Execution
import TeamOrders.Reading.Comment
import TeamOrders.Validation

/-!
# Answering a comment

A comment is read, every command in it is checked, and those that pass are carried out. Nothing stops
the others: what could not be read, what did not pass and what was carried out are all reported in
one response. A batch that reading has made is taken apart again, so that each of its members counts
by itself.
-/

namespace TeamOrders

/-- Settings that have been checked, and the policy that decides on success. -/
structure Dispatcher where
  settings : Settings
  policy : Policy
deriving DecidableEq

namespace Dispatcher

def new (settings : Settings) (policy : Policy) : Except SettingsError Dispatcher :=
  match settings.check with
  | .ok () => .ok ⟨settings, policy⟩
  | .error e => .error e

/-- The commands of a reading, with a batch taken apart. -/
def unwrapped (commands : List Command) : List Command :=
  commands.flatMap fun command => command.members?.getD [command]

/-- What one command adds to the response: its outcome, and warnings. -/
def answer (dispatcher : Dispatcher) (context : Context) (command : Command) :
    Outcome × List String :=
  let verdict := Validation.ofCommand dispatcher.settings context command
  if verdict.valid then
    (Execution.outcome context command, verdict.warnings ++ verdict.suggestions)
  else
    (.failed command ("Validation failed for " ++ command.summary)
      ("; ".intercalate (verdict.errors ++ verdict.suggestions)), [])

/-- The response to a comment. -/
def respond (dispatcher : Dispatcher) (context : Context) (now : Timestamp) (comment : String) :
    Response :=
  if Text.isBlankText comment then .failed [ReadingError.emptyInput.message]
  else
    match context.check with
    | .error e => .failed ["invalid command context: " ++ e.message]
    | .ok () =>
      let reading := Reading.ofComment dispatcher.settings context now comment
      let answers := (unwrapped reading.commands).map (dispatcher.answer context)
      let results := answers.map Prod.fst
      let successful := (results.filter (·.success)).length
      { success := dispatcher.policy.isMet successful results.length
        results
        errors := reading.errors
        warnings := reading.warnings ++ answers.flatMap Prod.snd
        total := results.length
        successful
        milliseconds := .zero }

end Dispatcher

end TeamOrders
