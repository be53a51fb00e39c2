import TeamOrders.Command.Format
import TeamOrders.Report.Outcome
import TeamOrders.Report.Verdict

/-!
# Written form of verdicts, readings, outcomes and responses

Fields are written in their order. Of an outcome, the actions and the error are left out where there
are none; an empty list of actions is written.
-/

namespace TeamOrders

open Json

namespace Verdict

def toJson (verdict : Verdict) : Json :=
  .object [("valid", .bool verdict.valid), ("errors", strings verdict.errors),
    ("warnings", strings verdict.warnings), ("suggestions", strings verdict.suggestions)]

def ofJson? (value : Json) : Option Verdict := do
  let fields ← fields? ["valid", "errors", "warnings", "suggestions"] value
  let valid ← fields.required "valid" bool?
  let errors ← fields.required "errors" texts?
  let warnings ← fields.required "warnings" texts?
  let suggestions ← fields.required "suggestions" texts?
  some { valid, errors, warnings, suggestions }

end Verdict

namespace Action

def toJson (action : Action) : Json :=
  .object [("type", .string action.type), ("target", .string action.target),
    ("details", ofTable id action.details)]

def ofJson? (value : Json) : Option Action := do
  let fields ← fields? ["type", "target", "details"] value
  let type ← fields.required "type" text?
  let target ← fields.required "target" text?
  let details ← fields.defaulted "details" .empty opaqueTable?
  some { type, target, details }

end Action

namespace Outcome

def toJson (outcome : Outcome) : Json :=
  .object <|
    [("command", outcome.command.toJson), ("success", .bool outcome.success),
      ("message", .string outcome.message)]
    ++ (outcome.actions?.map fun actions => ("actions", .array (actions.map Action.toJson))).toList
    ++ (outcome.error?.map fun error => ("error", .string error)).toList

def ofJson? (value : Json) : Option Outcome := do
  let fields ← fields? ["command", "success", "message", "actions", "error"] value
  let command ← fields.required "command" Command.ofJson?
  let success ← fields.required "success" bool?
  let message ← fields.required "message" text?
  let actions? ← fields.optional "actions" (list? Action.ofJson?)
  let error? ← fields.optional "error" text?
  some { command, success, message, actions?, error? }

end Outcome

namespace Response

def toJson (response : Response) : Json :=
  .object [("success", .bool response.success),
    ("results", .array (response.results.map Outcome.toJson)),
    ("errors", strings response.errors), ("warnings", strings response.warnings),
    ("metadata", .object [("total_commands", nat response.total),
      ("successful_commands", nat response.successful),
      ("processing_time_ms", .double response.milliseconds)])]

def ofJson? (value : Json) : Option Response := do
  let fields ← fields? ["success", "results", "errors", "warnings", "metadata"] value
  let success ← fields.required "success" bool?
  let results ← fields.required "results" (list? Outcome.ofJson?)
  let errors ← fields.required "errors" texts?
  let warnings ← fields.required "warnings" texts?
  let figures ← fields.required "metadata" <|
    fields? ["total_commands", "successful_commands", "processing_time_ms"]
  let total ← figures.required "total_commands" (natBelow? Number.wordLimit)
  let successful ← figures.required "successful_commands" (natBelow? Number.wordLimit)
  let milliseconds ← figures.required "processing_time_ms" double?
  some { success, results, errors, warnings, total, successful, milliseconds }

end Response

namespace Reading

def toJson (reading : Reading) : Json :=
  .object [("commands", .array (commandsToJson reading.commands)),
    ("errors", strings reading.errors), ("warnings", strings reading.warnings),
    ("metadata", .object [("parse_time_ms", .double reading.milliseconds),
      ("confidence", .double reading.confidence),
      ("ambiguity_score", .double reading.ambiguity)])]

def ofJson? (value : Json) : Option Reading := do
  let fields ← fields? ["commands", "errors", "warnings", "metadata"] value
  let commands ← fields.required "commands" (list? Command.ofJson?)
  let errors ← fields.required "errors" texts?
  let warnings ← fields.required "warnings" texts?
  let figures ← fields.required "metadata" <|
    fields? ["parse_time_ms", "confidence", "ambiguity_score"]
  let milliseconds ← figures.required "parse_time_ms" double?
  let confidence ← figures.required "confidence" double?
  let ambiguity ← figures.required "ambiguity_score" double?
  some { commands, errors, warnings, milliseconds, confidence, ambiguity }

end Reading

end TeamOrders
