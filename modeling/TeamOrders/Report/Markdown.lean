import TeamOrders.Number.Decimal
import TeamOrders.Report.Outcome

/-!
# Responses as comments

A response as a comment to be posted: a heading, a summary, and a section each for the outcomes, the
errors and the warnings, where there are any.
-/

namespace TeamOrders.Response

def icon (success : Bool) : String := if success then "✅" else "❌"

/-- The line on one outcome, which is the one with this number. -/
def resultLine (number : Nat) (outcome : Outcome) : String :=
  let start := toString number ++ ". " ++ icon outcome.success ++ " " ++ outcome.message
  match outcome.error? with
  | some error => if outcome.success then start else start ++ " (" ++ error ++ ")"
  | none => start

/-- The lines on the outcomes, numbered from a number on. -/
def resultLines : Nat → List Outcome → List String
  | _, [] => []
  | number, outcome :: rest => resultLine number outcome :: resultLines (number + 1) rest

/-- A section with a title, if it has lines. -/
def titled (title : String) (lines : List String) : List String :=
  if lines.isEmpty then [] else "" :: ("**" ++ title ++ "**") :: lines

/-- The lines of the comment. -/
def lines (response : Response) : List String :=
  [if response.success then "## " ++ icon true ++ " Commands processed"
    else "## " ++ icon false ++ " Commands failed",
    "", "**Summary**",
    "- Total commands: " ++ toString response.total,
    "- Successful: " ++ toString response.successful,
    "- Processing time: " ++ response.milliseconds.fixed 2 ++ " ms"]
  ++ titled "Results" (resultLines 1 response.results)
  ++ titled "Errors" (response.errors.map ("- " ++ ·))
  ++ titled "Warnings" (response.warnings.map ("- " ++ ·))

/-- The comment, every line of which ends with a line break. -/
def markdown (response : Response) : String :=
  String.join (response.lines.map (· ++ "\n"))

end TeamOrders.Response
