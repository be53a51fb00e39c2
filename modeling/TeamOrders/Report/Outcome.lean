import TeamOrders.Command.Basic

/-!
# Outcomes

What comes of carrying out commands. An action is a change that the caller is expected to make; an
outcome belongs to one command, and a response gathers the outcomes of a whole comment.
-/

namespace TeamOrders

/-- A change to be made: its type, what it applies to, and further details. -/
structure Action where
  type : String
  target : String
  details : Table Json
deriving DecidableEq

namespace Action

def new (type target : String) (details : List (String × Json)) : Action :=
  ⟨type, target, Table.ofList details⟩

end Action

/-- What came of one command. A failure has no actions, which is not the same as an empty list. -/
structure Outcome where
  command : Command
  success : Bool
  message : String
  actions? : Option (List Action)
  error? : Option String

namespace Outcome

def succeeded (command : Command) (message : String) (actions : List Action) : Outcome :=
  ⟨command, true, message, some actions, none⟩

def failed (command : Command) (message error : String) : Outcome :=
  ⟨command, false, message, none, some error⟩

def actions (outcome : Outcome) : List Action := outcome.actions?.getD []

end Outcome

/-- What came of a comment, with the number of its commands and the time taken in milliseconds. -/
structure Response where
  success : Bool
  results : List Outcome
  errors : List String
  warnings : List String
  total : Nat
  successful : Nat
  milliseconds : Double

namespace Response

/-- A comment of which no command was run. -/
def failed (errors : List String) : Response := ⟨false, [], errors, [], 0, 0, .zero⟩

end Response

/-- What a comment was read as, how sure the reading is, and how many other readings were kept for a
command on average. -/
structure Reading where
  commands : List Command
  errors : List String
  warnings : List String
  milliseconds : Double
  confidence : Double
  ambiguity : Double

namespace Reading

/-- A reading that found nothing but errors. -/
def failed (errors : List String) : Reading := ⟨[], errors, [], .zero, .zero, .zero⟩

end Reading

end TeamOrders
