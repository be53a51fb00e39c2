import TeamOrders.Number.Unsigned
import TeamOrders.Text.Digit
import TeamOrders.Text.Lowercase
import TeamOrders.Text.Trim

/-!
# Lists of teams and tasks

Expanding a fragment such as `teams 1-3, alpha & #beta` into names. Items are separated by commas and
white space; words that join or introduce items are dropped. A range of numbers stands for all of
them, upwards or downwards, unless it is very wide or its ends do not fit 64 bits: then it is a name
like any other. Teams are named `team-x`.
-/

namespace TeamOrders.Roster

open Text

/-- What the name of a team begins with. -/
def teamPrefix : List Char := "team-".toList

/-- The widest range that is expanded. -/
def maxSpan : Nat := 1000

def connectors : List (List Char) := ["and".toList, "&".toList, "or".toList]

def teamWords : List (List Char) := ["team".toList, "teams".toList]

def taskWords : List (List Char) := ["task".toList, "tasks".toList]

/-- The character stands between items. -/
def separatesItems (c : Char) : Bool := c == ',' || isBlank c

/-- An item without number signs in front and quotes around it. -/
def bare (item : List Char) : List Char := trimBy (· == '"') (trimStartBy (· == '#') item)

/-- The items of a fragment that name something. -/
def items (introducing : List (List Char)) (s : List Char) : List (List Char) :=
  ((fields separatesItems (trim s)).map bare).filter fun item =>
    let small := item.map Char.toLower
    !item.isEmpty && !connectors.contains small && !introducing.contains small

/-- The numbers from one to another, upwards or downwards, both included. -/
def countBetween (first last : Nat) : List Nat :=
  if first ≤ last then (List.range (last - first + 1)).map (first + ·)
  else (List.range (first - last + 1)).map (first - ·)

/-- The numbers that an item such as `4-7` stands for. -/
def range? (item : List Char) : Option (List Nat) :=
  match cutAt '-' item with
  | none => none
  | some (left, right) =>
    match Number.readDigits Number.wordLimit left, Number.readDigits Number.wordLimit right with
    | some first, some last =>
      if (first - last) + (last - first) ≤ maxSpan then some (countBetween first last) else none
    | _, _ => none

/-- The name of a team as given by a word: in small letters, with the prefix. -/
def teamName (word : List Char) : List Char :=
  let small := lower (trimStartBy (· == '#') (trim word))
  if teamPrefix.isPrefixOf small then small else teamPrefix ++ small

def numeral (n : Nat) : List Char := (toString n).toList

/-- The names of teams in a fragment, repetitions kept. -/
def teams (s : List Char) : List (List Char) :=
  (items teamWords s).flatMap fun item =>
    match range? item with
    | some numbers => numbers.map fun n => teamPrefix ++ numeral n
    | none => [teamName item]

/-- The names of tasks in a fragment, repetitions kept. -/
def tasks (s : List Char) : List (List Char) :=
  (items taskWords s).flatMap fun item =>
    match range? item with
    | some numbers => numbers.map numeral
    | none => [item]

/-- The first occurrences of a list, in order. -/
def distinct {α : Type} [DecidableEq α] (names : List α) : List α :=
  go [] names
where
  /-- The elements that have not been seen before. -/
  go (seen : List α) : List α → List α
    | [] => []
    | name :: rest => if name ∈ seen then go seen rest else name :: go (name :: seen) rest

end TeamOrders.Roster
