import TeamOrders.Text.Lowercase
import TeamOrders.Text.Trim

/-!
# Near misses

The edit distance of two texts, and the known names that a misspelt one may have meant. The distance
is computed row by row: a row holds the distances from one beginning of the first text to all
beginnings of the second.
-/

namespace TeamOrders.Spelling

open Text

/-- No more names are suggested than this. -/
def maxSuggestions : Nat := 3

/-- Names further away than this are not suggested. -/
def maxDistance : Nat := 2

/-- The rest of the next row. `left` is the entry just found, `corner` the one above it, and the row
above goes on with `above`. -/
def nextCells (c : Char) (left corner : Nat) : List Char → List Nat → List Nat
  | d :: second, top :: above =>
    let cell := min (min (top + 1) (left + 1)) (corner + if c = d then 0 else 1)
    cell :: nextCells c cell top second above
  | _, _ => []

/-- The row below a row, for one more character of the first text. -/
def nextRow (second : List Char) (row : List Nat) (c : Char) : List Nat :=
  match row with
  | corner :: above => (corner + 1) :: nextCells c (corner + 1) corner second above
  | [] => []

/-- The row for the empty beginning of the first text. -/
def firstRow (second : List Char) : List Nat := List.range (second.length + 1)

/-- The least number of insertions, deletions and replacements of single characters that turn one
text into the other. -/
def distance (first second : List Char) : Nat :=
  (first.foldl (nextRow second) (firstRow second)).getLastD 0

/-- A name that is close to a text, with its distance. -/
abbrev Close := Nat × String

/-- Nearer names come first, equally near ones in their own order. -/
def Close.before (a b : Close) : Bool := a.1 < b.1 || (a.1 == b.1 && a.2 ≤ b.2)

/-- The text in small letters, without white space around it. -/
def needle (input : String) : List Char := lower (trim input.toList)

/-- Of the known names, up to three that contain the input or are contained in it, in their order;
if there are none, up to three at a small distance, the nearest first. -/
def suggest (input : String) (known : List String) : List String :=
  let needle := needle input
  if needle.isEmpty then []
  else
    let containing := known.filter fun name =>
      let small := lower name.toList
      small != needle && (occursIn needle small || occursIn small needle)
    if !containing.isEmpty then containing.take maxSuggestions
    else
      let close : List Close := known.filterMap fun name =>
        let d := distance needle (lower name.toList)
        if 0 < d && d ≤ maxDistance then some (d, name) else none
      ((close.mergeSort Close.before).take maxSuggestions).map Prod.snd

end TeamOrders.Spelling
