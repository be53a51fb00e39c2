import TeamOrders.Text.Substitution
import TeamOrders.Text.Trim

/-!
# Segments of comments

A comment may hold several instructions, separated by a semicolon or by the words `then`, `and then`
and `also`, in any case.
-/

namespace TeamOrders.Comment

open Text

/-- The length of a whole word at a place, whatever its case. -/
def wholeWord (word : String) (s : List Char) : Option Nat :=
  match dropWord word.toList s with
  | some rest => if startsInWord rest then none else some word.length
  | none => none

/-- The length of `and then` at a place, with any white space between the words. -/
def andThen (s : List Char) : Option Nat :=
  match dropWord "and".toList s with
  | some rest =>
    let blanks := (rest.takeWhile isBlank).length
    if blanks = 0 then none
    else (wholeWord "then" (rest.drop blanks)).map (3 + blanks + ·)
  | none => none

/-- The length of a separator at a place. -/
def separator (before : Option Char) (s : List Char) : Option Nat :=
  if s.head? = some ';' then some 1
  else if endsInWord before then none
  else ((andThen s).or (wholeWord "then" s)).or (wholeWord "also" s)

/-- The instructions of a text, trimmed; empty ones are dropped. -/
def segments (s : List Char) : List (List Char) :=
  ((cut separator s).map trim).filter (!·.isEmpty)

end TeamOrders.Comment
