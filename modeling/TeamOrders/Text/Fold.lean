import TeamOrders.Text.Blank
import TeamOrders.Text.Word

/-!
# Words in running text

Word boundaries, and words that are recognised whatever their case. Two letters outside ASCII count
as a form of an ASCII letter: the long s and the Kelvin sign.
-/

namespace TeamOrders.Text

/-- What stands before a place ends in a word character. -/
def endsInWord (before : Option Char) : Bool := before.any isWord

/-- What follows a place starts with a word character. -/
def startsInWord (s : List Char) : Bool := s.head?.any isWord

/-- A word begins or ends between what stands before a place and what follows it. -/
def isBoundary (before : Option Char) (s : List Char) : Bool :=
  endsInWord before != startsInWord s

/-- The character is a form of a small ASCII letter, or the same other character. -/
def foldsTo (letter c : Char) : Bool :=
  c.toLower == letter || (letter == 's' && c == 'ſ') || (letter == 'k' && c == '\u212a')

/-- The rest of a text behind a word in small letters, whatever its case in the text. -/
def dropWord : List Char → List Char → Option (List Char)
  | [], s => some s
  | _ :: _, [] => none
  | letter :: word, c :: s => if foldsTo letter c then dropWord word s else none

end TeamOrders.Text
