import TeamOrders.Table
import TeamOrders.Text.Lowercase
import TeamOrders.Text.Substitution
import TeamOrders.Text.Trim

/-!
# Normal form of comments

Case and most punctuation carry no meaning in a comment, so the whole of it is first brought into
the form that the phrases are written against: straight quotes, single blanks, small letters, and
`team x` and `task #1` with a blank. Apostrophes inside words stay. Last, whole words are replaced
by those of the vocabulary that they stand for.
-/

namespace TeamOrders.Comment

open Text

/-- Double quotes that are curly, low, reversed or angled, and the back quote. -/
def isFancyQuote (c : Char) : Bool := "“”„‟«»\u0060".toList.contains c

/-- Single quotes: the apostrophe, and the curly, low and reversed ones. -/
def isSingleQuote (c : Char) : Bool := "'‘’‚‛".toList.contains c

/-- A single quote behind this character opens a quotation. -/
def opensQuote (c : Char) : Bool := isBlank c || c == '('

/-- A single quote before this character closes a quotation. -/
def closesQuote (c : Char) : Bool := isBlank c || ",.;:!?)".toList.contains c

def straighten (s : List Char) : List Char := s.map fun c => if isFancyQuote c then '"' else c

/-- Makes a double quote of every single quote behind a character that opens. -/
def openQuotesWithin : List Char → List Char
  | before :: c :: rest =>
    if opensQuote before && isSingleQuote c then before :: '"' :: openQuotesWithin rest
    else before :: openQuotesWithin (c :: rest)
  | s => s

/-- Makes a double quote of every single quote that opens a quotation, at the start or behind a
character that opens. -/
def openQuotes : List Char → List Char
  | [] => []
  | c :: rest => if isSingleQuote c then '"' :: openQuotesWithin rest else openQuotesWithin (c :: rest)

/-- Makes a double quote of every single quote that closes a quotation, at the end or before a
character that closes. -/
def closeQuotes : List Char → List Char
  | c :: after :: rest =>
    if isSingleQuote c && closesQuote after then '"' :: after :: closeQuotes rest
    else c :: closeQuotes (after :: rest)
  | [c] => if isSingleQuote c then ['"'] else [c]
  | [] => []

/-- Makes one blank of every row of white space; `within` says that a row has begun. -/
def squeeze (within : Bool) : List Char → List Char
  | [] => []
  | c :: rest =>
    if isBlank c then (if within then squeeze true rest else ' ' :: squeeze true rest)
    else c :: squeeze false rest

/-- The start of a word, then the word and the mark. -/
def markedWord (word : String) (mark : Char) (new : String) (before : Option Char)
    (s : List Char) : Option (Nat × List Char) :=
  if endsInWord before then none
  else match dropWord word.toList s with
    | some (c :: _) => if c = mark then some (word.length + 1, new.toList) else none
    | _ => none

/-- Puts a blank between `task` and a number sign. -/
def spaceTasks (s : List Char) : List Char := substitute (markedWord "task" '#' "task #") s

/-- Makes a blank of the dash behind `team`. -/
def spaceTeams (s : List Char) : List Char := substitute (markedWord "team" '-' "team ") s

/-- The words of a vocabulary and what they stand for, longer words first. -/
structure Vocabulary where
  entries : List (List Char × List Char)
deriving DecidableEq

namespace Vocabulary

/-- The vocabulary of a table of words, which are taken in small letters. -/
def ofTable (words : Table String) : Vocabulary :=
  let small := Table.ofList <| words.entries.map fun (word, meaning) =>
    (String.ofList (lower word.toList), String.ofList (lower meaning.toList))
  -- The sort is stable: words of one length stay in the order of their names.
  ⟨(small.entries.mergeSort fun a b => b.1.utf8ByteSize ≤ a.1.utf8ByteSize).map fun (word, meaning) =>
    (word.toList, meaning.toList)⟩

/-- The first word that stands at a place between two word boundaries. -/
def hit (vocabulary : Vocabulary) (before : Option Char) (s : List Char) :
    Option (Nat × List Char) :=
  if isBoundary before s then
    (vocabulary.entries.find? fun (word, _) =>
      word.isPrefixOf s && isBoundary (word.getLast?.or before) (s.drop word.length)).map
        fun (word, meaning) => (word.length, meaning)
  else none

def apply (vocabulary : Vocabulary) (s : List Char) : List Char :=
  if vocabulary.entries.isEmpty then s else substitute vocabulary.hit s

end Vocabulary

/-- The normal form before the vocabulary is applied. -/
def fold (s : List Char) : List Char :=
  -- Nothing is trimmed behind the passes: the blank that is made of a last dash stays.
  lower (spaceTeams (spaceTasks (squeeze false (closeQuotes (openQuotes (straighten (trim s)))))))

/-- The normal form of a text. -/
def normalize (vocabulary : Vocabulary) (s : List Char) : List Char := vocabulary.apply (fold s)

end TeamOrders.Comment
