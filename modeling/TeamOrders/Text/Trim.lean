import TeamOrders.Text.Blank

/-!
# Trimming, cutting and searching

Plain functions on texts, a text being its list of characters. `fields` cuts a text at every
separating character and `cutAt` at the first; `trim` removes white space of every script from both
ends.
-/

namespace TeamOrders.Text

def trimStartBy (drop : Char → Bool) (s : List Char) : List Char := s.dropWhile drop

def trimEndBy (drop : Char → Bool) (s : List Char) : List Char := (s.reverse.dropWhile drop).reverse

/-- Drops characters of the class from both ends. -/
def trimBy (drop : Char → Bool) (s : List Char) : List Char := trimEndBy drop (trimStartBy drop s)

def trim (s : List Char) : List Char := trimBy isBlank s

/-- The texts between the characters of the class, in order; there is always at least one. -/
def fields (separates : Char → Bool) : List Char → List (List Char)
  | [] => [[]]
  | c :: rest =>
    if separates c then [] :: fields separates rest
    else match fields separates rest with
      | [] => [[c]]
      | field :: more => (c :: field) :: more

/-- The needle occurs somewhere in the text. -/
def occursIn (needle : List Char) : List Char → Bool
  | [] => needle.isEmpty
  | c :: rest => needle.isPrefixOf (c :: rest) || occursIn needle rest

def trimmed (s : String) : String := String.ofList (trim s.toList)

/-- The text holds white space only, if anything. -/
def isBlankText (s : String) : Bool := s.toList.all isBlank

/-- The text with its ASCII capitals made small. -/
def asciiLowered (s : String) : String := String.ofList (s.toList.map Char.toLower)

/-- The two texts differ at most in the case of ASCII letters. -/
def sameIgnoringCase (a b : String) : Bool := asciiLowered a == asciiLowered b

/-- Cuts a text at the first occurrence of a character, which is dropped. -/
def cutAt (mark : Char) (s : List Char) : Option (List Char × List Char) :=
  match s.dropWhile (· != mark) with
  | [] => none
  | _ :: rest => some (s.takeWhile (· != mark), rest)

end TeamOrders.Text
