import TeamOrders.Text.Fold

/-!
# Replacing and cutting from left to right

A hit looks at a place in a text, with the character before it, and tells how many characters match
there. `substitute` replaces every match and `cut` removes it, taking matches from left to right and
never two that overlap. An empty match directly behind another match does not count.
-/

namespace TeamOrders.Text

/-- Replaces the matches of a text. Of the match at hand, `skip` characters are still to be passed
over; `adjacent` says that a match has just ended. -/
def substituteFrom (hit : Option Char → List Char → Option (Nat × List Char)) :
    Nat → Bool → Option Char → List Char → List Char
  | 0, adjacent, before, [] =>
    match hit before [] with
    | some (0, new) => if adjacent then [] else new
    | _ => []
  | _ + 1, _, _, [] => []
  | skip + 1, _, _, c :: rest => substituteFrom hit skip true (some c) rest
  | 0, adjacent, before, c :: rest =>
    match hit before (c :: rest) with
    | some (length + 1, new) => new ++ substituteFrom hit length true (some c) rest
    | some (0, new) =>
      (if adjacent then [] else new) ++ c :: substituteFrom hit 0 false (some c) rest
    | none => c :: substituteFrom hit 0 false (some c) rest

/-- Replaces every match of a text. -/
def substitute (hit : Option Char → List Char → Option (Nat × List Char)) (s : List Char) :
    List Char := substituteFrom hit 0 false none s

/-- The pieces between the matches of a text. Of the match at hand, `skip` characters are still to
be passed over; `piece` holds, in reverse, what has been read since the last match. Empty matches do
not count. -/
def cutFrom (hit : Option Char → List Char → Option Nat) :
    Nat → List Char → Option Char → List Char → List (List Char)
  | _, piece, _, [] => [piece.reverse]
  | skip + 1, piece, _, c :: rest => cutFrom hit skip piece (some c) rest
  | 0, piece, before, c :: rest =>
    match hit before (c :: rest) with
    | some (length + 1) => piece.reverse :: cutFrom hit length [] (some c) rest
    | _ => cutFrom hit 0 (c :: piece) (some c) rest

/-- The pieces between the matches of a text, of which there is always at least one. -/
def cut (hit : Option Char → List Char → Option Nat) (s : List Char) : List (List Char) :=
  cutFrom hit 0 [] none s

end TeamOrders.Text
