import TeamOrders.Number.Unsigned
import TeamOrders.Text.Trim

/-!
# Moments in time

A moment is a number of seconds since the start of 1970 in universal time, with nanoseconds. A leap
second shares the count of the second before it and has a billion nanoseconds more. Moments are
written in the form of RFC 3339, and read from it with some freedom: a blank may stand for the `T`,
blanks may stand between the parts, and numbers may be short.
-/

namespace TeamOrders

/-- A moment in universal time. -/
structure Timestamp where
  seconds : Int
  nanos : Nat
deriving DecidableEq, Inhabited

namespace Timestamp

/-- The start of 1970. -/
def epoch : Timestamp := ⟨0, 0⟩

structure Day where
  year : Int
  month : Nat
  day : Nat

/-- The year has a 29th of February. -/
def isLeapYear (year : Int) : Bool := year % 4 = 0 && (year % 100 ≠ 0 || year % 400 = 0)

/-- The number of days in a month. -/
def daysInMonth (year : Int) (month : Nat) : Nat :=
  if month = 2 then (if isLeapYear year then 29 else 28)
  else if month = 4 || month = 6 || month = 9 || month = 11 then 30
  else 31

/-- Days are counted from here to here. -/
def firstYear : Int := -262143
def lastYear : Int := 262142

def Day.valid (d : Day) : Bool :=
  firstYear ≤ d.year && d.year ≤ lastYear && 1 ≤ d.month && d.month ≤ 12
    && 1 ≤ d.day && d.day ≤ daysInMonth d.year d.month

/-- Days since the start of 1970. Years are counted from March, so that the leap day comes last. -/
def Day.number (d : Day) : Int :=
  let year := if d.month ≤ 2 then d.year - 1 else d.year
  let month := (d.month + 9) % 12
  let dayOfYear := (153 * month + 2) / 5 + d.day - 1
  let cycle := year.fdiv 400
  let yearOfCycle := year - cycle * 400
  cycle * 146097 + (yearOfCycle * 365 + yearOfCycle / 4 - yearOfCycle / 100 + dayOfYear) - 719468

def Day.ofNumber (n : Int) : Day :=
  let shifted := n + 719468
  let cycle := shifted.fdiv 146097
  let dayOfCycle := (shifted - cycle * 146097).toNat
  let yearOfCycle :=
    (dayOfCycle - dayOfCycle / 1460 + dayOfCycle / 36524 - dayOfCycle / 146096) / 365
  let dayOfYear := dayOfCycle - (365 * yearOfCycle + yearOfCycle / 4 - yearOfCycle / 100)
  let marchMonth := (5 * dayOfYear + 2) / 153
  let month := if marchMonth < 10 then marchMonth + 3 else marchMonth - 9
  let year : Int := yearOfCycle + cycle * 400
  { year := if month ≤ 2 then year + 1 else year
    month
    day := dayOfYear - (153 * marchMonth + 2) / 5 + 1 }

/-- A number with zeros in front, up to a width. -/
def padded (width n : Nat) : String :=
  let digits := toString n
  String.ofList (List.replicate (width - digits.length) '0') ++ digits

/-- The year with four digits, and with a sign outside 0 to 9999. -/
def yearText (year : Int) : String :=
  if 0 ≤ year && year ≤ 9999 then padded 4 year.toNat
  else (if year < 0 then "-" else "+") ++ padded 4 year.natAbs

/-- The fraction of a second in as few groups of three digits as show all of it. -/
def fractionText (nanos : Nat) : String :=
  if nanos = 0 then ""
  else if nanos % 1000000 = 0 then "." ++ padded 3 (nanos / 1000000)
  else if nanos % 1000 = 0 then "." ++ padded 6 (nanos / 1000)
  else "." ++ padded 9 nanos

/-- The moment in universal time. -/
def text (t : Timestamp) : String :=
  let number := t.seconds.fdiv 86400
  let rest := (t.seconds - number * 86400).toNat
  let day := Day.ofNumber number
  yearText day.year ++ "-" ++ padded 2 day.month ++ "-" ++ padded 2 day.day ++ "T"
    ++ padded 2 (rest / 3600) ++ ":" ++ padded 2 (rest / 60 % 60) ++ ":"
    ++ padded 2 (rest % 60 + t.nanos / 1000000000) ++ fractionText (t.nanos % 1000000000) ++ "Z"

def skip (s : List Char) : List Char := Text.trimStartBy Text.isBlank s

/-- Reads a number of at most `width` digits. -/
def readNumber (width : Nat) (s : List Char) : Option (Nat × List Char) :=
  let digits := (s.take width).takeWhile Number.isAsciiDigit
  if digits.isEmpty then none else some (Number.digitsValue 0 digits, s.drop digits.length)

/-- Reads a character that has to stand next. -/
def readMark (mark : Char) (s : List Char) : Option (List Char) :=
  match skip s with
  | c :: rest => if c = mark then some rest else none
  | [] => none

/-- Reads a year: four digits at most, or a sign and any number of digits. -/
def readYear (s : List Char) : Option (Int × List Char) :=
  match skip s with
  | '-' :: rest => (readNumber rest.length rest).map fun (n, rest) => (-(n : Int), rest)
  | '+' :: rest => (readNumber rest.length rest).map fun (n, rest) => ((n : Int), rest)
  | rest => (readNumber 4 rest).map fun (n, rest) => ((n : Int), rest)

def readPair (s : List Char) : Option (Nat × List Char) := readNumber 2 (skip s)

/-- Reads the fraction of a second, of which nine digits count. -/
def readFraction : List Char → Option (Nat × List Char)
  | '.' :: rest =>
    let digits := rest.takeWhile Number.isAsciiDigit
    let counted := digits.take 9
    if digits.isEmpty then none
    else some (Number.digitsValue 0 counted * Nat.pow 10 (9 - counted.length), rest.drop digits.length)
  | rest => some (0, rest)

def readTwo : List Char → Option (Nat × List Char)
  | a :: b :: rest =>
    if Number.isAsciiDigit a && Number.isAsciiDigit b then
      some (Number.digitValue a * 10 + Number.digitValue b, rest)
    else none
  | _ => none

/-- Reads hours and minutes, with colons and blanks allowed between them, as seconds. -/
def readHours (s : List Char) : Option (Nat × List Char) := do
  let (hours, rest) ← readTwo s
  let (minutes, rest) ← readTwo (rest.dropWhile fun c => c == ':' || Text.isBlank c)
  if minutes < 60 then some (hours * 3600 + minutes * 60, rest) else none

/-- Reads the distance from universal time in seconds. -/
def readOffset : List Char → Option (Int × List Char)
  | '+' :: rest => (readHours rest).map fun (n, rest) => ((n : Int), rest)
  | '-' :: rest => (readHours rest).map fun (n, rest) => (-(n : Int), rest)
  | '−' :: rest => (readHours rest).map fun (n, rest) => (-(n : Int), rest)
  | u :: t :: c :: rest =>
    if [u.toLower, t.toLower, c.toLower] = ['u', 't', 'c'] then some (0, rest)
    else if u = 'Z' || u = 'z' then some (0, t :: c :: rest)
    else none
  | z :: rest => if z = 'Z' || z = 'z' then some (0, rest) else none
  | [] => none

/-- Reads a moment that may be given in any offset from universal time. -/
def read (s : String) : Option Timestamp := do
  let (year, rest) ← readYear s.toList
  let (month, rest) ← readPair (← readMark '-' rest)
  let (day, rest) ← readPair (← readMark '-' rest)
  let rest ← match rest with
    | c :: rest => if c = 'T' || c = 't' || c = ' ' then some rest else none
    | [] => none
  let (hour, rest) ← readPair rest
  let (minute, rest) ← readPair (← readMark ':' rest)
  let (second, rest) ← readPair (← readMark ':' rest)
  let (fraction, rest) ← readFraction rest
  let (offset, rest) ← readOffset (skip rest)
  let date : Day := ⟨year, month, day⟩
  if !(skip rest).isEmpty || !date.valid || 23 < hour || 59 < minute || 60 < second
      || 86400 ≤ offset.natAbs then none
  else
    -- A sixtieth second is counted as the one before it, and its nanoseconds go on.
    let leap := if second = 60 then 1 else 0
    let local' := date.number * 86400 + hour * 3600 + minute * 60 + (second - leap : Nat)
    let seconds := local' - offset
    let year := (Day.ofNumber (seconds.fdiv 86400)).year
    if firstYear ≤ year && year ≤ lastYear then
      some ⟨seconds, fraction + leap * 1000000000⟩
    else none

end Timestamp

end TeamOrders
