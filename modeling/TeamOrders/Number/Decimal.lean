import TeamOrders.Number.Double
import TeamOrders.Number.Unsigned

/-!
# Decimal texts of doubles

Printing has two stages. `shortest` selects the digits: the fewest that identify the double, and of
those the nearest to it; printers differ in which of two equally near ones they take. The printers
then lay digits out: `Double.plain` positionally and without a final zero, `Double.scientific` with an
exponent where the number is very large or very small. `Double.fixed` has a set number of places, and
rounds the exact value instead.

Reading accepts a sign, digits with a point, an exponent, and the names of the special values.
-/

namespace TeamOrders

namespace Double

/-- Digits times a power of ten. -/
structure Decimal where
  digits : Nat
  exponent : Int
deriving DecidableEq

/-- A unit has this many decimal places. -/
def unitPlaces : Nat := 1074

/-- A number of units, counted in the last decimal place that a unit has. -/
def scaled (units : Nat) : Nat := units * Nat.pow 5 unitPlaces

/-- The distance from a number of units down to the double before it. -/
def spacingBelow (units : Nat) : Nat :=
  if units = Nat.pow 2 units.log2 && Nat.pow 2 53 < units then spacing units / 2 else spacing units

/-- A number of last places reads back as the double with these units: it lies between the middles
of the gaps on both sides, where a middle itself counts if the last binary place is even. -/
def readsBack (units : Nat) (places : Nat) : Bool :=
  let low := scaled (4 * units - 2 * spacingBelow units)
  let high := scaled (4 * units + 2 * spacing units)
  let value := 4 * places
  if (units / spacing units) % 2 = 0 then low ≤ value && value ≤ high
  else low < value && value < high

def digitCount (n : Nat) : Nat := (Nat.toDigits 10 n).length

/-- Which of two equally near decimals is taken. -/
inductive Tie where
  | even
  | upper
deriving DecidableEq

/-- The upper of two neighbouring decimals is taken, where `twice` is twice the exact value and
`middle` twice the middle between them. -/
def Tie.takesUpper (tie : Tie) (lower twice middle : Nat) : Bool :=
  match compare twice middle with
  | .lt => false
  | .gt => true
  | .eq => tie == .upper || lower % 2 == 1

/-- The candidate with a given number of digits: the nearer of the two neighbours on the grid that
read back. -/
def candidate (tie : Tie) (units count : Nat) : Option Decimal :=
  let exact := scaled units
  let shift := digitCount exact - count
  let grid := Nat.pow 10 shift
  let lower := exact / grid
  let exponent : Int := (shift : Int) - (unitPlaces : Int)
  let lowerFits := readsBack units (lower * grid)
  let upperFits := readsBack units ((lower + 1) * grid)
  if lowerFits && upperFits then
    if tie.takesUpper lower (2 * exact) ((2 * lower + 1) * grid) then some ⟨lower + 1, exponent⟩
    else some ⟨lower, exponent⟩
  else if lowerFits then some ⟨lower, exponent⟩
  else if upperFits then some ⟨lower + 1, exponent⟩
  else none

/-- Moves trailing zeros of the digits into the exponent, as often as there are digits. -/
def strip : Nat → Decimal → Decimal
  | 0, d => d
  | fuel + 1, d =>
    if d.digits ≠ 0 && d.digits % 10 = 0 then strip fuel ⟨d.digits / 10, d.exponent + 1⟩ else d

/-- The fewest digits that identify a positive number of units. Seventeen always do; the exact
value stands in where none was found. -/
def shortest (tie : Tie) (units : Nat) : Decimal :=
  let found := ((List.range 17).findSome? fun i => candidate tie units (i + 1)).getD
    ⟨scaled units, -(unitPlaces : Int)⟩
  strip (digitCount found.digits) found

def sign (negative : Bool) : String := if negative then "-" else ""

def zeros (n : Nat) : String := String.ofList (List.replicate n '0')

/-- Digits with a point after the first `whole` of them. -/
def pointed (digits : List Char) (whole : Nat) : String :=
  String.ofList (digits.take whole) ++ "." ++ String.ofList (digits.drop whole)

/-- Positional notation without an exponent and without a final zero. Of two equally near decimals
the upper is taken. -/
def plain : Double → String
  | nan => "NaN"
  | infinite negative => sign negative ++ "inf"
  | finite negative 0 => sign negative ++ "0"
  | finite negative units =>
    let d := shortest .upper units
    let digits := (toString d.digits).toList
    let whole : Int := digits.length + d.exponent
    sign negative ++
      if 0 ≤ d.exponent then toString d.digits ++ zeros d.exponent.toNat
      else if 0 < whole then pointed digits whole.toNat
      else "0." ++ zeros (-whole).toNat ++ toString d.digits

/-- Notation of data files: positional from 0.00001 up to 16 digits, otherwise with an exponent;
never without a point or an exponent. Of two equally near decimals the even one is taken. -/
def scientific : Double → String
  | nan => "null"
  | infinite _ => "null"
  | finite negative 0 => sign negative ++ "0.0"
  | finite negative units =>
    let d := shortest .even units
    let digits := (toString d.digits).toList
    let whole : Int := digits.length + d.exponent
    sign negative ++
      if 0 ≤ d.exponent && whole ≤ 16 then toString d.digits ++ zeros d.exponent.toNat ++ ".0"
      else if 0 < whole && whole ≤ 16 then pointed digits whole.toNat
      else if -5 < whole && whole ≤ 0 then "0." ++ zeros (-whole).toNat ++ toString d.digits
      else (if digits.length = 1 then toString d.digits else pointed digits 1)
        ++ "e" ++ toString (whole - 1)

/-- A set number of places: the exact value, a tie going to the even last digit. -/
def fixed (places : Nat) : Double → String
  | nan => "NaN"
  | infinite negative => sign negative ++ "inf"
  | finite negative units =>
    let rounded := roundQuotient (units * Nat.pow 10 places) unitsPerOne
    let digits := (toString rounded).toList
    let padded := List.replicate (places + 1 - digits.length) '0' ++ digits
    sign negative ++
      if places = 0 then String.ofList padded else pointed padded (padded.length - places)

/-- A numeral in parts: the digits before and after the point, and the exponent. -/
structure Numeral where
  whole : List Char
  fraction : List Char
  exponent : Int

/-- The double that a numeral denotes. -/
def ofNumeral (negative : Bool) (n : Numeral) : Double :=
  ofDecimal negative (Number.digitsValue 0 (n.whole ++ n.fraction))
    (n.exponent - (n.fraction.length : Int))

/-- Reads the exponent of a numeral: nothing, or a mark, a sign and at least one digit. -/
def readExponent : List Char → Option Int
  | [] => some 0
  | mark :: rest =>
    if mark = 'e' || mark = 'E' then
      match rest with
      | '-' :: digits => (readWhole digits).map fun n => -(n : Int)
      | '+' :: digits => (readWhole digits).map fun n => (n : Int)
      | digits => (readWhole digits).map fun n => (n : Int)
    else none
where
  /-- Reads digits, which may denote any number. -/
  readWhole (digits : List Char) : Option Nat :=
    if digits.isEmpty || !digits.all Number.isAsciiDigit then none
    else some (Number.digitsValue 0 digits)

/-- Reads digits with at most one point among them and at least one digit, then an exponent. -/
def readNumeral (s : List Char) : Option Numeral :=
  let whole := s.takeWhile Number.isAsciiDigit
  match s.dropWhile Number.isAsciiDigit with
  | '.' :: rest =>
    let fraction := rest.takeWhile Number.isAsciiDigit
    if whole.isEmpty && fraction.isEmpty then none
    else (readExponent (rest.dropWhile Number.isAsciiDigit)).map (⟨whole, fraction, ·⟩)
  | rest => if whole.isEmpty then none else (readExponent rest).map (⟨whole, [], ·⟩)

/-- Reads a number as a person types it: a sign, then a numeral or a special value in any case. -/
def read (s : List Char) : Option Double :=
  match s with
  | '-' :: rest => unsigned true rest
  | '+' :: rest => unsigned false rest
  | rest => unsigned false rest
where
  /-- Reads what stands behind the sign. -/
  unsigned (negative : Bool) (s : List Char) : Option Double :=
    let name := s.map Char.toLower
    if name = "nan".toList then some nan
    else if name = "inf".toList || name = "infinity".toList then some (infinite negative)
    else (readNumeral s).map (ofNumeral negative)

end Double

end TeamOrders
