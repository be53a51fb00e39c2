/-!
# Double-precision numbers

A finite double is a whole number of units, the unit being 2 to the power -1074. Sums and
quotients are computed exactly and rounded once, to the nearest double, a tie going to the one with
an even last place. With this view the order of doubles is the order of whole numbers, and the
decimal forms of a double are exact sums on natural numbers.
-/

namespace TeamOrders

/-- A double-precision number: a signed number of units, an infinity, or no number at all. -/
inductive Double where
  | finite (negative : Bool) (units : Nat)
  | infinite (negative : Bool)
  | nan
deriving DecidableEq, Inhabited

namespace Double

/-- The number of units in one. -/
def unitsPerOne : Nat := Nat.pow 2 1074

/-- Finite doubles have fewer units than this. -/
def overflow : Nat := Nat.pow 2 2098

/-- The quotient rounded to the nearest whole number, a tie going to the even one. -/
def roundQuotient (num den : Nat) : Nat :=
  let quotient := num / den
  match compare (2 * (num % den)) den with
  | .lt => quotient
  | .gt => quotient + 1
  | .eq => if quotient % 2 = 0 then quotient else quotient + 1

/-- The distance between neighbouring doubles at a number of units: 53 binary places are kept. -/
def spacing (units : Nat) : Nat :=
  if units < Nat.pow 2 53 then 1 else Nat.pow 2 (units.log2 - 52)

/-- The double nearest to a quotient of units. -/
def ofUnits (negative : Bool) (num den : Nat) : Double :=
  let step := spacing (num / den)
  let units := roundQuotient num (den * step) * step
  if units < overflow then finite negative units else infinite negative

def ofQuotient (negative : Bool) (num den : Nat) : Double :=
  ofUnits negative (num * unitsPerOne) den

def ofNat (n : Nat) : Double := ofQuotient false n 1

def ofInt (n : Int) : Double := ofQuotient (n < 0) n.natAbs 1

/-- The double nearest to digits times a power of ten. Beyond 400 places on either side nothing but
the sign is left, so the power need not be computed. -/
def ofDecimal (negative : Bool) (digits : Nat) (exponent : Int) : Double :=
  if digits = 0 then finite negative 0
  else if 400 < exponent then infinite negative
  else if exponent + (digits.log2 : Int) < -1500 then finite negative 0
  else if 0 ≤ exponent then ofQuotient negative (digits * Nat.pow 10 exponent.toNat) 1
  else ofQuotient negative digits (Nat.pow 10 (-exponent).toNat)

def zero : Double := finite false 0

/-- Minus zero, which changes no double that it is added to. -/
def minusZero : Double := finite true 0

def one : Double := ofNat 1

/-- The position of a double in the order of the numbers; a double that is no number has none. -/
def position : Double → Option Int
  | finite false units => some units
  | finite true units => some (-units)
  | infinite false => some overflow
  | infinite true => some (-overflow)
  | nan => none

/-- Strictly below; false if one side is no number. -/
def below (x y : Double) : Bool :=
  match x.position, y.position with
  | some a, some b => a < b
  | _, _ => false

/-- Below or equal; false if one side is no number. -/
def atMost (x y : Double) : Bool :=
  match x.position, y.position with
  | some a, some b => a ≤ b
  | _, _ => false

def isFinite : Double → Bool
  | finite _ _ => true
  | _ => false

/-- The rounded sum. -/
def add : Double → Double → Double
  | finite p a, finite q b =>
    if p = q then ofUnits p (a + b) 1
    else if a = b then zero
    else if b < a then ofUnits p (a - b) 1
    else ofUnits q (b - a) 1
  | nan, _ => nan
  | _, nan => nan
  | infinite p, infinite q => if p = q then infinite p else nan
  | infinite p, _ => infinite p
  | _, infinite q => infinite q

def mul : Double → Double → Double
  | nan, _ => nan
  | _, nan => nan
  | infinite p, finite q b => if b = 0 then nan else infinite (p != q)
  | finite p a, infinite q => if a = 0 then nan else infinite (p != q)
  | infinite p, infinite q => infinite (p != q)
  | finite p a, finite q b => ofUnits (p != q) (a * b) unitsPerOne

def div : Double → Double → Double
  | nan, _ => nan
  | _, nan => nan
  | infinite _, infinite _ => nan
  | infinite p, finite q _ => infinite (p != q)
  | finite p _, infinite q => finite (p != q) 0
  | finite p a, finite q b =>
    if b = 0 then (if a = 0 then nan else infinite (p != q))
    else ofQuotient (p != q) a b

def negate : Double → Double
  | finite negative units => finite (!negative) units
  | infinite negative => infinite (!negative)
  | nan => nan

/-- The nearest number to a double between two bounds. -/
def clamp (x low high : Double) : Double :=
  if x.below low then low else if high.below x then high else x

/-- The mean of a list, summed up from the left; the mean of no numbers is zero. -/
def mean (values : List Double) : Double :=
  if values.isEmpty then zero else (values.foldl add minusZero).div (ofNat values.length)

end Double

end TeamOrders
