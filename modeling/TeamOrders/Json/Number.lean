import TeamOrders.Json.Value
import TeamOrders.Number.Unsigned

/-!
# Reading numbers

A whole number that fits 64 bits is read as it is. Every other number is read as a double in two
steps, each of which rounds: its digits, as many of them as fit 64 bits together, are taken for a
double, which is then multiplied or divided by a power of ten. So a number with up to fifteen digits
and a small exponent is read as the double nearest to it, and others come close. A number too large
for a double is refused.
-/

namespace TeamOrders.Json

open Number

/-- Takes digits up into a number as long as it fits 64 bits, and counts them. -/
def absorb (value : Nat) : List Char → Nat × Nat
  | [] => (value, 0)
  | c :: rest =>
    if value * 10 + digitValue c < wordLimit then
      let (value, count) := absorb (value * 10 + digitValue c) rest
      (value, count + 1)
    else (value, 0)

/-- Powers of ten are doubles up to this one. -/
def greatestPower : Nat := 308

/-- The double nearest to a power of ten. -/
def powerOfTen (n : Nat) : Double := .ofNat (Nat.pow 10 n)

/-- A double from zero up times a power of ten; there is none if that is too large. -/
def scale (x : Double) (exponent : Int) : Option Double :=
  if x = .zero then some x
  else if exponent < -(greatestPower : Int) then
    -- Divided more than once, the double is rounded each time.
    scale (x.div (powerOfTen greatestPower)) (exponent + greatestPower)
  else if exponent < 0 then some (x.div (powerOfTen exponent.natAbs))
  else if exponent ≤ greatestPower then
    let scaled := x.mul (powerOfTen exponent.toNat)
    if scaled.isFinite then some scaled else none
  else none
termination_by exponent.natAbs
decreasing_by simp only [greatestPower] at *; omega

/-- The double that digits before and after a point and an exponent are read as. -/
def doubleOf (negative : Bool) (whole fraction : List Char) (exponent : Int) : Option Double :=
  let (value, wholeCount) := absorb 0 whole
  let (value, fractionCount) := absorb value fraction
  let dropped : Int := whole.length - wholeCount
  (scale (.ofNat value) (exponent + dropped - fractionCount)).map fun x =>
    if negative then x.negate else x

/-- The digits behind a point, if there is one; there has to be at least one digit. -/
def readFraction : List Char → Option (Option (List Char) × List Char)
  | '.' :: rest =>
    let fraction := rest.takeWhile isAsciiDigit
    if fraction.isEmpty then none else some (some fraction, rest.dropWhile isAsciiDigit)
  | rest => some (none, rest)

/-- The digits of an exponent behind its sign. -/
def readPower (sign : Int) (s : List Char) : Option (Option Int × List Char) :=
  let digits := s.takeWhile isAsciiDigit
  if digits.isEmpty then none
  else some (some (sign * digitsValue 0 digits), s.dropWhile isAsciiDigit)

/-- The exponent behind its mark, if there is one. -/
def readExponent : List Char → Option (Option Int × List Char)
  | mark :: rest =>
    if mark = 'e' || mark = 'E' then
      match rest with
      | '-' :: rest => readPower (-1) rest
      | '+' :: rest => readPower 1 rest
      | rest => readPower 1 rest
    else some (none, mark :: rest)
  | [] => some (none, [])

/-- A number as it is written, without its sign. -/
structure Numeral where
  whole : List Char
  fraction? : Option (List Char)
  exponent? : Option Int

/-- Reads a numeral, which has no needless zeros in front. -/
def readNumeral (s : List Char) : Option (Numeral × List Char) := do
  let whole := s.takeWhile isAsciiDigit
  if whole.isEmpty || (whole.length > 1 && whole.head? == some '0') then none
  let (fraction?, rest) ← readFraction (s.dropWhile isAsciiDigit)
  let (exponent?, rest) ← readExponent rest
  some (⟨whole, fraction?, exponent?⟩, rest)

/-- The value of a numeral behind a sign. Only a number without a point and an exponent is whole, and
minus zero is not. -/
def Numeral.value? (numeral : Numeral) (negative : Bool) : Option Json :=
  let value := digitsValue 0 numeral.whole
  let isWhole := numeral.fraction?.isNone && numeral.exponent?.isNone
  if isWhole && !negative && value < wordLimit then some (.int value)
  else if isWhole && negative && 0 < value && value ≤ wordLimit / 2 then some (.int (-(value : Int)))
  else (doubleOf negative numeral.whole (numeral.fraction?.getD [])
    (numeral.exponent?.getD 0)).map .double

/-- Reads a number whose sign has been read. -/
def readNumber (negative : Bool) (s : List Char) : Option (Json × List Char) := do
  let (numeral, rest) ← readNumeral s
  let value ← numeral.value? negative
  some (value, rest)

end TeamOrders.Json
