/-!
# Unsigned numerals

Reading whole numbers below a limit. A numeral is one or more ASCII digits, with leading zeros
allowed; the forms that a person types may also start with a plus sign.
-/

namespace TeamOrders.Number

/-- Numbers of 64 bits lie below this. -/
def wordLimit : Nat := Nat.pow 2 64

/-- Numbers of 32 bits lie below this. -/
def halfWordLimit : Nat := Nat.pow 2 32

def isAsciiDigit (c : Char) : Bool := '0' ≤ c && c ≤ '9'

def digitValue (c : Char) : Nat := c.toNat - '0'.toNat

/-- The value of a row of digits, after a value already read. -/
def digitsValue (value : Nat) (digits : List Char) : Nat :=
  digits.foldl (fun n c => n * 10 + digitValue c) value

/-- Reads a row of ASCII digits that denotes a number below the limit. -/
def readDigits (limit : Nat) (s : List Char) : Option Nat :=
  if s.isEmpty || !s.all isAsciiDigit then none
  else
    let value := digitsValue 0 s
    if value < limit then some value else none

/-- Reads a number below the limit, which may start with a plus sign. -/
def readUnsigned (limit : Nat) : List Char → Option Nat
  | '+' :: digits => readDigits limit digits
  | digits => readDigits limit digits

end TeamOrders.Number
