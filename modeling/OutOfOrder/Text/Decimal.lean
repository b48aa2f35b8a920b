import OutOfOrder.Text.Numeral

/-!
# Decimal numbers

A decimal number is an integer divided by a power of ten, and zero has a sign as well.  It is
written without needless zeros: positional from one ten-thousandth up to `10 ^ 16`, and with a power
of ten otherwise.
-/

namespace OutOfOrder

/-- The decimal number with the given sign and the magnitude `mantissa / 10 ^ places`. -/
structure Decimal where
  negative : Bool
  mantissa : Nat
  places : Nat
  deriving DecidableEq, Repr

namespace Decimal

/-- The digits with the decimal point behind the first `point` of them, where zeros fill the places
that have no digit. -/
def placePoint (digits : List Char) (point : Int) : List Char :=
  let whole := digits.take point.toNat ++ List.replicate (point.toNat - digits.length) '0'
  let places := List.replicate (-point).toNat '0' ++ digits.drop point.toNat
  (if whole.isEmpty then ['0'] else whole) ++ '.' :: (if places.isEmpty then ['0'] else places)

/-- The digits as a number from 1 up to 10 and a power of ten, which has two digits at least. -/
def placeExponent (digits : List Char) (exponent : Int) : List Char :=
  let power := Nat.toDigits 10 exponent.natAbs
  digits.take 1 ++ (if digits.length ≤ 1 then [] else '.' :: digits.drop 1) ++
    'e' :: (if exponent < 0 then '-' else '+') ::
    (List.replicate (2 - power.length) '0' ++ power)

def unsignedText (number : Decimal) : List Char :=
  let written := Nat.toDigits 10 number.mantissa
  let digits := (written.reverse.dropWhile (· == '0')).reverse
  let point := (written.length : Int) - number.places
  if digits.isEmpty then ['0', '.', '0']
  else if -4 < point && point ≤ 16 then placePoint digits point
  else placeExponent digits (point - 1)

def text (number : Decimal) : String :=
  String.ofList (if number.negative then '-' :: number.unsignedText else number.unsignedText)

end Decimal

end OutOfOrder
