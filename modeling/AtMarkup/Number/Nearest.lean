import AtMarkup.Number.Rounding

/-!
# Nearest doubles

The double nearest to a quotient of whole numbers, a tie going to the even significand.  The
quotient is scaled so that its whole part has 53 bits, or fewer below the smallest normal
double, rounded exactly, and put together with its power of two.  A significand that rounds up to
the next power of two carries into the exponent by itself.
-/

namespace AtMarkup.Number

/-- The bits of positive infinity. -/
def infinityBits : Nat := 2047 * fractionCount

/-- The double with the given sign and bits. -/
def signedFloat (negative : Bool) (bits : Nat) : Float :=
  Float.ofBits (UInt64.ofNat (if negative then bits + signBit else bits))

/-- Infinity, on either side. -/
def infinity (negative : Bool) : Float :=
  signedFloat negative infinityBits

/-- The double that is no number. -/
def notANumber : Float :=
  signedFloat false (infinityBits + fractionCount / 2)

/-- The exponent of the leading bit of a positive quotient. -/
def leadingBit (numerator denominator : Nat) : Int :=
  let guess : Int := (numerator.log2 : Int) - denominator.log2
  if denominator * Nat.pow 2 guess.toNat ≤ numerator * Nat.pow 2 (-guess).toNat then guess
  else guess - 1

/-- The bits of the double nearest to a quotient. -/
def nearestBits (numerator denominator : Nat) : Nat :=
  if numerator = 0 then 0
  else
    let exponent := max (leadingBit numerator denominator - 52) (-1074)
    let significand := roundQuotient (numerator * Nat.pow 2 (-exponent).toNat)
      (denominator * Nat.pow 2 exponent.toNat)
    if significand < fractionCount then significand
    else min infinityBits ((exponent + 1074).toNat * fractionCount + significand)

/-- Beyond this many places before the point every number is above all doubles. -/
def greatestPlace : Int := 400

/-- Beyond this many places behind the point every number rounds to zero. -/
def leastPlace : Int := -400

/-- The bits of the double nearest to `digits · 10 ^ exponent`. -/
def nearestBitsOfDecimal (digits : Nat) (exponent : Int) : Nat :=
  let place := (toString digits).length + exponent
  if digits = 0 || place < leastPlace then 0
  else if greatestPlace < place then infinityBits
  else nearestBits (digits * Nat.pow 10 exponent.toNat) (Nat.pow 10 (-exponent).toNat)

/-- The double nearest to `± digits · 10 ^ exponent`. -/
def nearestFloat (negative : Bool) (digits : Nat) (exponent : Int) : Float :=
  signedFloat negative (nearestBitsOfDecimal digits exponent)

end AtMarkup.Number
