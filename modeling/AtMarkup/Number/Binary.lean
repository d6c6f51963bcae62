/-!
# Binary fractions

A finite double is a whole number times a power of two.  `Binary.ofFloat` takes a double apart
into sign, significand and exponent, so that its decimal texts can be worked out exactly.
-/

namespace AtMarkup.Number

/-- How many fractions the bits of a double can tell apart; the exponent stands above them. -/
def fractionCount : Nat := Nat.pow 2 52

/-- The bit that makes a double negative, as a number. -/
def signBit : Nat := Nat.pow 2 63

/-- The parts of a finite double: `± significand · 2 ^ exponent`. -/
structure Binary where
  /-- Whether the sign is minus; zero has a sign too. -/
  negative : Bool
  /-- The whole number in front, below `2 ^ 53`. -/
  significand : Nat
  /-- The power of two. -/
  exponent : Int
  /-- Whether the next smaller double is only half as far away as the next greater one. -/
  narrowBelow : Bool
  deriving DecidableEq, Repr

/-- What a double is. -/
inductive Double where
  /-- A number. -/
  | finite (value : Binary)
  /-- Beyond all numbers, on either side. -/
  | infinite (negative : Bool)
  /-- Not a number. -/
  | nan
  deriving DecidableEq, Repr

/-- Takes a double apart, given its 64 bits. -/
def Double.ofBits (bits : Nat) : Double :=
  let negative := bits / signBit % 2 == 1
  let biased : Nat := bits / fractionCount % 2048
  let fraction : Nat := bits % fractionCount
  if biased == 2047 then
    if fraction == 0 then .infinite negative else .nan
  else if biased == 0 then .finite ⟨negative, fraction, -1074, false⟩
  else
    .finite ⟨negative, fractionCount + fraction, (biased : Int) - 1075,
      fraction == 0 && biased != 1⟩

/-- Takes a double apart. -/
def Double.ofFloat (x : Float) : Double :=
  .ofBits x.toBits.toNat

/-- The value as a quotient of whole numbers, without its sign. -/
def Binary.quotient (b : Binary) : Nat × Nat :=
  (b.significand * Nat.pow 2 b.exponent.toNat, Nat.pow 2 (-b.exponent).toNat)

end AtMarkup.Number
