import AtMarkup.Number.Binary

/-!
# Shortest decimals

The decimal text of a double has the fewest digits that read back as the same double, and of
those the digits nearest to its value.  A real number reads back as the double when it lies in the
double's rounding interval, which reaches half way to each neighbour and includes its ends when
the significand is even.

For one digit, two digits, and so on the two decimals around the value are tried; the first that
lies in the interval wins, the nearer of two.  Seventeen digits always suffice.  All comparisons
are exact: a quotient of whole numbers stands for the value, in quarters of the last binary
place, so that the ends of the interval are whole as well.
-/

namespace AtMarkup.Number

/-- `digits · 10 ^ exponent`. -/
structure Decimal where
  /-- The digits, read as a whole number. -/
  digits : Nat
  /-- The power of ten. -/
  exponent : Int
  deriving DecidableEq, Repr

/-- A positive double and its rounding interval as quotients over one denominator. -/
structure RoundingInterval where
  /-- The numerator of the value. -/
  value : Nat
  /-- The numerator of the lower end. -/
  low : Nat
  /-- The numerator of the upper end. -/
  high : Nat
  /-- The common denominator. -/
  denominator : Nat
  /-- Whether the ends read back as the double. -/
  closed : Bool
  deriving DecidableEq, Repr

/-- The rounding interval of a positive double. -/
def RoundingInterval.ofBinary (b : Binary) : RoundingInterval :=
  let scale := Nat.pow 2 (b.exponent - 2).toNat
  { value := 4 * b.significand * scale
    low := (4 * b.significand - if b.narrowBelow then 1 else 2) * scale
    high := (4 * b.significand + 2) * scale
    denominator := Nat.pow 2 (2 - b.exponent).toNat
    closed := b.significand % 2 == 0 }

/-- The power of ten at which the digits of `numerator / denominator` begin: the least `e` with
the quotient below `10 ^ e`. -/
def leadingPower (numerator denominator : Nat) : Int :=
  if denominator ≤ numerator then (toString (numerator / denominator)).length
  else
    match (List.range 400).find? fun k => decide (denominator ≤ numerator * Nat.pow 10 (k + 1)) with
    | some k => -(k : Int)
    | none => -400

/-- Whether `digits · 10 ^ exponent` reads back as the double. -/
def RoundingInterval.contains (r : RoundingInterval) (d : Decimal) : Bool :=
  let left := Nat.pow 10 (-d.exponent).toNat
  let point := d.digits * Nat.pow 10 d.exponent.toNat * r.denominator
  if r.closed then decide (r.low * left ≤ point) && decide (point ≤ r.high * left)
  else decide (r.low * left < point) && decide (point < r.high * left)

/-- The decimal with that power of ten below the value, or equal to it. -/
def RoundingInterval.floorAt (r : RoundingInterval) (exponent : Int) : Decimal :=
  ⟨r.value * Nat.pow 10 (-exponent).toNat / (r.denominator * Nat.pow 10 exponent.toNat), exponent⟩

/-- Whether the value is nearer to `digits · 10 ^ exponent` than to its upper neighbour; half way
the even digits are taken. -/
def RoundingInterval.prefersLower (r : RoundingInterval) (d : Decimal) : Bool :=
  let unit := r.denominator * Nat.pow 10 d.exponent.toNat
  let twice := 2 * (r.value * Nat.pow 10 (-d.exponent).toNat - d.digits * unit)
  decide (twice < unit) || (twice == unit && d.digits % 2 == 0)

/-- The better of the two decimals with that power of ten around the value, if one reads back. -/
def RoundingInterval.pick? (r : RoundingInterval) (exponent : Int) : Option Decimal :=
  let lower := r.floorAt exponent
  let upper : Decimal := ⟨lower.digits + 1, exponent⟩
  match r.contains lower, r.contains upper with
  | true, true => some (if r.prefersLower lower then lower else upper)
  | true, false => some lower
  | false, true => some upper
  | false, false => none

/-- The shortest decimal that reads back as the given positive double. -/
def shortestDecimal (b : Binary) : Decimal :=
  let r := RoundingInterval.ofBinary b
  let lead := leadingPower r.value r.denominator
  match (List.range 17).findSome? fun n => r.pick? (lead - (n + 1 : Nat)) with
  | some d => d
  | none => r.floorAt (lead - 17)

end AtMarkup.Number
