import AtMarkup.Number.Binary

/-!
# Rounding to fixed places

`roundQuotient` rounds a quotient to the nearest whole number, a half going to the even
neighbour.  `fixedText` writes a double with a given number of decimal places, rounded so from its
exact value; the sign is kept even when all written digits are zero.
-/

namespace AtMarkup.Number

/-- The whole number nearest to `numerator / denominator`; a half goes to the even one. -/
def roundQuotient (numerator denominator : Nat) : Nat :=
  let whole := numerator / denominator
  let twice := 2 * (numerator % denominator)
  if twice < denominator then whole
  else if denominator < twice then whole + 1
  else if whole % 2 == 0 then whole else whole + 1

/-- A number's digits, with zeros in front up to the given width. -/
def paddedDigits (width n : Nat) : String :=
  let digits := toString n
  String.ofList (List.replicate (width - digits.length) '0') ++ digits

/-- The digits of `scaled / 10 ^ places`, with exactly that many behind the point. -/
def pointedDigits (places scaled : Nat) : String :=
  let digits := paddedDigits (places + 1) scaled
  let whole := (digits.toList.take (digits.length - places))
  let fraction := (digits.toList.drop (digits.length - places))
  String.ofList (whole ++ '.' :: fraction)

/-- A double with a given positive number of decimal places. -/
def fixedText (places : Nat) (x : Float) : String :=
  match Double.ofFloat x with
  | .nan => "nan"
  | .infinite negative => if negative then "-inf" else "inf"
  | .finite value =>
    let (numerator, denominator) := value.quotient
    let text := pointedDigits places (roundQuotient (numerator * Nat.pow 10 places) denominator)
    if value.negative then "-" ++ text else text

end AtMarkup.Number
