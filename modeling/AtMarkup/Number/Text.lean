import AtMarkup.Number.Shortest

/-!
# The text of a double

Numbers with a fraction are shown by their shortest decimal.  It is written out when its first
digit stands at most sixteen places before the point and at most four behind it; otherwise the
first digit stands before the point and a power of ten of at least two digits follows.  A whole
number that is written out ends in `.0`.
-/

namespace AtMarkup.Number

/-- How a decimal is written. -/
structure DecimalFormat where
  /-- Digits that start this far behind the point, or further, are written with a power of ten. -/
  leastPower : Int
  /-- Digits that start more than this far before the point are written with a power of ten. -/
  greatestPower : Int
  /-- The least number of digits of a power of ten. -/
  powerDigits : Nat

/-- The written form of all numbers with a fraction. -/
def standardFormat : DecimalFormat := ⟨-4, 16, 2⟩

/-- The digits of a number without the zeros at their end. -/
def trimmedDigits (digits : Nat) : List Char :=
  ((toString digits).toList.reverse.dropWhile (· == '0')).reverse

/-- A power of ten: its sign, and its digits with zeros in front up to the given width. -/
def powerText (width : Nat) (power : Int) : List Char :=
  let digits := (toString power.natAbs).toList
  (if power < 0 then '-' else '+') :: (List.replicate (width - digits.length) '0' ++ digits)

/-- The digits with the point behind the first `lead` of them; zeros fill the gaps. -/
def positionalText (digits : List Char) (lead : Int) : List Char :=
  if lead ≤ 0 then '0' :: '.' :: (List.replicate (-lead).toNat '0' ++ digits)
  else
    let whole := digits.take lead.toNat
    let fraction := digits.drop lead.toNat
    whole ++ List.replicate (lead.toNat - whole.length) '0' ++
      '.' :: (if fraction.isEmpty then ['0'] else fraction)

/-- The digits with the point behind the first of them, and a power of ten. -/
def scientificText (width : Nat) (digits : List Char) (lead : Int) : List Char :=
  let fraction := digits.drop 1
  digits.take 1 ++ (if fraction.isEmpty then [] else '.' :: fraction) ++
    'e' :: powerText width (lead - 1)

/-- A positive decimal in the given format. -/
def decimalText (format : DecimalFormat) (d : Decimal) : List Char :=
  let lead := (toString d.digits).length + d.exponent
  let digits := trimmedDigits d.digits
  if format.leastPower < lead && lead ≤ format.greatestPower then positionalText digits lead
  else scientificText format.powerDigits digits lead

/-- The text of a double. -/
def floatText (x : Float) : String :=
  match Double.ofFloat x with
  | .nan => "nan"
  | .infinite negative => if negative then "-inf" else "inf"
  | .finite value =>
    let sign := if value.negative then ['-'] else []
    let text := if value.significand == 0 then ['0', '.', '0']
      else decimalText standardFormat (shortestDecimal value)
    String.ofList (sign ++ text)

end AtMarkup.Number
