/-!
# Hexadecimal digits

Lower-case hexadecimal numbers of a fixed width, and what a hexadecimal digit of either case
stands for.
-/

namespace AtMarkup.Text

/-- A lower-case hexadecimal digit. -/
def hexDigit (n : Nat) : Char :=
  if n < 10 then Char.ofNat (48 + n) else Char.ofNat (87 + n)

/-- A number in the given count of hexadecimal digits. -/
def hexDigits (count n : Nat) : List Char :=
  (List.range count).reverse.map fun place => hexDigit (n / Nat.pow 16 place % 16)

/-- What a hexadecimal digit stands for. -/
def hexValue? (c : Char) : Option Nat :=
  let n := c.toNat
  if 48 ≤ n && n ≤ 57 then some (n - 48)
  else if 65 ≤ n && n ≤ 70 then some (n - 55)
  else if 97 ≤ n && n ≤ 102 then some (n - 87)
  else none

/-- A written digit stands for the number that it was written for. -/
theorem hexValue?_hexDigit {n : Nat} (h : n < 16) : hexValue? (hexDigit n) = some n := by
  have hall : ∀ m ∈ List.range 16, hexValue? (hexDigit m) = some m := by decide
  exact hall n (List.mem_range.mpr h)

end AtMarkup.Text
