import AtMarkup.Number.Nearest
import AtMarkup.Text.Blank
import AtMarkup.Text.DecimalDigit
import AtMarkup.Text.Quoted

/-!
# Number literals

Numbers in settings are written freely: with a sign, with blanks around, with single underscores
between digits, and in the decimal digits of any script.  `readInteger` reads a whole number and
`readFloat` a double, which may also be `inf`, `infinity` or `nan` in any letter case.

A text of ASCII characters is taken as it stands, and then only the six ASCII layout characters
count as blanks around the number.  In any other text, blanks beyond ASCII become spaces and
decimal digits become their ASCII forms first.
-/

namespace AtMarkup.Number

/-- Why a text is no number. -/
inductive LiteralError where
  /-- It is no whole number. -/
  | notInteger (text : String)
  /-- It is a whole number of too many digits. -/
  | tooManyDigits (count : Nat)
  /-- It is no number. -/
  | notFloat (text : String)
  deriving DecidableEq, Repr, Inhabited

/-- The most digits that a whole number may have. -/
def digitLimit : Nat := 4300

/-- How much of a bad whole number is shown. -/
def shownLength : Nat := 200

/-- The error in words. -/
def LiteralError.message : LiteralError → String
  | notInteger text =>
    "invalid literal for int() with base 10: " ++
      String.ofList ((Text.quoted text.toList).take shownLength)
  | tooManyDigits count =>
    "Exceeds the limit (" ++ toString digitLimit ++
      " digits) for integer string conversion: value has " ++ toString count ++
      " digits; use sys.set_int_max_str_digits() to increase the limit"
  | notFloat text => "could not convert string to float: " ++ Text.quotedString text

/-- One character of a text that is not all ASCII. -/
def asciiCharacter (c : Char) : Char :=
  if c.toNat < 127 then c
  else if Text.isBlank c then ' '
  else
    match Text.digitValue? c with
    | some value => Char.ofNat (48 + value)
    | none => '?'

/-- A text in which all blanks and digits that count are ASCII characters. -/
def asciiForm (text : List Char) : List Char :=
  if text.all fun c => decide (c.toNat < 128) then text else text.map asciiCharacter

/-- A character that may stand around a number. -/
def isPadding (c : Char) : Bool :=
  c == ' ' || (9 ≤ c.toNat && c.toNat ≤ 13)

/-- A sign in front of a text, true for minus, and what follows. -/
def cutSign : List Char → Bool × List Char
  | '-' :: rest => (true, rest)
  | '+' :: rest => (false, rest)
  | text => (false, text)

/-- The number that ASCII digits stand for; other characters are passed over. -/
def digitsValue (digits : List Char) : Nat :=
  digits.foldl (fun n c => if c.isDigit then 10 * n + (c.toNat - 48) else n) 0

/-! ## Whole numbers -/

/-- Whether every underscore stands between two digits of a run of digits and underscores. -/
def underscoresFit (run : List Char) : Bool :=
  run.head? != some '_' && run.getLast? != some '_' &&
    (run.zip (run.drop 1)).all fun pair => pair != ('_', '_')

/-- Reads a whole number. -/
def readInteger (text : String) : Except LiteralError Int :=
  let (negative, body) := cutSign ((asciiForm text.toList).dropWhile isPadding)
  let run := body.takeWhile fun c => c.isDigit || c == '_'
  let rest := body.dropWhile fun c => c.isDigit || c == '_'
  let count := run.countP Char.isDigit
  if count = 0 || !underscoresFit run then .error (.notInteger text)
  else if digitLimit < count then .error (.tooManyDigits count)
  else if rest.all isPadding then
    .ok (if negative then -(digitsValue run : Int) else digitsValue run)
  else .error (.notInteger text)

/-! ## Doubles -/

/-- Drops underscores, each of which has to stand between two digits; `last` is the character
before the text. -/
def dropUnderscores (last : Char) : List Char → Option (List Char)
  | [] => if last == '_' then none else some []
  | c :: rest =>
    if c == '_' then
      if last.isDigit then dropUnderscores c rest else none
    else if last == '_' && !c.isDigit then none
    else (dropUnderscores c rest).map (c :: ·)

/-- Reads a power of ten behind a number; without one the power is zero. -/
def readPower : List Char → Option Int
  | [] => some 0
  | c :: rest =>
    let (negative, digits) := cutSign rest
    if (c == 'e' || c == 'E') && !digits.isEmpty && digits.all Char.isDigit then
      some (if negative then -(digitsValue digits : Int) else digitsValue digits)
    else none

/-- Reads digits, a point with digits, and a power of ten. -/
def readDecimal (negative : Bool) (text : List Char) : Option Float :=
  let whole := text.takeWhile Char.isDigit
  let behind := text.dropWhile Char.isDigit
  let pointed := behind.head? == some '.'
  let fraction := if pointed then (behind.drop 1).takeWhile Char.isDigit else []
  let rest := if pointed then (behind.drop 1).dropWhile Char.isDigit else behind
  if whole.isEmpty && fraction.isEmpty then none
  else
    (readPower rest).map fun power =>
      nearestFloat negative (digitsValue (whole ++ fraction)) (power - fraction.length)

/-- Reads the words for infinity and for what is no number. -/
def readWord (negative : Bool) (text : List Char) : Option Float :=
  let word := String.ofList (text.map Char.toLower)
  if word == "inf" || word == "infinity" then some (infinity negative)
  else if word == "nan" then some notANumber
  else none

/-- Reads a double. -/
def readFloat (text : String) : Except LiteralError Float :=
  let padded := (asciiForm text.toList).dropWhile isPadding
  let trimmed := (padded.reverse.dropWhile isPadding).reverse
  let number := do
    let plain ← dropUnderscores ' ' trimmed
    let (negative, body) := cutSign plain
    readDecimal negative body <|> readWord negative body
  match number with
  | some x => .ok x
  | none => .error (.notFloat text)

end AtMarkup.Number
