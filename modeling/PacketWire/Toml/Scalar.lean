import PacketWire.Toml.Text

/-!
# Numbers, truth values, dates and times

Whole numbers have 64 bits with a sign. No setting is a real number or a point in time, so of
these only the form is read; a date has to be one of the calendar, and a positive real number has
to be small enough for the double format.
-/

namespace PacketWire.Toml

open PacketWire.Parser

/-- Digits of base `radix`, with single underscores between any two. -/
def digits (radix : Nat) : Parser (List Nat) := do
  let first ← digit radix
  return first :: (← many (digit radix <|> (char '_' *> digit radix)))

/-- Whether a minus sign stands here; a plus sign is read as well. -/
def sign : Parser Bool :=
  (char '-' *> pure true) <|> (char '+' *> pure false) <|> pure false

/-- The digits of a decimal whole number: no zero stands in front of others. -/
def wholeDigits : Parser (List Nat) :=
  (char '0' *> pure [0]) <|> digits 10

def inWord (n : Int) : Option Int :=
  if Int64.minValue.toInt ≤ n ∧ n ≤ Int64.maxValue.toInt then some n else none

/-- A whole number after a mark for its base. -/
def basedInteger : Parser Int := do
  let radix ← (literal "0x" *> pure 16) <|> (literal "0o" *> pure 8) <|> (literal "0b" *> pure 2)
  inWord (ofDigits radix (← digits radix) : Nat)

def decimalInteger : Parser Int := do
  let negative ← sign
  let magnitude := ofDigits 10 (← wholeDigits)
  inWord (if negative then -(magnitude : Int) else magnitude)

def integer : Parser Int :=
  basedInteger <|> decimalInteger

/-! ## Real numbers -/

/-- Where rounding to the double format begins to give infinity: halfway between the largest
finite value and the next power of two. -/
def overflowBound : Nat := 1 <<< 1024 - 1 <<< 970

/-- Whether `mantissa * 10 ^ exponent` is too large for the double format. The number of digits
decides, unless it is close to that of the bound. -/
def overflows (mantissa : Nat) (exponent : Int) : Bool :=
  let magnitude := (Nat.toDigits 10 mantissa).length + exponent
  if mantissa = 0 ∨ magnitude < 300 then false
  else if 320 < magnitude then true
  else if 0 ≤ exponent then overflowBound ≤ mantissa * Nat.pow 10 exponent.toNat
  else overflowBound * Nat.pow 10 (-exponent).toNat ≤ mantissa

def exponent : Parser Int := do
  let _ ← satisfy fun c => c == 'e' || c == 'E'
  let negative ← sign
  let magnitude := ofDigits 10 (← digits 10)
  return if negative then -(magnitude : Int) else magnitude

/-- A real number in digits: with a fraction, an exponent, or both. -/
def decimalReal : Parser Unit := do
  let negative ← sign
  let whole ← wholeDigits
  let (fraction, exponent) ←
    (do return ([], ← exponent)) <|>
    (do
      char '.'
      let fraction ← digits 10
      return (fraction, (← opt exponent).getD 0))
  if !negative && overflows (ofDigits 10 (whole ++ fraction)) (exponent - fraction.length) then
    failure

def real : Parser Unit :=
  decimalReal <|> (sign *> (literal "inf" <|> literal "nan"))

/-! ## Dates and times -/

def isLeapYear (year : Nat) : Bool :=
  year % 4 = 0 && (year % 100 ≠ 0 || year % 400 = 0)

def daysIn (year month : Nat) : Nat :=
  match month with
  | 2 => if isLeapYear year then 29 else 28
  | 4 | 6 | 9 | 11 => 30
  | _ => 31

/-- A number of `n` decimal digits between `low` and `high`. -/
def fixedNumber (n low high : Nat) : Parser Nat := do
  let value := ofDigits 10 (← times n (digit 10))
  if low ≤ value ∧ value ≤ high then return value else failure

def date : Parser Unit := do
  let year ← fixedNumber 4 0 9999
  char '-'
  let month ← fixedNumber 2 1 12
  char '-'
  let _ ← fixedNumber 2 1 (daysIn year month)

/-- A time of day; a minute may hold a leap second. -/
def timeOfDay : Parser Unit := do
  let _ ← fixedNumber 2 0 23
  char ':'
  let _ ← fixedNumber 2 0 59
  char ':'
  let _ ← fixedNumber 2 0 60
  let _ ← opt do
    char '.'
    let _ ← digit 10
    takeWhile (·.isDigit)

/-- The distance to universal time. -/
def timeOffset : Parser Unit :=
  (do let _ ← satisfy fun c => c == 'Z' || c == 'z') <|> do
    let _ ← satisfy fun c => c == '+' || c == '-'
    let _ ← fixedNumber 2 0 23
    char ':'
    let _ ← fixedNumber 2 0 59

def datetime : Parser Unit :=
  (do
    date
    let _ ← opt do
      let _ ← satisfy fun c => c == 'T' || c == 't' || c == ' '
      timeOfDay
      opt timeOffset) <|>
  timeOfDay

def boolean : Parser Bool :=
  (literal "true" *> pure true) <|> (literal "false" *> pure false)

end PacketWire.Toml
