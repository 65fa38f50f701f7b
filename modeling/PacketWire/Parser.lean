/-!
# Parsers over characters

A parser takes characters off the front of a text and gives a value and what is left, or fails.
An alternative `p <|> q` starts `q` where `p` started. What is repeated takes at least one
character in each round, so a repetition needs no more rounds than the text has characters.
-/

namespace PacketWire

abbrev Parser (α : Type) := StateT (List Char) Option α

namespace Parser

/-- What `p` reads from all of `text`. -/
def runAll (p : Parser α) (text : List Char) : Option α :=
  match p text with
  | some (a, []) => some a
  | _ => none

/-- The next character, which has to satisfy `ok`. -/
def satisfy (ok : Char → Bool) : Parser Char
  | c :: rest => if ok c then some (c, rest) else none
  | [] => none

def char (c : Char) : Parser Unit := do
  let _ ← satisfy (· == c)

/-- The characters `expected`, in this order. -/
def literal (expected : String) : Parser Unit :=
  expected.toList.forM char

/-- The longest run of characters that satisfy `ok`; it may be empty. -/
def takeWhile (ok : Char → Bool) : Parser (List Char) :=
  fun text => some (text.takeWhile ok, text.dropWhile ok)

/-- The longest run of characters that satisfy `ok`, where there is at least one. -/
def run (ok : Char → Bool) : Parser (List Char) := do
  let cs ← takeWhile ok
  if cs.isEmpty then failure else return cs

def atEnd : Parser Unit
  | [] => some ((), [])
  | _ :: _ => none

/-- What `p` reads, or nothing where it fails. -/
def opt (p : Parser α) : Parser (Option α) :=
  (some <$> p) <|> pure none

/-- `n` times `p`. -/
def times : (n : Nat) → Parser α → Parser (List α)
  | 0, _ => pure []
  | n + 1, p => do
    let a ← p
    return a :: (← times n p)

/-- At most `n` times `p`, ending where it fails. -/
def upTo : (n : Nat) → Parser α → Parser (List α)
  | 0, _ => pure []
  | n + 1, p => (do
    let a ← p
    return a :: (← upTo n p)) <|> pure []

/-- `p` as often as it succeeds, for a `p` that takes at least one character each time. -/
def many (p : Parser α) : Parser (List α) :=
  fun text => upTo text.length p text

/-- `p` at least once, with `separator` between any two. -/
def separated (p : Parser α) (separator : Parser Unit) : Parser (List α) := do
  let first ← p
  return first :: (← many (separator *> p))

/-! ## Digits -/

/-- The value of a digit in bases up to sixteen. -/
def digitValue (c : Char) : Nat :=
  if c.isDigit then c.toNat - '0'.toNat
  else if 'a' ≤ c ∧ c ≤ 'f' then c.toNat - 'a'.toNat + 10
  else if 'A' ≤ c ∧ c ≤ 'F' then c.toNat - 'A'.toNat + 10
  else 16

/-- A digit of base `radix`, as its value. -/
def digit (radix : Nat) : Parser Nat :=
  digitValue <$> satisfy (digitValue · < radix)

/-- The number that digits of base `radix` write. -/
def ofDigits (radix : Nat) (digits : List Nat) : Nat :=
  digits.foldl (fun value d => value * radix + d) 0

/-- Digits of base `radix`, at least one, as the number they write. -/
def number (radix : Nat) : Parser Nat := do
  let first ← digit radix
  return ofDigits radix (first :: (← many (digit radix)))

end Parser

end PacketWire
