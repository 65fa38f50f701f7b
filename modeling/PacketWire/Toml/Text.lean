import PacketWire.Toml.Blank

/-!
# Quoted texts and keys

A text stands in quotes of one of two kinds, on one line or, between three quotes, on several.
Double quotes admit escapes, single quotes take every character as it is. On several lines a line
end right after the opening is left out, every other one counts as a line feed, and a backslash
that ends a line removes it with all blanks and line ends that follow.
-/

namespace PacketWire.Toml

open PacketWire.Parser

/-- The character with the code that `n` hexadecimal digits write; codes that belong to no
character are refused. -/
def codePoint (n : Nat) : Parser Char := do
  let code := ofDigits 16 (← times n (digit 16))
  if code.isValidChar then return Char.ofNat code else failure

/-- The character that an escape stands for, from the one after the backslash. -/
def escapedBy : Char → Parser Char
  | 'b' => pure '\x08'
  | 't' => pure '\t'
  | 'n' => pure '\n'
  | 'f' => pure '\x0c'
  | 'r' => pure '\r'
  | '"' => pure '"'
  | '\\' => pure '\\'
  | 'u' => codePoint 4
  | 'U' => codePoint 8
  | _ => failure

def escape : Parser Char := do
  char '\\'
  escapedBy (← satisfy fun _ => true)

/-- Characters that stand for themselves between double quotes. -/
def plainRun : Parser (List Char) :=
  run fun c => isInline c && c != '"' && c != '\\'

/-- Characters that stand for themselves between single quotes. -/
def literalRun : Parser (List Char) :=
  run fun c => isInline c && c != '\''

/-- A text on one line. -/
def shortText : Parser String :=
  (String.ofList ·.flatten) <$>
    ((char '"' *> many (plainRun <|> List.singleton <$> escape) <* char '"') <|>
      (char '\'' *> many literalRun <* char '\''))

/-- One or two quotes within a text on several lines: they are followed by something else. -/
def innerQuotes (quote : Char) : Parser (List Char) := fun text =>
  match text.takeWhile (· == quote), text.dropWhile (· == quote) with
  | [a], rest@(_ :: _) => some ([a], rest)
  | [a, b], rest@(_ :: _) => some ([a, b], rest)
  | _, _ => none

/-- The end of a text on several lines: three quotes, before which up to two more belong to the
text. -/
def closingQuotes (quote : Char) : Parser (List Char) := fun text =>
  let extra := min ((text.takeWhile (· == quote)).length - 3) 2
  if 3 ≤ (text.takeWhile (· == quote)).length then
    some (List.replicate extra quote, text.drop (extra + 3))
  else none

/-- A backslash that ends its line, with the blanks and line ends after it. -/
def lineContinuation : Parser Unit := do
  char '\\'
  blanks
  newline
  let _ ← many ((do let _ ← satisfy isBlank) <|> newline)

/-- A text on several lines, where `piece` reads what stands between quotes and line ends. -/
def blockText (quote : Char) (piece : Parser (List Char)) : Parser String := do
  times 3 (char quote) *> opt newline *> pure ()
  let pieces ← many (piece <|> (newline *> pure ['\n']) <|> innerQuotes quote)
  let last ← closingQuotes quote
  return String.ofList (pieces.flatten ++ last)

def longText : Parser String :=
  blockText '"' (plainRun <|> (lineContinuation *> pure []) <|> List.singleton <$> escape) <|>
  blockText '\'' literalRun

def quotedText : Parser String :=
  longText <|> shortText

/-! ## Keys -/

/-- What a key may hold without quotes. -/
def isBareKeyChar (c : Char) : Bool :=
  c.isAlphanum || c == '_' || c == '-'

def bareKey : Parser String :=
  String.ofList <$> run isBareKeyChar

/-- The most names that the path of one key may join. -/
def maxKeyLength : Nat := 79

/-- A key: names joined by dots, with blanks around each. -/
def keyPath : Parser (List String) := do
  let path ← separated (blanks *> (shortText <|> bareKey) <* blanks) (char '.')
  if path.length ≤ maxKeyLength then return path else failure

end PacketWire.Toml
