import PacketWire.Parser

/-!
# Blanks, line ends and comments
-/

namespace PacketWire.Toml

open PacketWire.Parser

def isBlank (c : Char) : Bool :=
  c == ' ' || c == '\t'

/-- What a line may hold in a comment: a tab and all that is no control character of ASCII. -/
def isInline (c : Char) : Bool :=
  c == '\t' || ('\x20' ≤ c && c != '\x7f')

def blanks : Parser Unit := do
  let _ ← takeWhile isBlank

/-- A line feed, alone or after a carriage return. -/
def newline : Parser Unit :=
  char '\n' <|> (char '\r' *> char '\n')

def comment : Parser Unit := do
  char '#'
  let _ ← takeWhile isInline

/-- What may follow on the line of a finished expression. -/
def lineEnd : Parser Unit := do
  blanks
  let _ ← opt comment
  newline <|> atEnd

/-- Blanks, line ends and whole comments, as they may stand between the elements of an array. -/
def gap : Parser Unit := do
  let _ ← many ((do let _ ← satisfy isBlank) <|> newline <|> (comment *> newline))

end PacketWire.Toml
