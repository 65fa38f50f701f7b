import PacketWire.Text.Printable

/-!
# Quoted text

A text between quotes, as diagnostics show it: quotes and backslashes are preceded by a
backslash, the usual controls have their letters, and a character that cannot be seen by itself
is written as its number.
-/

namespace PacketWire.Quoted

/-- A character's number between braces, in the fewest hexadecimal digits. -/
def numbered (c : Char) : String :=
  "\\u\x7b" ++ String.ofList (Nat.toDigits 16 c.toNat) ++ "\x7d"

/-- How a character stands between quotes. -/
def escape (c : Char) : String :=
  if c = '\x00' then "\\0"
  else if c = '\t' then "\\t"
  else if c = '\r' then "\\r"
  else if c = '\n' then "\\n"
  else if c = '\\' then "\\\\"
  else if c = '"' then "\\\""
  else if c.toNat < 0x7F && 0x20 ≤ c.toNat then c.toString
  else if Printable.isAttached c || !Printable.isVisible c then numbered c
  else c.toString

/-- A text between quotes. -/
def quote (text : String) : String :=
  "\"" ++ String.join (text.toList.map escape) ++ "\""

end PacketWire.Quoted
