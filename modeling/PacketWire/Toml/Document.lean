import PacketWire.Toml.Scalar
import PacketWire.Toml.Value

/-!
# Documents

A document is a run of lines. A line holds a header, which says where the following values go, or
a key and its value; either may be followed by a comment. Arrays and inline tables nest up to a
fixed depth, and so the parser of values recurs on the depth that is left.
-/

namespace PacketWire.Toml

open PacketWire.Parser

/-! ## Values -/

/-- A value that holds no others. What a number may turn out to be is tried from the longest form
to the shortest. -/
def scalar : Parser Value :=
  (.string <$> quotedText) <|> (datetime *> pure .datetime) <|> (real *> pure .real) <|>
    (.integer <$> integer) <|> (.boolean <$> boolean)

/-- An array: a comma may follow the last element. -/
def array (element : Parser Value) : Parser Value := do
  char '['
  let elements ← opt do
    let elements ← separated (gap *> element <* gap) (char ',')
    let _ ← opt (char ',')
    return elements
  gap
  char ']'
  return .array false (elements.getD [])

/-- A key, an equals sign and a value. -/
def assignment (value : Parser Value) : Parser (List String × Value) := do
  let path ← keyPath
  char '='
  blanks
  return (path, ← value)

/-- A table in braces, on one line and without a comma after the last entry. -/
def inlineTable (value : Parser Value) : Parser Value := do
  char '\x7b'
  let entries ← opt (separated (assignment value <* blanks) (char ','))
  blanks
  char '\x7d'
  match ← (entries.getD []).foldlM (fun root (path, v) => root.addAt path v)
      (Value.table .header []) with
  | .table _ entries => return .table .braces entries
  | _ => failure

/-- A value in which arrays and inline tables nest at most `depth` deep. -/
def value : (depth : Nat) → Parser Value
  | 0 => scalar
  | depth + 1 => scalar <|> array (value depth) <|> inlineTable (value depth)

/-- The depth to which values may nest. -/
def maxDepth : Nat := 79

/-! ## Lines -/

inductive Line where
  | blank
  | table (path : List String)
  | element (path : List String)
  | entry (path : List String) (value : Value)

def header : Parser Line :=
  (do literal "[["; let path ← keyPath; literal "]]"; return .element path) <|>
    (do char '['; let path ← keyPath; char ']'; return .table path)

def expression : Parser Line :=
  header <|> do
    let (path, v) ← assignment (value maxDepth)
    return .entry path v

/-- A line with its end. -/
def line : Parser Line :=
  blanks *> (((opt comment *> newline) *> pure .blank) <|> (comment *> atEnd *> pure .blank) <|>
    (expression <* lineEnd))

/-- The lines of a document, after an optional byte order mark. -/
def lines : Parser (List Line) := do
  let _ ← opt (char '\ufeff')
  let found ← many line
  blanks
  return found

/-- The document so far, and where the lines that follow put their values. -/
structure Draft where
  root : Value := .table .header []
  path : List String := []

def Draft.take (d : Draft) : Line → Option Draft
  | .blank => some d
  | .table path => do
    let key ← path.getLast?
    let root ← d.root.update false (Value.openTable key) path.dropLast
    return ⟨root, path⟩
  | .element path => do
    let key ← path.getLast?
    let root ← d.root.update false (Value.openElement key) path.dropLast
    return ⟨root, path⟩
  | .entry path v => do
    let root ← d.root.update false (·.addAt path v) d.path
    return { d with root }

/-- The table that a text writes. -/
def parse (text : String) : Option Value := do
  let found ← lines.runAll text.toList
  let draft ← found.foldlM Draft.take {}
  return draft.root

end PacketWire.Toml
