/-!
# Values of a document

A document is a table of named values. Tables come about in four ways, and these decide what a
later line may still add: a header names a table once, a header below it implies one that may
yet get its own header, a dotted key makes one that other dotted keys may extend, and an inline
table is finished where it stands. An array made by double brackets grows by one table with each
such header, and names that lead through it mean its last table.
-/

namespace PacketWire.Toml

/-- How a table came about. -/
inductive Origin where
  /-- It has a header of its own, or is the whole document. -/
  | header
  /-- A header names a table inside it. -/
  | implied
  /-- A dotted key names a value inside it. -/
  | dotted
  /-- It stands in braces. -/
  | braces
  deriving DecidableEq, Repr

inductive Value where
  | string (text : String)
  | integer (number : Int)
  | real
  | boolean (truth : Bool)
  | datetime
  /-- An array; one that headers make is `growing`. -/
  | array (growing : Bool) (elements : List Value)
  | table (origin : Origin) (entries : List (String × Value))
  deriving Repr

namespace Value

/-- The entries under a key replaced by one value; its place is kept. -/
def assign (key : String) (value : Value) : List (String × Value) → List (String × Value)
  | [] => [(key, value)]
  | (k, v) :: rest => if k = key then (k, value) :: rest else (k, v) :: assign key value rest

/-- `change` applied to the table that a name inside a key means, given what stands under the
name. A key in a line (`dotted`) does not reach into a table that has its own header. -/
def enter (dotted : Bool) (change : Value → Option Value) : Value → Option Value
  | table origin entries =>
    if origin = .braces ∨ (dotted ∧ origin = .header) then none
    else change (table origin entries)
  | array true elements => do
    let last ← elements.getLast?
    return array true (elements.dropLast ++ [← change last])
  | _ => none

/-- `change` applied to the table at the end of a path. Tables that are missing on the way are
made. -/
def update (dotted : Bool) (change : Value → Option Value) : List String → Value → Option Value
  | [], v => change v
  | key :: path, table origin entries => do
    let child ← match entries.lookup key with
      | none => update dotted change path (table (if dotted then .dotted else .implied) [])
      | some child => enter dotted (update dotted change path) child
    return table origin (assign key child entries)
  | _ :: _, _ => none

/-- A new value under a key. A dotted key ends in a table that dotted keys made, any other key in
one that they did not. -/
def add (viaDots : Bool) (key : String) (value : Value) : Value → Option Value
  | table origin entries =>
    if (entries.lookup key).isSome ∨ viaDots ≠ (origin == .dotted) then none
    else some (table origin (entries ++ [(key, value)]))
  | _ => none

/-- The value that the last name of a key gets, at the end of the path before it. -/
def addAt (root : Value) (path : List String) (value : Value) : Option Value := do
  let key ← path.getLast?
  root.update true (add (path.length ≠ 1) key value) path.dropLast

/-- A table opened by its header. -/
def openTable (key : String) : Value → Option Value
  | table origin entries =>
    match entries.lookup key with
    | none => some (table origin (entries ++ [(key, table .header [])]))
    | some (table .implied inner) => some (table origin (assign key (table .header inner) entries))
    | some _ => none
  | _ => none

/-- A table opened as the next of an array. -/
def openElement (key : String) : Value → Option Value
  | table origin entries =>
    match entries.lookup key with
    | none => some (table origin (entries ++ [(key, array true [table .header []])]))
    | some (array true elements) =>
      some (table origin (assign key (array true (elements ++ [table .header []])) entries))
    | some _ => none
  | _ => none

end Value

end PacketWire.Toml
