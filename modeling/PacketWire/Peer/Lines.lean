import PacketWire.Utf8

/-!
# Lines of an input

Lines end with a line feed, which belongs to the line while it is decoded: a character that the
line feed cuts short is a fault within the line. Afterwards the line feed is dropped, and with it
a carriage return in front of it. What follows the last line feed is a line of its own unless it
is empty.
-/

namespace PacketWire

namespace Line

def lineFeed : UInt8 := 0x0A

/-- The first whole line, with its line feed, and what follows it. -/
def takeFirst : Bytes → Option (Bytes × Bytes)
  | [] => none
  | byte :: rest =>
    if byte = lineFeed then some ([byte], rest)
    else (takeFirst rest).map fun (line, rest) => (byte :: line, rest)

theorem takeFirst_eq_some {bytes line rest : Bytes} (h : takeFirst bytes = some (line, rest)) :
    bytes = line ++ rest ∧ line ≠ [] := by
  induction bytes generalizing line with
  | nil => simp [takeFirst] at h
  | cons byte bytes ih =>
    rw [takeFirst] at h
    split at h
    · simp only [Option.some.injEq, Prod.mk.injEq] at h
      simp [← h.1, ← h.2]
    · obtain ⟨⟨line', rest'⟩, found, eq⟩ := Option.map_eq_some_iff.1 h
      simp only [Prod.mk.injEq] at eq
      obtain ⟨rfl, rfl⟩ := eq
      simp [(ih found).1]

/-- All lines of an input, with their line feeds. -/
def all (bytes : Bytes) : List Bytes :=
  match _h : takeFirst bytes with
  | some (line, rest) => line :: all rest
  | none => if bytes.isEmpty then [] else [bytes]
termination_by bytes.length
decreasing_by
  obtain ⟨eq, nonempty⟩ := takeFirst_eq_some _h
  have := List.length_pos_iff.2 nonempty
  simp only [eq, List.length_append]
  omega

/-- A line without its end. -/
def dropEnd (chars : List Char) : List Char :=
  match chars.reverse with
  | '\n' :: '\r' :: rest => rest.reverse
  | '\n' :: rest => rest.reverse
  | _ => chars

/-- The text of a line, which may have its line feed. -/
def text (line : Bytes) : Except Utf8Error String :=
  (Utf8.decodeChars line).map fun chars => String.ofList (dropEnd chars)

@[simp] theorem all_nil : all [] = [] := by
  rw [all]; rfl

end Line

end PacketWire
