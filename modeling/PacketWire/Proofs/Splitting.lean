import PacketWire.Peer.Lines
import PacketWire.Proofs.Spelling

/-!
# The lines of a text

Lines are taken off a string of bytes, as many as there are by then, and each is decoded by itself.
What comes of that for a whole text can be told from its characters alone: line feeds cut it into
pieces, a piece that a line feed follows is a line without the carriage return that may end it, and
what follows the last line feed is a line as it is, unless it is empty. No character but the line
feed is written with its byte, so no other is cut.
-/

namespace PacketWire.Line

/-- A piece of a text without the carriage return that may end it. -/
def dropReturn (chars : List Char) : List Char :=
  if chars.getLast? = some '\r' then chars.dropLast else chars

/-- The lines of a text that line feeds cut into these pieces. -/
def ofPieces : List (List Char) → List (List Char)
  | [] => []
  | [last] => if last.isEmpty then [] else [last]
  | piece :: pieces => dropReturn piece :: ofPieces pieces

/-- The lines of a text. -/
def texts (text : String) : List String :=
  (ofPieces (text.toList.splitOn '\n')).map String.ofList

variable {bytes front line rest : Bytes} {chars : List Char}

/-! ### Taking lines off a string of bytes -/

theorem takeFirst_eq_none (h : lineFeed ∉ bytes) : takeFirst bytes = none := by
  induction bytes with
  | nil => rfl
  | cons byte bytes ih =>
      rw [List.mem_cons, not_or] at h
      rw [takeFirst, if_neg (Ne.symm h.1), ih h.2]
      rfl

theorem takeFirst_append_cons (h : lineFeed ∉ front) (rest : Bytes) :
    takeFirst (front ++ lineFeed :: rest) = some (front ++ [lineFeed], rest) := by
  induction front with
  | nil => simp [takeFirst]
  | cons byte front ih =>
      rw [List.mem_cons, not_or] at h
      rw [List.cons_append, takeFirst, if_neg (Ne.symm h.1), ih h.2]
      rfl

/-- A line is whole however much follows. -/
theorem takeFirst_append (h : takeFirst bytes = some (line, rest)) (more : Bytes) :
    takeFirst (bytes ++ more) = some (line, rest ++ more) := by
  induction bytes generalizing line with
  | nil => cases h
  | cons byte bytes ih =>
      rw [takeFirst] at h
      rw [List.cons_append, takeFirst]
      split at h
      · rename_i ends
        cases h
        rw [if_pos ends]
      · rename_i goesOn
        obtain ⟨⟨line', rest'⟩, found, same⟩ := Option.map_eq_some_iff.mp h
        cases same
        rw [if_neg goesOn, ih found]
        rfl

theorem all_of_takeFirst (h : takeFirst bytes = some (line, rest)) :
    all bytes = line :: all rest := by
  rw [all]
  split
  · rename_i found
    cases h.symm.trans found
    rfl
  · rename_i none
    cases h.symm.trans none

theorem all_of_none (h : takeFirst bytes = none) :
    all bytes = if bytes.isEmpty then [] else [bytes] := by
  rw [all]
  split
  · rename_i found
    cases h.symm.trans found
  · rfl

/-! ### Lines of a text -/

/-- All bytes of a character that takes more than one are beyond the line feed. -/
theorem lineFeed_notMem_of_spells {value : Nat} {word : Bytes} (h : Utf8.Spells value word)
    (other : value ≠ 10) : lineFeed ∉ word := by
  have apart {n : Nat} (small : n < 256) (ne : n ≠ 10) : lineFeed ≠ UInt8.ofNat n := by
    intro same
    have values := congrArg UInt8.toNat same
    simp only [lineFeed, UInt8.reduceToNat, UInt8.toNat_ofNat'] at values
    omega
  cases h <;> simp only [List.mem_cons, List.not_mem_nil, or_false, not_or]
  · exact apart (by omega) other
  · exact ⟨apart (by omega) (by omega), apart (by omega) (by omega)⟩
  · exact ⟨apart (by omega) (by omega), apart (by omega) (by omega), apart (by omega) (by omega)⟩
  · exact ⟨apart (by omega) (by omega), apart (by omega) (by omega), apart (by omega) (by omega),
      apart (by omega) (by omega)⟩

theorem lineFeed_notMem (h : '\n' ∉ chars) : lineFeed ∉ chars.flatMap String.utf8EncodeChar := by
  intro member
  obtain ⟨c, inside, member⟩ := List.mem_flatMap.mp member
  refine lineFeed_notMem_of_spells (Utf8.spells_utf8EncodeChar c) (fun same => h ?_) member
  rwa [show '\n' = c from Char.toNat_inj.mp same.symm]

theorem text_flatMap (chars : List Char) :
    text (chars.flatMap String.utf8EncodeChar) = .ok (String.ofList (dropEnd chars)) := by
  rw [text, Utf8.decodeChars, Utf8.scan_flatMap]
  rfl

theorem dropEnd_concat (chars : List Char) : dropEnd (chars ++ ['\n']) = dropReturn chars := by
  rcases List.eq_nil_or_concat chars with rfl | ⟨init, last, rfl⟩
  · rfl
  · by_cases ends : last = '\r'
    · simp [dropEnd, dropReturn, ends]
    · simp [dropEnd, dropReturn, ends]

/-- Without a line feed nothing is dropped. -/
theorem dropEnd_of_notMem (h : '\n' ∉ chars) : dropEnd chars = chars := by
  have absent (rest : List Char) : chars.reverse ≠ '\n' :: rest := by
    intro same
    exact h (List.mem_reverse.mp (same ▸ List.mem_cons_self))
  rw [dropEnd]
  split
  · rename_i same
    exact absurd same (absent _)
  · rename_i same
    exact absurd same (absent _)
  · rfl

theorem ofPieces_cons (piece : List Char) {pieces : List (List Char)} (more : pieces ≠ []) :
    ofPieces (piece :: pieces) = dropReturn piece :: ofPieces pieces := by
  cases pieces with
  | nil => exact absurd rfl more
  | cons => rfl

/-- The first line of a text with a line feed. -/
theorem all_flatMap_append_cons {front : List Char} (whole : '\n' ∉ front) (behind : List Char) :
    all ((front ++ '\n' :: behind).flatMap String.utf8EncodeChar) =
      (front ++ ['\n']).flatMap String.utf8EncodeChar ::
        all (behind.flatMap String.utf8EncodeChar) := by
  have written : (front ++ '\n' :: behind).flatMap String.utf8EncodeChar =
      front.flatMap String.utf8EncodeChar ++
        lineFeed :: behind.flatMap String.utf8EncodeChar := by
    rw [List.flatMap_append, List.flatMap_cons]
    rfl
  have first : (front ++ ['\n']).flatMap String.utf8EncodeChar =
      front.flatMap String.utf8EncodeChar ++ [lineFeed] := by
    rw [List.flatMap_append]
    rfl
  rw [written, first]
  exact all_of_takeFirst (takeFirst_append_cons (lineFeed_notMem whole) _)

theorem ofPieces_splitOn_append_cons {front : List Char} (whole : '\n' ∉ front)
    (behind : List Char) : ofPieces ((front ++ '\n' :: behind).splitOn '\n') =
      dropReturn front :: ofPieces (behind.splitOn '\n') := by
  rw [List.splitOn_append_cons_self, List.splitOn_eq_singleton whole]
  exact ofPieces_cons front (List.splitOn_ne_nil _ _)

/-- The lines that are taken off what is written for a text are read as its lines. -/
theorem map_text_all (text : String) :
    (all (Utf8.encode text)).map Line.text = (texts text).map .ok := by
  rw [Utf8.encode, texts, List.map_map]
  generalize text.toList = chars
  -- the induction is on the length: after the first line feed the rest is a shorter text
  induction size : chars.length using Nat.strongRecOn generalizing chars with
  | ind _ ih =>
      by_cases cut : '\n' ∈ chars
      · obtain ⟨front, behind, rfl, whole⟩ := List.eq_append_cons_of_mem cut
        have shorter : behind.length < (front ++ '\n' :: behind).length := by
          rw [List.length_append, List.length_cons]
          omega
        rw [all_flatMap_append_cons whole, List.map_cons, ih _ (size ▸ shorter) behind rfl,
          text_flatMap, dropEnd_concat, ofPieces_splitOn_append_cons whole]
        rfl
      · rw [all_of_none (takeFirst_eq_none (lineFeed_notMem cut)), List.splitOn_eq_singleton cut,
          ofPieces]
        cases chars with
        | nil => rfl
        | cons c chars =>
            rw [if_neg (by simp), if_neg (by simp), List.map_singleton, text_flatMap,
              dropEnd_of_notMem cut]
            rfl

/-- Only before a line feed is a carriage return dropped. -/
example : texts "a\r\n\nb\r" = ["a", "", "b\r"] := by decide +kernel

end PacketWire.Line
