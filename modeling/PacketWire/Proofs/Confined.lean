import PacketWire.Proofs.Fields

/-!
# Reads keep to their payload

A payload lies in a buffer whose operations are for those who know that it holds enough: who takes
more than there is breaks down. A read is a `Routine` of such operations with a check in front of
each, and `perform` runs it on a buffer of this kind. `Decoder.read` is what comes of that, so no
read ever breaks down. `Reads` lists what may come of one: the value that some bytes at the front
write, or a failure, each with what is unread then.
-/

namespace PacketWire

namespace FieldType

/-- The bytes that a field takes which always takes as many. -/
def size? : FieldType → Option Nat
  | bool | u8 | i8 => some 1
  | u16 | i16 => some 2
  | i32 | f32 => some 4
  | i64 | f64 => some 8
  | block size => some size
  | str | rest => none

end FieldType

namespace Decoder

/-- What a read does to the buffer of a payload, one thing after the other. -/
inductive Routine (α : Type) where
  | done (result : Except DecodeError α)
  /-- Asks how many bytes are left. -/
  | measure (next : Nat → Routine α)
  /-- Goes on if so many bytes are left, and fails otherwise. -/
  | ensure (needed : Nat) (next : Routine α)
  /-- Takes so many bytes off the front. -/
  | take (count : Nat) (next : { bytes : Bytes // bytes.length = count } → Routine α)

namespace Routine

/-- Runs a routine. Nothing comes of one that takes more than is left. -/
def perform {α : Type} : Routine α → Bytes → Option (Except DecodeError α × Bytes)
  | done result, buffer => some (result, buffer)
  | measure next, buffer => (next buffer.length).perform buffer
  | ensure needed next, buffer =>
    if buffer.length < needed then some (.error (.unexpectedEnd needed buffer.length), buffer)
    else next.perform buffer
  | take count next, buffer =>
    if h : (buffer.take count).length = count then
      (next ⟨buffer.take count, h⟩).perform (buffer.drop count)
    else none

/-- The checks that a routine comes to: what each asks for, and what is left then. -/
def checks {α : Type} : Routine α → Bytes → List (Nat × Nat)
  | done _, _ => []
  | measure next, buffer => (next buffer.length).checks buffer
  | ensure needed next, buffer =>
    (needed, buffer.length) :: if buffer.length < needed then [] else next.checks buffer
  | take count next, buffer =>
    if h : (buffer.take count).length = count then
      (next ⟨buffer.take count, h⟩).checks (buffer.drop count)
    else []

/-- Takes so many bytes, if there are as many. -/
def checked {α : Type} (count : Nat)
    (next : { bytes : Bytes // bytes.length = count } → Routine α) : Routine α :=
  ensure count (take count next)

/-- Takes a big-endian number. -/
def number {α : Type} (width : Nat) (f : Nat → α) : Routine α :=
  checked width fun bytes => done (.ok (f (BigEndian.decode bytes.val)))

/-- Takes a text: its length, then its body. -/
def text : Routine String :=
  checked 2 fun size => checked (BigEndian.decode size.val) fun body =>
    done ((Utf8.decode body.val).mapError .invalidUtf8)

/-- The routine of a field. -/
def ofType : (t : FieldType) → Routine t.Value
  | .bool => number 1 (· != 0)
  | .u8 => number 1 UInt8.ofNat
  | .i8 => number 1 fun n => (UInt8.ofNat n).toInt8
  | .u16 => number 2 UInt16.ofNat
  | .i16 => number 2 fun n => (UInt16.ofNat n).toInt16
  | .i32 => number 4 fun n => (UInt32.ofNat n).toInt32
  | .i64 => number 8 fun n => (UInt64.ofNat n).toInt64
  | .f32 => number 4 UInt32.ofNat
  | .f64 => number 8 UInt64.ofNat
  | .str => text
  | .block size => checked size fun bytes => done (.ok bytes)
  | .rest => measure fun left => take left fun bytes => done (.ok bytes.val)

end Routine

/-- What comes of a read, by what is unread before it. -/
inductive Reads : (t : FieldType) → Bytes → Except DecodeError t.Value → Bytes → Prop
  /-- The value is what the bytes write that are not unread any more. -/
  | value {t : FieldType} {v : t.Value} {bytes rest : Bytes} :
      t.encode v = .ok (t.canonical bytes) → Reads t (bytes ++ rest) (.ok v) rest
  /-- There are too few bytes. -/
  | short {t : FieldType} {size : Nat} {unread : Bytes} : t.size? = some size →
      unread.length < size →
      Reads t unread (.error (.unexpectedEnd size unread.length)) unread
  /-- There are too few bytes for the length of a text. -/
  | noLength {unread : Bytes} : unread.length < 2 →
      Reads .str unread (.error (.unexpectedEnd 2 unread.length)) unread
  /-- The body of a text is cut short; its length was taken. -/
  | shortBody {size unread : Bytes} : size.length = 2 →
      unread.length < BigEndian.decode size →
      Reads .str (size ++ unread)
        (.error (.unexpectedEnd (BigEndian.decode size) unread.length)) unread
  /-- The body is no text; it was taken with its length. -/
  | noText {size body rest : Bytes} {cause : Utf8Error} : size.length = 2 →
      body.length = BigEndian.decode size → (∀ text, Utf8.encode text ≠ body) →
      Reads .str (size ++ body ++ rest) (.error (.invalidUtf8 cause)) rest

/-- One of a row of reads. -/
structure Step where
  type : FieldType
  before : Bytes
  result : Except DecodeError type.Value
  after : Bytes

/-- One read after the other, whatever comes of each. -/
def readings : List FieldType → Decoder → List Step
  | [], _ => []
  | t :: types, d => ⟨t, d.unread, (d.read t).1, (d.read t).2.unread⟩ :: readings types (d.read t).2

/-- The same row on a buffer. Nothing comes of it if one of the reads breaks down. -/
def performAll : List FieldType → Bytes → Option (List Step)
  | [], _ => some []
  | t :: types, buffer => do
    let (result, left) ← (Routine.ofType t).perform buffer
    let steps ← performAll types left
    return ⟨t, buffer, result, left⟩ :: steps

variable {t : FieldType} {d : Decoder} {α : Type} {n : Nat}

/-! ### Checks and what they guard -/

theorem take_of_le (h : n ≤ d.remaining) :
    d.take n = (.ok ⟨d.unread.take n, List.length_take_of_le h⟩, ⟨d.unread.drop n⟩) := by
  rw [take, dif_pos (List.length_take_of_le h)]

theorem take_of_lt (h : d.remaining < n) :
    d.take n = (.error (.unexpectedEnd n d.remaining), d) := by
  rw [remaining] at h
  rw [take, dif_neg]
  rw [List.length_take]
  omega

namespace Routine

/-- Behind its check an operation never breaks down. -/
theorem perform_checked (next : { bytes : Bytes // bytes.length = n } → Routine α) (d : Decoder) :
    (checked n next).perform d.unread =
      match d.take n with
      | (.error e, d) => some (.error e, d.unread)
      | (.ok bytes, d) => (next bytes).perform d.unread := by
  rw [checked, perform]
  split
  · rename_i few
    rw [take_of_lt few]
    rfl
  · rename_i enough
    have all : n ≤ d.remaining := Nat.le_of_not_lt enough
    rw [take_of_le all, perform, dif_pos (List.length_take_of_le all)]

theorem checks_checked (next : { bytes : Bytes // bytes.length = n } → Routine α) (d : Decoder) :
    (checked n next).checks d.unread =
      match d.take n with
      | (.error _, _) => [(n, d.remaining)]
      | (.ok bytes, d') => (n, d.remaining) :: (next bytes).checks d'.unread := by
  rw [checked, checks]
  split
  · rename_i few
    rw [take_of_lt few]
    rfl
  · rename_i enough
    have all : n ≤ d.remaining := Nat.le_of_not_lt enough
    rw [take_of_le all, checks, dif_pos (List.length_take_of_le all)]
    rfl

theorem perform_number (width : Nat) (f : Nat → α) (d : Decoder) :
    (number width f).perform d.unread =
      some ((d.number width f).1, (d.number width f).2.unread) := by
  rw [number, perform_checked, Decoder.number]
  cases taken : d.take width with
  | mk result d' => cases result <;> rfl

theorem perform_text (d : Decoder) :
    text.perform d.unread = some (d.text.1, d.text.2.unread) := by
  rw [text, perform_checked, Decoder.text, Decoder.number]
  cases sized : d.take 2 with
  | mk result d₁ =>
      cases result with
      | error e => rfl
      | ok size =>
          dsimp only
          rw [perform_checked, id]
          cases taken : d₁.take (BigEndian.decode size.val) with
          | mk result d₂ =>
              cases result with
              | error e => rfl
              | ok body =>
                  dsimp only
                  cases Utf8.decode body.val <;> rfl

end Routine

/-- A field is a number of some width, a block, a text, or all that is left. -/
theorem exists_number (t : FieldType) :
    (∃ width f, t.size? = some width ∧ Routine.ofType t = Routine.number width f ∧
      ∀ d : Decoder, d.read t = d.number width f) ∨
    (∃ size, t = .block size) ∨ t = .str ∨ t = .rest := by
  cases t
  case bool => exact .inl ⟨1, (· != 0), rfl, rfl, fun _ => rfl⟩
  case i8 => exact .inl ⟨1, fun n => (UInt8.ofNat n).toInt8, rfl, rfl, fun _ => rfl⟩
  case i16 => exact .inl ⟨2, fun n => (UInt16.ofNat n).toInt16, rfl, rfl, fun _ => rfl⟩
  case i32 => exact .inl ⟨4, fun n => (UInt32.ofNat n).toInt32, rfl, rfl, fun _ => rfl⟩
  case i64 => exact .inl ⟨8, fun n => (UInt64.ofNat n).toInt64, rfl, rfl, fun _ => rfl⟩
  case block size => exact .inr (.inl ⟨size, rfl⟩)
  case str => exact .inr (.inr (.inl rfl))
  case rest => exact .inr (.inr (.inr rfl))
  all_goals exact .inl ⟨_, _, rfl, rfl, fun _ => rfl⟩

/-- A read is what comes of its routine. -/
theorem perform_ofType (t : FieldType) (d : Decoder) :
    (Routine.ofType t).perform d.unread = some ((d.read t).1, (d.read t).2.unread) := by
  rcases exists_number t with ⟨width, f, -, routine, reads⟩ | ⟨size, rfl⟩ | rfl | rfl
  · rw [reads, routine, Routine.perform_number]
  · rw [Routine.ofType, Routine.perform_checked, read]
    cases taken : d.take size with
    | mk result d' => cases result <;> rfl
  · exact Routine.perform_text d
  · rw [Routine.ofType, Routine.perform, Routine.perform, dif_pos (by rw [List.take_length]),
      Routine.perform]
    simp [read, all]

/-- So is a row of reads. -/
theorem performAll_eq (types : List FieldType) (d : Decoder) :
    performAll types d.unread = some (readings types d) := by
  induction types generalizing d with
  | nil => rfl
  | cons t types ih => simp [performAll, perform_ofType, ih, readings]

/-! ### What comes of a read -/

theorem number_of_lt {width : Nat} (f : Nat → α) (few : d.remaining < width) :
    d.number width f = (.error (.unexpectedEnd width d.remaining), d) := by
  rw [number, take_of_lt few]

/-- What does not read as text is written by none. -/
theorem encode_ne {body : Bytes} {cause : Utf8Error} (h : Utf8.decode body = .error cause)
    (text : String) : Utf8.encode text ≠ body := by
  rintro rfl
  rw [Utf8.decode_encode] at h
  cases h

/-- What comes of a text, by how far there are bytes for it. -/
theorem reads_text (d : Decoder) : Reads .str d.unread d.text.1 d.text.2.unread := by
  cases eq : d.text with
  | mk result d' =>
  cases result with
  | ok text =>
      obtain ⟨bytes, split, written⟩ := encode_of_text eq
      rw [split]
      exact .value written
  | error e =>
      by_cases noLength : d.remaining < 2
      · rw [text, number_of_lt id noLength] at eq
        cases eq
        exact .noLength noLength
      rw [text, number, take_of_le (Nat.le_of_not_lt noLength)] at eq
      dsimp only [id] at eq
      have exact := List.length_take_of_le (Nat.le_of_not_lt noLength)
      rw [← List.take_append_drop 2 d.unread]
      generalize d.unread.take 2 = size at eq exact
      generalize d.unread.drop 2 = behind at eq
      by_cases shortBody : behind.length < BigEndian.decode size
      · rw [take_of_lt shortBody] at eq
        cases eq
        exact .shortBody exact shortBody
      have enough := Nat.le_of_not_lt shortBody
      rw [take_of_le enough] at eq
      dsimp only at eq
      split at eq
      · cases eq
      · rename_i cause noText
        cases eq
        have split : Reads .str
            (size ++ behind.take (BigEndian.decode size) ++ behind.drop (BigEndian.decode size))
            (.error (.invalidUtf8 cause)) (behind.drop (BigEndian.decode size)) :=
          .noText exact (List.length_take_of_le enough) (encode_ne noText)
        rwa [List.append_assoc, List.take_append_drop] at split

/-- What comes of a read is one of the things listed. -/
theorem reads_read (t : FieldType) (d : Decoder) :
    Reads t d.unread (d.read t).1 (d.read t).2.unread := by
  cases eq : d.read t with
  | mk result d' =>
  cases result with
  | ok v =>
      obtain ⟨bytes, split, written⟩ := encode_of_read eq
      rw [split]
      exact .value written
  | error e =>
      rcases exists_number t with ⟨width, f, size, -, reads⟩ | ⟨size, rfl⟩ | rfl | rfl
      · rw [reads, number] at eq
        by_cases few : d.remaining < width
        · rw [take_of_lt few] at eq
          cases eq
          exact .short size few
        · rw [take_of_le (Nat.le_of_not_lt few)] at eq
          cases eq
      · rw [read] at eq
        by_cases few : d.remaining < size
        · rw [take_of_lt few] at eq
          cases eq
          exact .short rfl few
        · rw [take_of_le (Nat.le_of_not_lt few)] at eq
          cases eq
      · have text := reads_text d
        rw [read] at eq
        rwa [eq] at text
      · cases eq

/-! ### Too few bytes are found by a check -/

variable {needed left : Nat}

theorem take_eq_unexpectedEnd :
    (d.take n).1 = .error (.unexpectedEnd needed left) ↔
      (needed, left) = (n, d.remaining) ∧ left < needed := by
  by_cases few : d.remaining < n
  · rw [take_of_lt few]
    constructor
    · intro same
      cases same
      exact ⟨rfl, few⟩
    · rintro ⟨same, -⟩
      cases same
      rfl
  · rw [take_of_le (Nat.le_of_not_lt few)]
    constructor
    · intro same
      cases same
    · rintro ⟨same, short⟩
      cases same
      exact absurd short few

theorem number_eq_unexpectedEnd {width : Nat} {f : Nat → α} :
    (d.number width f).1 = .error (.unexpectedEnd needed left) ↔
      (needed, left) = (width, d.remaining) ∧ left < needed := by
  rw [← take_eq_unexpectedEnd, number]
  cases taken : d.take width with
  | mk result d' => cases result <;> simp

namespace Routine

theorem checks_number (width : Nat) (f : Nat → α) (d : Decoder) :
    (number width f).checks d.unread = [(width, d.remaining)] := by
  rw [number, checks_checked]
  cases d.take width with
  | mk result d' => cases result <;> rfl

/-- A text is checked for its length and, if there is one, for its body. -/
theorem checks_text (d : Decoder) :
    text.checks d.unread =
      match d.number 2 id with
      | (.error _, _) => [(2, d.remaining)]
      | (.ok size, d') => [(2, d.remaining), (size, d'.remaining)] := by
  rw [text, checks_checked, Decoder.number]
  cases sized : d.take 2 with
  | mk result d₁ =>
      cases result with
      | error e => rfl
      | ok size =>
          dsimp only [id]
          rw [checks_checked]
          cases d₁.take (BigEndian.decode size.val) with
          | mk result d₂ => cases result <;> rfl

end Routine

/-- A text ends too early where one of its two checks fails. -/
theorem text_eq_unexpectedEnd :
    d.text.1 = .error (.unexpectedEnd needed left) ↔
      (needed, left) ∈ Routine.text.checks d.unread ∧ left < needed := by
  rw [Routine.checks_text, text]
  cases sized : d.number 2 id with
  | mk result d' =>
  have short : result = .error (.unexpectedEnd needed left) ↔
      (needed, left) = (2, d.remaining) ∧ left < needed := by
    rw [← number_eq_unexpectedEnd (f := id), sized]
  cases result with
  | error e => simpa using short
  | ok size =>
      have enough : ¬ ((needed, left) = (2, d.remaining) ∧ left < needed) := by
        rw [← short]
        intro impossible
        cases impossible
      dsimp only
      rw [List.mem_cons, List.mem_singleton, or_and_right, or_iff_right enough,
        ← take_eq_unexpectedEnd (n := size)]
      cases d'.take size with
      | mk result d'' =>
      cases result with
      | error e => simp
      | ok body =>
          dsimp only
          split <;> simp

/-- Any read ends too early where one of its checks fails, and nowhere else. -/
theorem read_eq_unexpectedEnd (t : FieldType) (d : Decoder) :
    (d.read t).1 = .error (.unexpectedEnd needed left) ↔
      (needed, left) ∈ (Routine.ofType t).checks d.unread ∧ left < needed := by
  rcases exists_number t with ⟨width, f, -, routine, reads⟩ | ⟨size, rfl⟩ | rfl | rfl
  · rw [reads, routine, Routine.checks_number, number_eq_unexpectedEnd, List.mem_singleton]
  · rw [read, take_eq_unexpectedEnd, Routine.ofType, Routine.checks_checked]
    cases d.take size with
    | mk result d' => cases result <;> simp [Routine.checks]
  · exact text_eq_unexpectedEnd
  · simp [read, Routine.ofType, Routine.checks]

/-! ### A row of reads -/

/-- What a step tells: what is unread after it is a suffix of what was before, what came of it is
listed, and too few bytes are told of where a check found them, in its own numbers. -/
structure Step.Confined (step : Step) : Prop where
  suffix : step.after <:+ step.before
  reads : Reads step.type step.before step.result step.after
  unexpectedEnd_iff : ∀ needed left, step.result = .error (.unexpectedEnd needed left) ↔
    (needed, left) ∈ (Routine.ofType step.type).checks step.before ∧ left < needed

theorem Reads.suffix {before after : Bytes} {result : Except DecodeError t.Value}
    (h : Reads t before result after) : after <:+ before := by
  cases h with
  | value => exact List.suffix_append _ _
  | short | noLength => exact List.suffix_refl _
  | shortBody => exact List.suffix_append _ _
  | noText => exact List.suffix_append _ _

/-- In a row of reads each is confined, and begins with a suffix of what was unread at first. -/
theorem confined_of_mem_readings {types : List FieldType} {d : Decoder} {step : Step}
    (h : step ∈ readings types d) : step.before <:+ d.unread ∧ step.Confined := by
  induction types generalizing d with
  | nil => cases h
  | cons t types ih =>
      have reads := reads_read t d
      cases h with
      | head => exact ⟨List.suffix_refl _, reads.suffix, reads,
          fun _ _ => read_eq_unexpectedEnd t d⟩
      | tail _ later =>
          obtain ⟨suffix, confined⟩ := ih later
          exact ⟨suffix.trans reads.suffix, confined⟩

/-- Whatever is read from a payload, however often it fails, no operation on the buffer breaks
down, and every read keeps to what is unread. -/
theorem performAll_confined (types : List FieldType) (payload : Bytes) :
    performAll types payload = some (readings types ⟨payload⟩) ∧
      ∀ step ∈ readings types ⟨payload⟩, step.before <:+ payload ∧ step.Confined :=
  ⟨performAll_eq types ⟨payload⟩, fun _ => confined_of_mem_readings⟩

end Decoder

end PacketWire
