import PacketWire.Proofs.Spelling
import PacketWire.Proofs.Understanding

/-!
# Fields are read as they were written

For every field type reading undoes writing, whatever stands behind the field, and writing undoes
reading. The second needs one reservation: a truth value is read from any byte and written as
zero or one. Text fails in one way only, by being longer than its length can say.
-/

namespace PacketWire

open Decoder

namespace FieldType

/-- The bytes that are written for a value read from these: any byte but zero says true. -/
def canonical : FieldType → Bytes → Bytes
  | .bool, [byte] => [if byte = 0 then 0 else 1]
  | _, bytes => bytes

theorem canonical_of_ne_bool {t : FieldType} (h : t ≠ .bool) (bytes : Bytes) :
    t.canonical bytes = bytes := by
  cases t <;> first | rfl | exact absurd rfl h

/-- Only a text can be refused, and it is refused for its length in bytes. -/
theorem encode_eq_error {t : FieldType} {v : t.Value} {failure : EncodeError} :
    t.encode v = .error failure ↔
      ∃ text, (⟨t, v⟩ : Item) = ⟨.str, text⟩ ∧ maxText < text.utf8ByteSize ∧
        failure = .stringTooLong text.utf8ByteSize := by
  cases t
  case str =>
    simp only [encode, Utf8.length_encode]
    constructor
    · intro refused
      split at refused
      · cases refused
      · rename_i long
        cases refused
        exact ⟨v, rfl, Nat.lt_of_not_le long, rfl⟩
    · rintro ⟨text, same, long, rfl⟩
      cases same
      rw [if_neg (Nat.not_le_of_lt long)]
  all_goals
    constructor
    · intro refused
      cases refused
    · rintro ⟨text, same, -⟩
      cases same

end FieldType

namespace Decoder

theorem take_append {n : Nat} {bytes : Bytes} (exact : bytes.length = n) (rest : Bytes) :
    take n ⟨bytes ++ rest⟩ = (.ok ⟨bytes, exact⟩, ⟨rest⟩) := by
  have front : (bytes ++ rest).take n = bytes := List.take_left' exact
  have behind : (bytes ++ rest).drop n = rest := List.drop_left' exact
  simp only [take, front, behind, exact, dite_true]

theorem eq_of_take {n : Nat} {d d' : Decoder} {block : { bytes : Bytes // bytes.length = n }}
    (h : d.take n = (.ok block, d')) : d.unread = block.val ++ d'.unread := by
  rw [take] at h
  split at h
  · cases h
    exact (List.take_append_drop n d.unread).symm
  · cases h

/-- A number is read from the bytes that are written for it. -/
theorem eq_of_number {α : Type} {width : Nat} {f : Nat → α} {d d' : Decoder} {a : α}
    (h : d.number width f = (.ok a, d')) :
    ∃ n, n < 256 ^ width ∧ a = f n ∧ d.unread = BigEndian.encode width n ++ d'.unread := by
  rw [number] at h
  split at h
  · rename_i block d'' taken
    cases h
    refine ⟨_, ?_, rfl, ?_⟩
    · have := BigEndian.decode_lt block.val
      rwa [block.property] at this
    · have := BigEndian.encode_decode block.val
      rw [block.property] at this
      rw [eq_of_take taken, this]
  · cases h

/-- A field that was written is read back. Behind the rest of a payload nothing can stand. -/
theorem read_encode {t : FieldType} {v : t.Value} {bytes : Bytes} (h : t.encode v = .ok bytes)
    {rest : Bytes} (last : t = .rest → rest = []) :
    read t ⟨bytes ++ rest⟩ = (.ok v, ⟨rest⟩) := by
  cases t
  case bool =>
    cases h
    exact read_bool v rest
  case u8 =>
    cases h
    have := number_encode 1 v.toNat UInt8.ofNat rest
    simpa [read, BigEndian.encode] using this
  case i8 =>
    cases h
    have := number_encode 1 v.toUInt8.toNat (fun n => (UInt8.ofNat n).toInt8) rest
    simpa [read, BigEndian.encode] using this
  case u16 | i16 | i32 | i64 | f32 | f64 =>
    cases h
    rw [read, number_encode]
    simp
  case str =>
    rw [FieldType.encode] at h
    split at h
    · rename_i short
      cases h
      have size : (Utf8.encode v).length % 256 ^ 2 = (Utf8.encode v).length := by
        simp only [FieldType.maxText] at short
        omega
      simp only [read, text, List.append_assoc, number_encode, id_eq, size, take_append rfl,
        Utf8.decode_encode]
    · cases h
  case block size =>
    cases h
    exact take_append v.property rest
  case rest =>
    cases h
    rw [last rfl, List.append_nil]
    rfl

/-- A text that was read keeps to the length that two bytes can say. -/
theorem encode_of_text {text : String} {d d' : Decoder} (h : d.text = (.ok text, d')) :
    ∃ bytes, d.unread = bytes ++ d'.unread ∧ FieldType.encode .str text = .ok bytes := by
  rw [Decoder.text] at h
  split at h
  · cases h
  · rename_i size d₁ sized
    obtain ⟨_, small, rfl, front⟩ := eq_of_number sized
    split at h
    · cases h
    · rename_i body d₂ taken
      split at h
      · rename_i text written
        cases h
        have exact := body.property
        refine ⟨BigEndian.encode 2 size ++ body.val, ?_, ?_⟩
        · rw [front, eq_of_take taken, List.append_assoc]
        · simp only [Nat.reducePow] at small
          rw [FieldType.encode, Utf8.encode_of_decode written, exact, FieldType.maxText,
            if_pos (by omega)]
      · cases h

/-- What was read is written as the bytes that were taken. -/
theorem encode_of_read {t : FieldType} {v : t.Value} {d d' : Decoder}
    (h : d.read t = (.ok v, d')) :
    ∃ bytes, d.unread = bytes ++ d'.unread ∧ t.encode v = .ok (t.canonical bytes) := by
  cases t
  case bool =>
    rw [read] at h
    obtain ⟨n, small, rfl, front⟩ := eq_of_number h
    refine ⟨_, front, ?_⟩
    have byte : UInt8.ofNat n = 0 ↔ n = 0 := by
      rw [← UInt8.toNat_inj]
      simp
      omega
    by_cases zero : n = 0 <;>
      simp [FieldType.encode, BigEndian.encode, FieldType.canonical, byte, zero]
  case u8 | i8 =>
    rw [read] at h
    obtain ⟨n, small, rfl, front⟩ := eq_of_number h
    refine ⟨_, front, ?_⟩
    simp [FieldType.encode, BigEndian.encode, FieldType.canonical]
  case u16 | i16 | i32 | i64 | f32 | f64 =>
    rw [read] at h
    obtain ⟨n, small, rfl, front⟩ := eq_of_number h
    refine ⟨_, front, ?_⟩
    simp only [Nat.reducePow] at small
    simp [FieldType.encode, FieldType.canonical, Nat.mod_eq_of_lt small]
  case str => exact encode_of_text h
  case block size => exact ⟨v.val, eq_of_take h, rfl⟩
  case rest =>
    cases h
    exact ⟨d.unread, (List.append_nil _).symm, rfl⟩

end Decoder

end PacketWire
