/-!
# Byte strings and big-endian numbers

Everything on the wire is a finite list of bytes, and every number in it is written
with a fixed width, most significant byte first. `encode_decode` says that a byte string is
the writing of its own value.
-/

namespace PacketWire

/-- A byte string, first byte first. -/
abbrev Bytes := List UInt8

namespace BigEndian

/-- The low `width` base-256 digits of a number, most significant first. -/
def encode : (width : Nat) → Nat → Bytes
  | 0, _ => []
  | width + 1, n => encode width (n / 256) ++ [UInt8.ofNat n]

/-- The number that a byte string writes. -/
def decode (bytes : Bytes) : Nat :=
  bytes.foldl (fun n byte => n * 256 + byte.toNat) 0

@[simp] theorem encode_zero (n : Nat) : encode 0 n = [] := rfl

@[simp] theorem decode_nil : decode [] = 0 := rfl

@[simp] theorem length_encode (width n : Nat) : (encode width n).length = width := by
  induction width generalizing n with
  | zero => rfl
  | succ width ih => simp [encode, ih]

theorem decode_append_singleton (bytes : Bytes) (byte : UInt8) :
    decode (bytes ++ [byte]) = decode bytes * 256 + byte.toNat := by
  simp [decode, List.foldl_append]

theorem encode_decode (bytes : Bytes) : encode bytes.length (decode bytes) = bytes := by
  suffices h : ∀ reversed : Bytes,
      encode reversed.length (decode reversed.reverse) = reversed.reverse by
    simpa using h bytes.reverse
  intro reversed
  induction reversed with
  | nil => rfl
  | cons byte rest ih =>
    have hlt := byte.toNat_lt
    simp only [Nat.reducePow] at hlt
    rw [List.reverse_cons, decode_append_singleton, List.length_cons, encode]
    rw [show (decode rest.reverse * 256 + byte.toNat) / 256 = decode rest.reverse by omega, ih]
    simp only [List.append_cancel_left_eq, List.cons.injEq, and_true]
    rw [← UInt8.toNat_inj, UInt8.toNat_ofNat']
    omega

end BigEndian

end PacketWire
