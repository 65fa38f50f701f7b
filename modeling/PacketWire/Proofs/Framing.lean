import Mathlib.Algebra.Group.Nat.Defs
import PacketWire.Frame

/-!
# Reading frames back

A byte string begins with a complete frame exactly if it is the written frame of some admissible
body and something behind it. What has been judged once, a body or a length, is judged the same
however many bytes arrive later. Since the length comes first, a run of frames can be cut into
frames in one way only: a run that begins another run of bytes begins it frame by frame.
-/

namespace PacketWire

namespace BigEndian

/-- A number comes back modulo what its width can hold. -/
theorem decode_encode (width n : Nat) : decode (encode width n) = n % 256 ^ width := by
  induction width generalizing n with
  | zero => simp [Nat.mod_one]
  | succ width ih =>
    have hlow : (UInt8.ofNat n).toNat = n % 256 := by simp
    rw [encode, decode_append_singleton, ih, hlow, Nat.pow_succ,
      Nat.mul_comm (256 ^ width) 256, Nat.mod_mul]
    omega

theorem decode_lt (bytes : Bytes) : decode bytes < 256 ^ bytes.length := by
  suffices h : ∀ reversed : Bytes, decode reversed.reverse < 256 ^ reversed.length by
    simpa using h bytes.reverse
  intro reversed
  induction reversed with
  | nil => simp
  | cons byte rest ih =>
    have := byte.toNat_lt
    rw [List.reverse_cons, decode_append_singleton, List.length_cons, Nat.pow_succ]
    simp only [Nat.reducePow] at this
    omega

end BigEndian

namespace Frame

/-- The id at the front of a body. -/
def id? (body : Bytes) : Option PacketId :=
  match Decoder.read .i16 ⟨body⟩ with
  | (.ok id, _) => some id
  | (.error _, _) => none

/-- The length that four bytes write. -/
def announced (bytes : Bytes) : Int :=
  (UInt32.ofNat (BigEndian.decode bytes)).toInt32.toInt

theorem announced_eq (bytes : Bytes) :
    announced bytes = (BigEndian.decode bytes : Int).bmod (2 ^ 32) := by
  simp [announced, Int32.size]

theorem announced_header {body : Bytes} (short : body.length ≤ maxBody) :
    announced (header body) = body.length := by
  simp only [maxBody] at short
  rw [announced_eq, header, BigEndian.decode_encode, Int.bmod_eq_of_le] <;> omega

theorem checkLength_eq_ok {limit length : Nat} {announced : Int} :
    checkLength limit announced = .ok length ↔
      announced = length ∧ idSize ≤ length ∧ length ≤ limit := by
  rw [checkLength, idSize]
  split
  · simp
    omega
  · split
    · simp
      omega
    · split
      · simp
        omega
      · simp
        omega

theorem header_of_announced {a b c d : UInt8} {length : Nat} {body : Bytes}
    (h : announced [a, b, c, d] = length) (exact : body.length = length) :
    header body = [a, b, c, d] ∧ length ≤ maxBody := by
  have small := BigEndian.decode_lt [a, b, c, d]
  have same : BigEndian.decode [a, b, c, d] = length ∧ length ≤ maxBody := by
    rw [announced_eq, Int.bmod_def] at h
    simp only [List.length_cons, List.length_nil, maxBody] at small ⊢
    split at h <;> omega
  exact ⟨by rw [header, exact, ← same.1]; exact BigEndian.encode_decode [a, b, c, d], same.2⟩

/-- What the reader accepts is what a writer wrote: the length, then a body of that length, which
holds an id and keeps to the limit. -/
theorem eq_of_next {limit : Nat} {bytes body rest : Bytes}
    (h : next limit bytes = .complete body rest) :
    bytes = ofBody body ++ rest ∧ idSize ≤ body.length ∧ body.length ≤ limit ∧
      body.length ≤ maxBody := by
  rw [next.eq_def] at h
  split at h
  · rename_i a b c d tail
    split at h
    · cases h
    · rename_i length ok
      obtain ⟨eq, low, high⟩ := checkLength_eq_ok.mp ok
      dsimp only at h
      split at h
      · cases h
      · rename_i whole
        cases h
        have exact : (tail.take length).length = length := by
          have := List.length_take_le length tail
          omega
        obtain ⟨front, bounded⟩ := header_of_announced eq exact
        refine ⟨?_, by omega, by omega, by omega⟩
        simp [ofBody, front]
  · cases h

/-- The body behind a header is there, so whether it is read is a matter of its length. -/
theorem next_ofBody_append (limit : Nat) {body : Bytes} (rest : Bytes)
    (short : body.length ≤ maxBody) :
    next limit (ofBody body ++ rest) = match checkLength limit body.length with
      | .error why => .illegal why
      | .ok _ => .complete body rest := by
  obtain ⟨a, b, c, d, front⟩ : ∃ a b c d, header body = [a, b, c, d] := by
    have width : (header body).length = 4 := BigEndian.length_encode 4 _
    match header body, width with
    | [a, b, c, d], _ => exact ⟨a, b, c, d, rfl⟩
  have length := announced_header short
  rw [front, announced] at length
  have cut : ofBody body ++ rest = a :: b :: c :: d :: (body ++ rest) := by simp [ofBody, front]
  simp only [cut, next, length]
  cases ok : checkLength limit body.length with
  | error why => rfl
  | ok count =>
      obtain rfl : body.length = count := Int.ofNat.inj (checkLength_eq_ok.mp ok).1
      simp

/-- A written frame is read back, and what stands behind it is left. -/
theorem next_ofBody {limit : Nat} {body : Bytes} (rest : Bytes) (low : idSize ≤ body.length)
    (high : body.length ≤ limit) (short : body.length ≤ maxBody) :
    next limit (ofBody body ++ rest) = .complete body rest := by
  rw [next_ofBody_append limit rest short, checkLength_eq_ok.mpr ⟨rfl, low, high⟩]

/-- Later bytes change nothing about a frame that is complete. -/
theorem next_append_of_complete {limit : Nat} {bytes body rest : Bytes}
    (h : next limit bytes = .complete body rest) (more : Bytes) :
    next limit (bytes ++ more) = .complete body (rest ++ more) := by
  obtain ⟨rfl, low, high, short⟩ := eq_of_next h
  rw [List.append_assoc]
  exact next_ofBody _ low high short

/-- Later bytes change nothing about a length that no frame may have. -/
theorem next_append_of_illegal {limit : Nat} {bytes : Bytes} {why : Violation}
    (h : next limit bytes = .illegal why) (more : Bytes) :
    next limit (bytes ++ more) = .illegal why := by
  rw [next.eq_def] at h
  split at h
  · rename_i a b c d tail
    split at h
    · rename_i bad
      cases h
      simp only [List.cons_append, next, bad]
    · dsimp only at h
      split at h <;> cases h
  · cases h

theorem id?_isSome {body : Bytes} (low : idSize ≤ body.length) : (id? body).isSome = true := by
  have two : (body.take 2).length = 2 := by
    simp only [idSize] at low
    simp [List.length_take]
    omega
  simp [id?, Decoder.read, Decoder.number, Decoder.take, two]

end Frame

namespace Frame

/-- On the wire a packet is the length of its body, its id and its payload. -/
theorem ofPacket_eq_ok {packet : Packet} {frame : Bytes} (h : ofPacket packet = .ok frame) :
    ∃ payload, body packet = .ok (BigEndian.encode 2 packet.id.toUInt16.toNat ++ payload) ∧
      frame = BigEndian.encode 4 (idSize + payload.length) ++
        BigEndian.encode 2 packet.id.toUInt16.toNat ++ payload := by
  cases made : body packet with
  | error cause =>
      rw [ofPacket, made] at h
      cases h
  | ok bytes =>
      rw [ofPacket, made] at h
      cases h
      rw [body, Packet.body] at made
      split at made
      · cases made
      · rename_i bytes' written
        split at made
        · cases made
          split at written
          · rename_i e eq
            cases written
            have held : e = (Encoder.new packet.id).append packet.payload.1 :=
              (congrArg Prod.fst eq).symm
            refine ⟨packet.payload.1, by rw [held]; rfl, ?_⟩
            simp only [ofBody, header, held, Encoder.append, Encoder.new, List.length_append,
              BigEndian.length_encode, idSize, List.append_assoc]
          · cases written
        · cases made

theorem length_le_maxBody {packet : Packet} {bytes : Bytes} (h : body packet = .ok bytes) :
    bytes.length ≤ maxBody := by
  rw [body] at h
  split at h
  · cases h
  · split at h
    · rename_i short
      cases h
      exact short
    · cases h

theorem id?_of_body {packet : Packet} {bytes : Bytes} (h : body packet = .ok bytes) :
    id? bytes = some packet.id := by
  have framed : ofPacket packet = .ok (ofBody bytes) := by
    rw [ofPacket, h]
    rfl
  obtain ⟨payload, made, -⟩ := ofPacket_eq_ok framed
  obtain rfl : bytes = _ := Except.ok.inj (h.symm.trans made)
  simp [id?, Decoder.read, Decoder.number, Decoder.take, BigEndian.decode_encode]

end Frame

end PacketWire
