import PacketWire.Packet

/-!
# Frames

On the wire a packet is one frame: the length of its body as a signed 32-bit number, then the
body, which is the id and the payload. `Frame.next` reads one frame off the front of a byte
string. The length is judged as soon as its four bytes are there, before the body arrives.
-/

namespace PacketWire

/-- What can be wrong with a frame, or, in words of its own, with what a peer sent. -/
inductive Violation where
  | illegalLength (length : Int)
  | noPacketId (length : Nat)
  | overLimit (length limit : Nat)
  | other (text : String)
  deriving DecidableEq, Repr

def Violation.message : Violation → String
  | illegalLength length => s!"illegal frame length {length}"
  | noPacketId length => s!"frame of {length} byte has no packet id"
  | overLimit length limit => s!"frame length {length} exceeds limit {limit}"
  | other text => text

namespace Frame

/-- The longest body whose length can be written. -/
def maxBody : Nat := 1 <<< 31 - 1

/-- The bytes that the id takes in a body. -/
def idSize : Nat := 2

/-- The length in front of a body. -/
def header (body : Bytes) : Bytes :=
  BigEndian.encode 4 body.length

/-- A body behind its length. -/
def ofBody (body : Bytes) : Bytes :=
  header body ++ body

/-- The body of a packet, if that can be written and its length as well. -/
def body (packet : Packet) : Except EncodeError Bytes :=
  match packet.body with
  | .error e => .error e
  | .ok body => if body.length ≤ maxBody then .ok body else .error (.frameTooLarge body.length)

/-- The frame of a packet. -/
def ofPacket (packet : Packet) : Except EncodeError Bytes :=
  (body packet).map ofBody

/-- What stands at the front of a byte string: a frame with its body and the bytes behind it, a
length that no frame may have, or the beginning of a frame that is still incomplete. -/
inductive Next where
  | complete (body rest : Bytes)
  | illegal (why : Violation)
  | incomplete
  deriving DecidableEq, Repr

/-- The length that a frame announces, or what is wrong with it. -/
def checkLength (limit : Nat) (length : Int) : Except Violation Nat :=
  if length ≤ 0 then .error (.illegalLength length)
  else if length.toNat < idSize then .error (.noPacketId length.toNat)
  else if limit < length.toNat then .error (.overLimit length.toNat limit)
  else .ok length.toNat

/-- Reads one frame with a body of at most `limit` bytes. -/
def next (limit : Nat) : Bytes → Next
  | a :: b :: c :: d :: rest =>
    match checkLength limit (UInt32.ofNat (BigEndian.decode [a, b, c, d])).toInt32.toInt with
    | .error why => .illegal why
    | .ok length =>
      let body := rest.take length
      if body.length < length then .incomplete
      else .complete body (rest.drop length)
  | _ => .incomplete

@[simp] theorem next_nil (limit : Nat) : next limit [] = .incomplete := rfl

theorem length_lt_of_next {limit : Nat} {bytes body rest : Bytes}
    (h : next limit bytes = .complete body rest) : rest.length < bytes.length := by
  rw [next.eq_def] at h
  split at h
  · split at h
    · cases h
    · dsimp only at h
      split at h
      · cases h
      · cases h
        simp only [List.length_drop, List.length_cons]
        omega
  · cases h

/-- The bodies of the frames at the front of a byte string, as far as they are complete. -/
def bodies (limit : Nat) (bytes : Bytes) : List Bytes :=
  match _h : next limit bytes with
  | .complete body rest => body :: bodies limit rest
  | _ => []
termination_by bytes.length
decreasing_by exact length_lt_of_next _h

end Frame

end PacketWire
