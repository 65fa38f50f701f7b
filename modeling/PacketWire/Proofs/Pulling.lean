import Mathlib.Logic.Relation
import PacketWire.Connection.Inbound
import PacketWire.Proofs.Framing

/-!
# One frame after the other

`Frame.pull` is what the inbound loop does for one frame: it takes chunks ahead until a frame
stands at the front, or a length that no frame may have. What it gives does not depend on where
the chunks were cut, only on the bytes; what it leaves may already be ahead or still be in chunks.
So the frames that a writer made come back in order and nothing behind them is touched.
-/

namespace PacketWire

namespace Frame

/-- What comes of reading one frame, with what was taken ahead and the chunks that are left. -/
inductive Pull where
  | frame (body ahead : Bytes) (chunks : List Bytes)
  | refused (why : Violation) (ahead : Bytes) (chunks : List Bytes)
  /-- All chunks were taken and the frame is still incomplete. -/
  | waiting (ahead : Bytes)
  deriving DecidableEq, Repr

/-- Reads one frame with a body of at most `limit` bytes. -/
def pull (limit : Nat) (ahead : Bytes) (chunks : List Bytes) : Pull :=
  match next limit ahead with
  | .complete body rest => .frame body rest chunks
  | .illegal why => .refused why ahead chunks
  | .incomplete =>
    match chunks with
    | [] => .waiting ahead
    | chunk :: chunks => pull limit (ahead ++ chunk) chunks
termination_by structural chunks

/-- Reads this many frames: their bodies, and what was taken ahead and the chunks that are left. -/
def pullMany (limit : Nat) : Nat → Bytes → List Bytes → Option (List Bytes × Bytes × List Bytes)
  | 0, ahead, chunks => some ([], ahead, chunks)
  | count + 1, ahead, chunks =>
    match pull limit ahead chunks with
    | .frame body ahead chunks =>
      (pullMany limit count ahead chunks).map fun (bodies, left) => (body :: bodies, left)
    | _ => none

variable {limit : Nat} {ahead : Bytes} {chunks : List Bytes}

theorem pull_of_incomplete {chunk : Bytes} (h : next limit ahead = .incomplete)
    (chunks : List Bytes) :
    pull limit ahead (chunk :: chunks) = pull limit (ahead ++ chunk) chunks := by
  rw [pull.eq_def, h]

/-- A frame at the front of the input is read, wherever the chunks are cut. -/
theorem pull_of_complete {body rest : Bytes}
    (h : next limit (ahead ++ chunks.flatten) = .complete body rest) :
    ∃ ahead' chunks', pull limit ahead chunks = .frame body ahead' chunks' ∧
      ahead' ++ chunks'.flatten = rest := by
  fun_induction pull limit ahead chunks with
  | case1 chunks ahead body' rest' front =>
      rw [next_append_of_complete front] at h
      cases h
      exact ⟨rest', chunks, rfl, rfl⟩
  | case2 chunks ahead why front =>
      rw [next_append_of_illegal front] at h
      cases h
  | case3 ahead front =>
      rw [List.flatten_nil, List.append_nil, front] at h
      cases h
  | case4 ahead front chunk chunks ih =>
      exact ih (by rwa [List.flatten_cons, ← List.append_assoc] at h)

/-- A length that no frame may have is refused, wherever the chunks are cut. -/
theorem pull_of_illegal {why : Violation}
    (h : next limit (ahead ++ chunks.flatten) = .illegal why) :
    ∃ ahead' chunks', pull limit ahead chunks = .refused why ahead' chunks' := by
  fun_induction pull limit ahead chunks with
  | case1 chunks ahead body' rest' front =>
      rw [next_append_of_complete front] at h
      cases h
  | case2 chunks ahead why front =>
      rw [next_append_of_illegal front] at h
      cases h
      exact ⟨ahead, chunks, rfl⟩
  | case3 ahead front =>
      rw [List.flatten_nil, List.append_nil, front] at h
      cases h
  | case4 ahead front chunk chunks ih =>
      exact ih (by rwa [List.flatten_cons, ← List.append_assoc] at h)

/-- What is read was at the front of the input, and the input goes on behind it. -/
theorem next_of_pull {body ahead' : Bytes} {chunks' : List Bytes}
    (h : pull limit ahead chunks = .frame body ahead' chunks') :
    next limit (ahead ++ chunks.flatten) = .complete body (ahead' ++ chunks'.flatten) := by
  fun_induction pull limit ahead chunks with
  | case1 chunks ahead body' rest' front =>
      cases h
      exact next_append_of_complete front _
  | case2 | case3 => cases h
  | case4 ahead front chunk chunks ih =>
      rw [List.flatten_cons, ← List.append_assoc]
      exact ih h

/-- Chunks that come later are taken where the reading had to wait. -/
theorem pull_append_of_waiting {ahead' : Bytes} (h : pull limit ahead chunks = .waiting ahead')
    (more : List Bytes) : pull limit ahead (chunks ++ more) = pull limit ahead' more := by
  fun_induction pull limit ahead chunks with
  | case1 | case2 => cases h
  | case3 ahead front =>
      cases h
      rfl
  | case4 ahead front chunk chunks ih =>
      rw [List.cons_append, pull_of_incomplete front]
      exact ih h

/-- The frame of a body over the limit is refused for that. -/
theorem next_of_long {body : Bytes} (rest : Bytes) (low : idSize ≤ body.length)
    (long : limit < body.length) (short : body.length ≤ maxBody) :
    next limit (ofBody body ++ rest) = .illegal (.overLimit body.length limit) := by
  rw [next_ofBody_append limit rest short, checkLength]
  simp only [idSize] at low
  simp only [Int.toNat_natCast, idSize, if_neg (Nat.not_lt.mpr low), if_pos long]
  rw [if_neg (by omega)]

/-- The frames of bodies within the limit are read in order, and what follows them is left. -/
theorem pullMany_ofBody {bodies : List Bytes}
    (admissible : ∀ body ∈ bodies, idSize ≤ body.length ∧ body.length ≤ limit ∧
      body.length ≤ maxBody)
    {following : Bytes} (input : ahead ++ chunks.flatten = bodies.flatMap ofBody ++ following) :
    ∃ ahead' chunks', pullMany limit bodies.length ahead chunks = some (bodies, ahead', chunks') ∧
      ahead' ++ chunks'.flatten = following := by
  induction bodies generalizing ahead chunks with
  | nil => exact ⟨ahead, chunks, rfl, input⟩
  | cons body bodies ih =>
      rw [List.forall_mem_cons] at admissible
      obtain ⟨⟨low, high, short⟩, others⟩ := admissible
      rw [List.flatMap_cons, List.append_assoc] at input
      obtain ⟨ahead₁, chunks₁, pulled, left⟩ :=
        pull_of_complete (input ▸ next_ofBody (bodies.flatMap ofBody ++ following) low high short)
      obtain ⟨ahead₂, chunks₂, many, behind⟩ := ih others left
      refine ⟨ahead₂, chunks₂, ?_, behind⟩
      simp only [List.length_cons, pullMany, pulled, many, Option.map_some]

end Frame

/-! ### The inbound loop reads so -/

namespace Connection

open PacketWire.Frame

/-- Stretches of the inbound loop. -/
abbrev ReadsOn (now : Nat) : Connection → Connection → Prop :=
  Relation.ReflTransGen fun c d => c.inboundStep now = some d

/-- A connection that has taken this much ahead and has these chunks before it. -/
def withInput (ahead : Bytes) (chunks : List Bytes) (c : Connection) : Connection :=
  { c with readAhead := ahead, source := { c.source with chunks } }

/-- The inbound loop pulls one frame and handles it, or refuses it, or waits. -/
theorem readsOn_pull {c : Connection} (reading : c.inbound = .reading)
    (goesOn : c.cancelled = false) (now : Nat) :
    match pull c.config.maxFrameLength c.readAhead c.source.chunks with
    | .frame body ahead chunks =>
      ReadsOn now c ((c.withInput ahead chunks).handleBody now body)
    | .refused why ahead chunks =>
      ReadsOn now c ((c.withInput ahead chunks).stopReading now (.protocolViolation why))
    | .waiting ahead => ReadsOn now c (c.withInput ahead []) := by
  suffices h : ∀ (ahead : Bytes) (chunks : List Bytes),
      match pull c.config.maxFrameLength ahead chunks with
      | .frame body ahead' chunks' => ReadsOn now (c.withInput ahead chunks)
          ((c.withInput ahead' chunks').handleBody now body)
      | .refused why ahead' chunks' => ReadsOn now (c.withInput ahead chunks)
          ((c.withInput ahead' chunks').stopReading now (.protocolViolation why))
      | .waiting ahead' => ReadsOn now (c.withInput ahead chunks) (c.withInput ahead' []) from
    h c.readAhead c.source.chunks
  intro ahead chunks
  fun_induction pull c.config.maxFrameLength ahead chunks with
  | case1 chunks ahead body rest front | case2 chunks ahead why front =>
      refine .single ?_
      simp only [inboundStep, withInput, reading, goesOn, front, Bool.false_eq_true, if_false]
  | case3 ahead front => exact .refl
  | case4 ahead front chunk chunks ih =>
      have taken : (c.withInput ahead (chunk :: chunks)).inboundStep now =
          some (c.withInput (ahead ++ chunk) chunks) := by
        simp only [inboundStep, withInput, reading, goesOn, front, readAhead?,
          Bool.false_eq_true, if_false]
      split at ih <;> exact .head taken ih

end Connection

end PacketWire
