import PacketWire.Proofs.Conveyance
import PacketWire.Proofs.Interventions
import PacketWire.Proofs.RoundTrip

/-!
# Lines of text as input

A client dictates lines of text if it sends their frames one behind the other, cut in any way, and
ends the stream behind them. Whatever has arrived of that, what is read of it is the frame of the
next line as soon as it is whole, and there is nothing else to read.
-/

namespace PacketWire

/-- The event of a line of text. -/
def Event.line (line : String) : Event := .packet (.text line)

namespace Frame

/-- Whether a line of text has a frame within a limit. -/
def Fits (limit : Nat) (line : String) : Prop :=
  ∃ bytes, body (.text line) = .ok bytes ∧ bytes.length ≤ limit

/-- The frames of lines of text. -/
def script (lines : List String) : Bytes :=
  stream (lines.map .text)

variable {limit : Nat} {line : String} {lines : List String} {bytes rest more : Bytes}

theorem script_cons (h : body (.text line) = .ok bytes) (lines : List String) :
    script (line :: lines) = ofBody bytes ++ script lines := by
  have framed : ofPacket (.text line) = .ok (ofBody bytes) := by
    rw [ofPacket, h]
    rfl
  rw [script, List.map_cons, stream_cons_ok framed, script]

theorem script_append (fits : ∀ line ∈ lines, Fits limit line) (more : List String) :
    script (lines ++ more) = script lines ++ script more := by
  induction lines with
  | nil => rfl
  | cons line lines ih =>
      obtain ⟨⟨bytes, made, -⟩, rest⟩ := List.forall_mem_cons.mp fits
      rw [List.cons_append, script_cons made, script_cons made, ih rest, List.append_assoc]

theorem Fits.writable (h : Fits limit line) : Writable (.text line) :=
  h.imp fun _ made => made.1

/-- What has arrived of a script begins with the frame of its first line, or that is incomplete. -/
theorem next_of_script (fits : ∀ line ∈ lines, Fits limit line)
    (split : bytes ++ more = script lines) :
    (next limit bytes = .incomplete ∧ (more = [] → lines = [])) ∨
      ∃ line later body rest, lines = line :: later ∧ Frame.body (.text line) = .ok body ∧
        next limit bytes = .complete body rest ∧ rest ++ more = script later := by
  cases lines with
  | nil =>
      obtain ⟨rfl, -⟩ := List.append_eq_nil_iff.mp split
      exact .inl ⟨rfl, fun _ => rfl⟩
  | cons line later =>
      obtain ⟨⟨body, made, short⟩, -⟩ := List.forall_mem_cons.mp fits
      have whole : next limit (bytes ++ more) = .complete body (script later) := by
        rw [split, script_cons made]
        exact next_ofBody _ (idSize_le_of_body made) short (body_eq_ok.mp made).2
      cases now : next limit bytes with
      | incomplete =>
          refine .inl ⟨rfl, fun none => ?_⟩
          rw [none, List.append_nil, now] at whole
          cases whole
      | illegal why =>
          rw [next_append_of_illegal now] at whole
          cases whole
      | complete body' rest =>
          rw [next_append_of_complete now, Next.complete.injEq] at whole
          obtain ⟨rfl, left⟩ := whole
          exact .inr ⟨line, later, body', rest, rfl, made, rfl, left⟩

end Frame

/-- A text with a frame can be written. -/
theorem Packet.size_le_maxText {line : String} {bytes : Bytes}
    (h : (text line).body = .ok bytes) : line.utf8ByteSize ≤ FieldType.maxText := by
  rw [← Nat.not_lt]
  intro long
  have failed : (⟨.str, line⟩ : Item).encode = .error (.stringTooLong line.utf8ByteSize) :=
    FieldType.encode_eq_error.mpr ⟨line, rfl, long, rfl⟩
  rw [body, encode, payload_text, written, writeItems_singleton, failed] at h
  cases h

/-- A peer reads the line back from its frame. -/
theorem Reader.judge_text {r : Reader} {line : String} {bytes : Bytes}
    (peer : r.registry = .peer) (made : Frame.body (.text line) = .ok bytes) :
    r.judge bytes = .event (.line line) := by
  have written := (Frame.body_eq_ok.mp made).1
  obtain ⟨bytes', payload, same, id, decoded⟩ :=
    Packet.readsBackInto_text (Packet.size_le_maxText written) default
  obtain rfl : bytes' = bytes := Except.ok.inj (same.symm.trans written)
  have known : r.registry.create 0 = some (.text default) := peer ▸ rfl
  rw [Packet.id_text] at id
  simp only [judge, id, known, decoded]
  rfl

/-- When a close that the inbound loop carries out gives up. -/
def Inbound.deadline? : Inbound → Option Nat
  | closing (.draining deadline _) _ => some deadline
  | _ => none

/-- What a client does that dictates lines of text and then ends the stream, to a connection that
nobody calls and whose transport stays as it is. -/
def Intervention.IsDictation (lines : List String) (_now : Nat) (c : Connection) :
    Intervention → Prop
  | call _ => False
  | transit (.feed chunk) => c.source.ending = none ∧ c.source.fed ++ chunk <+: Frame.script lines
  | transit (.finish ending) => ending = .endOfStream ∧ c.source.fed = Frame.script lines
  | transit (.weather ..) => False
  | pass _ => True

instance (lines : List String) (now : Nat) (c : Connection) :
    (intervention : Intervention) → Decidable (intervention.IsDictation lines now c)
  | .call _ | .transit (.weather ..) => inferInstanceAs (Decidable False)
  | .transit (.feed _) | .transit (.finish _) => inferInstanceAs (Decidable (_ ∧ _))
  | .pass _ => inferInstanceAs (Decidable True)

/-- A close that the inbound loop carries out does not run out of its time while anything is still
to be written. -/
def Connection.KeepsTime (now : Nat) (c : Connection) : Prop :=
  ∀ deadline ∈ c.inbound.deadline?, now < deadline ∨ c.queue.isDrained = true

instance (now : Nat) (c : Connection) : Decidable (c.KeepsTime now) :=
  inferInstanceAs (Decidable (∀ _ ∈ _, _ ∨ _))

end PacketWire
