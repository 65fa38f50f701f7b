import Mathlib.Data.List.Induction
import PacketWire.Proofs.ConnectionActors
import PacketWire.Proofs.Conveyance

/-!
# What a flush closes

Behind each frame the outbound loop decides whether to flush: always if every packet is flushed by
itself, else if no packet is queued by then. So the frames that were written, each with that
decision, say what the groups are that the sink has closed, however the bytes of the frames got
there and whatever was queued in the meantime. `Parcels` are frames put into groups in this way, and
`Bundled` ties them to the sink, to the buffer and to the frame that is being written.
-/

namespace PacketWire

/-- Frames in groups, and the frames behind the last group. -/
structure Parcels where
  groups : List (List Bytes)
  rest : List Bytes

namespace Parcels

def empty : Parcels := ⟨[], []⟩

/-- One more frame, which is the last of its group or not. -/
def add (p : Parcels) (frame : Bytes) (last : Bool) : Parcels :=
  if last then ⟨p.groups ++ [p.rest ++ [frame]], []⟩ else ⟨p.groups, p.rest ++ [frame]⟩

/-- Puts frames into groups, each with whether it is the last of its group. -/
def pack (frames : List (Bytes × Bool)) : Parcels :=
  frames.foldl (fun p item => p.add item.1 item.2) empty

variable {frames : List (Bytes × Bool)} {group : List Bytes}

theorem pack_concat (frames : List (Bytes × Bool)) (frame : Bytes) (last : Bool) :
    pack (frames ++ [(frame, last)]) = (pack frames).add frame last :=
  List.foldl_append

/-- No frame is lost, and none is moved. -/
theorem flatten_pack (frames : List (Bytes × Bool)) :
    (pack frames).groups.flatten ++ (pack frames).rest = frames.map Prod.fst := by
  induction frames using List.reverseRecOn with
  | nil => rfl
  | append_singleton frames item ih =>
      obtain ⟨frame, last⟩ := item
      rw [pack_concat, List.map_append, ← ih]
      cases last <;> simp [add]

example : pack [([1], false), ([2, 2], true), ([3], false)] = ⟨[[[1], [2, 2]]], [[3]]⟩ := rfl

/-- A group has at least one frame. -/
theorem ne_nil_of_mem_pack (member : group ∈ (pack frames).groups) : group ≠ [] := by
  induction frames using List.reverseRecOn with
  | nil => cases member
  | append_singleton frames item ih =>
      obtain ⟨frame, last⟩ := item
      rw [pack_concat] at member
      cases last with
      | false => exact ih member
      | true =>
          rcases List.mem_append.mp member with old | new
          · exact ih old
          · rw [List.mem_singleton.mp new]
            simp

/-- If every frame is the last of its group, each group is one frame. -/
theorem pack_of_all_last (all : ∀ item ∈ frames, item.2 = true) :
    pack frames = ⟨frames.map fun item => [item.1], []⟩ := by
  induction frames using List.reverseRecOn with
  | nil => rfl
  | append_singleton frames item ih =>
      obtain ⟨frame, last⟩ := item
      rw [List.forall_mem_append] at all
      obtain rfl : last = true := all.2 _ (List.mem_singleton.mpr rfl)
      rw [pack_concat, ih all.1]
      simp [add]

end Parcels

/-! ### Bytes that go on their way stay behind the last flush -/

namespace Sink

variable {s s' : Sink} {bytes : Bytes}

theorem groups_of_offer {count : Nat} (h : s.offer bytes = .taken count s') :
    s'.groups = s.groups := by
  rw [offer] at h
  split at h
  · cases h
  · split at h <;> cases h <;> rfl

/-- Where no group was closed, what is behind the last flush tells what was taken. -/
theorem unflushed_of_taken {held held' : Bytes} (groups : s'.groups = s.groups)
    (taken : s'.taken ++ held' = s.taken ++ held) :
    s'.unflushed ++ held' = s.unflushed ++ held := by
  rw [Sink.taken, Sink.taken, groups, List.append_assoc, List.append_assoc] at taken
  exact List.append_cancel_left taken

/-- A flush closes the group of what was taken behind the last one. -/
theorem groups_of_flush (h : s.flush = .done s') :
    s'.groups = s.groups ++ [s.unflushed] ∧ s'.unflushed = [] := by
  rw [flush] at h
  split at h
  · cases h
  · split at h <;> cases h
    exact ⟨rfl, rfl⟩

end Sink

namespace WriteBuffer

variable {b b' : WriteBuffer} {sink sink' : Sink}

theorem groups_of_drain {left : Unit} (h : b.drain sink = .moved left b' sink') :
    sink'.groups = sink.groups := by
  rw [drain] at h
  split at h <;> cases h
  rename_i taken
  exact Sink.groups_of_offer taken

theorem unflushed_of_drain {left : Unit} (h : b.drain sink = .moved left b' sink') :
    sink'.groups = sink.groups ∧ sink'.unflushed ++ b'.held = sink.unflushed ++ b.held :=
  have groups := groups_of_drain h
  ⟨groups, Sink.unflushed_of_taken groups (taken_of_drain h).2⟩

theorem groups_of_write {slice left : Bytes} (h : b.write slice sink = .moved left b' sink') :
    sink'.groups = sink.groups := by
  rw [write] at h
  split at h
  · split at h <;> cases h
    rename_i drained
    exact groups_of_drain drained
  · rw [place] at h
    split at h
    · split at h <;> cases h
      rename_i taken
      exact Sink.groups_of_offer taken
    · cases h
      rfl

/-- What is left of a slice is its end. -/
theorem suffix_of_write {slice left : Bytes} (h : b.write slice sink = .moved left b' sink') :
    left <:+ slice := by
  rw [write] at h
  split at h
  · split at h <;> cases h
    exact List.suffix_rfl
  · rw [place] at h
    split at h
    · split at h <;> cases h
      exact List.drop_suffix _ _
    · cases h
      exact List.nil_suffix

/-- The part of a slice that was placed comes behind what was held. -/
theorem unflushed_of_write {slice left : Bytes} (h : b.write slice sink = .moved left b' sink') :
    ∃ front, slice = front ++ left ∧
      sink'.unflushed ++ b'.held = sink.unflushed ++ b.held ++ front := by
  obtain ⟨front, rfl⟩ := suffix_of_write h
  refine ⟨front, rfl, ?_⟩
  have same := (taken_of_write h).2
  rw [← List.append_assoc, List.append_left_inj, List.append_assoc] at same
  rw [Sink.unflushed_of_taken (groups_of_write h) same, List.append_assoc]

end WriteBuffer

/-- Neither slice of a frame is empty. -/
theorem Frame.nil_notMem_slices {packet : Packet} {body : Bytes}
    (h : Frame.body packet = .ok body) : [] ∉ [header body, body] := by
  intro member
  have size := idSize_le_of_body h
  rcases List.mem_cons.mp member with first | second
  · have front : (header body).length = 4 := BigEndian.length_encode 4 _
    rw [← first] at front
    cases front
  · rw [← List.mem_singleton.mp second] at size
    cases size

namespace Connection

variable {c d e : Connection} {now i : Nat} {happening : Happening} {closers : List CloseWait}
  {each : Bool} {ends : List Bool} {packets : List Packet} {p : Parcels} {placed : Bytes}
  {slices : List Bytes}

/-! ### How far the groups are -/

/-- The frames of these packets in groups; `ends` says for each of them whether no packet was
queued behind it then. -/
def IsPacked (each : Bool) (ends : List Bool) (packets : List Packet) (p : Parcels) : Prop :=
  ∃ frames : List Bytes, packets.map Frame.ofPacket = frames.map .ok ∧ frames.length = ends.length ∧
    p = .pack (frames.zip (ends.map (each || ·)))

theorem IsPacked.concat (h : IsPacked each ends packets p) {packet : Packet} {frame : Bytes}
    (made : Frame.ofPacket packet = .ok frame) (last : Bool) :
    IsPacked each (ends ++ [last]) (packets ++ [packet]) (p.add frame (each || last)) := by
  obtain ⟨frames, written, length, rfl⟩ := h
  refine ⟨frames ++ [frame], ?_, ?_, ?_⟩
  · rw [List.map_append, List.map_append, written, List.map_singleton, List.map_singleton, made]
  · rw [List.length_append, List.length_append, length, List.length_singleton,
      List.length_singleton]
  · rw [List.map_append, List.zip_append (by rw [length, List.length_map]), List.map_singleton,
      List.zip_cons_cons, List.zip_nil_right, Parcels.pack_concat]

/-- The groups are closed; behind them the sink and the buffer hold the frames that are left, and
then these bytes. -/
def Holds (c : Connection) (p : Parcels) (placed : Bytes) : Prop :=
  p.groups.map List.flatten = c.sink.groups ∧
    c.sink.unflushed ++ c.buffer.held = p.rest.flatten ++ placed

/-- The groups are closed but for the last, which the sink and the buffer hold. -/
def Owes (c : Connection) (p : Parcels) : Prop :=
  ∃ before last, p = ⟨before ++ [last], []⟩ ∧ before.map List.flatten = c.sink.groups ∧
    c.sink.unflushed ++ c.buffer.held = last.flatten

/-- Nothing is begun that was taken off the send queue. -/
def Between (each : Bool) (ends : List Bool) (c : Connection) : Prop :=
  ∃ done p, c.enqueuedPackets = done ++ c.queue.packets ∧ IsPacked each ends done p ∧
    c.Holds p []

/-- These slices are left of a frame. -/
def Within (each : Bool) (ends : List Bool) (slices : List Bytes) (c : Connection) : Prop :=
  ∃ done packet p placed, c.enqueuedPackets = done ++ packet :: c.queue.packets ∧
    IsPacked each ends done p ∧ c.Holds p placed ∧
    Frame.ofPacket packet = .ok (placed ++ slices.flatten) ∧ slices ≠ [] ∧ [] ∉ slices

/-- A group is about to be closed. -/
def Closing (each : Bool) (ends : List Bool) (c : Connection) : Prop :=
  ∃ done p, c.enqueuedPackets = done ++ c.queue.packets ∧ IsPacked each ends done p ∧ c.Owes p

/-- These groups would be the next that are closed. -/
def Lacks (each : Bool) (ends : List Bool) (pending : List Bytes) (c : Connection) : Prop :=
  ∃ done behind p, c.enqueuedPackets = done ++ behind ∧ IsPacked each ends done p ∧
    p.groups.map List.flatten = c.sink.groups ++ pending

/-- Wherever the outbound loop gives up, it was about to close one group, or none. -/
def Ended (each : Bool) (ends : List Bool) (c : Connection) : Prop :=
  ∃ pending, c.Lacks each ends pending ∧ pending.length ≤ 1

/-- The groups at the place where the outbound loop stands. -/
def Bundled (each : Bool) (ends : List Bool) (c : Connection) : Prop :=
  match c.outbound with
  | .starting => c.Between each ends
  | .writing slices => c.Within each ends slices
  | .flushing => c.Closing each ends
  | .idle _ => c.Between each ends
  | .shutting _ => c.outboundStopped = true ∧ c.Ended each ends
  | .finished => c.outboundStopped = true ∧ c.Ended each ends

theorem Between.lacks (h : c.Between each ends) : c.Lacks each ends [] := by
  obtain ⟨done, p, split, packed, groups, -⟩ := h
  exact ⟨done, _, p, split, packed, by rw [groups, List.append_nil]⟩

theorem Within.lacks (h : c.Within each ends slices) : c.Lacks each ends [] := by
  obtain ⟨done, packet, p, placed, split, packed, ⟨groups, -⟩, -⟩ := h
  exact ⟨done, _, p, split, packed, by rw [groups, List.append_nil]⟩

theorem Closing.exists_lacks (h : c.Closing each ends) : ∃ group, c.Lacks each ends [group] := by
  obtain ⟨done, _, split, packed, before, last, rfl, groups, -⟩ := h
  refine ⟨last.flatten, done, _, _, split, packed, ?_⟩
  rw [List.map_append, groups]
  rfl

theorem Lacks.ended (h : c.Lacks each ends []) : c.Ended each ends :=
  ⟨[], h, Nat.zero_le 1⟩

theorem Closing.ended (h : c.Closing each ends) : c.Ended each ends := by
  obtain ⟨group, lacks⟩ := h.exists_lacks
  exact ⟨[group], lacks, Nat.le_refl 1⟩

/-- What is not closed yet of the groups. -/
theorem Bundled.exists_lacks (h : c.Bundled each ends) :
    ∃ pending, c.Lacks each ends pending ∧ pending.length ≤ 1 ∧
      (pending ≠ [] → c.outbound = .flushing ∨ c.outboundStopped = true) := by
  have none (lacks : c.Lacks each ends []) : ∃ pending, c.Lacks each ends pending ∧
      pending.length ≤ 1 ∧ (pending ≠ [] → c.outbound = .flushing ∨ c.outboundStopped = true) :=
    ⟨[], lacks, Nat.zero_le 1, fun some => absurd rfl some⟩
  rw [Bundled] at h
  split at h
  · exact none h.lacks
  · exact none h.lacks
  · rename_i place
    obtain ⟨pending, lacks, one⟩ := h.ended
    exact ⟨pending, lacks, one, fun _ => .inl place⟩
  · exact none h.lacks
  · obtain ⟨stopped, pending, lacks, one⟩ := h
    exact ⟨pending, lacks, one, fun _ => .inr stopped⟩
  · obtain ⟨stopped, pending, lacks, one⟩ := h
    exact ⟨pending, lacks, one, fun _ => .inr stopped⟩

namespace Sends

variable {done : List Packet}

theorem behind (sends : Sends c d) (split : c.enqueuedPackets = done ++ c.queue.packets) :
    d.enqueuedPackets = done ++ d.queue.packets := by
  obtain ⟨more, queue, enqueued⟩ := sends.enqueued
  rw [enqueued, split, queue, SendQueue.packets_pushAll, List.append_assoc]

theorem holds (sends : Sends c d) (h : c.Holds p placed) : d.Holds p placed := by
  rw [Holds, sends.sink, sends.buffer]
  exact h

theorem between (sends : Sends c d) (h : c.Between each ends) : d.Between each ends := by
  obtain ⟨done, p, split, packed, holds⟩ := h
  exact ⟨done, p, sends.behind split, packed, sends.holds holds⟩

theorem ended (sends : Sends c d) (h : c.Ended each ends) : d.Ended each ends := by
  obtain ⟨more, -, enqueued⟩ := sends.enqueued
  obtain ⟨pending, ⟨done, behind, p, split, packed, groups⟩, one⟩ := h
  refine ⟨pending, ⟨done, behind ++ more, p, ?_, packed, ?_⟩, one⟩
  · rw [enqueued, split, List.append_assoc]
  · rw [sends.sink, groups]

/-- Sending more disturbs no group. -/
theorem bundled (sends : Sends c d) (h : c.Bundled each ends) : d.Bundled each ends := by
  rw [Bundled] at h ⊢
  rw [sends.outbound]
  split at h
  · exact sends.between h
  · obtain ⟨more, queue, enqueued⟩ := sends.enqueued
    obtain ⟨done, packet, p, placed, split, packed, holds, rest⟩ := h
    refine ⟨done, packet, p, placed, ?_, packed, sends.holds holds, rest⟩
    rw [enqueued, split, queue, SendQueue.packets_pushAll, List.append_assoc, List.cons_append]
  · obtain ⟨done, p, split, packed, owes⟩ := h
    refine ⟨done, p, sends.behind split, packed, ?_⟩
    rw [Owes, sends.sink, sends.buffer]
    exact owes
  · exact sends.between h
  · exact ⟨sends.stopped.trans h.1, sends.ended h.2⟩
  · exact ⟨sends.stopped.trans h.1, sends.ended h.2⟩

end Sends

/-! ### Going on with the loop -/

/-- How many bytes were placed. -/
def placedSize (c : Connection) : Nat :=
  (c.sink.taken ++ c.buffer.held).length

/-- Whether no packet is queued behind the frame that ends between the two, if one does. -/
def frameEnds (c d : Connection) : List Bool :=
  match c.outbound with
  | .writing slices =>
    if d.placedSize = c.placedSize + slices.flatten.length then [c.queue.isEmpty] else []
  | _ => []

/-- The loop goes on past a frame: it may send something and take a packet, but it places and
flushes nothing. -/
structure GoesPast (each : Bool) (ends : List Bool) (before : Prop) (c d : Connection) : Prop where
  sink : d.sink = c.sink
  buffer : d.buffer = c.buffer
  place : d.outbound ≠ .flushing
  bundled : before → d.Bundled each ends

theorem GoesPast.after {before between : Prop} (h : GoesPast each ends between d e)
    (sink : d.sink = c.sink) (buffer : d.buffer = c.buffer) (keeps : before → between) :
    GoesPast each ends before c e :=
  ⟨h.sink.trans sink, h.buffer.trans buffer, h.place, fun fact => h.bundled (keeps fact)⟩

/-- However the loop ends, nothing is placed any more. -/
theorem goesPast_stopWriting (now : Nat) (cause : Option Error) (c : Connection) :
    GoesPast each ends (c.Ended each ends) c (c.stopWriting now cause) := by
  have shuts {result : Connection × Option CloseWait}
      (moves : Moves { c with outboundStopped := true } result.1) :
      GoesPast each ends (c.Ended each ends) c { result.1 with
        queue := result.1.queue.clear, outbound := .shutting (now + shutdownTimeout) } := by
    have sends := Sends.of_moves moves
    exact ⟨sends.sink, sends.buffer, (by rintro ⟨⟩),
      fun ended => ⟨sends.stopped, sends.ended ended⟩⟩
  have stays : Moves { c with outboundStopped := true }
      (({ c with outboundStopped := true }, none) : Connection × Option CloseWait).1 := .refl
  cases cause with
  | none => exact shuts stays
  | some cause =>
      simp only [stopWriting]
      split
      · exact shuts stays
      · split
        · exact shuts (outcome_close true now endOfStream _).moves
        · exact shuts (outcome_fail true now cause _).moves

theorem goesPast_failWriting (now : Nat) (cause : Error) (c : Connection) :
    GoesPast each ends (c.Ended each ends) c (c.failWriting now cause) :=
  (goesPast_stopWriting now (some cause) { c with queue := c.queue.written }).after rfl rfl id

theorem goesPast_takePacket (now : Nat) (c : Connection) :
    GoesPast each ends (c.Between each ends) c (c.takePacket now) := by
  rw [takePacket, SendQueue.pop?]
  split
  · exact ⟨rfl, rfl, (by rintro ⟨⟩), id⟩
  · rename_i packet queue popped
    split at popped
    · cases popped
    · rename_i packet' packets queued
      cases popped
      split
      · refine .after (d := { c with queue := { c.queue with packets } })
          (goesPast_failWriting now _ _) rfl rfl fun between => ?_
        exact between.lacks.ended
      · rename_i body made
        refine ⟨rfl, rfl, (by rintro ⟨⟩), ?_⟩
        rintro ⟨done, p, split, packed, holds⟩
        have size := Frame.idSize_le_of_body made
        refine ⟨done, packet, p, [], ?_, packed, holds, ?_, List.cons_ne_nil _ _, ?_⟩
        · change c.enqueuedPackets = _
          rw [split, queued]
        · rw [Frame.ofPacket, made]
          simp [Frame.ofBody, Except.map]
        · exact Frame.nil_notMem_slices made

theorem goesPast_writeOn (now : Nat) (c : Connection) :
    GoesPast each ends (c.Between each ends) c (c.writeOn now) := by
  rw [writeOn]
  split
  · exact (goesPast_stopWriting now none c).after rfl rfl fun between => between.lacks.ended
  · split
    · have sends := sends_originate now c
      exact (goesPast_takePacket now (c.originate now)).after sends.sink sends.buffer sends.between
    · exact goesPast_takePacket now c

theorem goesPast_finishPacket (now : Nat) (c : Connection) :
    GoesPast each ends (c.Between each ends) c (c.finishPacket now) :=
  (goesPast_writeOn now { c with
    queue := c.queue.written, activity := { c.activity with hasSent := true } }).after rfl rfl id

/-! ### The end of a frame -/

/-- The whole frame of a packet is placed, and nothing is decided yet. -/
def HasFramed (each : Bool) (ends : List Bool) (c : Connection) : Prop :=
  ∃ done packet p frame, c.enqueuedPackets = done ++ packet :: c.queue.packets ∧
    IsPacked each ends done p ∧ c.Holds p frame ∧ Frame.ofPacket packet = .ok frame

/-- Behind a frame the group is closed if the frame stands by itself or nothing is queued. -/
theorem bundled_afterFrame (settings : c.config.flushEach = each) (h : c.HasFramed each ends)
    (now : Nat) : (c.afterFrame now).sink = c.sink ∧ (c.afterFrame now).buffer = c.buffer ∧
      (c.afterFrame now).Bundled each (ends ++ [c.queue.isEmpty]) ∧
      ((c.afterFrame now).outbound = .flushing ↔ (each || c.queue.isEmpty) = true) := by
  obtain ⟨done, packet, p, frame, split, packed, ⟨groups, held⟩, made⟩ := h
  have more := packed.concat made c.queue.isEmpty
  have split' : c.enqueuedPackets = (done ++ [packet]) ++ c.queue.packets := by
    rw [split, List.append_assoc, List.singleton_append]
  rw [afterFrame, settings]
  cases last : each || c.queue.isEmpty with
  | true =>
      rw [last] at more
      refine ⟨rfl, rfl, ⟨_, _, split', more, ?_⟩, ?_⟩
      · refine ⟨p.groups, p.rest ++ [frame], rfl, groups, held.trans ?_⟩
        rw [List.flatten_append, List.flatten_singleton]
      · exact iff_of_true rfl rfl
  | false =>
      rw [last] at more
      have passes : GoesPast each (ends ++ [c.queue.isEmpty]) _ c _ := goesPast_finishPacket now c
      refine ⟨passes.sink, passes.buffer, passes.bundled ⟨_, _, split', more, groups, ?_⟩, ?_⟩
      · rw [held]
        simp [Parcels.add]
      · exact iff_of_false passes.place Bool.false_ne_true

/-- What a stretch of the outbound loop of `c` makes of the groups. -/
structure Bundles (each : Bool) (ends : List Bool) (c d : Connection) : Prop where
  bundled : d.Bundled each (ends ++ c.frameEnds d)
  flushes : c.outbound ≠ .flushing →
    (d.outbound = .flushing ↔ ∃ last ∈ c.frameEnds d, (each || last) = true)

/-- A frame ended if nothing is left of it. -/
theorem frameEnds_writing (place : c.outbound = .writing slices) (left : Bytes)
    (rest : d.placedSize + left.length = c.placedSize + slices.flatten.length) :
    c.frameEnds d = if left = [] then [c.queue.isEmpty] else [] := by
  rw [frameEnds, place]
  refine if_congr ?_ rfl rfl
  rw [← rest, Nat.left_eq_add, List.length_eq_zero_iff]

theorem Bundles.of_none (none : c.frameEnds d = []) (bundled : d.Bundled each ends)
    (place : c.outbound = .flushing ∨ d.outbound ≠ .flushing) : Bundles each ends c d := by
  refine ⟨by rwa [none, List.append_nil], fun before => ?_⟩
  rw [none]
  exact iff_of_false (place.resolve_left before) (by rintro ⟨_, ⟨⟩, _⟩)

theorem flatten_ne_nil (some : slices ≠ []) (full : [] ∉ slices) : slices.flatten ≠ [] := by
  intro none
  obtain ⟨slice, slices, rfl⟩ := List.exists_cons_of_ne_nil some
  rw [List.flatten_eq_nil_iff] at none
  exact full (none slice List.mem_cons_self ▸ List.mem_cons_self)

/-- Where nothing was placed, no frame ended. -/
theorem frameEnds_of_same (h : c.Bundled each ends) (same : d.placedSize = c.placedSize) :
    c.frameEnds d = [] := by
  cases place : c.outbound with
  | writing slices =>
      rw [Bundled, place] at h
      obtain ⟨done, packet, p, placed, -, -, -, -, some, full⟩ := h
      rw [frameEnds_writing place slices.flatten (by rw [same])]
      exact if_neg (flatten_ne_nil some full)
  | _ => rw [frameEnds, place]

theorem Bundles.of_goesPast {before : Prop} (h : c.Bundled each ends)
    (passes : GoesPast each ends before c d) (fact : before) : Bundles each ends c d := by
  refine .of_none (frameEnds_of_same h ?_) (passes.bundled fact) (.inr passes.place)
  rw [placedSize, placedSize, passes.sink, passes.buffer]

theorem bundles_writeSlices (place : c.outbound = .writing slices)
    (within : c.Within each ends slices) (settings : c.config.flushEach = each)
    (step : c.writeSlices now slices = some d) : Bundles each ends c d := by
  unfold writeSlices at step
  split at step
  · obtain ⟨_, _, _, _, _, _, _, _, some, -⟩ := within
    exact absurd rfl some
  · rename_i slice slices
    split at step
    · cases step
    · cases step
      exact .of_goesPast (by rwa [Bundled, place]) (goesPast_failWriting now _ c) within.lacks.ended
    · rename_i left buffer sink moved
      obtain ⟨done, packet, p, placed, split, packed, ⟨groups, held⟩, made, -, full⟩ := within
      rw [List.mem_cons, not_or] at full
      obtain ⟨front, rfl, placed'⟩ := WriteBuffer.unflushed_of_write moved
      have groups' := WriteBuffer.groups_of_write moved
      -- what was placed by now is the frame up to what is left of it
      have holds : Holds { c with buffer, sink } p (placed ++ front) := by
        refine ⟨groups.trans groups'.symm, placed'.trans ?_⟩
        rw [held, List.append_assoc]
      have framed : Frame.ofPacket packet = .ok (placed ++ front ++ (left ++ slices.flatten)) := by
        rw [made, List.flatten_cons, List.append_assoc, List.append_assoc]
      have size : ({ c with buffer, sink } : Connection).placedSize +
          (left ++ slices.flatten).length =
          c.placedSize + ((front ++ left) :: slices).flatten.length := by
        have size := congrArg List.length placed'
        simp only [List.length_append] at size
        simp only [placedSize, Sink.taken, groups', List.length_append, List.flatten_cons]
        omega
      have goesOn {rest : List Bytes} (same : rest.flatten = left ++ slices.flatten)
          (some : rest ≠ []) (full : [] ∉ rest) :
          Bundles each ends c { c with outbound := .writing rest, buffer, sink } := by
        rw [← same] at framed size
        refine .of_none ?_ ⟨done, packet, p, _, split, packed, holds, framed, some, full⟩
          (.inr (by rintro ⟨⟩))
        exact (frameEnds_writing place _ size).trans (if_neg (flatten_ne_nil some full))
      dsimp only at step
      split at step
      · cases step
        obtain ⟨sink', buffer', bundled, flushes⟩ :=
          bundled_afterFrame (c := { c with buffer, sink }) settings
            ⟨done, packet, p, _, split, packed, holds, by simpa using framed⟩ now
        have ended : c.frameEnds (({ c with buffer, sink } : Connection).afterFrame now) =
            [c.queue.isEmpty] := by
          refine (frameEnds_writing place [] ?_).trans (if_pos rfl)
          rw [placedSize, sink', buffer']
          exact size
        refine ⟨ended ▸ bundled, fun _ => ?_⟩
        rw [ended, flushes]
        simp
      · rename_i some
        cases step
        exact goesOn rfl some full.2
      · rename_i some _
        cases step
        refine goesOn rfl (List.cons_ne_nil _ _) ?_
        rw [List.mem_cons, not_or]
        exact ⟨fun none => some none.symm, full.2⟩

/-- The group is closed as a whole: nothing is taken off the send queue before. -/
theorem bundles_flushOn (place : c.outbound = .flushing) (closing : c.Closing each ends)
    (step : c.flushOn now = some d) : Bundles each ends c d := by
  have none (d : Connection) : c.frameEnds d = [] := by rw [frameEnds, place]
  have ended := closing.ended
  obtain ⟨done, _, split, packed, before, last, rfl, groups, held⟩ := closing
  rw [flushOn] at step
  split at step
  · rename_i empty
    split at step
    · cases step
    · cases step
      exact .of_none (none _) ((goesPast_failWriting now _ c).bundled ended) (.inl place)
    · rename_i sink flushed
      cases step
      refine .of_none (none _) ((goesPast_finishPacket now _).bundled ?_) (.inl place)
      have closed := Sink.groups_of_flush flushed
      rw [List.isEmpty_iff.mp empty, List.append_nil] at held
      refine ⟨done, _, split, packed, ?_, ?_⟩
      · rw [List.map_append, groups, List.map_singleton, ← held]
        exact closed.1.symm
      · rw [closed.2]
        rfl
  · split at step
    · cases step
    · cases step
      exact .of_none (none _) ((goesPast_failWriting now _ c).bundled ended) (.inl place)
    · rename_i buffer sink moved
      cases step
      refine .of_none (none _) ?_ (.inl place)
      rw [Bundled, place]
      obtain ⟨groups', held'⟩ := WriteBuffer.unflushed_of_drain moved
      exact ⟨done, _, split, packed, before, last, rfl, groups.trans groups'.symm, held'.trans held⟩

theorem bundles_shutOn {deadline : Nat} (place : c.outbound = .shutting deadline)
    (ended : c.outboundStopped = true ∧ c.Ended each ends)
    (step : c.shutOn now deadline = some d) : Bundles each ends c d := by
  have none (d : Connection) : c.frameEnds d = [] := by rw [frameEnds, place]
  have moves {buffer : WriteBuffer} {sink : Sink}
      (moved : c.buffer.drain c.sink = .moved () buffer sink) :
      c.outboundStopped = true ∧ { c with buffer, sink }.Ended each ends := by
    obtain ⟨stopped, pending, ⟨done, behind, p, split, packed, groups⟩, one⟩ := ended
    refine ⟨stopped, pending, ⟨done, behind, p, split, packed, ?_⟩, one⟩
    rw [groups, (WriteBuffer.unflushed_of_drain moved).1]
  cases shuts_of_shutOn step with
  | letsGo how => exact .of_none (none _) ended (.inr (by rintro ⟨⟩))
  | last moved =>
      have ended := moves moved
      exact .of_none (none _) ended (.inr (by rintro ⟨⟩))
  | moves _ moved =>
      refine .of_none (none _) ?_ (.inr fun flushing => by cases place.symm.trans flushing)
      rw [Bundled, place]
      exact moves moved

theorem bundles_outboundStep (h : c.Bundled each ends) (settings : c.config.flushEach = each)
    (step : c.outboundStep now = some d) : Bundles each ends c d := by
  have before := h
  rw [outboundStep] at step
  rw [Bundled] at h
  split at step
  · rename_i place
    rw [place] at h
    cases step
    exact .of_goesPast before (goesPast_writeOn now c) h
  · rename_i slices place
    rw [place] at h
    split at step
    · cases step
      refine .of_goesPast before ((goesPast_stopWriting now none _).after rfl rfl id) ?_
      exact h.lacks.ended
    · exact bundles_writeSlices place h settings step
  · rename_i place
    rw [place] at h
    split at step
    · cases step
      refine .of_goesPast before ((goesPast_stopWriting now none _).after rfl rfl id) ?_
      exact h.ended
    · exact bundles_flushOn place h step
  · rename_i wake place
    rw [place] at h
    split at step
    · cases step
      exact .of_goesPast before (goesPast_stopWriting now none c) h.lacks.ended
    · split at step
      · cases step
        exact .of_goesPast before ((goesPast_writeOn now _).after rfl rfl id) h
      · split at step <;> cases step
        exact .of_goesPast before (goesPast_writeOn now c) h
  · rename_i deadline place
    rw [place] at h
    exact bundles_shutOn place h step
  · cases step

/-! ### Whoever acts -/

theorem Bundles.of_sends (h : c.Bundled each ends) (sends : Sends c d) : Bundles each ends c d := by
  refine .of_none (frameEnds_of_same h ?_) (sends.bundled h) ?_
  · rw [placedSize, placedSize, sends.sink, sends.buffer]
  · rw [sends.outbound]
    exact em _

/-- However a connection fares, a group is closed only behind a frame of its own loop. -/
theorem StepsBy.bundles (share : StepsBy now i happening c d) (valid : c.Valid closers)
    (settings : c.config.flushEach = each) (h : c.Bundled each ends) : Bundles each ends c d := by
  cases share with
  | rests => exact .of_sends h (.refl c)
  | inbound _ step => exact .of_sends h (.of_moves (valid.moves_inboundStep step))
  | outbound _ step => exact bundles_outboundStep h settings step
  | @called call =>
      cases World.acts_call c call with
      | begins outcome => exact .of_sends h (.of_moves outcome.moves)
  | acted _ moves => exact .of_sends h (.of_moves moves)

theorem Bundles.tended (h : Bundles each ends c d) (tended : Tended d e) :
    Bundles each ends c e := by
  have taken := tended.taken
  obtain ⟨source, sink, rfl⟩ := tended.eq
  have groups : sink.groups = d.sink.groups := tended.groups
  have unflushed : sink.unflushed = d.sink.unflushed := tended.unflushed
  have same : c.frameEnds { d with source, sink } = c.frameEnds d := by
    have size : ({ d with source, sink } : Connection).placedSize = d.placedSize := by
      rw [placedSize, taken, placedSize]
    rw [frameEnds, frameEnds, size]
  refine ⟨?_, same ▸ h.flushes⟩
  have bundled := h.bundled
  rw [same]
  simp only [Bundled, Between, Within, Closing, Ended, Lacks, Holds, Owes, groups, unflushed]
    at bundled ⊢
  exact bundled

end Connection

namespace World

/-- Whether no packet was queued behind the frame that ended in a happening, if one did. -/
def frameEnds (i : Nat) (w : World) (happening : Happening) : List Bool :=
  match w.conns[i]?, (w.perform happening).conns[i]? with
  | some c, some d => c.frameEnds d
  | _, _ => []

variable {w : World} {i : Nat} {c e : Connection} {happening : Happening} {each : Bool}
  {ends : List Bool}

/-- What any happening makes of the groups of a connection. -/
theorem bundled_perform (reached : w.Reachable) (here : w.conns[i]? = some c)
    (there : (w.perform happening).conns[i]? = some e) (settings : c.config.flushEach = each)
    (h : c.Bundled each ends) : e.config = c.config ∧
      e.Bundled each (ends ++ w.frameEnds i happening) ∧
      (c.outbound ≠ .flushing →
        (e.outbound = .flushing ↔ ∃ last ∈ w.frameEnds i happening, (each || last) = true)) := by
  obtain ⟨d, share, tended⟩ := stepsBy_perform reached here there
  have valid := reached.valid.conns i c here
  have later := Connection.Later.of_changes ((share.changes valid).trans tended.changes)
  have bundles := (share.bundles valid settings h).tended tended
  rw [frameEnds, here, there]
  exact ⟨later.settings.1, bundles.bundled, bundles.flushes⟩

end World

open Connection World

variable {w : World}

/-- What a flush closes, in every run of a connection from its start, whatever is sent meanwhile and
however little the sink takes at a time. For every frame that was written so far, `ends` says
whether the send queue was empty right behind it. With these marks the frames of the packets that
were sent first make up the groups of the sink, up to one that is about to be closed, or was not any
more because the loop ended. If every packet is flushed by itself, each group is one frame. A flush
is begun in no other happening than one in which a frame ends that is the last of its group. -/
theorem groups_of_frames (reached : w.Reachable) {opening : Session.Opening}
    {setup : Connection.Setup} (given : Session.setup opening = .ok setup)
    (happenings : List Happening) :
    let i := w.conns.length
    let begun := w.perform (.start opening)
    let after := begun.performAll happenings
    let each := opening.config.flushEach
    let ends := annals (World.frameEnds i) begun happenings
    ∃ c frames p pending, after.conns[i]? = some c ∧
      (c.enqueuedPackets.take ends.length).map Frame.ofPacket = frames.map .ok ∧
      frames.length = ends.length ∧ p = Parcels.pack (frames.zip (ends.map (each || ·))) ∧
      p.groups.map List.flatten = c.sink.groups ++ pending ∧ pending.length ≤ 1 ∧
      (pending ≠ [] → c.outbound = .flushing ∨ c.outboundStopped = true) ∧
      p.groups.flatten ++ p.rest = frames ∧ (∀ group ∈ p.groups, group ≠ []) ∧
      (each = true → p.groups = frames.map fun frame => [frame]) ∧
      ∀ happening d, (after.perform happening).conns[i]? = some d → c.outbound ≠ .flushing →
        (d.outbound = .flushing ↔
          ∃ last ∈ World.frameEnds i after happening, (each || last) = true) := by
  intro i begun after each ends
  have started := getElem?_perform_start given w
  have begins : (Connection.start setup w.now).Bundled each [] :=
    ⟨[], .empty, rfl, ⟨[], rfl, rfl, rfl⟩, rfl, rfl⟩
  have reached' := reached.perform (.start opening)
  obtain ⟨c, here, settings, bundled⟩ : ∃ c, after.conns[i]? = some c ∧
      c.config = opening.config ∧ c.Bundled each ends := by
    refine reached'.annals (P := fun _ past c => c.config = opening.config ∧ c.Bundled each past)
      started ⟨Session.config_setup given, begins⟩ ?_ happenings
    rintro w happening past c d e reached here there - - ⟨settings, bundled⟩
    obtain ⟨same, bundled', -⟩ :=
      bundled_perform reached here there (congrArg _ settings) bundled
    exact ⟨same.trans settings, bundled'⟩
  obtain ⟨pending, ⟨done, behind, p, split, ⟨frames, made, length, rfl⟩, groups⟩, one, due⟩ :=
    bundled.exists_lacks
  have first : c.enqueuedPackets.take ends.length = done := by
    have size : done.length = ends.length := by
      rw [← length, ← List.length_map Frame.ofPacket, made, List.length_map]
    rw [split, ← size, List.take_left]
  have same : (frames.zip (ends.map (each || ·))).map Prod.fst = frames :=
    List.map_fst_zip (by rw [List.length_map, length])
  refine ⟨c, frames, _, pending, here, by rw [first, made], length, rfl, groups, one, due,
    (Parcels.flatten_pack _).trans same, fun group => Parcels.ne_nil_of_mem_pack, ?_, ?_⟩
  · intro single
    have all : ∀ item ∈ frames.zip (ends.map (each || ·)), item.2 = true := by
      rintro ⟨frame, last⟩ member
      obtain ⟨empty, -, rfl⟩ := List.mem_map.mp (List.of_mem_zip member).2
      exact Bool.or_eq_true_iff.mpr (.inl single)
    rw [Parcels.pack_of_all_last all]
    conv_rhs => rw [← same, List.map_map]
    rfl
  · intro happening e there still
    exact (bundled_perform (reached'.performAll happenings) here there (congrArg _ settings)
      bundled).2.2 still

/-- Two packets that are queued before the loop begins, for a sink that takes nine bytes at first,
and a third that comes while the flush behind them is blocked. -/
def twoThenOne : List Happening :=
  [.call 0 (.send (.keepAlive false)), .call 0 (.send (.keepAlive true)),
    .transit 0 (.weather (some 9) none none false false)] ++ Actor.times 7 (.outbound 0) ++
  [.call 0 (.send (.keepAlive false)), .transit 0 (.weather none none none false false)] ++
  Actor.times 9 (.outbound 0)

/-- The first two are one group, and the third is another. -/
theorem groups_of_frames_twoThenOne :
    annals (World.frameEnds 0) ((World.empty 0).perform (.start .plain)) twoThenOne =
      [false, true, true] ∧
    ∃ c, (((World.empty 0).perform (.start .plain)).performAll twoThenOne).conns[0]? = some c ∧
      c.sink.groups =
        [[0, 0, 0, 3, 255, 253, 0, 0, 0, 0, 3, 255, 253, 1], [0, 0, 0, 3, 255, 253, 0]] := by
  have ends : annals (World.frameEnds 0) ((World.empty 0).perform (.start .plain)) twoThenOne =
      [false, true, true] := by rfl
  obtain ⟨setup, given⟩ : ∃ setup, Session.setup .plain = .ok setup := ⟨_, rfl⟩
  have reached : (World.empty 0).Reachable := .empty 0 []
  obtain ⟨c, frames, p, pending, here, made, -, rfl, groups, -, due, -⟩ :=
    groups_of_frames reached given twoThenOne
  have facts : (((World.empty 0).perform (.start .plain)).performAll twoThenOne).conns[0]?.map
      (fun c => ((c.enqueuedPackets.take 3).map Frame.ofPacket, c.outbound, c.outboundStopped)) =
      some ([[0, 0, 0, 3, 255, 253, 0], [0, 0, 0, 3, 255, 253, 1],
        [0, 0, 0, 3, 255, 253, 0]].map .ok, .idle 20000, false) := by rfl
  change (((World.empty 0).perform (.start .plain)).performAll twoThenOne).conns[0]? = _ at here
  rw [here, Option.map_some, Option.some.injEq] at facts
  simp only [Prod.mk.injEq] at facts
  obtain ⟨written, idle, running⟩ := facts
  change (c.enqueuedPackets.take (annals (World.frameEnds 0) _ twoThenOne).length).map _ = _ at made
  rw [ends] at made
  obtain rfl := List.map_injective_iff.mpr (fun _ _ => Except.ok.inj) (written.symm.trans made)
  have none : pending = [] := by
    by_contra some
    rcases due some with flushing | stopped
    · cases idle.symm.trans flushing
    · cases running.symm.trans stopped
  rw [none, List.append_nil] at groups
  exact ⟨ends, c, here, groups.symm⟩

end PacketWire
