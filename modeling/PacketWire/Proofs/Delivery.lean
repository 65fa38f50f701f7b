import PacketWire.Proofs.Reached

/-!
# From one end of a link to the other

Two connections are linked if neither ever gets input but the bytes that the other handed on, in
order, however late and in whatever pieces. Then the frames that one handles are the beginning of
what the other sent: the bytes it was fed are a beginning of the frames of those packets, and such
a beginning can be cut into frames in one way only. The close message is the last that a connection
sends, so whoever has received it has received everything.
-/

namespace PacketWire

namespace Frame

theorem length_header (body : Bytes) : (header body).length = 4 :=
  BigEndian.length_encode 4 body.length

/-- Frames with the same bytes in front have the same body. -/
theorem ofBody_inj {first second rest rest' : Bytes} (short : first.length ≤ maxBody)
    (short' : second.length ≤ maxBody) (h : ofBody first ++ rest = ofBody second ++ rest') :
    first = second ∧ rest = rest' := by
  simp only [ofBody, List.append_assoc] at h
  obtain ⟨headers, tails⟩ := List.append_inj h (by rw [length_header, length_header])
  have same : (first.length : Int) = second.length := by
    rw [← announced_header short, ← announced_header short', headers]
  exact List.append_inj tails (by omega)

theorem ofBody_ne_nil (body rest : Bytes) : ofBody body ++ rest ≠ [] := by
  intro nothing
  have length := congrArg List.length nothing
  simp [ofBody, length_header] at length

/-- Whole frames that begin a stream are the frames of its first packets. -/
theorem map_prefix_of_stream {bodies : List Bytes} {packets : List Packet}
    (short : ∀ bytes ∈ bodies, bytes.length ≤ maxBody)
    (h : bodies.flatMap ofBody <+: stream packets) :
    bodies.map .ok <+: packets.map body := by
  induction bodies generalizing packets with
  | nil => exact List.nil_prefix
  | cons bytes bodies ih =>
      obtain ⟨rest, eq⟩ := h
      rw [List.flatMap_cons, List.append_assoc] at eq
      cases packets with
      | nil => exact absurd eq (ofBody_ne_nil _ _)
      | cons packet packets =>
          cases made : body packet with
          | error cause =>
              have failed : ofPacket packet = .error cause := by
                rw [ofPacket, made]
                rfl
              rw [stream, failed] at eq
              exact absurd eq (ofBody_ne_nil _ _)
          | ok bytes' =>
              have written : ofPacket packet = .ok (ofBody bytes') := by
                rw [ofPacket, made]
                rfl
              rw [stream_cons_ok written] at eq
              obtain ⟨rfl, behind⟩ := ofBody_inj (short bytes List.mem_cons_self)
                (length_le_maxBody made) eq
              rw [List.map_cons, List.map_cons, made]
              refine (List.prefix_cons_inj _).mpr (ih ?_ ⟨rest, behind⟩)
              exact fun bytes member => short bytes (List.mem_cons_of_mem _ member)

end Frame

namespace Happening

/-- A happening that gives a connection input. -/
def Feeds (i : Nat) : Happening → Prop
  | .transit conn (.feed _) => conn = i
  | .carry _ target _ => target = i
  | _ => False

/-- A happening in which each of two connections gets no input but from the other. -/
def KeepsLink (a b : Nat) : Happening → Prop
  | .transit conn (.feed _) => conn ≠ a ∧ conn ≠ b
  | .carry source target _ => (target = a → source = b) ∧ (target = b → source = a)
  | _ => True

theorem KeepsLink.symm {a b : Nat} {happening : Happening} (keeps : happening.KeepsLink a b) :
    happening.KeepsLink b a := by
  cases happening with
  | transit conn transit =>
      cases transit with
      | feed => exact And.symm keeps
      | _ => trivial
  | carry => exact And.symm keeps
  | _ => trivial

end Happening

namespace World

open Connection

/-- Runs in which two connections get no input but what the other handed on. -/
inductive Linked (a b : Nat) : World → Prop
  | empty (queues : Nat) {wires : List (Nat × Nat)} :
      (∀ wire ∈ wires, wire.2 ≠ a ∧ wire.2 ≠ b) → Linked a b { empty queues with wires }
  | perform {w : World} {happening : Happening} : Linked a b w → happening.KeepsLink a b →
      Linked a b (w.perform happening)

theorem Linked.performAll {w : World} {a b : Nat} {happenings : List Happening}
    (h : Linked a b w) (keeps : ∀ happening ∈ happenings, happening.KeepsLink a b) :
    Linked a b (w.performAll happenings) := by
  induction happenings generalizing w with
  | nil => exact h
  | cons happening happenings ih =>
      exact ih (h.perform (keeps happening List.mem_cons_self)) fun other member =>
        keeps other (List.mem_cons_of_mem _ member)

variable {w w' : World} {a b i k : Nat} {c after : Connection}

theorem Linked.reachable (h : Linked a b w) : w.Reachable := by
  induction h with
  | empty queues => exact .empty queues _
  | perform _ _ ih => exact ih.perform _

theorem Linked.symm (h : Linked a b w) : Linked b a w := by
  induction h with
  | empty queues apart => exact .empty queues fun wire member => (apart wire member).symm
  | perform _ keeps ih => exact .perform ih keeps.symm

/-- A connection gets no input, and the wires are as they were. -/
def Unfed (i : Nat) (w w' : World) : Prop :=
  w'.wires = w.wires ∧ w'.fed i = w.fed i

theorem Unfed.refl (i : Nat) (w : World) : Unfed i w w :=
  ⟨rfl, rfl⟩

theorem fed_eq {d : Connection} (there : w'.conns[i]? = some d) (here : w.conns[i]? = some c)
    (same : d.source.fed = c.source.fed) : w'.fed i = w.fed i := by
  rw [fed, fed, there, here, Option.map_some, Option.map_some, same]

theorem fed_modifyConn_ne (other : k ≠ i) (f : Connection → Connection) (w : World) :
    (w.modifyConn k f).fed i = w.fed i := by
  rw [fed, modifyConn, List.getElem?_modify_ne _ _ other, fed]

theorem fed_modifyConn {f : Connection → Connection}
    (same : ∀ c, (f c).source.fed = c.source.fed) (i k : Nat) (w : World) :
    (w.modifyConn k f).fed i = w.fed i := by
  by_cases mine : k = i
  · subst mine
    simp only [fed, modifyConn, List.getElem?_modify_eq]
    cases w.conns[k]? with
    | none => rfl
    | some c => exact same c
  · exact fed_modifyConn_ne mine f w

theorem Unfed.put (put : Put w k c after w') (here : w.conns[k]? = some c)
    (same : after.source.fed = c.source.fed) (dry : ∀ wire ∈ w.wires, wire.2 ≠ i) :
    Unfed i w w' := by
  refine ⟨put.wires, ?_⟩
  have kept := put.dry i dry
  by_cases mine : k = i
  · subst mine
    rw [List.getElem?_set_self (List.getElem?_eq_some_iff.mp here).1] at kept
    exact fed_eq kept here same
  · rw [List.getElem?_set_ne mine] at kept
    rw [fed, fed, kept]

/-- No actor gives a connection input. -/
theorem unfed_step (valid : w.Valid) (dry : ∀ wire ∈ w.wires, wire.2 ≠ i) {actor : Actor}
    (step : w.step actor = some w') : Unfed i w w' := by
  cases actor with
  | inbound k =>
      simp only [World.step] at step
      split at step
      · cases step
      · rename_i c here
        obtain ⟨d, stepped, rfl⟩ := Option.map_eq_some_iff.mp step
        have moves := (valid.conns k c here).moves_inboundStep stepped
        exact .put (put_spec (Connection.Later.of_changes moves.changes).journal) here
          (fed_of_moves moves) dry
  | outbound k =>
      simp only [World.step] at step
      split at step
      · cases step
      · rename_i c here
        obtain ⟨d, stepped, rfl⟩ := Option.map_eq_some_iff.mp step
        have onward := onward_outboundStep stepped
        exact .put (put_spec (Connection.Later.of_changes onward.changes).journal) here
          (by rw [onward.source]) dry
  | task k =>
      simp only [World.step] at step
      split at step
      · rename_i job here
        obtain ⟨⟨w'', task⟩, stepped, rfl⟩ := Option.map_eq_some_iff.mp step
        have stretch := stretch_jobStep valid.booked
          (valid.booked.taken _ (List.mem_of_getElem? here)) stepped
        cases stretch with
        | quiet => exact .refl i w
        | @acts q f j c d _ tame there others acts =>
            obtain ⟨pre, post, before, -⟩ := closers_set here j
            have held := valid.conns j c there
            rw [before] at held
            have moves := held.moves_of_acts acts
            have unfed := Unfed.put (w := w.modifyQueue q f) (i := i)
              (put_spec (Connection.Later.of_changes moves.changes).journal) there
              (fed_of_moves moves) dry
            exact unfed
      · cases step

theorem unfed_perform (valid : w.Valid) (dry : ∀ wire ∈ w.wires, wire.2 ≠ i)
    {happening : Happening} (unfed : ¬ happening.Feeds i) : Unfed i w (w.perform happening) := by
  cases happening with
  | run actor =>
      simp only [World.perform]
      cases stepped : w.step actor with
      | none => exact .refl i w
      | some w' => exact unfed_step valid dry stepped
  | start opening =>
      simp only [World.perform]
      split
      · rename_i setup _
        rw [World.start, queues_modifyQueueOf]
        refine ⟨rfl, ?_⟩
        rw [fed, fed]
        rcases Nat.lt_trichotomy i w.conns.length with old | rfl | beyond
        · rw [List.getElem?_append_left old]
        · simp [Connection.start, Source.empty]
        · rw [List.getElem?_eq_none (by simp; omega), List.getElem?_eq_none (Nat.le_of_lt beyond)]
      · exact .refl i w
  | pass | errands | collect | process | announce => exact .refl i w
  | abort k =>
      simp only [World.perform, World.abort]
      split
      · rename_i job here
        cases job with
        | process queue _ progress => cases progress <;> exact .refl i w
        | _ => exact .refl i w
      · exact .refl i w
  | call k call =>
      simp only [World.perform, onConn]
      split
      · exact .refl i w
      · rename_i c here
        have held : c.Valid (closers k w.tasks ++ (none : Option CloseWait).toList ++ []) := by
          simpa using valid.conns k c here
        have moves := held.moves_of_acts (acts_call c call)
        exact .put (put_spec (Connection.Later.of_changes moves.changes).journal) here
          (fed_of_moves moves) dry
  | transit k transit =>
      refine ⟨rfl, ?_⟩
      cases transit with
      | feed => exact fed_modifyConn_ne unfed _ w
      | finish | weather =>
          exact fed_modifyConn (f := fun c => Transit.act c _) (fun _ => rfl) i k w
  | carry source target => exact ⟨rfl, fed_modifyConn_ne unfed _ w⟩

/-- The wires stay as they are. -/
theorem wires_perform (valid : w.Valid) (dry : ∀ wire ∈ w.wires, wire.2 ≠ i)
    (happening : Happening) : (w.perform happening).wires = w.wires := by
  by_cases feeds : happening.Feeds i
  · cases happening with
    | transit | carry => rfl
    | _ => exact feeds.elim
  · exact (unfed_perform valid dry feeds).1

theorem Linked.dry (h : Linked a b w) : ∀ wire ∈ w.wires, wire.2 ≠ a ∧ wire.2 ≠ b := by
  induction h with
  | empty queues apart => exact apart
  | @perform w happening linked keeps ih =>
      rwa [wires_perform linked.reachable.valid (fun wire member => (ih wire member).1) happening]

/-- What was taken stays taken. -/
theorem received_mono (later : Later w w') (i : Nat) : w.received i <+: w'.received i := by
  rw [received, received]
  cases here : w.conns[i]? with
  | none => exact List.nil_prefix
  | some c =>
      obtain ⟨d, there, further⟩ := later i c here
      rw [there]
      exact further.taken

/-- What was handed on, from where the other end stands, comes next. -/
theorem fed_carry (w : World) (source target count : Nat) :
    (w.perform (.carry source target count)).fed target <+:
      w.fed target ++ (w.underway source target).take count := by
  simp only [perform, fed, modifyConn, List.getElem?_modify_eq]
  cases w.conns[target]? with
  | none => exact List.nil_prefix
  | some c => exact List.prefix_rfl

/-- What a connection was fed is the beginning of what the other end handed on. -/
theorem Linked.fed_of_received (h : Linked a b w) : w.fed b <+: w.received a := by
  induction h with
  | empty queues => exact List.prefix_rfl
  | @perform w happening linked keeps ih =>
      have valid := linked.reachable.valid
      refine List.IsPrefix.trans ?_ (received_mono (valid.perform happening).2 a)
      by_cases feeds : happening.Feeds b
      · cases happening with
        | transit conn transit =>
            cases transit with
            | feed => exact absurd feeds keeps.2
            | _ => exact feeds.elim
        | carry source target count =>
            obtain rfl : target = b := feeds
            obtain rfl : source = a := keeps.2 rfl
            apply (fed_carry w source target count).trans
            obtain ⟨rest, eq⟩ := ih
            rw [underway, ← eq, List.drop_left]
            exact (List.prefix_append_right_inj _).mpr (List.take_prefix count rest)
        | _ => exact feeds.elim
      · rw [(unfed_perform valid (fun wire member => (linked.dry wire member).2) feeds).2]
        exact ih

end World

open Connection

variable {w : World} {a b : Nat} {ca cb : Connection}

/-- The frames that one end handles are the first of what the other end sent. -/
theorem handled_prefix_of_linked (linked : w.Linked a b) (here : w.conns[a]? = some ca)
    (there : w.conns[b]? = some cb) :
    cb.handledBodies.map .ok <+: ca.enqueuedPackets.map Frame.body := by
  have valid := linked.reachable.valid
  have coherent := (valid.conns b cb there).coherent
  have frames : cb.handledBodies.flatMap Frame.ofBody <+: cb.source.fed := by
    rw [coherent.fed, List.append_assoc]
    exact List.prefix_append _ _
  have carried : cb.source.fed <+: ca.sink.taken := by
    have fed := linked.fed_of_received
    rwa [World.fed, World.received, there, here] at fed
  have sent : ca.sink.taken <+: Frame.stream ca.enqueuedPackets :=
    (List.prefix_append _ _).trans (valid.conns a ca here).inOrder.keepsOrder
  exact Frame.map_prefix_of_stream coherent.short (frames.trans (carried.trans sent))

/-- A close message, once received, was the last packet sent: nothing is missing before it. -/
theorem handled_eq_of_farewell (linked : w.Linked a b) (here : w.conns[a]? = some ca)
    (there : w.conns[b]? = some cb) {message : String}
    (received : .dispatched (.packet (.close message)) ∈ cb.journal)
    (own : ∀ packet ∈ ca.acceptedPackets, packet.id ≠ Packet.closeId) :
    ca.isActive = false ∧
      (ca.acceptedPackets ++ [Packet.farewell]).map Frame.body = cb.handledBodies.map .ok := by
  have valid := linked.reachable.valid
  have enqueued := (valid.conns a ca here).orderly.enqueued
  have handled := handled_prefix_of_linked linked here there
  obtain ⟨body, member, id⟩ := (valid.conns b cb there).coherent.received (.packet (.close message))
    (List.mem_filterMap.mpr ⟨_, List.mem_reverse.mpr received, rfl⟩)
  -- the body with this id belongs to a packet that was not accepted, so to the close message
  have unaccepted : Except.ok body ∉ ca.acceptedPackets.map Frame.body := by
    intro accepted
    obtain ⟨packet, mine, written⟩ := List.mem_map.mp accepted
    have same := (Frame.id?_of_body written).symm.trans id
    exact own packet mine (Option.some.inj same)
  have among : Except.ok body ∈ cb.handledBodies.map (Except.ok (ε := EncodeError)) :=
    List.mem_map.mpr ⟨body, member, rfl⟩
  rw [enqueued] at handled
  cases active : ca.isActive with
  | true =>
      rw [active, if_pos rfl, List.append_nil] at handled
      exact absurd (handled.subset among) unaccepted
  | false =>
      rw [active, if_neg (by decide)] at handled
      refine ⟨rfl, ?_⟩
      rw [List.map_append, List.map_singleton] at handled ⊢
      rcases List.prefix_concat_iff.mp handled with whole | short
      · exact whole.symm
      · exact absurd (short.subset among) unaccepted

/-- Delivery over a link. Whatever either end does and whenever it stops, the bodies of the frames
that one handles, each an id and a payload, are the beginning of the bodies of the packets that the
other put on its send queue. If the close message of one end is received at the other, and no other
packet with its id was accepted there, then everything that was ever accepted was handled, and
nothing more is accepted whatever happens. -/
theorem delivery_of_linked (linked : w.Linked a b) (here : w.conns[a]? = some ca)
    (there : w.conns[b]? = some cb) :
    cb.handledBodies.map .ok <+: ca.enqueuedPackets.map Frame.body ∧
      ca.handledBodies.map .ok <+: cb.enqueuedPackets.map Frame.body ∧
      ∀ message, .dispatched (.packet (.close message)) ∈ cb.journal →
        (∀ packet ∈ ca.acceptedPackets, packet.id ≠ Packet.closeId) →
        ∀ happenings, ∃ d, (w.performAll happenings).conns[a]? = some d ∧
          (d.acceptedPackets ++ [Packet.farewell]).map Frame.body = cb.handledBodies.map .ok := by
  refine ⟨handled_prefix_of_linked linked here there,
    handled_prefix_of_linked linked.symm there here, ?_⟩
  intro message received own happenings
  obtain ⟨inactive, handled⟩ := handled_eq_of_farewell linked here there received own
  obtain ⟨d, further, later⟩ := (linked.reachable.valid.performAll happenings).2 a ca here
  exact ⟨d, further, by rw [(later.silent inactive).2, handled]⟩

/-- Two connections: the first sent a keep-alive and was closed, the second read all of it. -/
def partedWays : World :=
  (World.empty 0).performAll <|
    [.start .plain, .start .plain, .call 0 (.send (.keepAlive true)), .errands [.close 0],
      .run (.task 0)] ++
    List.replicate 8 (.run (.outbound 0)) ++ [.carry 0 1 100] ++
    List.replicate 4 (.run (.inbound 1))

theorem delivery_partedWays : ∃ ca cb, partedWays.conns[0]? = some ca ∧
    partedWays.conns[1]? = some cb ∧ cb.handledBodies.length = 2 ∧
    (ca.acceptedPackets ++ [Packet.farewell]).map Frame.body = cb.handledBodies.map .ok := by
  have linked : partedWays.Linked 0 1 :=
    World.Linked.performAll (.empty 0 (by simp)) (by simp [Happening.KeepsLink])
  obtain ⟨ca, here⟩ := Option.isSome_iff_exists.mp (show partedWays.conns[0]?.isSome by decide)
  obtain ⟨cb, there⟩ := Option.isSome_iff_exists.mp (show partedWays.conns[1]?.isSome by decide)
  have count : partedWays.conns[1]?.map (·.handledBodies.length) = some 2 := by decide
  have ids : partedWays.conns[0]?.map (·.acceptedPackets.map Packet.id) =
      some [Packet.keepAliveId] := by decide
  have journal : partedWays.conns[1]?.map (·.journal[2]?) =
      some (some (.dispatched (.packet .farewell))) := rfl
  rw [there, Option.map_some, Option.some.injEq] at count journal
  rw [here, Option.map_some, Option.some.injEq] at ids
  obtain ⟨-, -, complete⟩ := delivery_of_linked linked here there
  obtain ⟨d, same, handled⟩ := complete _ (List.mem_of_getElem? journal) (by
    intro packet member
    have among := List.mem_map_of_mem (f := Packet.id) member
    rw [ids, List.mem_singleton] at among
    rw [among]
    decide) []
  simp only [World.performAll, List.foldl_nil] at same
  obtain rfl : ca = d := Option.some.inj (here.symm.trans same)
  exact ⟨ca, cb, here, there, count, handled⟩

end PacketWire
