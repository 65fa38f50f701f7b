import Mathlib.Data.List.Dedup
import PacketWire.Proofs.Understanding

/-!
# A registry as a table

A registry keeps one entry for each id, in the order of the ids. What can be asked of it does not
depend on that: it is what a table of announcements says, in which the last one of an id counts.
`Reflects` is about all that can be asked. Who may enter something into the table is decided by the
two ways to register: any prototype under its own id, or those alone whose id is not reserved.
-/

namespace PacketWire

namespace Announcement

variable {a : Announcement} {id : PacketId} {table : List Announcement}

/-- The id that is declared is the one of the prototype. -/
def IsHonest (a : Announcement) : Prop :=
  a.prototype.id = a.id

instance : DecidablePred IsHonest :=
  fun a => inferInstanceAs (Decidable (a.prototype.id = a.id))

/-- An application may register it for a connection. -/
def IsAdmissible (a : Announcement) : Prop :=
  Packet.isReserved a.id = false ∧ a.IsHonest

instance : DecidablePred IsAdmissible :=
  fun _ => inferInstanceAs (Decidable (_ ∧ _))

/-- Why it is refused where it is not admissible. -/
def refusal (a : Announcement) : RegistrationError :=
  if Packet.isReserved a.id then .reserved a.id else .idMismatch a.name a.id a.prototype.id

/-- The types that every connection knows. -/
def control : List Announcement :=
  [⟨"HandshakePacket", Packet.handshakeId, .handshake .request 0⟩,
    ⟨"ClosePacket", Packet.closeId, .farewell⟩,
    ⟨"KeepAlivePacket", Packet.keepAliveId, .keepAlive false⟩]

theorem isHonest_of_mem_control (member : a ∈ control) : a.IsHonest := by
  have all : ∀ a ∈ control, a.IsHonest := by decide
  exact all a member

/-- What counts of a table for an id. -/
def latest? (id : PacketId) (table : List Announcement) : Option Announcement :=
  table.reverse.find? (·.id = id)

theorem latest?_concat (id : PacketId) (table : List Announcement) (a : Announcement) :
    latest? id (table ++ [a]) = if a.id = id then some a else latest? id table := by
  rw [latest?, List.reverse_concat, List.find?_cons, latest?]
  split <;> simp_all

theorem of_latest? (h : latest? id table = some a) : a ∈ table ∧ a.id = id :=
  ⟨List.mem_reverse.mp (List.mem_of_find?_eq_some h), by simpa using List.find?_some h⟩

theorem isSome_latest? : (latest? id table).isSome = true ↔ ∃ a ∈ table, a.id = id := by
  simp [latest?, List.find?_isSome]

/-- What comes behind does not count where nothing of it has the id. -/
theorem latest?_append_of_forall {more : List Announcement} (other : ∀ a ∈ more, a.id ≠ id) :
    latest? id (table ++ more) = latest? id table := by
  rw [latest?, List.reverse_append, List.find?_append, latest?]
  have none : more.reverse.find? (·.id = id) = none := by
    simpa using other
  rw [none, Option.none_or]

/-- How an announcement is entered. -/
def entry (a : Announcement) : Registry.Entry :=
  ⟨a.id, a.name, a.prototype⟩

end Announcement

namespace Registry

open Announcement

variable {r r' : Registry} {table : List Announcement} {a : Announcement}

/-! ### All that can be asked -/

/-- What can be asked of a registry is what the table says. -/
structure Reflects (r : Registry) (table : List Announcement) : Prop where
  create : ∀ id, r.create id = (latest? id table).map (·.prototype)
  name : ∀ id, r.name? id = (latest? id table).map (·.name)
  contains : ∀ id, r.contains id = true ↔ ∃ a ∈ table, a.id = id
  size : r.size = (table.map (·.id)).dedup.length
  isEmpty : r.isEmpty = table.isEmpty

/-- How the entries of a table are kept. -/
structure Keeps (r : Registry) (table : List Announcement) : Prop where
  sorted : r.entries.Pairwise fun e f => e.id < f.id
  find : ∀ id, r.find? id = (latest? id table).map (·.entry)

theorem sorted_insertEntry (entry : Entry) {entries : List Entry}
    (h : entries.Pairwise fun e f => e.id < f.id) :
    (insertEntry entry entries).Pairwise fun e f => e.id < f.id := by
  induction entries with
  | nil => exact List.pairwise_singleton _ _
  | cons first rest ih =>
      obtain ⟨before, sorted⟩ := List.pairwise_cons.mp h
      simp only [insertEntry]
      split
      · rename_i less
        refine List.pairwise_cons.mpr ⟨fun e member => ?_, h⟩
        rcases List.mem_cons.mp member with rfl | later
        · exact less
        · exact Int16.lt_trans less (before e later)
      · split
        · rename_i same
          exact List.pairwise_cons.mpr ⟨fun e member => same ▸ before e member, sorted⟩
        · rename_i notLess apart
          have more : first.id < entry.id :=
            Int16.lt_of_le_of_ne (Int16.not_lt.mp notLess) (Ne.symm apart)
          refine List.pairwise_cons.mpr ⟨fun e member => ?_, ih sorted⟩
          rcases mem_insertEntry member with rfl | old
          · exact more
          · exact before e old

theorem find?_insert_self (r : Registry) (id : PacketId) (name : String) (prototype : Packet) :
    (r.insert id name prototype).find? id = some ⟨id, name, prototype⟩ := by
  obtain ⟨entries⟩ := r
  simp only [insert, find?]
  induction entries with
  | nil => simp [insertEntry]
  | cons first rest ih =>
      simp only [insertEntry]
      split
      · simp
      · split
        · simp
        · rename_i apart
          rw [List.find?_cons_of_neg (by simpa using Ne.symm apart)]
          exact ih

theorem keeps_empty : empty.Keeps [] :=
  ⟨.nil, fun _ => rfl⟩

theorem Keeps.insert (h : r.Keeps table) (a : Announcement) :
    (r.insert a.id a.name a.prototype).Keeps (table ++ [a]) where
  sorted := sorted_insertEntry _ h.sorted
  find := by
    intro id
    rw [latest?_concat]
    split
    · rename_i same
      rw [← same, find?_insert_self]
      rfl
    · rename_i apart
      rw [find?_insert_of_ne (Ne.symm apart), h.find]

theorem keeps_control : control.Keeps Announcement.control :=
  ((keeps_empty.insert ⟨_, _, _⟩).insert ⟨_, _, _⟩).insert ⟨_, _, _⟩

theorem Keeps.reflects (h : r.Keeps table) : r.Reflects table := by
  have create (id : PacketId) : r.create id = (latest? id table).map (·.prototype) := by
    rw [Registry.create, h.find, Option.map_map]
    rfl
  have contains (id : PacketId) : r.contains id = true ↔ ∃ a ∈ table, a.id = id := by
    rw [Registry.contains, h.find, Option.isSome_map, isSome_latest?]
  have size : r.size = (table.map (·.id)).dedup.length := by
    have nodup : (r.entries.map (·.id)).Nodup := by
      refine List.pairwise_map.mpr (h.sorted.imp fun {e f} less same => ?_)
      rw [same] at less
      exact Int16.lt_irrefl less
    have members (id : PacketId) : id ∈ r.entries.map (·.id) ↔ id ∈ (table.map (·.id)).dedup := by
      rw [List.mem_dedup, List.mem_map, List.mem_map, ← contains, Registry.contains, find?]
      simp [List.find?_isSome]
    rw [Registry.size, ← List.length_map (fun e : Entry => e.id)]
    exact ((List.perm_ext_iff_of_nodup nodup (List.nodup_dedup _)).mpr members).length_eq
  refine ⟨create, ?_, contains, size, ?_⟩
  · intro id
    rw [name?, h.find, Option.map_map]
    rfl
  · have none : r.entries = [] ↔ table = [] := by
      rw [← List.length_eq_zero_iff, show r.entries.length = _ from size, List.length_eq_zero_iff,
        List.dedup_eq_nil, List.map_eq_nil_iff]
    rw [Registry.isEmpty, Bool.eq_iff_iff, List.isEmpty_iff, List.isEmpty_iff, none]

/-- A packet is made for the id that it has. -/
theorem Reflects.id_of_create (h : r.Reflects table) (honest : ∀ a ∈ table, a.IsHonest)
    {id : PacketId} {packet : Packet} (created : r.create id = some packet) : packet.id = id := by
  rw [h.create, Option.map_eq_some_iff] at created
  obtain ⟨a, latest, rfl⟩ := created
  obtain ⟨member, same⟩ := of_latest? latest
  exact (honest a member).trans same

/-- Where no reserved id is taken, the control packets are behind theirs, and nothing else is behind
a reserved id. -/
theorem Reflects.reserved (h : r.Reflects (Announcement.control ++ table))
    (all : ∀ a ∈ table, a.IsAdmissible) :
    r.create (-1) = some (.handshake .request 0) ∧ r.create (-2) = some .farewell ∧
      r.create (-3) = some (.keepAlive false) ∧
      ∀ id, id < 0 → r.contains id = true → id = -1 ∨ id = -2 ∨ id = -3 := by
  have create (id : PacketId) (reserved : Packet.isReserved id = true) :
      r.create id = (latest? id Announcement.control).map (·.prototype) := by
    rw [h.create, latest?_append_of_forall]
    rintro a member rfl
    cases reserved.symm.trans (all a member).1
  refine ⟨create _ rfl, create _ rfl, create _ rfl, fun id reserved known => ?_⟩
  obtain ⟨a, member, rfl⟩ := (h.contains id).mp known
  rcases List.mem_append.mp member with preset | own
  · have ids : ∀ a ∈ Announcement.control, a.id = -1 ∨ a.id = -2 ∨ a.id = -3 := by decide
    exact ids a preset
  · exact absurd reserved (of_decide_eq_false (all a own).1)

/-! ### Any prototype under its own id -/

/-- The registry after an attempt to register. -/
def tell (r : Registry) (a : Announcement) : Registry :=
  (r.register a.id a.name a.prototype).toOption.getD r

def tellAll (announcements : List Announcement) (r : Registry) : Registry :=
  announcements.foldl tell r

theorem register_of_honest (r : Registry) (honest : a.IsHonest) :
    r.register a.id a.name a.prototype = .ok (r.insert a.id a.name a.prototype) :=
  if_pos honest

theorem register_of_not_honest (r : Registry) (lies : ¬ a.IsHonest) :
    r.register a.id a.name a.prototype = .error (.idMismatch a.name a.id a.prototype.id) :=
  if_neg lies

theorem tell_of_not_honest (r : Registry) (lies : ¬ a.IsHonest) : r.tell a = r := by
  rw [tell, register_of_not_honest r lies]
  rfl

/-- Only honest announcements count. -/
theorem Keeps.tellAll (h : r.Keeps table) (announcements : List Announcement) :
    (r.tellAll announcements).Keeps (table ++ announcements.filter (·.IsHonest)) := by
  induction announcements generalizing r table with
  | nil => rwa [List.filter_nil, List.append_nil]
  | cons a rest ih =>
      change ((r.tell a).tellAll rest).Keeps _
      by_cases honest : a.IsHonest
      · rw [List.filter_cons_of_pos (by simpa using honest), ← List.singleton_append,
          ← List.append_assoc, tell, register_of_honest r honest]
        exact ih (h.insert a)
      · rw [List.filter_cons_of_neg (by simpa using honest), tell_of_not_honest r honest]
        exact ih h

/-! ### Ids that are not reserved -/

theorem registerType_of_admissible (r : Registry) (admissible : a.IsAdmissible) :
    r.registerType a = .ok (r.insert a.id a.name a.prototype) := by
  rw [registerType, if_neg (by simp [admissible.1]), register_of_honest r admissible.2]

theorem registerType_of_not_admissible (r : Registry) (refused : ¬ a.IsAdmissible) :
    r.registerType a = .error a.refusal := by
  rw [registerType, refusal]
  split
  · rfl
  · rename_i allowed
    exact register_of_not_honest r fun honest => refused ⟨by simpa using allowed, honest⟩

/-- Types are registered one after the other where none is refused. -/
theorem Keeps.exists_registerAll (h : r.Keeps table) {announcements : List Announcement}
    (all : ∀ a ∈ announcements, a.IsAdmissible) :
    ∃ r', Session.registerAll announcements r = .ok r' ∧ r'.Keeps (table ++ announcements) := by
  induction announcements generalizing r table with
  | nil => exact ⟨r, rfl, by rwa [List.append_nil]⟩
  | cons a rest ih =>
      obtain ⟨first, others⟩ := List.forall_mem_cons.mp all
      obtain ⟨r', registered, keeps⟩ := ih (h.insert a) others
      refine ⟨r', ?_, by rwa [List.append_assoc, List.singleton_append] at keeps⟩
      rw [Session.registerAll, registerType_of_admissible r first]
      exact registered

/-- The first that is refused ends it. -/
theorem registerAll_of_not_admissible (r : Registry) {before : List Announcement}
    (all : ∀ b ∈ before, b.IsAdmissible) (refused : ¬ a.IsAdmissible) (after : List Announcement) :
    Session.registerAll (before ++ a :: after) r = .error a.refusal := by
  induction before generalizing r with
  | nil =>
      rw [List.nil_append, Session.registerAll, registerType_of_not_admissible r refused]
  | cons b rest ih =>
      obtain ⟨first, others⟩ := List.forall_mem_cons.mp all
      rw [List.cons_append, Session.registerAll, registerType_of_admissible r first]
      exact ih _ others

end Registry

end PacketWire
