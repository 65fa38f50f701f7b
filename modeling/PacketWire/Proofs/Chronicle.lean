import PacketWire.Proofs.ConnectionStep

/-!
# What happened in a run, in order

Every connection keeps a journal of its own. `news` is what the journals gained in one happening,
and `chronicle` what they gained in a run, one after the other, each entry with the number of its
connection. So it has the order across connections, and for one connection it is what that
connection recounts.
-/

namespace PacketWire

theorem Entry.told_reverse {α : Type} (kind : Entry → Option α) (entries : List Entry) :
    told kind entries.reverse = entries.filterMap kind := by
  rw [told, List.reverse_reverse]

namespace World

open Connection

/-- The journal of a connection. Before it is started there is nothing in it. -/
def journal (i : Nat) (w : World) : List Entry :=
  (w.conns[i]?.map (·.journal)).getD []

/-- What the journals gained of one kind. Only one of them gains anything in one happening. -/
def news {α : Type} (kind : Entry → Option α) (w w' : World) : List (Nat × α) :=
  (List.range w'.conns.length).flatMap fun i =>
    ((gained (w.journal i) (w'.journal i)).filterMap kind).map (i, ·)

/-- What the journals gain of one kind in a run. -/
def chronicle {α : Type} (kind : Entry → Option α) : World → List Happening → List (Nat × α)
  | _, [] => []
  | w, happening :: happenings =>
    news kind w (w.perform happening) ++ chronicle kind (w.perform happening) happenings

variable {α : Type} {kind : Entry → Option α} {w w' : World}

theorem gained_self (entries : List Entry) : gained entries entries = [] := by
  rw [gained, Nat.sub_self]
  rfl

theorem gained_append (entries before : List Entry) :
    gained before (entries.reverse ++ before) = entries := by
  simp [gained]

theorem journal_of_getElem? {i : Nat} {c : Connection} (here : w.conns[i]? = some c) :
    w.journal i = c.journal := by
  rw [journal, here]
  rfl

theorem journal_of_le {i : Nat} (beyond : w.conns.length ≤ i) : w.journal i = [] := by
  rw [journal, List.getElem?_eq_none beyond]
  rfl

theorem news_eq_nil (same : ∀ i, w'.journal i = w.journal i) : news kind w w' = [] := by
  rw [news, List.flatMap_eq_nil_iff]
  intro i _
  rw [same, gained_self]
  rfl

theorem gained_of_le {i : Nat} (beyond : w'.conns.length ≤ i) :
    gained (w.journal i) (w'.journal i) = [] := by
  rw [journal_of_le beyond, gained, List.take_nil]
  rfl

/-- Where the journals of all others are as they were, the news are about one connection. -/
theorem news_of_alone {i : Nat} (others : ∀ j, j ≠ i → w'.journal j = w.journal j) :
    news kind w w' = ((gained (w.journal i) (w'.journal i)).filterMap kind).map (i, ·) := by
  refine flatMap_range_of_alone (fun j apart => ?_) fun beyond => ?_
  · rw [others j apart, gained_self]
    rfl
  · rw [gained_of_le beyond]
    rfl

/-- The news about one connection. -/
theorem filter_news (i : Nat) : ((news kind w w').filter (·.1 == i)).map Prod.snd =
    (gained (w.journal i) (w'.journal i)).filterMap kind := by
  have only (j : Nat) (items : List α) : (items.map (j, ·)).filter (·.1 == i) =
      if j = i then items.map (j, ·) else [] := by
    rw [List.filter_map]
    split
    · rename_i same
      simp [same, Function.comp_def]
    · rename_i apart
      simp [apart, Function.comp_def]
  rw [news, List.filter_flatMap, flatMap_range_of_alone]
  · rw [only, if_pos rfl, List.map_map]
    simp [Function.comp_def]
  · intro j apart
    rw [only, if_neg apart]
  · intro beyond
    rw [gained_of_le beyond]
    rfl

/-- What a connection recounts is what it recounted before and what the chronicle has of it. -/
theorem recount_eq_chronicle (kind : Entry → Option α) (valid : w.Valid)
    (happenings : List Happening) (i : Nat) :
    Entry.told kind ((w.performAll happenings).journal i) =
      Entry.told kind (w.journal i) ++
        ((chronicle kind w happenings).filter (·.1 == i)).map Prod.snd := by
  induction happenings generalizing w with
  | nil => simp [chronicle, performAll]
  | cons happening happenings ih =>
      obtain ⟨valid', later⟩ := valid.perform happening
      have suffix : w.journal i <:+ (w.perform happening).journal i := by
        cases here : w.conns[i]? with
        | none =>
            rw [journal, here]
            exact List.nil_suffix
        | some c =>
            obtain ⟨d, there, later⟩ := later i c here
            rw [journal_of_getElem? here, journal_of_getElem? there]
            exact later.journal
      have first : Entry.told kind ((w.perform happening).journal i) =
          Entry.told kind (w.journal i) ++
            ((news kind w (w.perform happening)).filter (·.1 == i)).map Prod.snd := by
        rw [filter_news, gained_eq suffix, Entry.told_append, gained_append, Entry.told_reverse]
      change Entry.told kind (((w.perform happening).performAll happenings).journal i) = _
      rw [ih valid', first, chronicle, List.filter_append, List.map_append, List.append_assoc]

/-- For one connection, a chronicle from the beginning is what it recounts. -/
theorem recount_eq_filter_chronicle {queues : Nat} {wires : List (Nat × Nat)}
    {happenings : List Happening} {i : Nat} {c : Connection}
    (here : (performAll happenings { empty queues with wires }).conns[i]? = some c) :
    c.recount kind =
      ((chronicle kind { empty queues with wires } happenings).filter (·.1 == i)).map Prod.snd := by
  have all := recount_eq_chronicle kind (valid_empty queues wires) happenings i
  rw [journal_of_getElem? here, journal_of_le (Nat.zero_le i)] at all
  exact all

end World

end PacketWire
