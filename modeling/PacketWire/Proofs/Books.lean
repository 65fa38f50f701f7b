import PacketWire.Proofs.OneOfMany

/-!
# The books of deferred delivery

`Books` keeps what ever went through a work queue: what was put on it and is there now, what
drainers have in their hands, what was handed on, and what the applications' listeners were called
with. `Turns` lists what can happen to the books. Two invariants follow. Nothing is lost or doubled,
whoever drains: `Balanced`. And as long as nobody takes events out while somebody else is at it,
everything stays in line: `InLine`.

An item `α` stands for an event, and `calls` gives the calls `β` that it comes to.
-/

namespace PacketWire

/-- What a drainer has in hand: the items that it has still to hand on, and the calls that are due
after a close that it waits for. -/
structure Hand (α β : Type) where
  todo : List α
  due : Option (List β)

def Hand.empty {α β : Type} : Hand α β := ⟨[], none⟩

structure Books (α β : Type) where
  deferred : List α
  dispatched : List α
  queued : List α
  shown : List β
  hands : List (Hand α β)

namespace Books

variable {α β : Type} {b b' : Books α β} {inTurn : Prop} {calls : α → List β}

/-- Before anything happened. -/
def empty : Books α β := ⟨[], [], [], [], []⟩

/-- All hands are empty. -/
def Idle (b : Books α β) : Prop :=
  ∀ hand ∈ b.hands, hand = .empty

/-- What can happen to the books. If drainers work in turn, items are taken out only while nobody
has anything in hand, and from the front. -/
inductive Turns (inTurn : Prop) (calls : α → List β) (b : Books α β) : Books α β → Prop
  | defers (items : List α) : Turns inTurn calls b
      { b with deferred := b.deferred ++ items, queued := b.queued ++ items }
  | spawns (count : Nat) : Turns inTurn calls b
      { b with hands := b.hands ++ List.replicate count .empty }
  | takes {t : Nat} {taken rest : List α} : b.hands[t]? = some .empty →
      b.queued.Perm (taken ++ rest) → (inTurn → b.Idle ∧ b.queued = taken ++ rest) →
      Turns inTurn calls b { b with queued := rest, hands := b.hands.set t ⟨taken, none⟩ }
  | hands {t : Nat} {item : α} {todo : List α} {now : List β} {due : Option (List β)} :
      b.hands[t]? = some ⟨item :: todo, none⟩ → now ++ due.getD [] = calls item →
      Turns inTurn calls b
      { b with
        dispatched := b.dispatched ++ [item]
        shown := b.shown ++ now
        hands := b.hands.set t ⟨todo, due⟩ }
  | pops {t : Nat} {item : α} {rest : List α} {now : List β} {due : Option (List β)} :
      b.hands[t]? = some .empty → b.queued = item :: rest → (inTurn → b.Idle) →
      now ++ due.getD [] = calls item → Turns inTurn calls b
      { b with
        dispatched := b.dispatched ++ [item]
        shown := b.shown ++ now
        queued := rest
        hands := b.hands.set t ⟨[], due⟩ }
  | resumes {t : Nat} {todo : List α} {late : List β} : b.hands[t]? = some ⟨todo, some late⟩ →
      Turns inTurn calls b { b with shown := b.shown ++ late, hands := b.hands.set t ⟨todo, none⟩ }

/-! ### Nothing is lost or doubled -/

/-- The calls that a hand still owes for an item that was handed on. -/
def owed (hand : Hand α β) : List β := hand.due.getD []

/-- Everything ever put on the work queue is in one place: handed on, in a hand, or queued. And for
everything handed on the listener was called as often as it should be, or is owed the calls. -/
structure Balanced (calls : α → List β) (b : Books α β) : Prop where
  placed : b.deferred.Perm (b.dispatched ++ b.hands.flatMap Hand.todo ++ b.queued)
  shown : (b.shown ++ b.hands.flatMap owed).Perm (b.dispatched.flatMap calls)

theorem balanced_iff [DecidableEq α] [DecidableEq β] : b.Balanced calls ↔
    (∀ item, b.deferred.count item = b.dispatched.count item +
      (b.hands.flatMap Hand.todo).count item + b.queued.count item) ∧
    ∀ call, b.shown.count call + (b.hands.flatMap owed).count call =
      (b.dispatched.flatMap calls).count call := by
  constructor
  · rintro ⟨placed, shown⟩
    simp only [List.perm_iff_count, List.count_append] at placed shown
    exact ⟨placed, shown⟩
  · rintro ⟨placed, shown⟩
    constructor <;> simpa only [List.perm_iff_count, List.count_append]

theorem balanced_empty (calls : α → List β) : Balanced calls empty := ⟨.nil, .nil⟩

theorem Balanced.turns (h : b.Balanced calls) (turns : Turns inTurn calls b b') :
    b'.Balanced calls := by
  classical
  -- counting each item and each call, one hand changes a sum by what it held and what it holds
  simp only [balanced_iff] at h ⊢
  obtain ⟨placed, shown⟩ := h
  cases turns with
  | defers items =>
      refine ⟨fun item => ?_, shown⟩
      have placed := placed item
      simp only [List.count_append] at placed ⊢
      omega
  | spawns count =>
      simpa [List.flatMap_replicate, Hand.empty, owed] using And.intro placed shown
  | @takes t taken rest free split _ =>
      refine ⟨fun item => ?_, fun call => ?_⟩
      · have placed := placed item
        have hand := count_flatMap_set free ⟨taken, none⟩ Hand.todo item
        have queue := split.count_eq item
        simp only [List.count_append, Hand.empty, List.count_nil] at placed hand queue ⊢
        omega
      · have hand := count_flatMap_set free ⟨taken, none⟩ owed call
        exact (congrArg (_ + ·) hand).trans (shown call)
  | @hands t item todo now due held came =>
      refine ⟨fun other => ?_, fun call => ?_⟩
      · have placed := placed other
        have hand := count_flatMap_set held ⟨todo, due⟩ Hand.todo other
        simp only [List.count_append, List.count_cons, List.count_nil] at placed hand ⊢
        omega
      · have shown := shown call
        have hand := count_flatMap_set held ⟨todo, due⟩ owed call
        have came := congrArg (List.count call) came
        simp only [owed, List.flatMap_append, List.flatMap_singleton, List.count_append,
          Option.getD_none, List.count_nil] at shown hand came ⊢
        omega
  | @pops t item rest now due free queued _ came =>
      refine ⟨fun other => ?_, fun call => ?_⟩
      · have placed := placed other
        have hand := count_flatMap_set free ⟨[], due⟩ Hand.todo other
        have queue := congrArg (List.count other) queued
        simp only [Hand.empty, List.count_append, List.count_cons, List.count_nil]
          at placed hand queue ⊢
        omega
      · have shown := shown call
        have hand := count_flatMap_set free ⟨[], due⟩ owed call
        have came := congrArg (List.count call) came
        simp only [owed, Hand.empty, List.flatMap_append, List.flatMap_singleton,
          List.count_append, Option.getD_none, List.count_nil] at shown hand came ⊢
        omega
  | @resumes t todo late held =>
      refine ⟨fun item => ?_, fun call => ?_⟩
      · have hand := count_flatMap_set held ⟨todo, none⟩ Hand.todo item
        have placed := placed item
        simp only at hand placed ⊢
        omega
      · have shown := shown call
        have hand := count_flatMap_set held ⟨todo, none⟩ owed call
        simp only [owed, List.count_append, Option.getD_none, Option.getD_some, List.count_nil]
          at shown hand ⊢
        omega

/-! ### Everything stays in line -/

/-- At most one hand is not empty, what was put on the work queue was handed on, then comes from
that hand, then from the queue; and the listener was called with what was handed on. -/
structure InLine (calls : α → List β) (b : Books α β) : Prop where
  single : ∀ (t u : Nat) (g h : Hand α β), b.hands[t]? = some g → b.hands[u]? = some h →
    g ≠ .empty → h ≠ .empty → t = u
  deferred : b.deferred = b.dispatched ++ b.hands.flatMap Hand.todo ++ b.queued
  shown : b.shown ++ b.hands.flatMap owed = b.dispatched.flatMap calls

theorem inLine_empty (calls : α → List β) : InLine calls empty where
  single := by
    intro t u g h here
    cases here
  deferred := rfl
  shown := rfl

/-- Whoever has something in hand is alone with it, and stays so. -/
theorem InLine.of_hand {dispatched' queued' : List α} {shown' : List β}
    {t : Nat} {old : Hand α β} (new : Hand α β) (here : b.hands[t]? = some old)
    (alone : ∀ u h, b.hands[u]? = some h → u ≠ t → h = .empty)
    (deferred : b.deferred = dispatched' ++ new.todo ++ queued')
    (shown : shown' ++ owed new = dispatched'.flatMap calls) :
    InLine calls { b with
      dispatched := dispatched', queued := queued', shown := shown'
      hands := b.hands.set t new } := by
  have bound := (List.getElem?_eq_some_iff.mp here).1
  have placed : (b.hands.set t new)[t]? = some new := List.getElem?_set_self bound
  have apart (u : Nat) (h : Hand α β) (there : (b.hands.set t new)[u]? = some h) (other : u ≠ t) :
      h = .empty := by
    rw [List.getElem?_set_ne (Ne.symm other)] at there
    exact alone u h there other
  constructor
  · intro u v g h first second full full'
    have here (u : Nat) (g : Hand α β) (there : (b.hands.set t new)[u]? = some g)
        (full : g ≠ .empty) : u = t := by
      by_cases same : u = t
      · exact same
      · exact absurd (apart u g there same) full
    rw [here u g first full, here v h second full']
  · change b.deferred = dispatched' ++ (b.hands.set t new).flatMap Hand.todo ++ queued'
    rw [flatMap_of_alone placed fun u h there other => by rw [apart u h there other]; rfl, deferred]
  · change shown' ++ (b.hands.set t new).flatMap _ = _
    rw [flatMap_of_alone placed fun u h there other => by rw [apart u h there other]; rfl, shown]

theorem InLine.turns (h : b.InLine calls) (turns : Turns True calls b b') : b'.InLine calls := by
  have others {t : Nat} {hand : Hand α β} (here : b.hands[t]? = some hand) (full : hand ≠ .empty)
      (u : Nat) (other : Hand α β) (there : b.hands[u]? = some other) (apart : u ≠ t) :
      other = .empty := by
    by_cases none : other = .empty
    · exact none
    · exact absurd (h.single u t other hand there here none full) apart
  -- what the only hand contributes is all that is in hand
  have mine {t : Nat} {hand : Hand α β} (here : b.hands[t]? = some hand) (full : hand ≠ .empty) :
      b.deferred = b.dispatched ++ hand.todo ++ b.queued ∧
        b.shown ++ owed hand = b.dispatched.flatMap calls := by
    have nothing {γ : Type} {f : Hand α β → List γ} (none : f .empty = []) (u : Nat)
        (other : Hand α β) (there : b.hands[u]? = some other) (apart : u ≠ t) : f other = [] := by
      rw [others here full u other there apart, none]
    refine ⟨?_, ?_⟩
    · rw [h.deferred, flatMap_of_alone here (nothing rfl)]
    · rw [← h.shown, flatMap_of_alone here (nothing rfl)]
  have nobody (clear : b.Idle) : b.deferred = b.dispatched ++ b.queued ∧
      b.shown = b.dispatched.flatMap calls := by
    have deferred := h.deferred
    have shown := h.shown
    rw [List.flatMap_eq_nil_iff.mpr fun hand member => by rw [clear hand member]; rfl,
      List.append_nil] at deferred shown
    exact ⟨deferred, shown⟩
  have alone (clear : b.Idle) (t u : Nat) (hand : Hand α β) (there : b.hands[u]? = some hand)
      (_ : u ≠ t) : hand = .empty := clear hand (List.mem_of_getElem? there)
  cases turns with
  | defers items => exact ⟨h.single, by simp [h.deferred], h.shown⟩
  | spawns count =>
      have old {u : Nat} {g : Hand α β}
          (there : (b.hands ++ List.replicate count .empty)[u]? = some g) (full : g ≠ .empty) :
          b.hands[u]? = some g := by
        rcases Nat.lt_or_ge u b.hands.length with old | new
        · rwa [List.getElem?_append_left old] at there
        · rw [List.getElem?_append_right new] at there
          exact absurd (List.eq_of_mem_replicate (List.mem_of_getElem? there)) full
      refine ⟨?_, ?_, ?_⟩
      · exact fun t u g g' here there full full' =>
          h.single t u g g' (old here full) (old there full') full full'
      · simp [h.deferred, List.flatMap_replicate, Hand.empty]
      · simp [← h.shown, List.flatMap_replicate, Hand.empty, owed]
  | @takes t taken rest free _ inFront =>
      obtain ⟨clear, split⟩ := inFront trivial
      obtain ⟨deferred, shown⟩ := nobody clear
      refine .of_hand _ free (alone clear t) ?_ ?_
      · simp [deferred, split]
      · simp [shown, owed]
  | @hands t item todo now due held came =>
      obtain ⟨deferred, shown⟩ := mine held (by simp [Hand.empty])
      refine .of_hand _ held (others held (by simp [Hand.empty])) ?_ ?_
      · simp [deferred]
      · simp only [owed, Option.getD_none, List.append_nil] at shown
        simp [shown, came, owed]
  | @pops t item rest now due free queued clear came =>
      obtain ⟨deferred, shown⟩ := nobody (clear trivial)
      refine .of_hand _ free (alone (clear trivial) t) ?_ ?_
      · simp [deferred, queued]
      · simp [shown, came, owed]
  | @resumes t todo late held =>
      obtain ⟨deferred, shown⟩ := mine held (by simp [Hand.empty])
      refine .of_hand _ held (others held (by simp [Hand.empty])) ?_ ?_
      · simp [deferred]
      · simpa [owed] using shown

end Books

end PacketWire
