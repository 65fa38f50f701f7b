import PacketWire.Proofs.ConnectionActors

/-!
# Runs without an end

What comes of a run in the end cannot be told from any of its beginnings, so here a course is a
sequence of happenings without end. It is fair to its actors if each is let run again and again and
time goes on; when, and what else happens in between, is left open. `LeadsTo` relates what is true
at some point of a course to what is true then or later. What moves a course on is an actor that
runs, at once or when some time has come, and a number that cannot become smaller forever.
-/

namespace PacketWire

/-- Whenever the one is true, the other is true then or later. -/
def LeadsTo (P Q : Nat → Prop) : Prop :=
  ∀ n, P n → ∃ m, n ≤ m ∧ Q m

namespace LeadsTo

variable {P Q R : Nat → Prop}

theorem of_imp (h : ∀ n, P n → Q n) : LeadsTo P Q :=
  fun n now => ⟨n, Nat.le_refl n, h n now⟩

theorem trans (first : LeadsTo P Q) (second : LeadsTo Q R) : LeadsTo P R := by
  intro n now
  obtain ⟨m, later, middle⟩ := first n now
  obtain ⟨k, latest, last⟩ := second m middle
  exact ⟨k, Nat.le_trans later latest, last⟩

theorem or (left : LeadsTo P R) (right : LeadsTo Q R) : LeadsTo (fun n => P n ∨ Q n) R := by
  rintro n (now | now)
  · exact left n now
  · exact right n now

/-- What stays true until the other is, is still true at any later time, or the other was. -/
theorem until_of_stays (stays : ∀ n, P n → P (n + 1) ∨ Q (n + 1)) {n m : Nat} (now : P n)
    (later : n ≤ m) : P m ∨ ∃ k, n ≤ k ∧ Q k := by
  induction m, later using Nat.le_induction with
  | base => exact .inl now
  | succ m later ih =>
      rcases ih with still | done
      · rcases stays m still with still | done
        · exact .inl still
        · exact .inr ⟨m + 1, Nat.le_succ_of_le later, done⟩
      · exact .inr done

/-- A number that gets smaller comes to an end. -/
theorem of_decreasing {P : Nat → Nat → Prop}
    (smaller : ∀ rank, LeadsTo (P rank) fun n => Q n ∨ ∃ less < rank, P less n) (rank : Nat) :
    LeadsTo (P rank) Q := by
  induction rank using Nat.strong_induction_on with
  | _ rank ih =>
      refine (smaller rank).trans (or (of_imp fun _ now => now) ?_)
      rintro n ⟨less, smaller, now⟩
      exact ih less smaller n now

end LeadsTo

/-- A list, and a sequence behind it. -/
def followed {α : Type} (first : List α) (rest : Nat → α) (n : Nat) : α :=
  (first[n]?).getD (rest (n - first.length))

theorem followed_add {α : Type} (first : List α) (rest : Nat → α) (n : Nat) :
    followed first rest (first.length + n) = rest n := by
  simp [followed]

theorem map_followed {α : Type} (first : List α) (rest : Nat → α) :
    (List.range first.length).map (followed first rest) = first := by
  refine List.ext_getElem (by simp) fun n _ bound => ?_
  simp [followed, bound]

/-- What is true of a list, and of a sequence behind it, is true everywhere. -/
theorem followed_cases {α : Type} {first : List α} {rest : Nat → α} {P : Nat → α → Prop}
    (early : ∀ n < first.length, P n (followed first rest n))
    (late : ∀ n, P (first.length + n) (rest n)) (n : Nat) : P n (followed first rest n) := by
  rcases Nat.lt_or_ge n first.length with before | behind
  · exact early n before
  · obtain ⟨m, rfl⟩ := Nat.exists_eq_add_of_le behind
    exact followed_add first rest m ▸ late m

namespace World

variable {w : World} {course : Nat → Happening} {P Q : Nat → Prop}

/-- The world after so many happenings of a course. -/
def after (w : World) (course : Nat → Happening) : Nat → World
  | 0 => w
  | n + 1 => (w.after course n).perform (course n)

/-- Every actor runs again and again, and the time goes on beyond every point. -/
structure Fair (w : World) (course : Nat → Happening) : Prop where
  again : ∀ (actor : Actor) (n : Nat), ∃ m, n ≤ m ∧ course m = .run actor
  goesOn : ∀ time, ∃ n, time ≤ (w.after course n).now

theorem after_eq_performAll (w : World) (course : Nat → Happening) (n : Nat) :
    w.after course n = w.performAll ((List.range n).map course) := by
  induction n with
  | zero => rfl
  | succ n ih =>
      rw [World.after, ih, List.range_succ, List.map_append, performAll, performAll,
        List.foldl_append]
      rfl

theorem Reachable.after (reached : w.Reachable) (course : Nat → Happening) (n : Nat) :
    (w.after course n).Reachable := by
  induction n with
  | zero => exact reached
  | succ n ih => exact ih.perform (course n)

theorem now_after_le (reached : w.Reachable) {n m : Nat} (later : n ≤ m) :
    (w.after course n).now ≤ (w.after course m).now := by
  induction m, later using Nat.le_induction with
  | base => exact Nat.le_refl _
  | succ m _ ih => exact Nat.le_trans ih (now_le_perform (reached.after course m).valid (course m))

/-- What goes on only as long as an actor finds, when it runs, that some time has not come, leads to
something else. -/
theorem Fair.leadsTo_of_due (fair : w.Fair course) (reached : w.Reachable) (actor : Actor)
    (time : Nat) (turn : ∀ n, P n →
      P (n + 1) ∧ (course n = .run actor → (w.after course n).now < time) ∨ Q (n + 1)) :
    LeadsTo P Q := by
  intro n now
  obtain ⟨m, due⟩ := fair.goesOn time
  obtain ⟨k, later, runs⟩ := fair.again actor (max n m)
  have stays (n : Nat) (now : P n) : P (n + 1) ∨ Q (n + 1) := (turn n now).imp_left And.left
  have first : n ≤ k := Nat.le_trans (Nat.le_max_left n m) later
  rcases LeadsTo.until_of_stays stays now first with still | done
  · rcases turn k still with ⟨-, early⟩ | done
    · have passed : (w.after course m).now ≤ (w.after course k).now :=
        now_after_le reached (Nat.le_trans (Nat.le_max_right n m) later)
      exact absurd (Nat.le_trans due passed) (Nat.not_le_of_lt (early runs))
    · exact ⟨k + 1, Nat.le_succ_of_le first, done⟩
  · exact done

/-- What stays true until an actor runs, and then leads to something else, does lead to it. -/
theorem Fair.leadsTo (fair : w.Fair course) (reached : w.Reachable) (actor : Actor)
    (stays : ∀ n, P n → P (n + 1) ∨ Q (n + 1))
    (acts : ∀ n, P n → course n = .run actor → Q (n + 1)) : LeadsTo P Q := by
  refine fair.leadsTo_of_due reached actor 0 fun n now => ?_
  by_cases runs : course n = .run actor
  · exact .inr (acts n now runs)
  · exact (stays n now).imp_left fun still => ⟨still, fun ran => absurd ran runs⟩

end World

end PacketWire
