import Mathlib.Algebra.Ring.Nat
import Mathlib.Data.List.Basic

/-!
# One element among many

A task is one of a list of them, and what is known of all tasks, or of all connections, is often
what each contributes, one after the other. The lemmas here say what becomes of that where one
element changes, and where only one contributes anything.
-/

namespace PacketWire

/-- What one element of a list contributes to what all of them come to. -/
theorem flatMap_set {ι γ : Type} {items : List ι} {t : Nat} {old : ι}
    (here : items[t]? = some old) (f : ι → List γ) : ∃ pre post,
      items.flatMap f = pre ++ f old ++ post ∧
        ∀ new, (items.set t new).flatMap f = pre ++ f new ++ post := by
  obtain ⟨bound, rfl⟩ := List.getElem?_eq_some_iff.mp here
  refine ⟨(items.take t).flatMap f, (items.drop (t + 1)).flatMap f, ?_, ?_⟩
  · rw [← List.flatMap_singleton f, ← List.flatMap_append, ← List.flatMap_append,
      List.append_assoc, List.singleton_append, List.getElem_cons_drop, List.take_append_drop]
  · intro new
    rw [List.set_eq_take_append_cons_drop, if_pos bound, List.flatMap_append, List.flatMap_cons,
      List.append_assoc]

/-- Where all others contribute nothing, one element is all that counts. -/
theorem flatMap_of_alone {ι γ : Type} {f : ι → List γ} {items : List ι} {t : Nat} {item : ι}
    (here : items[t]? = some item)
    (alone : ∀ u other, items[u]? = some other → u ≠ t → f other = []) :
    items.flatMap f = f item := by
  induction items generalizing t with
  | nil => cases here
  | cons first rest ih =>
      rw [List.flatMap_cons]
      cases t with
      | zero =>
          obtain rfl : first = item := Option.some.inj here
          have nothing : rest.flatMap f = [] := by
            rw [List.flatMap_eq_nil_iff]
            intro other member
            obtain ⟨u, there⟩ := List.getElem?_of_mem member
            exact alone (u + 1) other there (by omega)
          rw [nothing, List.append_nil]
      | succ t =>
          rw [alone 0 first rfl (by omega), List.nil_append]
          exact ih here fun u other there apart => alone (u + 1) other there (by omega)

theorem count_flatMap_set {ι γ : Type} [DecidableEq γ] {items : List ι} {t : Nat} {old : ι}
    (here : items[t]? = some old) (new : ι) (f : ι → List γ) (x : γ) :
    ((items.set t new).flatMap f).count x + (f old).count x =
      (items.flatMap f).count x + (f new).count x := by
  obtain ⟨pre, post, before, after⟩ := flatMap_set here f
  rw [before, after]
  simp only [List.count_append]
  omega

theorem sum_map_set {ι : Type} {items : List ι} {t : Nat} {old : ι} (here : items[t]? = some old)
    (new : ι) (f : ι → Nat) :
    ((items.set t new).map f).sum + f old = (items.map f).sum + f new := by
  induction items generalizing t with
  | nil => cases here
  | cons first rest ih =>
      cases t with
      | zero =>
          obtain rfl : first = old := Option.some.inj here
          simp only [List.set_cons_zero, List.map_cons, List.sum_cons]
          omega
      | succ t =>
          have rest := ih here
          simp only [List.set_cons_succ, List.map_cons, List.sum_cons]
          omega

/-- Only one number contributes anything. -/
theorem flatMap_range_of_alone {γ : Type} {f : Nat → List γ} {n i : Nat}
    (others : ∀ j, j ≠ i → f j = []) (beyond : n ≤ i → f i = []) :
    (List.range n).flatMap f = f i := by
  rcases Nat.lt_or_ge i n with bound | past
  · refine flatMap_of_alone (List.getElem?_range bound) fun j other there apart => others other ?_
    obtain ⟨_, rfl⟩ := List.getElem?_eq_some_iff.mp there
    rwa [List.getElem_range]
  · rw [beyond past, List.flatMap_eq_nil_iff]
    intro j member
    exact others j (by have := List.mem_range.mp member; omega)

/-- Two places of a list with at most one element of a kind are the same. -/
theorem eq_of_countP_le_one {α : Type} {p : α → Bool} {items : List α} (single : items.countP p ≤ 1)
    {t u : Nat} {x y : α} (here : items[t]? = some x) (there : items[u]? = some y)
    (first : p x = true) (second : p y = true) : t = u := by
  induction items generalizing t u with
  | nil => cases here
  | cons item items ih =>
      rw [List.countP_cons] at single
      have lonely {v : Nat} {z : α} (place : items[v]? = some z) (kind : p z = true)
          (head : p item = true) : False := by
        have more : 0 < items.countP p :=
          List.countP_pos_iff.mpr ⟨z, List.mem_of_getElem? place, kind⟩
        rw [if_pos head] at single
        omega
      cases t with
      | zero =>
          obtain rfl : item = x := Option.some.inj here
          cases u with
          | zero => rfl
          | succ u => exact (lonely there second first).elim
      | succ t =>
          cases u with
          | zero =>
              obtain rfl : item = y := Option.some.inj there
              exact (lonely here first second).elim
          | succ u => rw [ih (by omega) here there]

end PacketWire
