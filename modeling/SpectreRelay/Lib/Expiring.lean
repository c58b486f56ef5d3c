import Mathlib.Algebra.BigOperators.Group.Finset.Basic
import Mathlib.Data.List.Basic

/-!
# Bounded queues of expiring entries

The plain meaning of an expiring queue: one list of entries per key. An entry
is live while its expiry has not passed. Nothing is ever removed for being
expired; dead entries are only not looked at. `Agree` compares a family of
lists that does drop dead entries with the plain one, on what is live from
`now` on, and is kept by every operation while time goes on.
-/

namespace SpectreRelay.Lib
set_option autoImplicit false

/-- A message and the last second at which it is live. -/
structure Entry (μ : Type) where
  message : μ
  expiry : Int
deriving DecidableEq

section

variable {κ μ ν : Type}

def Entry.map (f : μ → ν) (e : Entry μ) : Entry ν := ⟨f e.message, e.expiry⟩

/-- The entries that are live at `now`. -/
def live (now : Int) (entries : List (Entry μ)) : List (Entry μ) := entries.filter fun e => now ≤ e.expiry

@[simp] theorem live_nil (now : Int) : live now ([] : List (Entry μ)) = [] := rfl

theorem live_append (now : Int) (xs ys : List (Entry μ)) : live now (xs ++ ys) = live now xs ++ live now ys :=
  List.filter_append ..

/-- What is live later is live now. -/
theorem live_live {now later : Int} (order : now ≤ later) (xs : List (Entry μ)) :
    live later (live now xs) = live later xs := by
  simp only [live, List.filter_filter]
  apply List.filter_congr
  intro e _
  by_cases alive : later ≤ e.expiry
  · simp [alive, order.trans alive]
  · simp [alive]

/-- One list of entries per key; finitely many are not empty. -/
structure Queues (κ μ : Type) where
  lists : κ → List (Entry μ)
  keys : Finset κ
  support : ∀ k ∉ keys, lists k = []

namespace Queues

def empty : Queues κ μ := ⟨fun _ => [], ∅, fun _ _ => rfl⟩

/-- How many entries of all lists are live. -/
def total (now : Int) (q : Queues κ μ) : Nat := ∑ k ∈ q.keys, (live now (q.lists k)).length

theorem total_eq_sum (now : Int) (q : Queues κ μ) {keys : Finset κ} (cover : q.keys ⊆ keys) :
    q.total now = ∑ k ∈ keys, (live now (q.lists k)).length := by
  refine Finset.sum_subset cover fun k _ outside => ?_
  rw [q.support k outside]
  rfl

section
variable [DecidableEq κ]

/-- Appends an entry when fewer than `capacity` entries of the list are live, and otherwise drops it. -/
def enqueue (capacity : Nat) (now : Int) (k : κ) (e : Entry μ) (q : Queues κ μ) : Queues κ μ :=
  if (live now (q.lists k)).length < capacity then
    { lists := Function.update q.lists k (q.lists k ++ [e])
      keys := insert k q.keys
      support := by
        intro k' outside
        rw [Finset.mem_insert, not_or] at outside
        rw [Function.update_of_ne outside.1]
        exact q.support k' outside.2 }
  else q

/-- Empties one list. -/
def clear (k : κ) (q : Queues κ μ) : Queues κ μ where
  lists := Function.update q.lists k []
  keys := q.keys
  support := by
    intro k' outside
    by_cases same : k' = k
    · rw [same, Function.update_self]
    · rw [Function.update_of_ne same]
      exact q.support k' outside

end

end Queues

/-- From `now` on, the family of lists holds what the plain queues hold, each message under `f`. -/
def Agree (f : μ → ν) (now : Int) (lists : κ → List (Entry ν)) (q : Queues κ μ) : Prop :=
  ∀ k, live now (lists k) = (live now (q.lists k)).map (Entry.map f)

namespace Agree

variable {f : μ → ν} {now : Int} {lists : κ → List (Entry ν)} {q : Queues κ μ}

theorem live_map (f : μ → ν) (now : Int) (xs : List (Entry μ)) :
    live now (xs.map (Entry.map f)) = (live now xs).map (Entry.map f) := by
  simp only [live, List.filter_map]
  rfl

theorem later (h : Agree f now lists q) {now' : Int} (order : now ≤ now') : Agree f now' lists q := by
  intro k
  rw [← live_live order, h k, live_map, live_live order]

theorem length_live (h : Agree f now lists q) (k : κ) : (live now (lists k)).length = (live now (q.lists k)).length := by
  rw [h k, List.length_map]

/-- Dropping dead entries anywhere is invisible. -/
theorem drop (h : Agree f now lists q) {lists' : κ → List (Entry ν)}
    (same : ∀ k, live now (lists' k) = live now (lists k)) : Agree f now lists' q :=
  fun k => (same k).trans (h k)

variable [DecidableEq κ]

/-- A new live entry on both sides. -/
theorem enqueue (h : Agree f now lists q) {k : κ} {e : Entry μ} {lists' : κ → List (Entry ν)} {capacity : Nat}
    (room : (live now (lists k)).length < capacity)
    (here : live now (lists' k) = live now (lists k) ++ live now [e.map f])
    (other : ∀ k', k' ≠ k → live now (lists' k') = live now (lists k')) :
    Agree f now lists' (q.enqueue capacity now k e) := by
  rw [h.length_live] at room
  intro k'
  simp only [Queues.enqueue, room, if_true]
  by_cases same : k' = k
  · subst same
    rw [here, Function.update_self, live_append, List.map_append, h, ← live_map f now [e]]
    rfl
  · rw [other k' same, Function.update_of_ne same, h]

/-- The plain queues drop the entry exactly when the other side is full. -/
theorem full (h : Agree f now lists q) {k : κ} (e : Entry μ) {capacity : Nat}
    (full : capacity ≤ (live now (lists k)).length) : q.enqueue capacity now k e = q := by
  rw [h.length_live] at full
  exact if_neg (Nat.not_lt.2 full)

theorem clear (h : Agree f now lists q) {k : κ} {lists' : κ → List (Entry ν)} (here : lists' k = [])
    (other : ∀ k', k' ≠ k → lists' k' = lists k') : Agree f now lists' (q.clear k) := by
  intro k'
  by_cases same : k' = k
  · subst same
    simp [here, Queues.clear, live]
  · simp only [other k' same, Queues.clear, Function.update_of_ne same, h k']

end Agree

end

end SpectreRelay.Lib
