import Mathlib.Algebra.Order.Group.Defs
import Mathlib.Algebra.Order.Sub.Basic
import Mathlib.Data.List.Basic

/-!
# Sliding windows

A limiter keeps the times of the calls it admitted, forgets those that have
left the window of width `w`, and admits a call when fewer than `limit` are
left. Forgetting is harmless: with a clock that does not go back, the stored
times and the whole history agree on every window still to come
(`WindowInv.stored`), so no window of the history holds more than `limit`
admitted calls (`WindowInv.bound`).
-/

namespace SpectreRelay.Lib
set_option autoImplicit false

variable {τ : Type} [AddCommGroup τ] [LinearOrder τ]

/-- The times that are still inside the window at `now`. -/
def recent (w now : τ) (times : List τ) : List τ := times.filter fun t => now - w < t

/-- One call: the times stored afterwards, and whether the call is admitted. -/
def allowIn (limit : Int) (w now : τ) (times : List τ) : List τ × Bool :=
  if limit ≤ (recent w now times).length then (recent w now times, false)
  else (recent w now times ++ [now], true)

/-- The history after a call at `now` with the given answer. -/
def extend (history : List τ) (now : τ) (admitted : Bool) : List τ := if admitted then history ++ [now] else history

/-- What the stored times say about the history of admitted calls, up to the time `last`. -/
structure WindowInv (limit : Int) (w last : τ) (times history : List τ) : Prop where
  past : ∀ t ∈ history, t ≤ last
  stored : ∀ now, last ≤ now → recent w now times = history.filter fun t => now - w < t
  bound : ∀ now, ((history.filter fun t => now - w < t ∧ t ≤ now).length : Int) ≤ max limit 0

theorem WindowInv.init (limit : Int) (w last : τ) : WindowInv limit w last [] [] where
  past := by simp
  stored := by simp [recent]
  bound := by simp

theorem WindowInv.later {limit : Int} {w last last' : τ} {times history : List τ}
    (h : WindowInv limit w last times history) (later : last ≤ last') : WindowInv limit w last' times history where
  past t inside := (h.past t inside).trans later
  stored now after := h.stored now (later.trans after)
  bound := h.bound

theorem WindowInv.kept_length {limit : Int} {w last now : τ} {times history : List τ}
    (h : WindowInv limit w last times history) (later : last ≤ now) :
    (recent w now times).length = (history.filter fun t => now - w < t ∧ t ≤ now).length := by
  rw [h.stored now later]
  congr 1
  apply List.filter_congr
  intro t inside
  simp [(h.past t inside).trans later]

/-- **Exactness.** A call is admitted exactly when fewer than `limit` admitted calls are in its window. -/
theorem WindowInv.allowIn_iff {limit : Int} {w last now : τ} {times history : List τ}
    (h : WindowInv limit w last times history) (later : last ≤ now) :
    (allowIn limit w now times).2 = true ↔ ((history.filter fun t => now - w < t ∧ t ≤ now).length : Int) < limit := by
  rw [← h.kept_length later]
  unfold allowIn
  split
  · rename_i full
    simp only [Bool.false_eq_true, false_iff, not_lt]
    exact full
  · rename_i room
    simpa using room

/-- A call sees of the stored times only those inside its window. -/
theorem allowIn_congr {limit : Int} {w now : τ} {times times' : List τ} (same : recent w now times = recent w now times') :
    allowIn limit w now times = allowIn limit w now times' := by
  unfold allowIn
  rw [same]

/-- A limit that is not negative bounds the stored times, whatever the clock does. -/
theorem allowIn_length {limit : Int} {w now : τ} {times : List τ} (short : (times.length : Int) ≤ limit) :
    ((allowIn limit w now times).1.length : Int) ≤ limit := by
  have pruned : (recent w now times).length ≤ times.length := List.length_filter_le _ _
  unfold allowIn
  split
  · show ((recent w now times).length : Int) ≤ limit
    omega
  · show ((recent w now times ++ [now]).length : Int) ≤ limit
    simp only [List.length_append, List.length_singleton]
    omega

/-- A refused call leaves what is inside its window. -/
theorem allowIn_refused {limit : Int} {w now : τ} {times : List τ} (refused : (allowIn limit w now times).2 = false) :
    (allowIn limit w now times).1 = recent w now times := by
  unfold allowIn at refused ⊢
  split
  · rfl
  · rename_i room
    rw [if_neg room] at refused
    cases refused

variable [IsOrderedAddMonoid τ]

/-- Dropping what has left the window at `now` does not change any later window. -/
theorem recent_recent {w now now' : τ} (later : now ≤ now') (times : List τ) :
    recent w now' (recent w now times) = recent w now' times := by
  simp only [recent, List.filter_filter]
  apply List.filter_congr
  intro t _
  have wider : now' - w < t → now - w < t := lt_of_le_of_lt (sub_le_sub_right later w)
  by_cases inside : now' - w < t
  · simp [inside, wider inside]
  · simp [inside]

theorem WindowInv.allowIn {limit : Int} {w last now : τ} {times history : List τ}
    (h : WindowInv limit w last times history) (later : last ≤ now) :
    WindowInv limit w now (Lib.allowIn limit w now times).1 (extend history now (Lib.allowIn limit w now times).2) := by
  have exact' := h.allowIn_iff later
  have kept : ∀ n, now ≤ n → recent w n (recent w now times) = history.filter fun t => n - w < t := by
    intro n after
    rw [recent_recent after, h.stored n (later.trans after)]
  by_cases full : limit ≤ (recent w now times).length
  · have answer : Lib.allowIn limit w now times = (recent w now times, false) := if_pos full
    rw [answer]
    exact ⟨(h.later later).past, kept, h.bound⟩
  · have answer : Lib.allowIn limit w now times = (recent w now times ++ [now], true) := if_neg full
    rw [answer] at exact' ⊢
    have room := exact'.1 rfl
    simp only [extend, if_true]
    refine ⟨?_, ?_, ?_⟩
    · intro t inside
      rcases List.mem_append.1 inside with old | new
      · exact (h.later later).past t old
      · exact (List.mem_singleton.1 new).le
    · intro n after
      have split := kept n after
      simp only [recent, List.filter_append] at split ⊢
      rw [split]
    · intro n
      rw [List.filter_append]
      by_cases inside : n - w < now ∧ now ≤ n
      · -- what the window at `n` holds besides `now` was in the window at `now`
        have sub : (history.filter fun t => n - w < t ∧ t ≤ n).length ≤
            (history.filter fun t => now - w < t ∧ t ≤ now).length := by
          apply List.Sublist.length_le
          have same : (history.filter fun t => n - w < t ∧ t ≤ n) =
              (history.filter fun t => now - w < t ∧ t ≤ now).filter fun t => n - w < t ∧ t ≤ n := by
            rw [List.filter_filter]
            apply List.filter_congr
            intro t old
            have before := (h.past t old).trans later
            by_cases out : n - w < t
            · simp [out, before, before.trans inside.2, lt_of_le_of_lt (sub_le_sub_right inside.2 w) out]
            · simp [out]
          rw [same]
          exact List.filter_sublist
        simp only [List.length_append, List.filter_cons, inside, and_self, decide_true, if_true, List.filter_nil,
          List.length_singleton]
        omega
      · have none : [now].filter (fun t => n - w < t ∧ t ≤ n) = [] := by simp [inside]
        rw [none, List.append_nil]
        exact h.bound n

end SpectreRelay.Lib
