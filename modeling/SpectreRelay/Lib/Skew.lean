import SpectreRelay.Lib.Window

/-!
# Sliding windows with late calls

A call may read the clock and be counted some time later, after calls that read
later times. Such a call may count against a list from which entries of its own
window are already gone, so a window of the full width can hold more than
`limit` admitted calls. If no call is counted more than `delay` after its
reading, windows that are shorter by `delay` cannot (`SkewInv.bound`).
-/

namespace SpectreRelay.Lib
set_option autoImplicit false

variable {τ : Type} [AddCommGroup τ] [LinearOrder τ]

/-- What the stored times say about the readings of admitted calls, when the last call was counted at `clock`. -/
structure SkewInv (limit : Int) (w delay clock : τ) (times history : List τ) : Prop where
  stored : recent w clock times = history.filter fun t => clock - w < t
  bound : ∀ now, ((history.filter fun t => now - (w - delay) < t ∧ t ≤ now).length : Int) ≤ max limit 0

theorem SkewInv.init (limit : Int) (w delay clock : τ) : SkewInv limit w delay clock [] [] where
  stored := rfl
  bound := by simp

variable [IsOrderedAddMonoid τ] {limit : Int} {w delay clock clock' now : τ} {times history : List τ}

theorem SkewInv.later (h : SkewInv limit w delay clock times history) (later : clock ≤ clock') :
    SkewInv limit w delay clock' times history where
  stored := by
    rw [← recent_recent later, h.stored]
    exact recent_recent later history
  bound := h.bound

/-- What shorter windows around a call hold besides it, the call sees when it is counted. -/
theorem SkewInv.seen (h : SkewInv limit w delay clock times history) (read : now ≤ clock) (prompt : clock ≤ now + delay)
    {n : τ} (inside : now ≤ n) :
    (history.filter fun t => n - (w - delay) < t ∧ t ≤ n).length ≤ (recent w now times).length := by
  have wide : (history.filter fun t => n - (w - delay) < t ∧ t ≤ n).Sublist (history.filter fun t => clock - w < t) := by
    apply List.monotone_filter_right
    intro t short
    have start : n - (w - delay) < t := (of_decide_eq_true short).1
    have late : clock - w ≤ n - (w - delay) := by
      rw [sub_sub_eq_add_sub]
      exact sub_le_sub_right (prompt.trans (add_le_add_left inside delay)) w
    exact decide_eq_true (late.trans_lt start)
  calc (history.filter fun t => n - (w - delay) < t ∧ t ≤ n).length
      ≤ (history.filter fun t => clock - w < t).length := wide.length_le
    _ = (recent w clock times).length := by rw [h.stored]
    _ = (recent w clock (recent w now times)).length := by rw [recent_recent read]
    _ ≤ (recent w now times).length := List.length_filter_le _ _

/-- **A late call.** It has read `now` and is counted at `clock`, at most `delay` after. -/
theorem SkewInv.allowIn (h : SkewInv limit w delay clock times history) (read : now ≤ clock)
    (prompt : clock ≤ now + delay) :
    SkewInv limit w delay clock (Lib.allowIn limit w now times).1 (extend history now (Lib.allowIn limit w now times).2) := by
  have kept : recent w clock (recent w now times) = history.filter fun t => clock - w < t := by
    rw [recent_recent read, h.stored]
  by_cases full : limit ≤ (recent w now times).length
  · have answer : Lib.allowIn limit w now times = (recent w now times, false) := if_pos full
    rw [answer]
    exact ⟨kept, h.bound⟩
  · have answer : Lib.allowIn limit w now times = (recent w now times ++ [now], true) := if_neg full
    rw [answer]
    simp only [extend, if_true]
    constructor
    · simp only [recent, List.filter_append] at kept ⊢
      rw [kept]
    · intro n
      rw [List.filter_append]
      by_cases inside : n - (w - delay) < now ∧ now ≤ n
      · have seen := h.seen read prompt inside.2
        simp only [List.length_append, List.filter_cons, inside, and_self, decide_true, if_true, List.filter_nil,
          List.length_singleton]
        omega
      · have none : [now].filter (fun t => n - (w - delay) < t ∧ t ≤ n) = [] := by simp [inside]
        rw [none, List.append_nil]
        exact h.bound n

end SpectreRelay.Lib
