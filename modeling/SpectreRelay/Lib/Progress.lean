import Mathlib.Algebra.Order.BigOperators.Group.List
import Mathlib.Algebra.Order.Ring.Nat
import SpectreRelay.Lib.Bag
import SpectreRelay.Lib.Runs

/-!
# Runs that end

Some steps of a machine are its own: they take no input from outside. If each of
them lowers a rank, a run of them is no longer than the rank it starts from
(`run_bounded`); if one can be taken in every state that is not done, such runs
lead to a state that is (`run_completes`).
-/

namespace SpectreRelay.Lib
set_option autoImplicit false

variable {σ α : Type} {step : σ → α → Option σ} {inner : α → Prop} {rank : σ → Nat}

theorem run_bounded (lowers : ∀ s a s', inner a → step s a = some s' → rank s' < rank s) {as : List α} {s s' : σ}
    (all : ∀ a ∈ as, inner a) (reached : run step s as = some s') : as.length + rank s' ≤ rank s := by
  induction as generalizing s with
  | nil =>
    cases reached
    simp only [List.length_nil, Nat.zero_add, Nat.le_refl]
  | cons a as ih =>
    obtain ⟨m, first, rest⟩ := run_cons.1 reached
    have lower := lowers s a m (all a List.mem_cons_self) first
    have below := ih (fun b inside => all b (List.mem_cons_of_mem _ inside)) rest
    rw [List.length_cons]
    omega

/-- From every state that keeps an invariant, some steps of the machine's own lead to a state that is done. -/
theorem run_completes {Good Done : σ → Prop} (lowers : ∀ s a s', inner a → step s a = some s' → rank s' < rank s)
    (keep : ∀ s a s', Good s → step s a = some s' → Good s')
    (progress : ∀ s, Good s → Done s ∨ ∃ a s', inner a ∧ step s a = some s') (s : σ) (good : Good s) :
    ∃ as s', (∀ a ∈ as, inner a) ∧ run step s as = some s' ∧ Done s' := by
  generalize bound : rank s = n
  induction n using Nat.strongRecOn generalizing s with
  | ind n ih =>
    rcases progress s good with done | ⟨a, m, own, first⟩
    · exact ⟨[], s, fun _ inside => absurd inside List.not_mem_nil, rfl, done⟩
    · have lower : rank m < n := bound ▸ lowers s a m own first
      obtain ⟨as, s', all, rest, done⟩ := ih (rank m) lower m (keep s a m good first) rfl
      refine ⟨a :: as, s', ?_, run_cons.2 ⟨m, first, rest⟩, done⟩
      intro b inside
      rcases List.mem_cons.1 inside with rfl | later
      · exact own
      · exact all b later

/-- The sum over a bag, the picked element apart. -/
theorem sum_pick {l rest : List α} {i : Nat} {a : α} (h : pick l i = some (a, rest)) (f : α → Nat) :
    (l.map f).sum = f a + (rest.map f).sum := by
  rw [← ((pick_perm h).map f).sum_eq, List.map_cons, List.sum_cons]

end SpectreRelay.Lib
