import SpectreRelay.Lib.Runs

/-!
# One step, many steps

A machine with large steps over a machine with small ones: if each large step
is a run of small steps that ends in a related state and has the same output,
then so is every run (`run_simulated`). The relation may speak of the labels
that are still to come.
-/

namespace SpectreRelay.Lib
set_option autoImplicit false

variable {σ τ α β ο ω : Type} {f : σ → α → Option σ} {g : τ → β → Option τ}

theorem run_append (t : τ) (bs cs : List β) : run g t (bs ++ cs) = (run g t bs).bind fun m => run g m cs := by
  induction bs generalizing t with
  | nil => rfl
  | cons b bs ih =>
    simp only [List.cons_append, run, ih, Option.bind_assoc]

/-- Two runs in sequence. -/
theorem run_trans {t m t' : τ} {bs cs : List β} (first : run g t bs = some m) (second : run g m cs = some t') :
    run g t (bs ++ cs) = some t' := by
  rw [run_append, first, Option.bind_some, second]

/-- Steps that are also steps of another machine, under its labels. -/
theorem run_map {γ : Type} {k : τ → γ → Option τ} {h : β → γ} (same : ∀ t b, k t (h b) = g t b) (t : τ) (bs : List β) :
    run k t (bs.map h) = run g t bs := by
  induction bs generalizing t with
  | nil => rfl
  | cons b bs ih => simp only [List.map_cons, run, same, ih]

/-- **Forward simulation.** `R` relates states before the labels that are left. -/
theorem run_simulated {R : List α → σ → τ → Prop} {obs : σ → α → ο} {out : τ → ω} {add : ω → ο → ω}
    (step : ∀ a as s t s', R (a :: as) s t → f s a = some s' →
      ∃ bs t', run g t bs = some t' ∧ R as s' t' ∧ out t' = add (out t) (obs s a))
    {as : List α} {s s' : σ} {t : τ} (related : R as s t) (reached : run f s as = some s') :
    ∃ bs t', run g t bs = some t' ∧ R [] s' t' ∧ out t' = (observed f obs s as).foldl add (out t) := by
  induction as generalizing s t with
  | nil =>
    cases reached
    exact ⟨[], t, rfl, related, rfl⟩
  | cons a as ih =>
    obtain ⟨m, first, rest⟩ := run_cons.1 reached
    obtain ⟨bs, n, small, next, output⟩ := step a as s t m related first
    obtain ⟨cs, t', later, last, outputs⟩ := ih next rest
    refine ⟨bs ++ cs, t', run_trans small later, last, ?_⟩
    rw [outputs, output]
    simp only [observed, first, List.foldl_cons]

end SpectreRelay.Lib
