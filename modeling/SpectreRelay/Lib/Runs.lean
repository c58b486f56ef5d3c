import Mathlib.Data.List.Basic

/-!
# Runs of step functions

A machine is a step function that may refuse a label. `run` folds it over a
list of labels; `run_invariant` is the rule that carries a property of one step
to every run, `Always` says of a run that each of its steps met a condition in
the state it was taken from, `run_pair` carries a relation between two runs from
each step to the end, and `outputs_simulated` carries a simulation of one step
of a total machine to all outputs of a run.
-/

namespace SpectreRelay.Lib
set_option autoImplicit false

section Partial

variable {σ α : Type} (step : σ → α → Option σ)

/-- The state after the labels, when no step refuses. -/
def run : σ → List α → Option σ
  | s, [] => some s
  | s, a :: as => (step s a).bind fun s' => run s' as

/-- Each step of the run is taken in a state that meets `C` for its label. -/
def Always (C : σ → α → Prop) : σ → List α → Prop
  | _, [] => True
  | s, a :: as => C s a ∧ ∀ s', step s a = some s' → Always C s' as

instance Always.decide {C : σ → α → Prop} [∀ s a, Decidable (C s a)] (s : σ) (as : List α) :
    Decidable (Always step C s as) :=
  match as with
  | [] => .isTrue trivial
  | a :: as =>
    match next : step s a with
    | none => decidable_of_iff (C s a) ⟨fun met => ⟨met, by simp [next]⟩, And.left⟩
    | some m =>
      have : Decidable (Always step C m as) := Always.decide m as
      decidable_of_iff (C s a ∧ Always step C m as) (by simp [Always, next])

variable {step}

theorem run_cons {s s' : σ} {a : α} {as : List α} :
    run step s (a :: as) = some s' ↔ ∃ m, step s a = some m ∧ run step m as = some s' := by
  simp [run, Option.bind_eq_some_iff]

/-- A property of the first state that every step under `C` keeps holds after every run under `C`. -/
theorem run_invariant_under {C : σ → α → Prop} {P : σ → Prop}
    (keep : ∀ s a s', P s → C s a → step s a = some s' → P s') {as : List α} {s s' : σ} (init : P s)
    (under : Always step C s as) (reached : run step s as = some s') : P s' := by
  induction as generalizing s with
  | nil => cases reached; exact init
  | cons a as ih =>
    obtain ⟨m, first, rest⟩ := run_cons.1 reached
    exact ih (keep s a m init under.1 first) (under.2 m first) rest

/-- A property of the first state that every step keeps holds after every run. -/
theorem run_invariant {P : σ → Prop} (keep : ∀ s a s', P s → step s a = some s' → P s') {as : List α} {s s' : σ}
    (init : P s) (reached : run step s as = some s') : P s' := by
  induction as generalizing s with
  | nil => cases reached; exact init
  | cons a as ih =>
    obtain ⟨m, first, rest⟩ := run_cons.1 reached
    exact ih (keep s a m init first) rest

/-- A condition on labels alone holds along a run when each label meets it. -/
theorem always_of_forall {C : α → Prop} {as : List α} (all : ∀ a ∈ as, C a) (s : σ) :
    Always step (fun _ a => C a) s as := by
  induction as generalizing s with
  | nil => trivial
  | cons a as ih => exact ⟨all a (by simp), fun s' _ => ih (fun b inside => all b (by simp [inside])) s'⟩

theorem Always.and {C D : σ → α → Prop} {as : List α} {s : σ} (first : Always step C s as) (second : Always step D s as) :
    Always step (fun s a => C s a ∧ D s a) s as := by
  induction as generalizing s with
  | nil => trivial
  | cons a as ih => exact ⟨⟨first.1, second.1⟩, fun s' next => ih (first.2 s' next) (second.2 s' next)⟩

/-- What `f` says of each step of a run, in the state it is taken from. -/
def observed {ο : Type} (step : σ → α → Option σ) (f : σ → α → ο) : σ → List α → List ο
  | _, [] => []
  | s, a :: as =>
    f s a :: match step s a with
    | none => []
    | some s' => observed step f s' as

/-- **Two runs.** If labels with the same image under `L` and the same observation take related states to related
states, then so do runs with the same images and observations. -/
theorem run_pair {β ο : Type} {f : σ → α → ο} {L : α → β} {R : σ → σ → Prop}
    (keep : ∀ s t a b s', R s t → L a = L b → f s a = f t b → step s a = some s' → ∃ t', step t b = some t' ∧ R s' t')
    {as bs : List α} {s t s' : σ} (related : R s t) (labels : as.map L = bs.map L)
    (same : observed step f s as = observed step f t bs) (reached : run step s as = some s') :
    ∃ t', run step t bs = some t' ∧ R s' t' := by
  induction as generalizing bs s t with
  | nil =>
    cases bs with
    | nil => cases reached; exact ⟨t, rfl, related⟩
    | cons b bs => cases labels
  | cons a as ih =>
    cases bs with
    | nil => cases labels
    | cons b bs =>
      obtain ⟨m, first, rest⟩ := run_cons.1 reached
      obtain ⟨label, labels⟩ := List.cons.inj labels
      obtain ⟨seen, later⟩ := List.cons.inj same
      obtain ⟨n, first', next⟩ := keep s t a b m related label seen first
      simp only [first, first'] at later
      obtain ⟨t', rest', last⟩ := ih next labels later rest
      exact ⟨t', run_cons.2 ⟨n, first', rest'⟩, last⟩

end Partial

section Total

variable {σ τ α ο κ : Type}

/-- The outputs of a total machine over a list of labels. -/
def outputs (f : σ → α → σ × ο) : σ → List α → List ο
  | _, [] => []
  | s, a :: as => (f s a).2 :: outputs f (f s a).1 as

/-- The state of a total machine after a list of labels. -/
def final (f : σ → α → σ × ο) : σ → List α → σ
  | s, [] => s
  | s, a :: as => final f (f s a).1 as

/-- The labels of a run, each with its output. -/
def transcript (f : σ → α → σ × ο) : σ → List α → List (α × ο)
  | _, [] => []
  | s, a :: as => (a, (f s a).2) :: transcript f (f s a).1 as

theorem final_append (f : σ → α → σ × ο) (s : σ) (as bs : List α) :
    final f s (as ++ bs) = final f (final f s as) bs := by
  induction as generalizing s with
  | nil => rfl
  | cons a as ih => exact ih _

theorem transcript_append (f : σ → α → σ × ο) (s : σ) (as bs : List α) :
    transcript f s (as ++ bs) = transcript f s as ++ transcript f (final f s as) bs := by
  induction as generalizing s with
  | nil => rfl
  | cons a as ih => exact congrArg _ (ih _)

theorem transcript_length (f : σ → α → σ × ο) (s : σ) (as : List α) : (transcript f s as).length = as.length := by
  induction as generalizing s with
  | nil => rfl
  | cons a as ih => exact congrArg (· + 1) (ih _)

/-- **Projection.** If the states that keep an invariant step like `g` at what `view` sees of them, so do whole runs. -/
theorem final_projected {f : σ → α → σ × ο} {g : τ → α → τ × ο} {Good : σ → Prop} {view : σ → τ}
    (step : ∀ s a, Good s → Good (f s a).1 ∧ view (f s a).1 = (g (view s) a).1 ∧ (f s a).2 = (g (view s) a).2)
    (as : List α) (s : σ) (good : Good s) :
    Good (final f s as) ∧ view (final f s as) = final g (view s) as ∧ transcript f s as = transcript g (view s) as := by
  induction as generalizing s with
  | nil => exact ⟨good, rfl, rfl⟩
  | cons a as ih =>
    obtain ⟨next, seen, answer⟩ := step s a good
    obtain ⟨last, state, rest⟩ := ih _ next
    simp only [final, transcript, answer, ← seen]
    exact ⟨last, state, by rw [rest]⟩

/-- Each label is allowed at the clock that the labels before it left. -/
def Clocked (allowed : κ → α → Prop) (advance : κ → α → κ) : κ → List α → Prop
  | _, [] => True
  | k, a :: as => allowed k a ∧ Clocked allowed advance (advance k a) as

/-- A condition on every label can be asked for along with the clock. -/
theorem Clocked.and {allowed : κ → α → Prop} {advance : κ → α → κ} {C : α → Prop} {as : List α} {k : κ}
    (h : Clocked allowed advance k as) (all : ∀ a ∈ as, C a) : Clocked (fun k a => allowed k a ∧ C a) advance k as := by
  induction as generalizing k with
  | nil => trivial
  | cons a as ih => exact ⟨⟨h.1, all a (by simp)⟩, ih h.2 fun b inside => all b (by simp [inside])⟩

/-- **Simulation.** If one step of `f` and `g` from related states gives the same output and related
states, at every clock that allows the label, then so does every run. -/
theorem outputs_simulated {f : σ → α → σ × ο} {g : τ → α → τ × ο} {R : κ → σ → τ → Prop}
    {allowed : κ → α → Prop} {advance : κ → α → κ}
    (step : ∀ k s t a, R k s t → allowed k a → (f s a).2 = (g t a).2 ∧ R (advance k a) (f s a).1 (g t a).1)
    (as : List α) (k : κ) (s : σ) (t : τ) (related : R k s t) (clocked : Clocked allowed advance k as) :
    outputs f s as = outputs g t as ∧ ∃ k', R k' (final f s as) (final g t as) := by
  induction as generalizing k s t with
  | nil => exact ⟨rfl, k, related⟩
  | cons a as ih =>
    obtain ⟨same, next⟩ := step k s t a related clocked.1
    obtain ⟨rest, k', last⟩ := ih _ _ _ next clocked.2
    exact ⟨by simp only [outputs, same, rest], k', last⟩

end Total

end SpectreRelay.Lib
