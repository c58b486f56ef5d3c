import SpectreRelay.Lib.Runs

/-!
# Noninterference by unwinding

An observer of a machine makes some of its steps, the visible ones, and sees what
these give. `Unwinds` is what has to be shown of single steps: a hidden step does
not move a state out of the relation, a visible one gives the same from related
states and leaves related states. Then two runs with the same visible steps, and
any hidden ones between them, look the same to the observer
(`Unwinds.sights_eq`).
-/

namespace SpectreRelay.Lib
set_option autoImplicit false

variable {σ α ο : Type}

/-- What the visible steps of a run give. -/
def sights (step : σ → α → Option σ) (visible : α → Bool) (out : σ → α → ο) : σ → List α → List ο
  | _, [] => []
  | s, a :: as =>
    match step s a with
    | none => []
    | some s' => if visible a then out s a :: sights step visible out s' as else sights step visible out s' as

/-- The relation is kept by the steps that `C` allows, one hidden step at a time or two visible ones. -/
structure Unwinds (step : σ → α → Option σ) (visible : α → Bool) (out : σ → α → ο) (C : α → Prop) (R : σ → σ → Prop) :
    Prop where
  symm : ∀ {s t}, R s t → R t s
  hidden : ∀ {s t a s'}, R s t → C a → visible a = false → step s a = some s' → R s' t
  output : ∀ {s t a s' t'}, R s t → C a → visible a = true → step s a = some s' → step t a = some t' → out s a = out t a
  keep : ∀ {s t a s' t'}, R s t → C a → visible a = true → step s a = some s' → step t a = some t' → R s' t'

namespace Unwinds

variable {step : σ → α → Option σ} {visible : α → Bool} {out : σ → α → ο} {C : α → Prop} {R : σ → σ → Prop}

theorem sights_hidden {s s' : σ} {a : α} {as : List α} (next : step s a = some s') (hidden : visible a = false) :
    sights step visible out s (a :: as) = sights step visible out s' as := by
  simp only [sights, next, hidden, Bool.false_eq_true, if_false]

theorem sights_visible {s s' : σ} {a : α} {as : List α} (next : step s a = some s') (seen : visible a = true) :
    sights step visible out s (a :: as) = out s a :: sights step visible out s' as := by
  simp only [sights, next, seen, if_true]

theorem sights_nil {s s' : σ} {as : List α} (reached : run step s as = some s') (none : as.filter visible = []) :
    sights step visible out s as = [] := by
  induction as generalizing s with
  | nil => rfl
  | cons a as ih =>
    obtain ⟨m, next, rest⟩ := run_cons.1 reached
    have hidden : visible a = false := by
      have out := List.filter_eq_nil_iff.1 none a List.mem_cons_self
      simpa using out
    rw [sights_hidden next hidden]
    refine ih rest ?_
    rwa [List.filter_cons_of_neg (by simp [hidden])] at none

/-- **Noninterference.** Two runs from related states with the same visible steps give the observer the same. -/
theorem sights_eq (h : Unwinds step visible out C R) {as bs : List α} {s t s' t' : σ} (related : R s t)
    (first : ∀ a ∈ as, C a) (second : ∀ b ∈ bs, C b) (reached : run step s as = some s')
    (reached' : run step t bs = some t') (same : as.filter visible = bs.filter visible) :
    sights step visible out s as = sights step visible out t bs := by
  induction as generalizing s t bs with
  | nil => exact (sights_nil reached' same.symm).symm
  | cons a as ih =>
    obtain ⟨m, next, rest⟩ := run_cons.1 reached
    have allowed := first a List.mem_cons_self
    have others : ∀ a ∈ as, C a := fun a inside => first a (List.mem_cons_of_mem _ inside)
    cases seen : visible a with
    | false =>
      rw [sights_hidden next seen]
      refine ih (h.hidden related allowed seen next) others second rest reached' ?_
      rwa [List.filter_cons_of_neg (by simp [seen])] at same
    | true =>
      rw [List.filter_cons_of_pos seen] at same
      -- the other run reaches the same step after some hidden ones
      induction bs generalizing t with
      | nil => cases same
      | cons b bs inner =>
        obtain ⟨n, next', rest'⟩ := run_cons.1 reached'
        have allowed' := second b List.mem_cons_self
        have others' : ∀ b ∈ bs, C b := fun b inside => second b (List.mem_cons_of_mem _ inside)
        cases seen' : visible b with
        | false =>
          rw [sights_hidden next' seen']
          refine inner (h.symm (h.hidden (h.symm related) allowed' seen' next')) others' rest' ?_
          rwa [List.filter_cons_of_neg (by simp [seen'])] at same
        | true =>
          rw [List.filter_cons_of_pos seen'] at same
          obtain ⟨rfl, later⟩ := List.cons.inj same
          rw [sights_visible next seen, sights_visible next' seen', h.output related allowed seen next next']
          rw [ih (h.keep related allowed seen next next') others others' rest rest' later]

end Unwinds

end SpectreRelay.Lib
