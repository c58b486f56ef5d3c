import Mathlib.Data.List.Basic

/-!
# Positions handed out in order

Positions are handed out in order and some may be lost. Each entry of a record
holds a position and the number of losses counted by then. A record is `Serial`
when its positions go up and, from one entry to the next, no more positions are
missing than losses were counted.
-/

namespace SpectreRelay.Lib
set_option autoImplicit false

/-- A position and the losses counted when it was handed out. -/
structure Taken where
  position : Nat
  losses : Nat
deriving DecidableEq

/-- Where a record stands: the position that follows the last one, and the losses counted by then. -/
structure Mark where
  next : Nat
  losses : Nat

def Taken.mark (v : Taken) : Mark := ⟨v.position + 1, v.losses⟩

/-- The position can follow: it is not behind, and each skipped position is paid for by a loss. -/
structure Mark.Allows (m : Mark) (v : Taken) : Prop where
  forward : m.next ≤ v.position
  later : m.losses ≤ v.losses
  skips : v.position - m.next ≤ v.losses - m.losses

/-- Each entry can follow the one before it. -/
def Serial : Mark → List Taken → Prop
  | _, [] => True
  | m, v :: vs => m.Allows v ∧ Serial v.mark vs

/-- Where the record stands after its last entry. -/
def standing : Mark → List Taken → Mark
  | m, [] => m
  | _, v :: vs => standing v.mark vs

namespace Mark.Allows

variable {m : Mark} {n losses : Nat}

theorem here (m : Mark) : m.Allows ⟨m.next, m.losses⟩ := ⟨Nat.le_refl _, Nat.le_refl _, by simp⟩

/-- A loss allows the same position. -/
theorem wait (h : m.Allows ⟨n, losses⟩) : m.Allows ⟨n, losses + 1⟩ := by
  obtain ⟨forward, later, skips⟩ := h
  exact ⟨forward, by simp only at *; omega, by simp only at *; omega⟩

/-- A loss allows the position after. -/
theorem skip (h : m.Allows ⟨n, losses⟩) : m.Allows ⟨n + 1, losses + 1⟩ := by
  obtain ⟨forward, later, skips⟩ := h
  exact ⟨by simp only at *; omega, by simp only at *; omega, by simp only at *; omega⟩

end Mark.Allows

theorem standing_append (m : Mark) (vs : List Taken) (v : Taken) : standing m (vs ++ [v]) = v.mark := by
  induction vs generalizing m with
  | nil => rfl
  | cons w vs ih => exact ih w.mark

/-- A record grows by an entry that can follow its last one. -/
theorem Serial.append {m : Mark} {vs : List Taken} {v : Taken} (h : Serial m vs) (next : (standing m vs).Allows v) :
    Serial m (vs ++ [v]) := by
  induction vs generalizing m with
  | nil => exact ⟨next, trivial⟩
  | cons w vs ih => exact ⟨h.1, ih h.2 next⟩

theorem Serial.forward {m : Mark} {vs : List Taken} (h : Serial m vs) : ∀ v ∈ vs, m.next ≤ v.position := by
  induction vs generalizing m with
  | nil => nofun
  | cons w vs ih =>
    intro v inside
    rcases List.mem_cons.1 inside with rfl | later
    · exact h.1.forward
    · have beyond : w.position + 1 ≤ v.position := ih h.2 v later
      have first := h.1.forward
      omega

/-- No position of a serial record comes twice. -/
theorem Serial.increasing {m : Mark} {vs : List Taken} (h : Serial m vs) :
    (vs.map Taken.position).Pairwise (· < ·) := by
  induction vs generalizing m with
  | nil => exact .nil
  | cons w vs ih =>
    refine .cons ?_ (ih h.2)
    intro n inside
    obtain ⟨v, listed, rfl⟩ := List.mem_map.1 inside
    exact h.2.forward v listed

end SpectreRelay.Lib
