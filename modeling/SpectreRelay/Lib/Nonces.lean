import Mathlib.Data.List.Nodup
import Mathlib.Data.List.Perm.Subperm

/-!
# Challenges and the entries that answer them

A verifier draws a nonce for every challenge, and others write entries about
nonces into a log. When each nonce is new, and no entry was about it before it
was drawn, then every entry about the nonce of a challenge is younger than the
challenge (`Fresh`), and challenges that were answered have answers of their own
(`answers_apart`).
-/

namespace SpectreRelay.Lib
set_option autoImplicit false

variable {ν ε τ α : Type} [LE τ]

/-- The challenges, each with the time at which its nonce was drawn, against the nonces drawn so far and the log. -/
structure Fresh (about : ε → ν → Prop) (time : ε → τ) (log : List ε) (drawn : List ν) (asked : List (ν × τ)) : Prop where
  distinct : (asked.map Prod.fst).Nodup
  drawn : ∀ a ∈ asked, a.1 ∈ drawn
  younger : ∀ a ∈ asked, ∀ e ∈ log, about e a.1 → a.2 ≤ time e

namespace Fresh

variable {about : ε → ν → Prop} {time : ε → τ} {log : List ε} {drawn : List ν} {asked asked' : List (ν × τ)}

theorem init (about : ε → ν → Prop) (time : ε → τ) : Fresh about time [] [] [] := by
  constructor
  · exact List.nodup_nil
  · intro a inside
    cases inside
  · intro a inside
    cases inside

/-- Challenges in another order, or fewer of them. -/
theorem fewer (h : Fresh about time log drawn asked) (less : asked'.Subperm asked) : Fresh about time log drawn asked' where
  distinct := by
    obtain ⟨part, same, inside⟩ := less
    exact (same.map Prod.fst).nodup_iff.1 (h.distinct.sublist (inside.map Prod.fst))
  drawn a inside := h.drawn a (less.subset inside)
  younger a inside := h.younger a (less.subset inside)

/-- A nonce that is drawn and not sent. -/
theorem waste (h : Fresh about time log drawn asked) (nonce : ν) : Fresh about time log (nonce :: drawn) asked where
  distinct := h.distinct
  drawn a inside := List.mem_cons_of_mem _ (h.drawn a inside)
  younger := h.younger

/-- A challenge with a new nonce that no entry is about. -/
theorem draw (h : Fresh about time log drawn asked) {nonce : ν} (new : nonce ∉ drawn)
    (unsaid : ∀ e ∈ log, ¬ about e nonce) (now : τ) : Fresh about time log (nonce :: drawn) ((nonce, now) :: asked) where
  distinct := by
    refine List.nodup_cons.2 ⟨fun inside => new ?_, h.distinct⟩
    obtain ⟨a, old, rfl⟩ := List.mem_map.1 inside
    exact h.drawn a old
  drawn a inside := by
    rcases List.mem_cons.1 inside with rfl | old
    · exact List.mem_cons_self
    · exact List.mem_cons_of_mem _ (h.drawn a old)
  younger a inside e said touches := by
    rcases List.mem_cons.1 inside with rfl | old
    · exact absurd touches (unsaid e said)
    · exact h.younger a old e said touches

/-- An entry that is no older than any challenge. -/
theorem write (h : Fresh about time log drawn asked) {e : ε} (now : ∀ a ∈ asked, a.2 ≤ time e) :
    Fresh about time (log ++ [e]) drawn asked where
  distinct := h.distinct
  drawn := h.drawn
  younger a inside e' said touches := by
    rcases List.mem_append.1 said with old | new
    · exact h.younger a inside e' old touches
    · cases List.mem_singleton.1 new
      exact now a inside

end Fresh

/-- **Answers of their own.** If every element with `Q` has an entry in relation to it, and entries related to two
elements tell that these have the same nonce, then elements with different nonces have different entries. -/
theorem answers_apart {log : List ε} {l : List α} {Q : α → Prop} (nonce : α → ν) (R : ε → α → Prop)
    (distinct : (l.map nonce).Nodup) (one : ∀ e a b, R e a → R e b → nonce a = nonce b)
    (answered : ∀ a ∈ l, Q a → ∃ e ∈ log, R e a) :
    ∃ event : Nat → Nat, (∀ i a, l[i]? = some a → Q a → ∃ e, log[event i]? = some e ∧ R e a) ∧
      ∀ i j a b, l[i]? = some a → l[j]? = some b → Q a → Q b → event i = event j → i = j := by
  have each : ∀ i : Nat, ∃ k : Nat, ∀ a, l[i]? = some a → Q a → ∃ e, log[k]? = some e ∧ R e a := by
    intro i
    cases found : l[i]? with
    | none => exact ⟨0, nofun⟩
    | some a =>
      by_cases asks : Q a
      · obtain ⟨e, said, answers⟩ := answered a (List.mem_of_getElem? found) asks
        obtain ⟨k, at_k⟩ := List.mem_iff_getElem?.1 said
        refine ⟨k, fun b same _ => ?_⟩
        cases same
        exact ⟨e, at_k, answers⟩
      · refine ⟨0, fun b same wants => ?_⟩
        cases same
        exact absurd wants asks
  obtain ⟨event, chosen⟩ := Classical.axiomOfChoice each
  refine ⟨event, chosen, fun i j a b at_i at_j asks asks' same => ?_⟩
  obtain ⟨e, here, answers⟩ := chosen i a at_i asks
  obtain ⟨e', here', answers'⟩ := chosen j b at_j asks'
  obtain rfl : e = e' := by
    rw [same, here'] at here
    exact (Option.some.inj here).symm
  have nonces : (l.map nonce)[i]? = (l.map nonce)[j]? := by
    rw [List.getElem?_map, List.getElem?_map, at_i, at_j, Option.map_some, Option.map_some, one e a b answers answers']
  have bound : i < (l.map nonce).length := by
    rw [List.length_map]
    exact (List.getElem?_eq_some_iff.1 at_i).1
  exact (List.getElem?_inj bound distinct).1 nonces

end SpectreRelay.Lib
