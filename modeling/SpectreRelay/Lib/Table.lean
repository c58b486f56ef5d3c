import Mathlib.Algebra.BigOperators.Group.Finset.Piecewise
import Mathlib.Data.List.Basic

/-!
# Tables with an automatic row number

A table keeps its rows in the order of their numbers, and a number is never
used again: `next` only grows. Both facts are fields of the table, so every
table that can be built has them. Rows are grouped by a key; `group_insert` and
`group_delete` say what an operation does to each group, and `count_eq_sum`
splits a count over the groups.
-/

namespace SpectreRelay.Lib
set_option autoImplicit false

/-- Rows in the order of their numbers, all below the next number. -/
structure Table (ρ : Type) where
  rows : List (Nat × ρ)
  next : Nat
  sorted : rows.Pairwise fun a b => a.1 < b.1
  below : ∀ r ∈ rows, r.1 < next

namespace Table

variable {ρ κ : Type}

instance [DecidableEq ρ] : DecidableEq (Table ρ) := fun a b =>
  decidable_of_iff (a.rows = b.rows ∧ a.next = b.next) (by cases a; cases b; simp)

@[ext] theorem ext {a b : Table ρ} (rows : a.rows = b.rows) (next : a.next = b.next) : a = b := by
  cases a; cases b; simp_all

def empty : Table ρ := ⟨[], 1, .nil, by simp⟩

/-- A new last row, under the next number. -/
def insert (t : Table ρ) (v : ρ) : Table ρ where
  rows := t.rows ++ [(t.next, v)]
  next := t.next + 1
  sorted := by
    refine List.pairwise_append.2 ⟨t.sorted, List.pairwise_singleton _ _, ?_⟩
    intro a old b new
    rw [List.mem_singleton.1 new]
    exact t.below a old
  below := by
    intro r inside
    rcases List.mem_append.1 inside with old | new
    · exact Nat.lt_succ_of_lt (t.below r old)
    · rw [List.mem_singleton.1 new]
      exact Nat.lt_succ_self _

/-- Drops the rows that meet `p`. -/
def delete (t : Table ρ) (p : ρ → Bool) : Table ρ where
  rows := t.rows.filter fun r => !p r.2
  next := t.next
  sorted := t.sorted.filter _
  below r inside := t.below r (List.mem_filter.1 inside).1

/-- The rows that meet `p`, in the order of their numbers. -/
def select (t : Table ρ) (p : ρ → Bool) : List (Nat × ρ) := t.rows.filter fun r => p r.2

/-- How many rows meet `p`. -/
def count (t : Table ρ) (p : ρ → Bool) : Nat := (t.select p).length

/-- A number stands at one place of a selection. -/
theorem select_unique {t : Table ρ} {p : ρ → Bool} {i j n : Nat} {a b : ρ} (first : (t.select p)[i]? = some (n, a))
    (second : (t.select p)[j]? = some (n, b)) : i = j := by
  have sorted : (t.select p).Pairwise fun a b => a.1 < b.1 := t.sorted.filter _
  obtain ⟨inside, here⟩ := List.getElem?_eq_some_iff.1 first
  obtain ⟨inside', there⟩ := List.getElem?_eq_some_iff.1 second
  have earlier := List.pairwise_iff_getElem.1 sorted
  rcases Nat.lt_trichotomy i j with before | same | after
  · have less := earlier i j inside inside' before
    rw [here, there] at less
    exact absurd less (Nat.lt_irrefl n)
  · exact same
  · have less := earlier j i inside' inside after
    rw [here, there] at less
    exact absurd less (Nat.lt_irrefl n)

/-- A new row is counted when it meets the predicate. -/
theorem count_insert {t : Table ρ} {p : ρ → Bool} {v : ρ} (meets : p v = true) : (t.insert v).count p = t.count p + 1 := by
  simp [count, select, insert, meets]

theorem insert_injective (t : Table ρ) : Function.Injective t.insert := by
  intro v w same
  have rows : t.rows ++ [(t.next, v)] = t.rows ++ [(t.next, w)] := congrArg Table.rows same
  obtain ⟨-, last⟩ := Prod.mk.inj (List.singleton_inj.1 (List.append_cancel_left rows))
  exact last

/-! ## Rows by key -/

section Groups

variable [DecidableEq κ] (key : ρ → κ)

/-- The rows of one key, in order. -/
def group (t : Table ρ) (k : κ) : List ρ := (t.select fun r => key r = k).map Prod.snd

variable {key}

theorem group_insert (t : Table ρ) (v : ρ) (k : κ) :
    (t.insert v).group key k = if key v = k then t.group key k ++ [v] else t.group key k := by
  unfold group select insert
  split
  · rename_i same
    simp [List.filter_append, same]
  · rename_i other
    simp [List.filter_append, other]

theorem group_delete (t : Table ρ) (p : ρ → Bool) (k : κ) :
    (t.delete p).group key k = (t.group key k).filter fun r => !p r := by
  simp only [group, select, delete, List.filter_filter, List.filter_map]
  congr 1
  apply List.filter_congr
  intro r _
  exact Bool.and_comm _ _

theorem key_of_mem_group {t : Table ρ} {k : κ} {r : ρ} (inside : r ∈ t.group key k) : key r = k := by
  simp only [group, select, List.mem_map, List.mem_filter, decide_eq_true_eq] at inside
  obtain ⟨row, ⟨_, same⟩, rfl⟩ := inside
  exact same

/-- Dropping the rows of a key empties its group. -/
theorem group_delete_self (t : Table ρ) (k : κ) : (t.delete fun r => key r = k).group key k = [] := by
  rw [group_delete, List.filter_eq_nil_iff]
  intro r inside
  simp [key_of_mem_group inside]

/-- Dropping the rows of a key leaves the other groups alone. -/
theorem group_delete_other (t : Table ρ) {k k' : κ} (other : k' ≠ k) :
    (t.delete fun r => key r = k).group key k' = t.group key k' := by
  rw [group_delete, List.filter_eq_self]
  intro r inside
  simp [key_of_mem_group inside, other]

theorem count_key (t : Table ρ) (k : κ) : (t.count fun r => key r = k) = (t.group key k).length := by
  simp [count, group]

/-- A count over all rows is the sum of the counts over the groups. -/
theorem count_eq_sum (t : Table ρ) (p : ρ → Bool) (keys : Finset κ) (cover : ∀ k ∉ keys, t.group key k = []) :
    t.count p = ∑ k ∈ keys, ((t.group key k).filter p).length := by
  have inside : ∀ r ∈ t.rows, key r.2 ∈ keys := by
    intro r row
    by_contra outside
    have none := cover _ outside
    simp only [group, select, List.map_eq_nil_iff, List.filter_eq_nil_iff, decide_eq_true_eq] at none
    exact none r row rfl
  simp only [count, group, select, List.filter_map, List.length_map, List.filter_filter]
  generalize t.rows = rows at inside
  induction rows with
  | nil => simp
  | cons r rows ih =>
    have rest := ih fun r' row => inside r' (List.mem_cons_of_mem _ row)
    have here := inside r List.mem_cons_self
    -- the first row counts in the group of its own key and in no other
    have split : ∀ k, (((r :: rows).filter fun a => (p ∘ Prod.snd) a && decide (key a.2 = k)).length : Nat) =
        (if k = key r.2 then (if p r.2 then 1 else 0) else 0) +
          (rows.filter fun a => (p ∘ Prod.snd) a && decide (key a.2 = k)).length := by
      intro k
      by_cases same : key r.2 = k
      · subst same
        by_cases hit : p r.2 = true
        · simp [hit, Nat.add_comm]
        · simp [hit]
      · have other : ¬ k = key r.2 := fun e => same e.symm
        simp [same, other]
    rw [Finset.sum_congr rfl fun k _ => split k, Finset.sum_add_distrib, ← rest, Finset.sum_ite_eq', if_pos here]
    by_cases hit : p r.2 = true
    · simp [hit, Nat.add_comm]
    · simp [hit]

end Groups

end Table

end SpectreRelay.Lib
