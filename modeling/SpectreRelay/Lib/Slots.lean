import Mathlib.Data.List.Nodup

/-!
# Slots that are bound and freed

A slot holds one value at a time. Binding a slot replaces what it holds and
gives it back; freeing takes a value out only if the slot still holds it. Every
value is bound once and freed at most once, in any order among the slots, so a
value may be freed long after it was replaced.

`History` says which logs of such calls there are. What a slot holds can be read
off the log (`holder`), and a value that is replaced is given back by one call,
the one that replaces it, unless it had been freed before (`History.replaced`).
-/

namespace SpectreRelay.Lib.Slots
set_option autoImplicit false

variable {κ ν : Type}

/-- A call: a slot was bound to a value and gave back another, or a value was freed. -/
inductive Entry (κ ν : Type) where
  | bound (k : κ) (v : ν) (prev : Option ν)
  | freed (k : κ) (v : ν)

/-- The bindings of a log, the newest first. -/
def bindings (log : List (Entry κ ν)) : List (κ × ν) :=
  log.filterMap fun
    | .bound k v _ => some (k, v)
    | .freed _ _ => none

@[simp] theorem bindings_bound (k : κ) (v : ν) (prev : Option ν) (log : List (Entry κ ν)) :
    bindings (.bound k v prev :: log) = (k, v) :: bindings log := rfl

@[simp] theorem bindings_freed (k : κ) (v : ν) (log : List (Entry κ ν)) : bindings (.freed k v :: log) = bindings log := rfl

theorem bindings_append (newer older : List (Entry κ ν)) : bindings (newer ++ older) = bindings newer ++ bindings older :=
  List.filterMap_append

/-- Whether a call gave back the value. -/
def returns [DecidableEq ν] (v : ν) : Entry κ ν → Bool
  | .bound _ _ (some w) => w = v
  | _ => false

theorem countP_bound [DecidableEq ν] (v w : ν) (k : κ) (prev : Option ν) (log : List (Entry κ ν)) :
    (Entry.bound k w prev :: log).countP (returns v) = log.countP (returns v) + if prev = some v then 1 else 0 := by
  rw [List.countP_cons]
  cases prev <;> simp [returns]

theorem countP_freed [DecidableEq ν] (v w : ν) (k : κ) (log : List (Entry κ ν)) :
    (Entry.freed k w :: log).countP (returns v) = log.countP (returns v) := rfl

variable [DecidableEq κ]

/-- The value that a slot was last bound to. -/
def latest (k : κ) : List (Entry κ ν) → Option ν
  | [] => none
  | .bound k' v _ :: log => if k' = k then some v else latest k log
  | .freed _ _ :: log => latest k log

/-- The last binding of a slot is a binding of it. -/
theorem mem_of_latest {k : κ} {v : ν} {log : List (Entry κ ν)} (h : latest k log = some v) : (k, v) ∈ bindings log := by
  induction log with
  | nil => cases h
  | cons e log ih =>
    cases e with
    | bound k' v' prev =>
      simp only [latest] at h
      split at h
      · rename_i same
        cases h
        rw [same]
        exact List.mem_cons_self
      · exact List.mem_cons_of_mem _ (ih h)
    | freed k' v' => exact ih h

/-- A slot that was bound since was last bound to something else. -/
theorem latest_append {k : κ} {v w : ν} {prev : Option ν} {newer older : List (Entry κ ν)}
    (h : latest k (newer ++ .bound k w prev :: older) = some v) : v = w ∨ (k, v) ∈ bindings newer := by
  induction newer with
  | nil =>
    simp only [List.nil_append, latest, if_true, Option.some.injEq] at h
    exact .inl h.symm
  | cons e newer ih =>
    cases e with
    | bound k' v' prev' =>
      simp only [List.cons_append, latest] at h
      split at h
      · rename_i same
        cases h
        rw [same]
        exact .inr List.mem_cons_self
      · exact (ih h).imp_right (List.mem_cons_of_mem _)
    | freed k' v' => exact ih h

variable [DecidableEq ν]

/-- Whether a value has been freed. -/
def isFreed (v : ν) : List (Entry κ ν) → Bool
  | [] => false
  | .bound _ _ _ :: log => isFreed v log
  | .freed _ w :: log => w = v || isFreed v log

/-- What a slot holds: the value it was last bound to, if that is not freed. -/
def holder (k : κ) (log : List (Entry κ ν)) : Option ν := (latest k log).filter fun v => !isFreed v log

/-- The logs of calls in which each value is bound once, and freed at most once and after that. -/
inductive History : List (Entry κ ν) → Prop where
  | start : History []
  | bind {log : List (Entry κ ν)} (h : History log) (k : κ) {v : ν} (fresh : v ∉ (bindings log).map Prod.snd) :
      History (.bound k v (holder k log) :: log)
  | free {log : List (Entry κ ν)} (h : History log) {k : κ} {v : ν} (held : (k, v) ∈ bindings log)
      (once : isFreed v log = false) : History (.freed k v :: log)

theorem holder_eq_some {k : κ} {v : ν} {log : List (Entry κ ν)} :
    holder k log = some v ↔ latest k log = some v ∧ isFreed v log = false := by
  simp [holder, Option.filter_eq_some_iff]

namespace History

variable {log : List (Entry κ ν)}

/-- No value is bound twice. -/
theorem nodup (h : History log) : ((bindings log).map Prod.snd).Nodup := by
  induction h with
  | start => exact List.nodup_nil
  | bind _ k fresh ih => exact List.nodup_cons.2 ⟨fresh, ih⟩
  | free _ _ _ ih => exact ih

/-- A value belongs to one slot. -/
theorem key_unique (h : History log) {k k' : κ} {v : ν} (first : (k, v) ∈ bindings log) (second : (k', v) ∈ bindings log) :
    k = k' := by
  have same := List.inj_on_of_nodup_map h.nodup first second rfl
  exact congrArg Prod.fst same

theorem bound_of_freed (h : History log) {v : ν} (freed : isFreed v log = true) : v ∈ (bindings log).map Prod.snd := by
  induction h with
  | start => cases freed
  | bind _ k _ ih => exact List.mem_cons_of_mem _ (ih freed)
  | @free log _ k w held _ ih =>
    simp only [isFreed, Bool.or_eq_true, decide_eq_true_eq] at freed
    rcases freed with rfl | earlier
    · exact List.mem_map_of_mem held
    · exact ih earlier

/-- A part of a log is a log. -/
theorem older {newer older : List (Entry κ ν)} (h : History (newer ++ older)) : History older := by
  induction newer with
  | nil => exact h
  | cons e newer ih =>
    cases h with
    | bind h _ _ => exact ih h
    | free h _ _ => exact ih h

/-- A call gives back what the slot held before it. -/
theorem returned (h : History log) {newer older : List (Entry κ ν)} {k : κ} {v : ν} {prev : Option ν}
    (parts : log = newer ++ .bound k v prev :: older) :
    History older ∧ prev = holder k older ∧ v ∉ (bindings older).map Prod.snd := by
  subst parts
  cases h.older with
  | bind before _ fresh => exact ⟨before, rfl, fresh⟩

/-- A value that is given back belongs to the slot that gave it back. -/
theorem bound_of_returns (h : History log) {v : ν} {e : Entry κ ν} (inside : e ∈ log) (back : returns v e = true) :
    v ∈ (bindings log).map Prod.snd := by
  obtain ⟨newer, older, parts⟩ := List.append_of_mem inside
  cases e with
  | freed k w => cases back
  | bound k w prev =>
    cases prev with
    | none => cases back
    | some v' =>
      obtain rfl := of_decide_eq_true back
      have held := (holder_eq_some.1 (h.returned parts).2.1.symm).1
      rw [parts, bindings_append, bindings_bound, List.map_append]
      exact List.mem_append_right _ (List.mem_cons_of_mem _ (List.mem_map_of_mem (mem_of_latest held)))

/-- What a call gives back is bound to the same slot. -/
theorem key_of_holder (h : History log) {k k' : κ} {v : ν} (inside : (k, v) ∈ bindings log)
    (held : holder k' log = some v) : k' = k :=
  h.key_unique (mem_of_latest (holder_eq_some.1 held).1) inside

/-- The value a slot was last bound to has not been given back. -/
theorem latest_unreturned (h : History log) {k : κ} {v : ν} (last : latest k log = some v) :
    log.countP (returns v) = 0 := by
  induction h with
  | start => rfl
  | @bind log h k' w fresh ih =>
    simp only [latest] at last
    split at last
    · -- a fresh value is given back by no call so far
      cases last
      rw [countP_bound, if_neg fun held => fresh (List.mem_map_of_mem (mem_of_latest (holder_eq_some.1 held).1)),
        Nat.add_zero, List.countP_eq_zero]
      exact fun e inside back => fresh (h.bound_of_returns inside back)
    · rename_i other
      rw [countP_bound, if_neg fun held => other (h.key_of_holder (mem_of_latest last) held), Nat.add_zero]
      exact ih last
  | free _ _ _ ih => exact ih last

/-- A value that was replaced is not the last again. -/
theorem latest_ne (h : History log) {newer older : List (Entry κ ν)} {k : κ} {v w : ν} {prev : Option ν}
    (parts : log = newer ++ .bound k w prev :: older) (last : latest k older = some v) : latest k log ≠ some v := by
  intro again
  have before := List.mem_map_of_mem (f := Prod.snd) (mem_of_latest last)
  have fresh := (h.returned parts).2.2
  rw [parts] at again
  rcases latest_append again with rfl | inside
  · exact fresh before
  · have distinct := h.nodup
    rw [parts, bindings_append, bindings_bound, List.map_append, List.nodup_append] at distinct
    exact distinct.2.2 _ (List.mem_map_of_mem inside) _ (List.mem_cons_of_mem _ before) rfl

/-- **A replaced value is given back once.** When a slot last bound to `v` is bound again, that call gives back
`v`, and no other call ever does; if `v` was freed before, none does. -/
theorem replaced (h : History log) {newer older : List (Entry κ ν)} {k : κ} {v w : ν} {prev : Option ν}
    (parts : log = newer ++ .bound k w prev :: older) (last : latest k older = some v) :
    prev = (if isFreed v older then none else some v) ∧
      log.countP (returns v) = if isFreed v older then 0 else 1 := by
  have held : prev = if isFreed v older then none else some v := by
    rw [(h.returned parts).2.1, holder, last, Option.filter_some]
    cases isFreed v older <;> rfl
  refine ⟨held, ?_⟩
  induction newer generalizing log with
  | nil =>
    have bare := (h.returned parts).1.latest_unreturned last
    subst parts held
    rw [List.nil_append, countP_bound, bare]
    cases isFreed v older <;> simp
  | cons e newer ih =>
    cases h with
    | start => cases parts
    | @bind log h k' _ fresh =>
      obtain ⟨-, rest⟩ := List.cons.inj (parts.trans List.cons_append)
      have elsewhere : ¬ holder k' log = some v := by
        intro again
        have inside : (k, v) ∈ bindings log := by
          rw [rest, bindings_append]
          exact List.mem_append_right _ (List.mem_cons_of_mem _ (mem_of_latest last))
        obtain rfl := h.key_of_holder inside again
        exact h.latest_ne rest last (holder_eq_some.1 again).1
      rw [countP_bound, if_neg elsewhere]
      exact ih h rest
    | free h _ _ =>
      obtain ⟨-, rest⟩ := List.cons.inj (parts.trans List.cons_append)
      exact (countP_freed v _ _ _).trans (ih h rest)

/-- What the slots hold after a binding. -/
theorem holder_bind (h : History log) {k : κ} {v : ν} (fresh : v ∉ (bindings log).map Prod.snd) (prev : Option ν) (k' : κ) :
    holder k' (.bound k v prev :: log) = if k = k' then some v else holder k' log := by
  have unfreed : isFreed v log = false := Bool.eq_false_iff.2 fun freed => fresh (h.bound_of_freed freed)
  simp only [holder, latest, isFreed]
  split
  · rw [Option.filter_some, unfreed]
    rfl
  · rfl

/-- What the slots hold after a value is freed. -/
theorem holder_free (h : History log) {k : κ} {v : ν} (held : (k, v) ∈ bindings log) (k' : κ) :
    holder k' (.freed k v :: log) = if k = k' ∧ holder k log = some v then none else holder k' log := by
  refine Option.ext fun w => ?_
  rw [holder_eq_some]
  simp only [latest, isFreed, Bool.or_eq_false_iff, decide_eq_false_iff_not]
  split
  · rename_i here
    obtain ⟨rfl, here⟩ := here
    simp only [reduceCtorEq, iff_false]
    rintro ⟨last, other, -⟩
    exact other (Option.some.inj ((holder_eq_some.1 here).1.symm.trans last))
  · rename_i elsewhere
    rw [holder_eq_some]
    refine ⟨fun ⟨last, _, unfreed⟩ => ⟨last, unfreed⟩, fun ⟨last, unfreed⟩ => ⟨last, ?_, unfreed⟩⟩
    rintro rfl
    obtain rfl := h.key_unique held (mem_of_latest last)
    exact elsewhere ⟨rfl, holder_eq_some.2 ⟨last, unfreed⟩⟩

/-- No two slots hold the same value. -/
theorem holder_inj (h : History log) {k k' : κ} {v : ν} (first : holder k log = some v) (second : holder k' log = some v) :
    k = k' :=
  (h.key_of_holder (mem_of_latest (holder_eq_some.1 first).1) second).symm

end History

end SpectreRelay.Lib.Slots
