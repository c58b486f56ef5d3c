import Mathlib.Data.List.Basic
import Mathlib.Data.List.TakeDrop

/-!
# Slices over shared arrays

A slice is the front part of an array that lives in a heap; several slices may
share an array. Appending to a slice writes the array while there is room behind
the slice, and copies to a new array when there is none. `filterInPlace` is the
idiom that filters a slice into its own array: it appends to a slice of length
zero over the array that the loop is still reading. The loop never overtakes its
own reads, so the result is the plain filter (`filterInPlace_filters`), and no
array but the slice's own is written.
-/

namespace SpectreRelay.Lib
set_option autoImplicit false

variable {α : Type}

/-- The arrays that were allocated, by address. The length of an array never changes. -/
abbrev Heap (α : Type) := List (List α)

/-- The first `len` entries of the array at an address; the nil slice has no array. -/
structure Slice where
  array : Option Nat
  len : Nat
deriving DecidableEq

namespace Slice

def nil : Slice := ⟨none, 0⟩

/-- The array behind a slice; the nil slice is over an empty one. -/
def backing (h : Heap α) (s : Slice) : List α := (s.array.bind (h[·]?)).getD []

/-- What a slice holds. -/
def contents (h : Heap α) (s : Slice) : List α := (s.backing h).take s.len

/-- `s[:0]`: nothing of the same array. -/
def empty (s : Slice) : Slice := { s with len := 0 }

/-- `append(s, x)`. A new array has room for `spare` entries more, of value `zero`. -/
def append (zero : α) (spare : Nat) (h : Heap α) (s : Slice) (x : α) : Heap α × Slice :=
  match s.array with
  | none => (h ++ [x :: List.replicate spare zero], ⟨some h.length, 1⟩)
  | some a =>
    if s.len < (s.backing h).length then (h.set a ((s.backing h).set s.len x), ⟨some a, s.len + 1⟩)
    else (h ++ [s.contents h ++ x :: List.replicate spare zero], ⟨some h.length, s.len + 1⟩)

/-- `for _, x := range s`, from the `i`th entry on for `n` entries: each is read when its turn comes, and appended to
`kept` if it passes. -/
def filterLoop (zero : α) (spare : Nat) (p : α → Bool) (s : Slice) : Nat → Nat → Heap α → Slice → Heap α × Slice
  | 0, _, h, kept => (h, kept)
  | n + 1, i, h, kept =>
    let x := ((s.backing h)[i]?).getD zero
    let next := if p x then append zero spare h kept x else (h, kept)
    filterLoop zero spare p s n (i + 1) next.1 next.2

/-- The slice filtered into its own array. -/
def filterInPlace (zero : α) (spare : Nat) (p : α → Bool) (h : Heap α) (s : Slice) : Heap α × Slice :=
  filterLoop zero spare p s s.len 0 h s.empty

/-- The slice lies within an array of the heap, or is nil. -/
structure Fits (h : Heap α) (s : Slice) : Prop where
  allocated : ∀ a, s.array = some a → a < h.length
  room : s.len ≤ (s.backing h).length

/-- From `h` to `h'` no array of `h` but `own` was written. -/
structure Untouched (own : Option Nat) (h h' : Heap α) : Prop where
  grown : h.length ≤ h'.length
  others : ∀ b, b < h.length → own ≠ some b → h'[b]? = h[b]?

theorem Untouched.trans {own : Option Nat} {h₁ h₂ h₃ : Heap α} (first : Untouched own h₁ h₂) (second : Untouched own h₂ h₃) :
    Untouched own h₁ h₃ where
  grown := Nat.le_trans first.grown second.grown
  others b old other := (second.others b (Nat.lt_of_lt_of_le old first.grown) other).trans (first.others b old other)

/-- A slice over another array reads the same. -/
theorem Untouched.backing {own : Option Nat} {h h' : Heap α} (same : Untouched own h h') {s : Slice} (fits : s.Fits h)
    (other : s.array ≠ own ∨ s.array = none) : s.backing h' = s.backing h := by
  cases array : s.array with
  | none => simp only [Slice.backing, array, Option.bind_none]
  | some a =>
    have apart : own ≠ some a := by
      rcases other with other | none
      · rw [array] at other
        exact other.symm
      · rw [array] at none
        cases none
    simp only [Slice.backing, array, Option.bind_some, same.others a (fits.allocated a array) apart]

theorem nil_fits (h : Heap α) : nil.Fits h := ⟨fun _ array => (Option.some_ne_none _ array.symm).elim, Nat.zero_le _⟩

theorem contents_length {h : Heap α} {s : Slice} (fits : s.Fits h) : (s.contents h).length = s.len := by
  rw [contents, List.length_take]
  exact Nat.min_eq_left fits.room

/-- A slice over an array that was just written. -/
theorem backing_set {h : Heap α} {a len : Nat} (array : List α) (inside : a < h.length) :
    backing (h.set a array) ⟨some a, len⟩ = array := by
  simp only [backing, Option.bind_some, List.getElem?_set_self inside, Option.getD_some]

theorem backing_fresh (h : Heap α) (array : List α) (len : Nat) : backing (h ++ [array]) ⟨some h.length, len⟩ = array := by
  simp only [backing, Option.bind_some, List.getElem?_concat_length, Option.getD_some]

theorem untouched_set (h : Heap α) (a : Nat) (array : List α) : Untouched (some a) h (h.set a array) where
  grown := Nat.le_of_eq List.length_set.symm
  others _ _ other := List.getElem?_set_ne fun same => other (congrArg some same)

theorem untouched_fresh (own : Option Nat) (h : Heap α) (array : List α) : Untouched own h (h ++ [array]) where
  grown := by simp only [List.length_append, Nat.le_add_right]
  others b old _ := List.getElem?_append_left old

/-- What `append` gives: one entry more, in the slice's own array or in a new one. -/
structure Appended (h : Heap α) (s : Slice) (x : α) (h' : Heap α) (s' : Slice) : Prop where
  contents : s'.contents h' = s.contents h ++ [x]
  fits : s'.Fits h'
  untouched : Untouched s.array h h'
  array : s'.array = s.array ∨ s'.array = some h.length

theorem take_set_length {l : List α} {n : Nat} (x : α) (inside : n < l.length) : (l.set n x).take (n + 1) = l.take n ++ [x] := by
  rw [List.take_add_one, List.getElem?_set_self inside, List.take_set_of_le (Nat.le_refl _)]
  rfl

theorem append_appended (zero : α) (spare : Nat) {h : Heap α} {s : Slice} (x : α) (fits : s.Fits h) :
    Appended h s x (append zero spare h s x).1 (append zero spare h s x).2 := by
  obtain ⟨array, len⟩ := s
  cases array with
  | none =>
    have none : len = 0 := Nat.le_zero.1 fits.room
    subst none
    refine ⟨?_, ⟨?_, ?_⟩, untouched_fresh _ _ _, .inr rfl⟩
    · simp only [append, contents, backing_fresh]
      rfl
    · intro a here
      cases here
      simp only [append, List.length_append, List.length_singleton, Nat.lt_add_one]
    · simp only [append, backing_fresh, List.length_cons]
      omega
  | some a =>
    have inside : a < h.length := fits.allocated a rfl
    have room := fits.room
    by_cases behind : len < (backing h ⟨some a, len⟩).length
    · have answer : append zero spare h ⟨some a, len⟩ x =
          (h.set a ((backing h ⟨some a, len⟩).set len x), ⟨some a, len + 1⟩) := by
        simp only [append, behind, if_true]
      rw [answer]
      refine ⟨?_, ⟨?_, ?_⟩, untouched_set _ _ _, .inl rfl⟩
      · simp only [contents, backing_set _ inside]
        exact take_set_length x behind
      · intro b here
        cases here
        simpa only [List.length_set] using inside
      · simp only [backing_set _ inside, List.length_set]
        omega
    · have answer : append zero spare h ⟨some a, len⟩ x =
          (h ++ [contents h ⟨some a, len⟩ ++ x :: List.replicate spare zero], ⟨some h.length, len + 1⟩) := by
        simp only [append, behind, if_false]
      rw [answer]
      have full : (contents h ⟨some a, len⟩).length = len := contents_length fits
      refine ⟨?_, ⟨?_, ?_⟩, untouched_fresh _ _ _, .inr rfl⟩
      · show (backing _ _).take (len + 1) = _
        rw [backing_fresh, List.take_append, full]
        simp [full]
      · intro b here
        cases here
        simp only [List.length_append, List.length_singleton, Nat.lt_add_one]
      · simp only [backing_fresh, List.length_append, List.length_cons, full]
        omega

/-- At the head of the loop over the entries of `s`, about to read the `i`th: the entries from there on are as they were,
and the passing ones before it are in front. -/
structure Filtering (p : α → Bool) (h₀ : Heap α) (s : Slice) (i : Nat) (h : Heap α) (kept : Slice) : Prop where
  array : kept.array = s.array
  behind : kept.len ≤ i
  ahead : (s.backing h).drop i = (s.backing h₀).drop i
  front : (s.backing h).take kept.len = ((s.backing h₀).take i).filter p
  size : (s.backing h).length = (s.backing h₀).length
  heap : h.length = h₀.length
  untouched : Untouched s.array h₀ h

/-- One iteration. The append has room: what was kept is no longer than what was read. -/
theorem Filtering.next {p : α → Bool} {h₀ h : Heap α} {s kept : Slice} {i : Nat} (at_head : Filtering p h₀ s i h kept)
    (fits : s.Fits h₀) (more : i < s.len) (zero : α) (spare : Nat) :
    let x := ((s.backing h)[i]?).getD zero
    let next := if p x then append zero spare h kept x else (h, kept)
    Filtering p h₀ s (i + 1) next.1 next.2 := by
  obtain ⟨array, len⟩ := s
  obtain ⟨array', n⟩ := kept
  obtain ⟨rfl, behind, ahead, front, size, heap, untouched⟩ := at_head
  have inside : i < (backing h₀ ⟨array', len⟩).length := Nat.lt_of_lt_of_le more fits.room
  cases array' with
  | none => exact absurd inside (Nat.not_lt_zero i)
  | some a =>
    have read : (backing h ⟨some a, len⟩)[i]? = (backing h₀ ⟨some a, len⟩)[i]? := by
      have := congrArg List.head? ahead
      rwa [List.head?_drop, List.head?_drop] at this
    have entry : (backing h₀ ⟨some a, len⟩)[i]? = some (backing h₀ ⟨some a, len⟩)[i] := List.getElem?_eq_getElem inside
    rw [read, entry, Option.getD_some]
    have step : (backing h₀ ⟨some a, len⟩).take (i + 1) =
        (backing h₀ ⟨some a, len⟩).take i ++ [(backing h₀ ⟨some a, len⟩)[i]] := by
      rw [List.take_add_one, entry]
      rfl
    generalize (backing h₀ ⟨some a, len⟩)[i] = x at step ⊢
    have rest : (backing h ⟨some a, len⟩).drop (i + 1) = (backing h₀ ⟨some a, len⟩).drop (i + 1) := by
      rw [← List.drop_drop, ← List.drop_drop, ahead]
    by_cases passes : p x = true
    · have room : n < (backing h ⟨some a, len⟩).length := by
        rw [size]
        exact Nat.lt_of_le_of_lt behind inside
      have allocated : a < h.length := by rw [heap]; exact fits.allocated a rfl
      have answer : append zero spare h ⟨some a, n⟩ x =
          (h.set a ((backing h ⟨some a, len⟩).set n x), ⟨some a, n + 1⟩) := by
        simp only [append, show backing h ⟨some a, n⟩ = backing h ⟨some a, len⟩ from rfl, room, if_true]
      simp only [passes, if_true, answer]
      constructor
      · rfl
      · exact Nat.succ_le_succ behind
      · rw [backing_set _ allocated, List.drop_set_of_lt (Nat.lt_succ_of_le behind), rest]
      · rw [backing_set _ allocated, take_set_length x room, front, step, List.filter_append, List.filter_cons, passes]
        rfl
      · rw [backing_set _ allocated, List.length_set, size]
      · rw [List.length_set, heap]
      · exact untouched.trans (untouched_set h a _)
    · simp only [passes, Bool.false_eq_true, if_false]
      constructor
      · rfl
      · exact Nat.le_succ_of_le behind
      · exact rest
      · rw [front, step, List.filter_append]
        simp [passes]
      · exact size
      · exact heap
      · exact untouched

theorem Filtering.loop {p : α → Bool} {h₀ : Heap α} {s : Slice} (fits : s.Fits h₀) (zero : α) (spare : Nat) (n i : Nat)
    (h : Heap α) (kept : Slice) (at_head : Filtering p h₀ s i h kept) (left : i + n = s.len) :
    Filtering p h₀ s s.len (filterLoop zero spare p s n i h kept).1 (filterLoop zero spare p s n i h kept).2 := by
  induction n generalizing i h kept with
  | zero =>
    have done : i = s.len := left
    rw [← done]
    exact at_head
  | succ n ih => exact ih (i + 1) _ _ (at_head.next fits (by omega) zero spare) (by omega)

/-- What filtering in place gives: the filtered entries, in front of the same array. -/
structure Filtered (p : α → Bool) (h : Heap α) (s : Slice) (h' : Heap α) (kept : Slice) : Prop where
  contents : kept.contents h' = (s.contents h).filter p
  fits : kept.Fits h'
  untouched : Untouched s.array h h'
  array : kept.array = s.array

/-- **Filtering in place filters.** -/
theorem filterInPlace_filters (zero : α) (spare : Nat) (p : α → Bool) {h : Heap α} {s : Slice} (fits : s.Fits h) :
    Filtered p h s (filterInPlace zero spare p h s).1 (filterInPlace zero spare p h s).2 := by
  have start : Filtering p h s 0 h s.empty :=
    ⟨rfl, Nat.le_refl _, rfl, rfl, rfl, rfl, ⟨Nat.le_refl _, fun _ _ _ => rfl⟩⟩
  have done := Filtering.loop fits zero spare s.len 0 h s.empty start (Nat.zero_add _)
  have backing : (filterInPlace zero spare p h s).2.backing (filterInPlace zero spare p h s).1 =
      s.backing (filterInPlace zero spare p h s).1 := by
    simp only [Slice.backing, filterInPlace, done.array]
  refine ⟨?_, ⟨?_, ?_⟩, done.untouched, done.array⟩
  · rw [Slice.contents, backing]
    exact done.front
  · intro a here
    show a < List.length _
    rw [filterInPlace, done.heap]
    exact fits.allocated a (done.array ▸ here)
  · rw [backing]
    show _ ≤ List.length _
    rw [filterInPlace, done.size]
    exact Nat.le_trans done.behind fits.room

end Slice

end SpectreRelay.Lib
