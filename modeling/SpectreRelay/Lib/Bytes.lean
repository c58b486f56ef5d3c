import Mathlib.Data.List.Basic

/-!
# Byte strings

A `string` or `[]byte` of the source language is a list of bytes: nothing says
that it is text. `cut` and `cutLast` are the two ways a byte string is split
at a separator, at its first and at its last occurrence; each comes with the
lemma that says exactly which split it finds.
-/

namespace SpectreRelay.Lib
set_option autoImplicit false

/-- A byte string. -/
abbrev Bytes := List UInt8

/-- The bytes of an ASCII literal. -/
def ascii (s : String) : Bytes := s.toList.map fun c => c.val.toUInt8

namespace Bytes

/-- The text before and after the first `sep`, when there is one. -/
def cut (sep : UInt8) : Bytes → Option (Bytes × Bytes)
  | [] => none
  | b :: rest => if b = sep then some ([], rest) else (cut sep rest).map fun p => (b :: p.1, p.2)

/-- The text before and after the last `sep`, when there is one. -/
def cutLast (sep : UInt8) : Bytes → Option (Bytes × Bytes)
  | [] => none
  | b :: rest =>
    match cutLast sep rest with
    | some p => some (b :: p.1, p.2)
    | none => if b = sep then some ([], rest) else none

/-- The text after `front`, or the whole text when it does not start so. -/
def trimPrefix (front s : Bytes) : Bytes := if front <+: s then s.drop front.length else s

theorem cut_eq_none {sep : UInt8} {s : Bytes} : cut sep s = none ↔ sep ∉ s := by
  induction s with
  | nil => simp [cut]
  | cons b rest ih =>
    by_cases same : b = sep
    · simp [cut, same]
    · simp [cut, same, ih, Ne.symm same]

/-- A cut is at the first separator: none stands before it. -/
theorem cut_eq_some {sep : UInt8} {s u d : Bytes} :
    cut sep s = some (u, d) ↔ s = u ++ sep :: d ∧ sep ∉ u := by
  induction s generalizing u with
  | nil => simp [cut]
  | cons b rest ih =>
    by_cases same : b = sep
    · subst same
      cases u with
      | nil => simp [cut]
      | cons x u =>
        simp only [cut, if_true, Option.some.injEq, Prod.mk.injEq, reduceCtorEq, false_and,
          List.cons_append, List.cons.injEq, List.mem_cons, not_or, false_iff, not_and]
        rintro ⟨rfl, -⟩ different
        exact absurd rfl different
    · cases u with
      | nil => simp [cut, same]
      | cons x u =>
        simp only [cut, same, if_false, Option.map_eq_some_iff, Prod.exists, Prod.mk.injEq,
          List.cons.injEq, List.cons_append, List.mem_cons, not_or]
        constructor
        · rintro ⟨v, e, found, ⟨rfl, rfl⟩, rfl⟩
          obtain ⟨text, free⟩ := ih.1 found
          exact ⟨⟨rfl, text⟩, fun h => same h.symm, free⟩
        · rintro ⟨⟨rfl, text⟩, -, free⟩
          exact ⟨u, d, ih.2 ⟨text, free⟩, ⟨rfl, rfl⟩, rfl⟩

/-- Cutting what was put together at a separator gives the parts back. -/
theorem cut_append {sep : UInt8} {u : Bytes} (d : Bytes) (free : sep ∉ u) :
    cut sep (u ++ sep :: d) = some (u, d) :=
  cut_eq_some.2 ⟨rfl, free⟩

theorem cutLast_eq_none {sep : UInt8} {s : Bytes} : cutLast sep s = none ↔ sep ∉ s := by
  induction s with
  | nil => simp [cutLast]
  | cons b rest ih =>
    cases found : cutLast sep rest with
    | some p => simp [cutLast, found, ← ih]
    | none =>
      have free := ih.1 found
      by_cases same : b = sep
      · simp [cutLast, found, same]
      · simp [cutLast, found, same, free, Ne.symm same]

/-- The last separator is the one after which there is none. -/
theorem cutLast_append {sep : UInt8} (u : Bytes) {d : Bytes} (free : sep ∉ d) :
    cutLast sep (u ++ sep :: d) = some (u, d) := by
  induction u with
  | nil => simp [cutLast, cutLast_eq_none.2 free]
  | cons b u ih => simp [cutLast, ih]

end Bytes

end SpectreRelay.Lib
