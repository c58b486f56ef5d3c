import SpectreRelay.Lib.JsonClean
import Mathlib.Data.List.Basic

/-!
# Maps with string keys

Finite maps from byte strings, kept in the order of their keys, with the JSON
object that an encoder prints for one. A map is read back from its object when
its keys are well-formed and each value reads back (`mapOf_toJson`).
-/

namespace SpectreRelay.Lib
set_option autoImplicit false
open Json

/-- A finite map with string keys; equal maps are equal as values. -/
abbrev Map (ν : Type) := Std.ExtTreeMap Bytes ν

namespace Map

variable {ν : Type}

theorem get_insert (m : Map ν) (k k' : Bytes) (v : ν) : (m.insert k v)[k']? = if k = k' then some v else m[k']? := by
  rw [Std.ExtTreeMap.getElem?_insert]
  simp only [Std.compare_eq_iff_eq]

@[simp] theorem get_insert_self (m : Map ν) (k : Bytes) (v : ν) : (m.insert k v)[k]? = some v := by
  rw [get_insert, if_pos rfl]

theorem get_insert_other (m : Map ν) {k k' : Bytes} (v : ν) (other : k' ≠ k) : (m.insert k v)[k']? = m[k']? := by
  rw [get_insert, if_neg other.symm]

theorem get_erase (m : Map ν) (k k' : Bytes) : (m.erase k)[k']? = if k = k' then none else m[k']? := by
  rw [Std.ExtTreeMap.getElem?_erase]
  simp only [Std.compare_eq_iff_eq]

theorem get_empty (k : Bytes) : (∅ : Map ν)[k]? = none := Std.ExtTreeMap.getElem?_empty

/-- Storing a value changes nothing exactly when it is there already. -/
theorem insert_eq_self {m : Map ν} {k : Bytes} {v : ν} : m.insert k v = m ↔ m[k]? = some v := by
  constructor
  · intro same
    rw [← same, get_insert_self]
  · intro found
    apply Std.ExtTreeMap.ext_getElem?
    intro k'
    rw [get_insert]
    split
    · rename_i here
      rw [← here, found]
    · rfl

/-- A map is the map of its entries. -/
theorem ofList_toList (m : Map ν) : Std.ExtTreeMap.ofList m.toList compare = m := by
  apply Std.ExtTreeMap.ext_getElem?
  intro k
  cases found : m[k]? with
  | some v =>
    exact Std.ExtTreeMap.getElem?_ofList_of_mem Std.ReflOrd.compare_self Std.ExtTreeMap.distinct_keys_toList
      (Std.ExtTreeMap.mem_toList_iff_getElem?_eq_some.2 found)
  | none =>
    apply Std.ExtTreeMap.getElem?_ofList_of_contains_eq_false
    rw [List.contains_eq_any_beq, List.any_eq_false]
    intro k' inside same
    obtain ⟨entry, listed, rfl⟩ := List.mem_map.1 inside
    have here := Std.ExtTreeMap.mem_toList_iff_getElem?_eq_some.1 listed
    rw [beq_iff_eq] at same
    rw [← same, found] at here
    cases here

end Map

namespace Json

variable {ν : Type}

/-- The object of a map, its members in the order of the keys. -/
def ofMap (value : ν → Json) (m : Map ν) : Json := .obj (m.toList.map fun entry => (entry.1, value entry.2))

/-- A map variable of optional values: each member is stored into a fresh one, a later member replacing an earlier. -/
def mapOf (inner : Decoder ν) (zero : ν) : Decoder (Map (Option ν))
  | .obj ms, old =>
    (old.insertMany (ms.map fun member => (member.1, (pointer inner zero member.2 none).1)),
      ms.all fun member => (pointer inner zero member.2 none).2)
  | .null, _ => (∅, true)
  | _, old => (old, false)

/-- The entries that are not absent. -/
def present (m : Map (Option ν)) : Map ν := m.filterMap fun _ v => v

theorem ofMap_printable {value : ν → Json} {m : Map ν} {d : Nat} (values : ∀ v, Printable d (value v)) :
    Printable (d + 1) (ofMap value m) := by
  apply Printable.obj
  intro member inside
  obtain ⟨entry, _, rfl⟩ := List.mem_map.1 inside
  exact values entry.2

theorem cleanMembers_map {α : Type} (entries : List (Bytes × α)) (value : α → Json)
    (keys : ∀ entry ∈ entries, Utf8.Valid entry.1) :
    cleanMembers (entries.map fun entry => (entry.1, value entry.2)) =
      entries.map fun entry => (entry.1, clean (value entry.2)) := by
  induction entries with
  | nil => rfl
  | cons entry entries ih =>
    have first := keys entry List.mem_cons_self
    have rest := ih fun e inside => keys e (List.mem_cons_of_mem _ inside)
    simp only [List.map_cons, cleanMembers, first.sanitize, rest]

/-- **Round trip.** A map with well-formed keys is read back from its object when every value is. -/
theorem mapOf_toJson {value : ν → Json} {inner : Decoder ν} {zero : ν} {m : Map ν}
    (keys : ∀ (k : Bytes) (v : ν), m[k]? = some v → Utf8.Valid k)
    (values : ∀ (k : Bytes) (v : ν), m[k]? = some v → pointer inner zero (clean (value v)) none = (some v, true)) :
    present (mapOf inner zero (clean (ofMap value m)) ∅).1 = m ∧
      (mapOf inner zero (clean (ofMap value m)) ∅).2 = true := by
  have listed : ∀ entry ∈ m.toList, m[entry.1]? = some entry.2 := fun entry inside =>
    Std.ExtTreeMap.mem_toList_iff_getElem?_eq_some.1 inside
  have read : ∀ entry ∈ m.toList, pointer inner zero (clean (value entry.2)) none = (some entry.2, true) :=
    fun entry inside => values entry.1 entry.2 (listed entry inside)
  simp only [ofMap, clean, mapOf,
    cleanMembers_map m.toList value fun entry inside => keys entry.1 entry.2 (listed entry inside), List.map_map]
  constructor
  · have stored : (m.toList.map ((fun member : Bytes × Json => (member.1, (pointer inner zero member.2 none).1)) ∘
        fun entry => (entry.1, clean (value entry.2)))) = (m.map fun _ v => some v).toList := by
      rw [Std.ExtTreeMap.toList_map]
      apply List.map_congr_left
      intro entry inside
      simp only [Function.comp_apply, read entry inside]
    rw [stored, ← Std.ExtTreeMap.ofList_eq_insertMany_empty, Map.ofList_toList]
    apply Std.ExtTreeMap.ext_getElem?
    intro k
    rw [present, Std.ExtTreeMap.getElem?_filterMap', Std.ExtTreeMap.getElem?_map]
    cases m[k]? <;> rfl
  · rw [List.all_map, List.all_eq_true]
    intro entry inside
    simp only [Function.comp_apply, read entry inside]

end Json

end SpectreRelay.Lib
