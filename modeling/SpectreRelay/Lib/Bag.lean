import Mathlib.Data.List.Basic
import Mathlib.Data.List.Perm.Basic

/-!
# Lists as bags

A collection whose order means nothing is a list; `pick` takes one element out.
What a transition does to such collections is counted: every element is in the
part taken or in the part left (`count_pick`, `count_map_filter`). A bag of
lists of which one at most has elements has these elements in an order of their
own, in whatever order the bag is kept (`Lone`). Where elements have distinct
images, an image says where its element stands (`suffix_unique`).
-/

namespace SpectreRelay.Lib
set_option autoImplicit false

variable {α β : Type}

/-- The element at a position, and the others. -/
def pick (l : List α) (i : Nat) : Option (α × List α) := (l[i]?).map fun a => (a, l.eraseIdx i)

theorem pick_perm {l rest : List α} {i : Nat} {a : α} (h : pick l i = some (a, rest)) : (a :: rest).Perm l := by
  simp only [pick, Option.map_eq_some_iff, Prod.mk.injEq] at h
  obtain ⟨b, found, rfl, rfl⟩ := h
  obtain ⟨bound, rfl⟩ := List.getElem?_eq_some_iff.1 found
  exact List.getElem_cons_eraseIdx_perm bound

theorem mem_of_pick {l rest : List α} {i : Nat} {a : α} (h : pick l i = some (a, rest)) : a ∈ l :=
  (pick_perm h).mem_iff.1 List.mem_cons_self

theorem mem_of_pick_rest {l rest : List α} {i : Nat} {a b : α} (h : pick l i = some (a, rest)) (inside : b ∈ rest) :
    b ∈ l := (pick_perm h).mem_iff.1 (List.mem_cons_of_mem _ inside)

theorem pick_map (f : α → β) (l : List α) (i : Nat) :
    pick (l.map f) i = (pick l i).map fun taken => (f taken.1, taken.2.map f) := by
  simp only [pick, List.getElem?_map, Option.map_map, Function.comp_def, List.eraseIdx_map]

/-- Where no two elements have the same image, the one with a given image can be taken out by it. -/
theorem pick_of_find [DecidableEq β] {f : α → β} {l : List α} {a : α} {b : β} (distinct : (l.map f).Nodup)
    (found : l.find? (fun x => f x = b) = some a) : ∃ i, pick l i = some (a, l.filter fun x => f x ≠ b) := by
  induction l with
  | nil => cases found
  | cons x l ih =>
    obtain ⟨fresh, rest⟩ := List.nodup_cons.1 distinct
    by_cases here : f x = b
    · rw [List.find?_cons_of_pos (by simp [here])] at found
      cases found
      have others : l.filter (fun y => f y ≠ b) = l := List.filter_eq_self.2 fun y inside => by
        refine decide_eq_true fun same => fresh ?_
        rw [here, ← same]
        exact List.mem_map_of_mem inside
      refine ⟨0, ?_⟩
      rw [List.filter_cons_of_neg (by simp [here]), others]
      rfl
    · rw [List.find?_cons_of_neg (by simp [here])] at found
      obtain ⟨i, taken⟩ := ih rest found
      simp only [pick, Option.map_eq_some_iff, Prod.mk.injEq] at taken
      obtain ⟨y, at', rfl, left⟩ := taken
      refine ⟨i + 1, ?_⟩
      simp only [pick, List.getElem?_cons_succ, at', Option.map_some, List.eraseIdx_cons_succ, left]
      rw [List.filter_cons_of_pos (by simp [here])]

/-- Counting the elements with a property, the picked one apart. -/
theorem countP_pick {l rest : List α} {i : Nat} {a : α} (h : pick l i = some (a, rest)) (p : α → Bool) :
    l.countP p = rest.countP p + if p a then 1 else 0 := by
  rw [← (pick_perm h).countP_eq p, List.countP_cons]

/-- An entry keeps its position when a log grows. -/
theorem getElem?_grown {l : List α} {k : Nat} {a : α} (h : l[k]? = some a) (more : List α) : (l ++ more)[k]? = some a := by
  rw [List.getElem?_append_left (List.getElem?_eq_some_iff.1 h).1]
  exact h

/-- Where no two elements have the same image, one image has one place. -/
theorem suffix_unique {f : α → β} {l a b : List α} {x y : α} (distinct : (l.map f).Nodup) (first : x :: a <:+ l)
    (second : y :: b <:+ l) (same : f x = f y) : x :: a = y :: b := by
  induction l with
  | nil => cases List.suffix_nil.1 first
  | cons z l ih =>
    obtain ⟨fresh, rest⟩ := List.nodup_cons.1 distinct
    rcases List.suffix_cons_iff.1 first with here | deeper <;> rcases List.suffix_cons_iff.1 second with here' | deeper'
    · rw [here, here']
    · cases here
      exact absurd (same ▸ List.mem_map_of_mem (deeper'.subset List.mem_cons_self)) fresh
    · cases here'
      exact absurd (same ▸ List.mem_map_of_mem (deeper.subset List.mem_cons_self)) fresh
    · exact ih rest deeper deeper'

/-! ## One element with something to give -/

/-- At most one element of the bag gives a list that is not empty. -/
def Lone (f : α → List β) (l : List α) : Prop := l.Pairwise fun x y => f x = [] ∨ f y = []

namespace Lone

variable {f g : α → List β} {l l' : List α} {a : α}

theorem perm (h : Lone f l) (same : l.Perm l') : Lone f l' :=
  (same.pairwise_iff fun either => either.symm).1 h

theorem mono (h : Lone f l) (less : ∀ x, f x = [] → g x = []) : Lone g l :=
  h.imp fun {_ _} either => either.imp (less _) (less _)

/-- The order of the bag does not matter. -/
theorem flatMap_perm (h : Lone f l) (same : l.Perm l') : l.flatMap f = l'.flatMap f := by
  induction same with
  | nil => rfl
  | cons x _ ih => rw [List.flatMap_cons, List.flatMap_cons, ih (List.Pairwise.of_cons h)]
  | swap x y l =>
    simp only [List.flatMap_cons, ← List.append_assoc]
    rcases List.rel_of_pairwise_cons h List.mem_cons_self with none | none
    · rw [none, List.nil_append, List.append_nil]
    · rw [none, List.nil_append, List.append_nil]
  | trans first _ ih ih' => rw [ih h, ih' (h.perm first)]

/-- If one element gives something, the others give nothing. -/
theorem rest (h : Lone f (a :: l)) (some : f a ≠ []) : ∀ x ∈ l, f x = [] := fun _ inside =>
  (List.rel_of_pairwise_cons h inside).resolve_left some

/-- An element that gives nothing new in place of another. -/
theorem replace {b : α} (h : Lone f (a :: l)) (less : f a = [] → f b = []) : Lone f (b :: l) := by
  refine List.pairwise_cons.2 ⟨fun x inside => ?_, List.Pairwise.of_cons h⟩
  exact (List.rel_of_pairwise_cons h inside).imp_left less

/-- An element that gives something joins a bag that gives nothing. -/
theorem cons_of_nil (h : ∀ x ∈ l, f x = []) (a : α) : Lone f (a :: l) := by
  refine List.pairwise_cons.2 ⟨fun x inside => .inr (h x inside), ?_⟩
  exact List.pairwise_of_forall_mem_list fun x inside _ _ => .inl (h x inside)

end Lone

/-! ## Counting -/

variable [DecidableEq β]

/-- Counting the values of a bag, the picked element apart. -/
theorem count_pick {l rest : List α} {i : Nat} {a : α} (h : pick l i = some (a, rest)) (f : α → β) (b : β) :
    (l.map f).count b = [f a].count b + (rest.map f).count b := by
  rw [← ((pick_perm h).map f).count_eq b, List.map_cons, List.count_cons, List.count_cons, List.count_nil]
  omega

/-- Counting what lists a bag holds, the picked element apart. -/
theorem count_flatMap_pick {l rest : List α} {i : Nat} {a : α} (h : pick l i = some (a, rest)) (f : α → List β) (b : β) :
    (l.flatMap f).count b = (f a).count b + (rest.flatMap f).count b := by
  rw [← ((pick_perm h).flatMap_right f).count_eq b, List.flatMap_cons, List.count_append]

/-- A filter and its complement hold everything between them. -/
theorem count_map_filter (l : List α) (p : α → Bool) (f : α → β) (b : β) :
    (l.map f).count b = ((l.filter p).map f).count b + ((l.filter fun a => !p a).map f).count b := by
  rw [← List.count_append, ← List.map_append]
  exact ((List.filter_append_perm p l).map f).symm.count_eq b

end SpectreRelay.Lib
