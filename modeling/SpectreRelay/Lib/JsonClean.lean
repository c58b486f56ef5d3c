import SpectreRelay.Lib.JsonDecode

/-!
# Everything read is valid text

Whatever the bytes of a text, each string and key of the value read from it is
well-formed UTF-8 (`parse_clean`), so printing that value and reading it again
changes nothing. A record filled from a text inherits this field by field
(`record_keeps`).
-/

namespace SpectreRelay.Lib.Json
set_option autoImplicit false
open Utf8

/-- A code point that has an encoding: no surrogate, at most U+10FFFF. -/
def Scalar (n : Nat) : Prop := n < 0xD800 ∨ (0xE000 ≤ n ∧ n < 0x110000)

theorem isTail_ofNat {k : Nat} (h : k < 64) : isTail (UInt8.ofNat (0x80 + k)) = true := by
  have : ∀ k < 64, isTail (UInt8.ofNat (0x80 + k)) = true := by decide
  exact this k h

theorem isRune_two (x y : Nat) (hx : 2 ≤ x ∧ x < 32) (hy : y < 64) :
    isRune [UInt8.ofNat (0xC0 + x), UInt8.ofNat (0x80 + y)] = true := by
  have lead : ∀ x < 32, 2 ≤ x → leadSize (UInt8.ofNat (0xC0 + x)) = 2 := by decide
  simp only [isRune, lead x hx.2 hx.1, isTail_ofNat hy, beq_self_eq_true, Bool.and_self]

theorem isRune_three (x y z : Nat) (hx : x < 16) (hy : y < 64) (hz : z < 64) (low : x = 0 → 32 ≤ y)
    (high : x = 13 → y < 32) :
    isRune [UInt8.ofNat (0xE0 + x), UInt8.ofNat (0x80 + y), UInt8.ofNat (0x80 + z)] = true := by
  have lead : ∀ x < 16, leadSize (UInt8.ofNat (0xE0 + x)) = 3 := by decide
  have first : ∀ x < 16, ∀ y < 64, (x = 0 → 32 ≤ y) → (x = 13 → y < 32) →
      (UInt8.ofNat (0xE0 + x) != 0xE0 || 0xA0 ≤ UInt8.ofNat (0x80 + y)) = true ∧
      (UInt8.ofNat (0xE0 + x) != 0xED || UInt8.ofNat (0x80 + y) ≤ 0x9F) = true := by decide +kernel
  obtain ⟨h1, h2⟩ := first x hx y hy low high
  simp only [isRune, lead x hx, isTail_ofNat hy, isTail_ofNat hz, h1, h2, beq_self_eq_true, Bool.and_self]

theorem isRune_four (x y z w : Nat) (hx : x < 5) (hy : y < 64) (hz : z < 64) (hw : w < 64) (low : x = 0 → 16 ≤ y)
    (high : x = 4 → y < 16) :
    isRune [UInt8.ofNat (0xF0 + x), UInt8.ofNat (0x80 + y), UInt8.ofNat (0x80 + z), UInt8.ofNat (0x80 + w)] = true := by
  have lead : ∀ x < 5, leadSize (UInt8.ofNat (0xF0 + x)) = 4 := by decide
  have first : ∀ x < 5, ∀ y < 64, (x = 0 → 16 ≤ y) → (x = 4 → y < 16) →
      (UInt8.ofNat (0xF0 + x) != 0xF0 || 0x90 ≤ UInt8.ofNat (0x80 + y)) = true ∧
      (UInt8.ofNat (0xF0 + x) != 0xF4 || UInt8.ofNat (0x80 + y) ≤ 0x8F) = true := by decide +kernel
  obtain ⟨h1, h2⟩ := first x hx y hy low high
  simp only [isRune, lead x hx, isTail_ofNat hy, isTail_ofNat hz, isTail_ofNat hw, h1, h2, beq_self_eq_true,
    Bool.and_self]

/-- The encoding of a code point is one well-formed sequence. -/
theorem isRune_encodeRune {n : Nat} (h : Scalar n) : isRune (encodeRune n) = true := by
  unfold Scalar at h
  unfold encodeRune
  split
  · rename_i small
    have : ∀ n < 0x80, isRune [UInt8.ofNat n] = true := by decide
    exact this n small
  split
  · exact isRune_two (n / 64) (n % 64) (by omega) (by omega)
  split
  · exact isRune_three (n / 4096) (n / 64 % 64) (n % 64) (by omega) (by omega) (by omega) (by omega) (by omega)
  · exact isRune_four (n / 262144) (n / 4096 % 64) (n / 64 % 64) (n % 64) (by omega) (by omega) (by omega) (by omega)
      (by omega) (by omega)

/-! ## Strings -/

theorem hexVal_lt {c : UInt8} {d : Nat} (h : hexVal c = some d) : d < 16 := by
  have digits : (57 : UInt8).toNat = 57 ∧ (102 : UInt8).toNat = 102 ∧ (70 : UInt8).toNat = 70 := ⟨rfl, rfl, rfl⟩
  unfold hexVal at h
  simp only [Bool.and_eq_true, decide_eq_true_eq, UInt8.le_iff_toNat_le] at h
  split at h
  · cases h; omega
  split at h
  · cases h; omega
  split at h
  · cases h; omega
  · cases h

theorem hex4_lt {s t : Bytes} {u : Nat} (h : hex4 s = some (u, t)) : u < 0x10000 := by
  match s, h with
  | a :: b :: c :: d :: rest, h =>
    simp only [hex4, Option.bind_eq_bind, Option.bind_eq_some_iff, Option.pure_def, Option.some.injEq,
      Prod.mk.injEq] at h
    obtain ⟨x, hx, y, hy, z, hz, w, hw, rfl, -⟩ := h
    have := hexVal_lt hx
    have := hexVal_lt hy
    have := hexVal_lt hz
    have := hexVal_lt hw
    omega

theorem isRune_replacement : isRune replacement = true := by decide

theorem parseUnicode_rune {s out t : Bytes} (h : parseUnicode s = some (out, t)) : isRune out = true := by
  simp only [parseUnicode, Option.bind_eq_bind, Option.bind_eq_some_iff, Prod.exists] at h
  obtain ⟨u, r, code, h⟩ := h
  have bound := hex4_lt code
  split at h
  · split at h
    · split at h
      · split at h
        · rename_i v r' code'
          have bound' := hex4_lt code'
          split at h <;> (simp only [Option.pure_def, Option.some.injEq, Prod.mk.injEq] at h; rw [← h.1])
          · exact isRune_encodeRune (Or.inr ⟨by omega, by omega⟩)
          · exact isRune_replacement
        · simp only [Option.pure_def, Option.some.injEq, Prod.mk.injEq] at h; rw [← h.1]; exact isRune_replacement
      · simp only [Option.pure_def, Option.some.injEq, Prod.mk.injEq] at h; rw [← h.1]; exact isRune_replacement
    · simp only [Option.pure_def, Option.some.injEq, Prod.mk.injEq] at h; rw [← h.1]; exact isRune_replacement
  · rename_i plain
    simp only [Option.pure_def, Option.some.injEq, Prod.mk.injEq] at h
    rw [← h.1]
    exact isRune_encodeRune (by unfold Scalar; omega)

theorem parseEscape_rune {s out t : Bytes} (h : parseEscape s = some (out, t)) : isRune out = true := by
  cases s with
  | nil => cases h
  | cons c rest =>
    simp only [parseEscape] at h
    split at h
    · rename_i self
      cases h
      rcases self with rfl | rfl | rfl <;> decide
    repeat' split at h
    all_goals first | (cases h; decide) | exact parseUnicode_rune h | cases h

theorem parseStringAux_valid (n : Nat) (s out r : Bytes) (h : parseStringAux n s = some (out, r)) : Valid out := by
  induction n generalizing s out r with
  | zero => cases h
  | succ n ih =>
    cases s with
    | nil => cases h
    | cons c t =>
      -- every continuation puts one well-formed sequence in front of a shorter read
      have step : ∀ {bs rest : Bytes}, isRune bs = true → prepend bs (parseStringAux n rest) = some (out, r) →
          Valid out := by
        intro bs rest ok eq
        simp only [prepend, Option.map_eq_some_iff, Prod.exists, Prod.mk.injEq] at eq
        obtain ⟨out', r', found, rfl, -⟩ := eq
        rw [Valid, valid_rune ok]
        exact ih rest out' r' found
      simp only [parseStringAux] at h
      split at h
      · cases h; rfl
      split at h
      · split at h
        · rename_i bs rest escaped
          exact step (parseEscape_rune escaped) h
        · cases h
      split at h
      · cases h
      split at h
      · rename_i ok
        exact step ok h
      · exact step isRune_replacement h

theorem parseString_valid {s out r : Bytes} (h : parseString s = some (out, r)) : Valid out :=
  parseStringAux_valid _ s out r h

theorem parseKey_valid {s k r : Bytes} (h : parseKey s = some (k, r)) : Valid k := by
  unfold parseKey at h
  split at h
  · cases h
  split at h
  · split at h
    · cases h
    · rename_i found
      split at h
      · cases h
      split at h
      · cases h; exact parseString_valid found
      · cases h
  · cases h

/-! ## Values -/

/-- What a reader with fuel `n` gives back is clean. -/
structure ReadsClean (n : Nat) : Prop where
  value : ∀ d s v r, parseValue n d s = some (v, r) → clean v = v
  array : ∀ d s v r, parseArray n d s = some (v, r) → clean v = v
  elems : ∀ d s xs r, parseElems n d s = some (xs, r) → cleanElems xs = xs
  object : ∀ d s v r, parseObject n d s = some (v, r) → clean v = v
  members : ∀ d s ms r, parseMembers n d s = some (ms, r) → cleanMembers ms = ms

theorem parseWord_clean {word s r : Bytes} {v w : Json} (h : parseWord word v s = some (w, r)) (plain : clean v = v) :
    clean w = w := by
  unfold parseWord at h
  split at h
  · cases h; exact plain
  · cases h

theorem parseValue_clean {n : Nat} (ih : ReadsClean n) (d : Nat) (s : Bytes) (v : Json) (r : Bytes)
    (h : parseValue (n + 1) d s = some (v, r)) : clean v = v := by
  simp only [parseValue] at h
  split at h
  · cases h
  split at h
  · simp only [Option.map_eq_some_iff, Prod.exists, Prod.mk.injEq] at h
    obtain ⟨out, r', found, rfl, -⟩ := h
    rw [clean, (parseString_valid found).sanitize]
  split at h
  · split at h
    · cases h
    · exact ih.array _ _ _ _ h
  split at h
  · split at h
    · cases h
    · exact ih.object _ _ _ _ h
  split at h
  · exact parseWord_clean h rfl
  split at h
  · exact parseWord_clean h rfl
  split at h
  · exact parseWord_clean h rfl
  · simp only [Option.map_eq_some_iff, Prod.exists, Prod.mk.injEq] at h
    obtain ⟨lit, r', -, rfl, -⟩ := h
    rfl

theorem parseElems_clean {n : Nat} (ih : ReadsClean n) (d : Nat) (s : Bytes) (xs : List Json) (r : Bytes)
    (h : parseElems (n + 1) d s = some (xs, r)) : cleanElems xs = xs := by
  simp only [parseElems] at h
  split at h
  · cases h
  · rename_i v t first
    have head := ih.value _ _ _ _ first
    split at h
    · cases h
    split at h
    · simp only [Option.map_eq_some_iff, Prod.exists, Prod.mk.injEq] at h
      obtain ⟨ys, r', rest, rfl, -⟩ := h
      rw [cleanElems, head, ih.elems _ _ _ _ rest]
    split at h
    · cases h
      rw [cleanElems, head, cleanElems]
    · cases h

theorem parseMembers_clean {n : Nat} (ih : ReadsClean n) (d : Nat) (s : Bytes) (ms : List (Bytes × Json)) (r : Bytes)
    (h : parseMembers (n + 1) d s = some (ms, r)) : cleanMembers ms = ms := by
  simp only [parseMembers] at h
  split at h
  · cases h
  · rename_i k t key
    have name := (parseKey_valid key).sanitize
    split at h
    · cases h
    · rename_i v t first
      have head := ih.value _ _ _ _ first
      split at h
      · cases h
      split at h
      · simp only [Option.map_eq_some_iff, Prod.exists, Prod.mk.injEq] at h
        obtain ⟨ys, r', rest, rfl, -⟩ := h
        rw [cleanMembers, name, head, ih.members _ _ _ _ rest]
      split at h
      · cases h
        rw [cleanMembers, name, head, cleanMembers]
      · cases h

theorem readsClean (n : Nat) : ReadsClean n := by
  induction n with
  | zero =>
    constructor <;> intro d s v r h <;>
      simp [parseValue, parseArray, parseElems, parseObject, parseMembers] at h
  | succ n ih =>
    refine ⟨parseValue_clean ih, ?_, parseElems_clean ih, ?_, parseMembers_clean ih⟩
    · intro d s v r h
      simp only [parseArray] at h
      split at h
      · cases h
      split at h
      · cases h; rfl
      · simp only [Option.map_eq_some_iff, Prod.exists, Prod.mk.injEq] at h
        obtain ⟨xs, r', found, rfl, -⟩ := h
        rw [clean, ih.elems _ _ _ _ found]
    · intro d s v r h
      simp only [parseObject] at h
      split at h
      · cases h
      split at h
      · cases h; rfl
      · simp only [Option.map_eq_some_iff, Prod.exists, Prod.mk.injEq] at h
        obtain ⟨ms, r', found, rfl, -⟩ := h
        rw [clean, ih.members _ _ _ _ found]

theorem parseFirst_clean {s r : Bytes} {v : Json} (h : parseFirst s = some (v, r)) : clean v = v :=
  (readsClean _).value _ _ _ _ h

/-- **Every value read is clean.** -/
theorem parse_clean {s : Bytes} {v : Json} (h : parse s = some v) : clean v = v := by
  unfold parse at h
  split at h
  · rename_i first
    split at h
    · cases h; exact parseFirst_clean first
    · cases h
  · cases h

/-! ## Records -/

/-- A decoder keeps `P`: storing a clean value into a variable with `P` gives one with `P`. -/
def Keeps {α : Type} (P : α → Prop) (dec : Decoder α) : Prop := ∀ j v, clean j = j → P v → P (dec j v).1

theorem string_keeps : Keeps Valid string := by
  intro j v fixed ok
  cases j with
  | str s =>
    simp only [clean, Json.str.injEq] at fixed
    exact (sanitize_eq_iff s).1 fixed
  | _ => exact ok

theorem any_keeps {α : Type} (dec : Decoder α) : Keeps (fun _ => True) dec := fun _ _ _ _ => trivial

/-- A field keeps what its inner decoder keeps, and leaves the other fields alone. -/
theorem StructField.of_keeps {α β : Type} {P : α → Prop} {Q : β → Prop} {name : String} {get : α → β} {set : β → α → α}
    {inner : Decoder β} (keeps : Keeps Q inner) (held : ∀ v, P v → Q (get v)) (put : ∀ b v, P v → Q b → P (set b v)) :
    Keeps P (StructField.of name get set inner).store := StructField.of_keepsOn keeps held put

theorem clean_of_mem {ms : List (Bytes × Json)} (fixed : cleanMembers ms = ms) {m : Bytes × Json} (inside : m ∈ ms) :
    clean m.2 = m.2 := by
  induction ms with
  | nil => cases inside
  | cons first ms ih =>
    simp only [cleanMembers, List.cons.injEq] at fixed
    rcases List.mem_cons.1 inside with rfl | later
    · exact (Prod.mk.inj fixed.1).2
    · exact ih fixed.2 later

/-- A record decoder keeps what each of its fields keeps. -/
theorem record_keeps {α : Type} {P : α → Prop} {fields : List (StructField α)} (keeps : ∀ f ∈ fields, Keeps P f.store) :
    Keeps P (record fields) := by
  refine record_keepsOn (fun ms fixed m inside => ?_) keeps
  simp only [clean, Json.obj.injEq] at fixed
  exact clean_of_mem fixed inside

theorem unmarshal_keeps {α : Type} {P : α → Prop} {dec : Decoder α} (keeps : Keeps P dec) {zero : α} (ok : P zero)
    (text : Bytes) : P (unmarshal dec zero text).1 := by
  unfold unmarshal
  split
  · rename_i j found
    exact keeps j zero (parse_clean found) ok
  · exact ok

theorem decodeFirst_keeps {α : Type} {P : α → Prop} {dec : Decoder α} (keeps : Keeps P dec) {zero : α} (ok : P zero)
    (text : Bytes) : P (decodeFirst dec zero text).1 := by
  unfold decodeFirst
  split
  · rename_i j rest found
    exact keeps j zero (parseFirst_clean found) ok
  · exact ok

end SpectreRelay.Lib.Json
