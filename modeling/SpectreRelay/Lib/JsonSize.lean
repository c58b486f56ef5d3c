import SpectreRelay.Lib.JsonDecode

/-!
# How much a JSON text can hold

Reading never makes more of a text than there was: the ASCII characters of the
strings in a value, and the elements of its arrays, are no more than the bytes
that were read (`parseValue_size`). A malformed byte of a string is read as
three bytes, none of them ASCII, so the characters are counted and not the
length. Base64 has ASCII characters only, and a byte string stored from a text
is no longer than the text.
-/

namespace SpectreRelay.Lib.Json
set_option autoImplicit false
open Utf8

/-- The number of ASCII characters. -/
def plain (s : Bytes) : Nat := s.countP fun c => c < 0x80

theorem plain_le_length (s : Bytes) : plain s ≤ s.length := List.countP_le_length

theorem plain_append (s t : Bytes) : plain (s ++ t) = plain s + plain t := List.countP_append

mutual

/-- ASCII characters of the strings, and one for each element of an array. -/
def weight : Json → Nat
  | .null => 0
  | .bool _ => 0
  | .num _ => 0
  | .str s => plain s
  | .arr xs => weightElems xs
  | .obj ms => weightMembers ms

def weightElems : List Json → Nat
  | [] => 0
  | x :: xs => weight x + 1 + weightElems xs

def weightMembers : List (Bytes × Json) → Nat
  | [] => 0
  | (_, x) :: ms => weight x + weightMembers ms

end

theorem length_le_weightElems (xs : List Json) : xs.length ≤ weightElems xs := by
  induction xs with
  | nil => exact Nat.le_refl _
  | cons x xs ih =>
    rw [List.length_cons, weightElems]
    omega

theorem weight_le_of_mem {ms : List (Bytes × Json)} {m : Bytes × Json} (inside : m ∈ ms) :
    weight m.2 ≤ weightMembers ms := by
  induction ms with
  | nil => cases inside
  | cons first ms ih =>
    rw [weightMembers]
    rcases List.mem_cons.1 inside with rfl | later
    · omega
    · have := ih later
      omega

/-! ## Strings -/

theorem hex4_rest {s t : Bytes} {u : Nat} (h : hex4 s = some (u, t)) : t.length + 4 = s.length := by
  match s, h with
  | a :: b :: c :: d :: rest, h =>
    simp only [hex4, Option.bind_eq_bind, Option.bind_eq_some_iff, Option.pure_def, Option.some.injEq,
      Prod.mk.injEq] at h
    obtain ⟨_, _, _, _, _, _, _, _, _, rfl⟩ := h
    rfl

theorem encodeRune_length (n : Nat) : (encodeRune n).length ≤ 4 := by
  unfold encodeRune
  repeat' split
  all_goals simp only [List.length_cons, List.length_nil]; omega

/-- An escape is at least as long as the characters it stands for. -/
theorem parseUnicode_size {s out t : Bytes} (h : parseUnicode s = some (out, t)) : plain out + t.length ≤ s.length := by
  simp only [parseUnicode, Option.bind_eq_bind, Option.bind_eq_some_iff, Prod.exists] at h
  obtain ⟨u, r, code, h⟩ := h
  have read := hex4_rest code
  have unit (n : Nat) : plain (encodeRune n) ≤ 4 := Nat.le_trans (plain_le_length _) (encodeRune_length n)
  -- a surrogate without its partner
  have alone (same : some (replacement, r) = some (out, t)) : plain out + t.length ≤ s.length := by
    cases same
    have none_ascii : plain replacement = 0 := rfl
    omega
  split at h
  · split at h
    · split at h
      · split at h
        · rename_i b c r' _ v r'' code'
          have read' := hex4_rest code'
          split at h
          · simp only [Option.pure_def, Option.some.injEq, Prod.mk.injEq] at h
            have pair := unit (0x10000 + (u - 0xD800) * 1024 + (v - 0xDC00))
            simp only [List.length_cons] at read
            rw [h.1, ← h.2] at *
            omega
          · exact alone h
        · exact alone h
      · exact alone h
    · exact alone h
  · cases h
    have := unit u
    omega

theorem parseEscape_size {s out t : Bytes} (h : parseEscape s = some (out, t)) : plain out + t.length ≤ s.length := by
  cases s with
  | nil => cases h
  | cons c rest =>
    have one (x : UInt8) : plain [x] ≤ 1 := plain_le_length [x]
    simp only [parseEscape] at h
    rw [List.length_cons]
    split at h
    · cases h
      have := one c
      omega
    iterate 5
      split at h
      · cases h
        exact Nat.le_of_eq (Nat.add_comm _ _)
    split at h
    · have := parseUnicode_size h
      omega
    · cases h

/-- What a string holds in ASCII characters was in the text. -/
theorem parseStringAux_size (n : Nat) (s out r : Bytes) (h : parseStringAux n s = some (out, r)) :
    plain out + r.length < s.length := by
  induction n generalizing s out r with
  | zero => cases h
  | succ n ih =>
    cases s with
    | nil => cases h
    | cons c t =>
      -- every continuation puts what it has read in front of a shorter read
      have step {bs rest : Bytes} (read : plain bs + rest.length ≤ (c :: t).length)
          (eq : prepend bs (parseStringAux n rest) = some (out, r)) : plain out + r.length < (c :: t).length := by
        simp only [prepend, Option.map_eq_some_iff, Prod.exists, Prod.mk.injEq] at eq
        obtain ⟨out', r', found, rfl, rfl⟩ := eq
        have := ih rest out' r' found
        rw [plain_append]
        omega
      simp only [parseStringAux] at h
      split at h
      · cases h
        exact Nat.lt_of_le_of_lt (Nat.le_of_eq (Nat.zero_add _)) (Nat.lt_succ_self _)
      split at h
      · split at h
        · rename_i bs rest escaped
          have read := parseEscape_size escaped
          exact step (by rw [List.length_cons]; omega) h
        · cases h
      split at h
      · cases h
      split at h
      · refine step ?_ h
        have part := plain_le_length ((c :: t).take (leadSize c))
        rw [List.length_take] at part
        rw [List.length_drop]
        omega
      · exact step (Nat.le_of_lt (Nat.lt_of_le_of_lt (Nat.le_of_eq (Nat.zero_add _)) (Nat.lt_succ_self _))) h

theorem parseString_size {s out r : Bytes} (h : parseString s = some (out, r)) : plain out + r.length < s.length :=
  parseStringAux_size _ s out r h

/-! ## Values -/

theorem skipSpace_le (s : Bytes) : (skipSpace s).length ≤ s.length := (List.dropWhile_suffix _).length_le

/-- What is left after white space and one character. -/
theorem skipSpace_rest {s t : Bytes} {c : UInt8} (h : skipSpace s = c :: t) : t.length < s.length := by
  have short := skipSpace_le s
  rw [h, List.length_cons] at short
  omega

theorem parseKey_size {s k r : Bytes} (h : parseKey s = some (k, r)) : r.length < s.length := by
  unfold parseKey at h
  split at h
  · cases h
  · rename_i c t start
    have opened := skipSpace_rest start
    split at h
    · split at h
      · cases h
      · rename_i found
        have inside := parseString_size found
        split at h
        · cases h
        · rename_i colon
          have after := skipSpace_rest colon
          split at h
          · cases h
            omega
          · cases h
    · cases h

theorem parseWord_size {word s r : Bytes} {v w : Json} (h : parseWord word v s = some (w, r)) (light : weight v = 0) :
    weight w + r.length ≤ s.length := by
  unfold parseWord at h
  split at h
  · cases h
    rw [light, List.length_drop]
    omega
  · cases h

theorem parseDigits_size {s out r : Bytes} (h : parseDigits s = some (out, r)) : r.length ≤ s.length := by
  unfold parseDigits at h
  split at h
  · cases h
  · cases h
    exact (List.dropWhile_suffix _).length_le

theorem parseFraction_size {s out r : Bytes} (h : parseFraction s = some (out, r)) : r.length ≤ s.length := by
  cases s with
  | nil => cases h; exact Nat.le_refl _
  | cons c t =>
    simp only [parseFraction] at h
    split at h
    · simp only [prepend, Option.map_eq_some_iff, Prod.exists, Prod.mk.injEq] at h
      obtain ⟨out', r', found, -, rfl⟩ := h
      have := parseDigits_size found
      rw [List.length_cons]
      omega
    · cases h; exact Nat.le_refl _

theorem parseExponent_size {s out r : Bytes} (h : parseExponent s = some (out, r)) : r.length ≤ s.length := by
  cases s with
  | nil => cases h; exact Nat.le_refl _
  | cons c t =>
    simp only [parseExponent] at h
    split at h
    · split at h
      · cases h
      · split at h
        all_goals
          simp only [prepend, Option.map_eq_some_iff, Prod.exists, Prod.mk.injEq] at h
          obtain ⟨out', r', found, -, rfl⟩ := h
          have := parseDigits_size found
          simp only [List.length_cons] at *
          omega
    · cases h; exact Nat.le_refl _

theorem parseWhole_size {s out r : Bytes} (h : parseWhole s = some (out, r)) : r.length ≤ s.length := by
  cases s with
  | nil => cases h
  | cons c t =>
    simp only [parseWhole] at h
    split at h
    · cases h; exact Nat.le_succ _
    · exact parseDigits_size h

theorem parseMagnitude_size {s out r : Bytes} (h : parseMagnitude s = some (out, r)) : r.length ≤ s.length := by
  simp only [parseMagnitude, Option.bind_eq_bind, Option.bind_eq_some_iff, Prod.exists, Option.pure_def,
    Option.some.injEq, Prod.mk.injEq] at h
  obtain ⟨_, r₁, whole, _, r₂, fraction, _, r₃, exponent, -, rfl⟩ := h
  have := parseWhole_size whole
  have := parseFraction_size fraction
  have := parseExponent_size exponent
  omega

theorem parseNumber_size {s out r : Bytes} (h : parseNumber s = some (out, r)) : r.length ≤ s.length := by
  cases s with
  | nil => cases h
  | cons c t =>
    simp only [parseNumber] at h
    split at h
    · simp only [prepend, Option.map_eq_some_iff, Prod.exists, Prod.mk.injEq] at h
      obtain ⟨out', r', found, -, rfl⟩ := h
      have := parseMagnitude_size found
      rw [List.length_cons]
      omega
    · exact parseMagnitude_size h

/-- What a reader with fuel `n` gives back was in the text. -/
structure ReadsSmall (n : Nat) : Prop where
  value : ∀ d s v r, parseValue n d s = some (v, r) → weight v + r.length ≤ s.length
  array : ∀ d s v r, parseArray n d s = some (v, r) → weight v + r.length ≤ s.length
  elems : ∀ d s xs r, parseElems n d s = some (xs, r) → weightElems xs + r.length ≤ s.length
  object : ∀ d s v r, parseObject n d s = some (v, r) → weight v + r.length ≤ s.length
  members : ∀ d s ms r, parseMembers n d s = some (ms, r) → weightMembers ms + r.length ≤ s.length

theorem parseValue_small {n : Nat} (ih : ReadsSmall n) (d : Nat) (s : Bytes) (v : Json) (r : Bytes)
    (h : parseValue (n + 1) d s = some (v, r)) : weight v + r.length ≤ s.length := by
  simp only [parseValue] at h
  split at h
  · cases h
  rename_i c t start
  have opened := skipSpace_rest start
  have whole : (c :: t).length ≤ s.length := opened
  split at h
  · simp only [Option.map_eq_some_iff, Prod.exists, Prod.mk.injEq] at h
    obtain ⟨out, r', found, rfl, rfl⟩ := h
    have := parseString_size found
    rw [weight]
    omega
  split at h
  · split at h
    · cases h
    · have := ih.array _ _ _ _ h
      omega
  split at h
  · split at h
    · cases h
    · have := ih.object _ _ _ _ h
      omega
  split at h
  · exact Nat.le_trans (parseWord_size h rfl) whole
  split at h
  · exact Nat.le_trans (parseWord_size h rfl) whole
  split at h
  · exact Nat.le_trans (parseWord_size h rfl) whole
  · simp only [Option.map_eq_some_iff, Prod.exists, Prod.mk.injEq] at h
    obtain ⟨lit, r', found, rfl, rfl⟩ := h
    have := parseNumber_size found
    rw [weight]
    omega

theorem parseElems_small {n : Nat} (ih : ReadsSmall n) (d : Nat) (s : Bytes) (xs : List Json) (r : Bytes)
    (h : parseElems (n + 1) d s = some (xs, r)) : weightElems xs + r.length ≤ s.length := by
  simp only [parseElems] at h
  split at h
  · cases h
  · rename_i v t first
    have head := ih.value _ _ _ _ first
    split at h
    · cases h
    rename_i separator
    have after := skipSpace_rest separator
    split at h
    · simp only [Option.map_eq_some_iff, Prod.exists, Prod.mk.injEq] at h
      obtain ⟨ys, r', rest, rfl, rfl⟩ := h
      have tail := ih.elems _ _ _ _ rest
      rw [weightElems]
      omega
    split at h
    · cases h
      rw [weightElems, weightElems]
      omega
    · cases h

theorem parseMembers_small {n : Nat} (ih : ReadsSmall n) (d : Nat) (s : Bytes) (ms : List (Bytes × Json)) (r : Bytes)
    (h : parseMembers (n + 1) d s = some (ms, r)) : weightMembers ms + r.length ≤ s.length := by
  simp only [parseMembers] at h
  split at h
  · cases h
  · rename_i k t key
    have name := parseKey_size key
    split at h
    · cases h
    · rename_i v t first
      have head := ih.value _ _ _ _ first
      split at h
      · cases h
      rename_i separator
      have after := skipSpace_rest separator
      split at h
      · simp only [Option.map_eq_some_iff, Prod.exists, Prod.mk.injEq] at h
        obtain ⟨ys, r', rest, rfl, rfl⟩ := h
        have tail := ih.members _ _ _ _ rest
        rw [weightMembers]
        omega
      split at h
      · cases h
        rw [weightMembers, weightMembers]
        omega
      · cases h

theorem readsSmall (n : Nat) : ReadsSmall n := by
  induction n with
  | zero =>
    constructor <;> intro d s v r h <;>
      simp [parseValue, parseArray, parseElems, parseObject, parseMembers] at h
  | succ n ih =>
    refine ⟨parseValue_small ih, ?_, parseElems_small ih, ?_, parseMembers_small ih⟩
    · intro d s v r h
      simp only [parseArray] at h
      split at h
      · cases h
      rename_i start
      have opened := skipSpace_rest start
      split at h
      · cases h
        rw [weight, weightElems]
        omega
      · simp only [Option.map_eq_some_iff, Prod.exists, Prod.mk.injEq] at h
        obtain ⟨xs, r', found, rfl, rfl⟩ := h
        exact ih.elems _ _ _ _ found
    · intro d s v r h
      simp only [parseObject] at h
      split at h
      · cases h
      rename_i start
      have opened := skipSpace_rest start
      split at h
      · cases h
        rw [weight, weightMembers]
        omega
      · simp only [Option.map_eq_some_iff, Prod.exists, Prod.mk.injEq] at h
        obtain ⟨ms, r', found, rfl, rfl⟩ := h
        exact ih.members _ _ _ _ found

/-- **A value holds no more than its text.** -/
theorem parseFirst_size {s r : Bytes} {v : Json} (h : parseFirst s = some (v, r)) : weight v ≤ s.length := by
  have := (readsSmall _).value _ _ _ _ h
  omega

theorem parse_size {s : Bytes} {v : Json} (h : parse s = some v) : weight v ≤ s.length := by
  unfold parse at h
  split at h
  · rename_i first
    split at h
    · cases h; exact parseFirst_size first
    · cases h
  · cases h

/-! ## Byte strings -/

/-- A character of the alphabet counts. -/
theorem plain_sextet {c : UInt8} {v : Nat} (h : Base64.sextet c = some v) (s : Bytes) : plain (c :: s) = plain s + 1 :=
  List.countP_cons_of_pos (decide_eq_true (Base64.sextet_ascii h))

/-- Base64 stands for fewer bytes than it has characters, and all of them are ASCII. -/
theorem decodeGroups_size (s : Bytes) : (Base64.decodeGroups s).1.length ≤ plain s := by
  fun_induction Base64.decodeGroups s with
  | case1 => exact Nat.le_refl _
  | case2 a b c d rest x y hb ha z hc w hd more ih =>
    rw [plain_sextet ha, plain_sextet hb, plain_sextet hc, plain_sextet hd]
    show (Base64.decodeGroups rest).1.length + 3 ≤ _
    omega
  | case3 a b c rest x y hb ha z hc hd =>
    rw [plain_sextet ha, plain_sextet hb]
    exact Nat.le_add_left _ _
  | case5 a b c d rest x y hb ha hc padded =>
    rw [plain_sextet ha]
    exact Nat.le_add_left _ _
  | case4 | case6 | case7 | case8 => exact Nat.zero_le _

theorem decode_size (s : Bytes) : (Base64.decode s).1.length ≤ plain s :=
  Nat.le_trans (decodeGroups_size _) List.filter_sublist.countP_le

/-- Four characters stand for three bytes at most. -/
theorem decodeGroups_dense (s : Bytes) : 4 * (Base64.decodeGroups s).1.length ≤ 3 * plain s := by
  have padded : ∀ rest : Bytes, plain (Base64.pad :: rest) = plain rest + 1 := fun rest =>
    List.countP_cons_of_pos (by decide)
  fun_induction Base64.decodeGroups s with
  | case1 => exact Nat.le_refl _
  | case2 a b c d rest x y hb ha z hc w hd more ih =>
    rw [plain_sextet ha, plain_sextet hb, plain_sextet hc, plain_sextet hd]
    show 4 * ((Base64.decodeGroups rest).1.length + 3) ≤ _
    omega
  | case3 a b c rest x y hb ha z hc hd =>
    rw [plain_sextet ha, plain_sextet hb, plain_sextet hc, padded]
    show 4 * 2 ≤ _
    omega
  | case5 a b c d rest x y hb ha hc pads =>
    rw [pads.1, pads.2, plain_sextet ha, plain_sextet hb, padded, padded]
    show 4 * 1 ≤ _
    omega
  | case4 | case6 | case7 | case8 => exact Nat.zero_le _

theorem decode_dense (s : Bytes) : 4 * (Base64.decode s).1.length ≤ 3 * plain s := by
  have fewer : plain (s.filter fun c => c ≠ 10 ∧ c ≠ 13) ≤ plain s := List.filter_sublist.countP_le
  have groups := decodeGroups_dense (s.filter fun c => c ≠ 10 ∧ c ≠ 13)
  unfold Base64.decode
  omega

theorem elements_length {α : Type} (elem : Decoder α) (zero : α) (xs : List Json) (olds : List α) :
    (elements elem zero xs olds).1.length = xs.length := by
  induction xs generalizing olds with
  | nil => rfl
  | cons x xs ih => exact congrArg (· + 1) (ih olds.tail)

/-- A byte string is no longer than the value it is stored from, or than it was. -/
theorem bytes_within (n : Nat) : KeepsOn (fun j => weight j ≤ n) (fun b : Bytes => b.length ≤ n) bytes := by
  intro j old light short
  cases j with
  | str s =>
    simp only [bytes]
    split
    · exact Nat.le_trans (decode_size s) light
    · exact short
  | arr xs =>
    show (elements (unsigned uint8Of) 0 xs old).1.length ≤ n
    rw [elements_length]
    exact Nat.le_trans (length_le_weightElems xs) light
  | null => exact Nat.zero_le n
  | bool b => exact short
  | num lit => exact short
  | obj ms => exact short

/-- A string has no more ASCII characters than the value it is stored from, or than it had. -/
theorem string_within (n : Nat) : KeepsOn (fun j => weight j ≤ n) (fun s : Bytes => plain s ≤ n) string := by
  intro j old light short
  cases j with
  | str s => exact light
  | null => exact short
  | bool b => exact short
  | num lit => exact short
  | arr xs => exact short
  | obj ms => exact short

theorem record_within {α : Type} {n : Nat} {P : α → Prop} {fields : List (StructField α)}
    (keeps : ∀ f ∈ fields, KeepsOn (fun j => weight j ≤ n) P f.store) :
    KeepsOn (fun j => weight j ≤ n) P (record fields) := by
  refine record_keepsOn (fun ms light m inside => ?_) keeps
  exact Nat.le_trans (weight_le_of_mem inside) light

theorem unmarshal_within {α : Type} {P : α → Prop} {dec : Decoder α} {zero : α} (ok : P zero) (text : Bytes)
    (keeps : KeepsOn (fun j => weight j ≤ text.length) P dec) : P (unmarshal dec zero text).1 := by
  unfold unmarshal
  split
  · rename_i j found
    exact keeps j zero (parse_size found) ok
  · exact ok

theorem decodeFirst_within {α : Type} {P : α → Prop} {dec : Decoder α} {zero : α} (ok : P zero) (text : Bytes)
    (keeps : KeepsOn (fun j => weight j ≤ text.length) P dec) : P (decodeFirst dec zero text).1 := by
  unfold decodeFirst
  split
  · rename_i j rest found
    exact keeps j zero (parseFirst_size found) ok
  · exact ok

end SpectreRelay.Lib.Json
