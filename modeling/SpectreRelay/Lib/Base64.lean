import SpectreRelay.Lib.Bytes

/-!
# Standard base64

`encode` writes padded base64. `decode` reads it the lenient way of the
standard decoder: line breaks are ignored, unused trailing bits are not
checked, and a malformed text yields the bytes decoded before the error
together with the error. `decode_encode` is the round trip.
-/

namespace SpectreRelay.Lib.Base64
set_option autoImplicit false
open SpectreRelay.Lib

/-- The padding character. -/
def pad : UInt8 := 61

/-- The character of a 6-bit value. -/
def symbol (v : Nat) : UInt8 :=
  if v < 26 then UInt8.ofNat (65 + v)
  else if v < 52 then UInt8.ofNat (71 + v)
  else if v < 62 then UInt8.ofNat (v - 4)
  else if v = 62 then 43 else 47

/-- The 6-bit value of a character of the alphabet. -/
def sextet (c : UInt8) : Option Nat :=
  let n := c.toNat
  if 65 ≤ n ∧ n ≤ 90 then some (n - 65)
  else if 97 ≤ n ∧ n ≤ 122 then some (n - 71)
  else if 48 ≤ n ∧ n ≤ 57 then some (n + 4)
  else if n = 43 then some 62
  else if n = 47 then some 63 else none

/-- Padded base64 of a byte string, three bytes at a time. -/
def encode : Bytes → Bytes
  | [] => []
  | [a] => [symbol (a.toNat / 4), symbol (a.toNat % 4 * 16), pad, pad]
  | [a, b] => [symbol (a.toNat / 4), symbol (a.toNat % 4 * 16 + b.toNat / 16), symbol (b.toNat % 16 * 4), pad]
  | a :: b :: c :: rest =>
    symbol (a.toNat / 4) :: symbol (a.toNat % 4 * 16 + b.toNat / 16) ::
      symbol (b.toNat % 16 * 4 + c.toNat / 64) :: symbol (c.toNat % 64) :: encode rest

/-- The first byte of a group, from its first two values. -/
def first (x y : Nat) : UInt8 := UInt8.ofNat (x * 4 + y / 16)

/-- The second byte, from the second and third value. -/
def second (y z : Nat) : UInt8 := UInt8.ofNat (y % 16 * 16 + z / 4)

/-- The third byte, from the last two values. -/
def third (z w : Nat) : UInt8 := UInt8.ofNat (z % 4 * 64 + w)

/-- Groups of four characters: the bytes decoded up to the first error, and whether there was none.
Padding must end the text; a group cut short is an error. -/
def decodeGroups : Bytes → Bytes × Bool
  | [] => ([], true)
  | a :: b :: c :: d :: rest =>
    match sextet a, sextet b with
    | some x, some y =>
      match sextet c with
      | some z =>
        match sextet d with
        | some w =>
          let more := decodeGroups rest
          (first x y :: second y z :: third z w :: more.1, more.2)
        | none => if d = pad then ([first x y, second y z], rest.isEmpty) else ([], false)
      | none => if c = pad ∧ d = pad then ([first x y], rest.isEmpty) else ([], false)
    | _, _ => ([], false)
  | _ => ([], false)

/-- Decoded bytes and success; carriage returns and line feeds are ignored. -/
def decode (s : Bytes) : Bytes × Bool := decodeGroups (s.filter fun c => c ≠ 10 ∧ c ≠ 13)

/-! ## Round trip -/

theorem symbol_facts : ∀ v < 64, sextet (symbol v) = some v ∧ symbol v ≠ 10 ∧ symbol v ≠ 13 ∧ symbol v < 0x80 := by
  decide

theorem sextet_symbol {v : Nat} (h : v < 64) : sextet (symbol v) = some v := (symbol_facts v h).1

theorem sextet_pad : sextet pad = none := by decide

/-- A byte given by the same number. -/
theorem ofNat_eq {n : Nat} {a : UInt8} (same : n = a.toNat) : UInt8.ofNat n = a := by
  rw [same, UInt8.ofNat_toNat]

theorem decodeGroups_encode (s : Bytes) : decodeGroups (encode s) = (s, true) := by
  fun_induction encode s with
  | case1 => rfl
  | case2 a =>
    have := a.toNat_lt
    have one : first (a.toNat / 4) (a.toNat % 4 * 16) = a := ofNat_eq (by omega)
    simp [decodeGroups, sextet_symbol (v := a.toNat / 4) (by omega),
      sextet_symbol (v := a.toNat % 4 * 16) (by omega), sextet_pad, one]
  | case3 a b =>
    have := a.toNat_lt
    have := b.toNat_lt
    have one : first (a.toNat / 4) (a.toNat % 4 * 16 + b.toNat / 16) = a := ofNat_eq (by omega)
    have two : second (a.toNat % 4 * 16 + b.toNat / 16) (b.toNat % 16 * 4) = b := ofNat_eq (by omega)
    simp [decodeGroups, sextet_symbol (v := a.toNat / 4) (by omega),
      sextet_symbol (v := a.toNat % 4 * 16 + b.toNat / 16) (by omega),
      sextet_symbol (v := b.toNat % 16 * 4) (by omega), sextet_pad, one, two]
  | case4 a b c rest ih =>
    have := a.toNat_lt
    have := b.toNat_lt
    have := c.toNat_lt
    have one : first (a.toNat / 4) (a.toNat % 4 * 16 + b.toNat / 16) = a := ofNat_eq (by omega)
    have two : second (a.toNat % 4 * 16 + b.toNat / 16) (b.toNat % 16 * 4 + c.toNat / 64) = b :=
      ofNat_eq (by omega)
    have three : third (b.toNat % 16 * 4 + c.toNat / 64) (c.toNat % 64) = c := ofNat_eq (by omega)
    simp only [decodeGroups, sextet_symbol (v := a.toNat / 4) (by omega),
      sextet_symbol (v := a.toNat % 4 * 16 + b.toNat / 16) (by omega),
      sextet_symbol (v := b.toNat % 16 * 4 + c.toNat / 64) (by omega),
      sextet_symbol (v := c.toNat % 64) (by omega), ih, one, two, three]

/-- Every character `encode` writes is one of the alphabet or padding. -/
theorem encode_chars (s : Bytes) : ∀ c ∈ encode s, (∃ v < 64, c = symbol v) ∨ c = pad := by
  fun_induction encode s with
  | case1 => simp
  | case2 a =>
    have := a.toNat_lt
    intro c inside
    simp only [List.mem_cons, List.not_mem_nil, or_false] at inside
    rcases inside with rfl | rfl | rfl | rfl
    · exact Or.inl ⟨_, by omega, rfl⟩
    · exact Or.inl ⟨_, by omega, rfl⟩
    · exact Or.inr rfl
    · exact Or.inr rfl
  | case3 a b =>
    have := a.toNat_lt
    have := b.toNat_lt
    intro c inside
    simp only [List.mem_cons, List.not_mem_nil, or_false] at inside
    rcases inside with rfl | rfl | rfl | rfl
    · exact Or.inl ⟨_, by omega, rfl⟩
    · exact Or.inl ⟨_, by omega, rfl⟩
    · exact Or.inl ⟨_, by omega, rfl⟩
    · exact Or.inr rfl
  | case4 a b c rest ih =>
    have := a.toNat_lt
    have := b.toNat_lt
    have := c.toNat_lt
    intro x inside
    simp only [List.mem_cons] at inside
    rcases inside with rfl | rfl | rfl | rfl | inside
    · exact Or.inl ⟨_, by omega, rfl⟩
    · exact Or.inl ⟨_, by omega, rfl⟩
    · exact Or.inl ⟨_, by omega, rfl⟩
    · exact Or.inl ⟨_, by omega, rfl⟩
    · exact ih x inside

/-- Base64 is ASCII without line breaks. -/
theorem encode_plain (s : Bytes) : ∀ c ∈ encode s, c ≠ 10 ∧ c ≠ 13 ∧ c < 0x80 := by
  intro c inside
  rcases encode_chars s c inside with ⟨v, small, rfl⟩ | rfl
  · exact (symbol_facts v small).2
  · decide

/-- **Round trip.** -/
theorem decode_encode (s : Bytes) : decode (encode s) = (s, true) := by
  have kept : (encode s).filter (fun c => c ≠ 10 ∧ c ≠ 13) = encode s :=
    List.filter_eq_self.2 fun c inside => by
      have plain := encode_plain s c inside
      simp [plain.1, plain.2.1]
  rw [decode, kept, decodeGroups_encode]

/-! ## Lengths -/

/-- The number of characters of a text that the decoder looks at. -/
def textLength (s : Bytes) : Nat := (s.filter fun c => c ≠ 10 ∧ c ≠ 13).length

/-- Text without an error has four characters for every three bytes, counted up. -/
theorem decodeGroups_length {s : Bytes} (ok : (decodeGroups s).2 = true) :
    s.length = ((decodeGroups s).1.length + 2) / 3 * 4 := by
  fun_induction decodeGroups s with
  | case1 => rfl
  | case2 a b c d rest x y hy hx z hz w hw more ih =>
    have tail := ih ok
    simp only [more, List.length_cons]
    omega
  | case3 a b c rest x y hy hx z hz _ =>
    rw [List.isEmpty_iff] at ok
    subst ok
    simp only [List.length_cons, List.length_nil]
  | case5 a b c d rest x y hy hx _ both =>
    rw [List.isEmpty_iff] at ok
    subst ok
    simp only [List.length_cons, List.length_nil]
  | case4 | case6 | case7 | case8 => cases ok

/-- Bytes that do not fill the last group end with padding, so only what follows the padding can be wrong. -/
theorem decodeGroups_ok {s : Bytes} (uneven : (decodeGroups s).1.length % 3 ≠ 0)
    (length : s.length = ((decodeGroups s).1.length + 2) / 3 * 4) : (decodeGroups s).2 = true := by
  fun_induction decodeGroups s with
  | case1 => rfl
  | case2 a b c d rest x y hy hx z hz w hw more ih =>
    simp only [more, List.length_cons] at uneven length
    apply ih
    · omega
    · omega
  | case3 a b c rest x y hy hx z hz _ =>
    simp only [List.length_cons, List.length_nil] at length
    rw [List.isEmpty_iff, ← List.length_eq_zero_iff]
    omega
  | case5 a b c d rest x y hy hx _ both =>
    simp only [List.length_cons, List.length_nil] at length
    rw [List.isEmpty_iff, ← List.length_eq_zero_iff]
    omega
  | case4 | case6 | case7 | case8 => exact absurd rfl uneven

/-- **Lengths decide.** If the decoded bytes do not fill the last group, the text is well-formed exactly when it has
the length of an encoding of that many bytes. -/
theorem decode_ok_iff {s : Bytes} (uneven : (decode s).1.length % 3 ≠ 0) :
    (decode s).2 = true ↔ textLength s = ((decode s).1.length + 2) / 3 * 4 := by
  constructor
  · exact decodeGroups_length
  · exact decodeGroups_ok uneven

theorem sextet_ascii {c : UInt8} {v : Nat} (h : sextet c = some v) : c < 0x80 := by
  rw [UInt8.lt_iff_toNat_lt]
  change c.toNat < 128
  by_contra large
  simp only [sextet] at h
  repeat' split at h
  all_goals first | omega | cases h

theorem decodeGroups_ascii (s : Bytes) (ok : (decodeGroups s).2 = true) : ∀ c ∈ s, c < 0x80 := by
  have padding : pad < 0x80 := by decide
  fun_induction decodeGroups s with
  | case1 => simp
  | case2 a b c d rest x y hy hx z hz w hw more ih =>
    intro e inside
    simp only [List.mem_cons] at inside
    rcases inside with rfl | rfl | rfl | rfl | inside
    · exact sextet_ascii hx
    · exact sextet_ascii hy
    · exact sextet_ascii hz
    · exact sextet_ascii hw
    · exact ih ok e inside
  | case3 a b c rest x y hy hx z hz _ =>
    rw [List.isEmpty_iff] at ok
    subst ok
    intro e inside
    simp only [List.mem_cons, List.not_mem_nil, or_false] at inside
    rcases inside with rfl | rfl | rfl | rfl
    · exact sextet_ascii hx
    · exact sextet_ascii hy
    · exact sextet_ascii hz
    · exact padding
  | case5 a b c d rest x y hy hx _ both =>
    rw [List.isEmpty_iff] at ok
    subst ok
    obtain ⟨rfl, rfl⟩ := both
    intro e inside
    simp only [List.mem_cons, List.not_mem_nil, or_false] at inside
    rcases inside with rfl | rfl | rfl | rfl
    · exact sextet_ascii hx
    · exact sextet_ascii hy
    · exact padding
    · exact padding
  | case4 => cases ok
  | case6 => cases ok
  | case7 => cases ok
  | case8 => cases ok

/-- What decodes is ASCII. -/
theorem decode_ascii {s : Bytes} (ok : (decode s).2 = true) : ∀ c ∈ s, c < 0x80 := by
  intro c inside
  by_cases break' : c ≠ 10 ∧ c ≠ 13
  · exact decodeGroups_ascii _ ok c (List.mem_filter.2 ⟨inside, decide_eq_true break'⟩)
  · have : c = 10 ∨ c = 13 := by
      by_contra neither
      exact break' ⟨fun h => neither (.inl h), fun h => neither (.inr h)⟩
    rcases this with rfl | rfl <;> decide

end SpectreRelay.Lib.Base64
