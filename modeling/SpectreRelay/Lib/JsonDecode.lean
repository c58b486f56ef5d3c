import Mathlib.Algebra.Ring.Int.Defs
import SpectreRelay.Lib.Base64
import SpectreRelay.Lib.JsonRoundTrip

/-!
# Storing JSON into typed variables

The reader of a typed language stores a JSON value into a variable it already
has. A member whose key names no field is ignored, a field without a member
keeps its value, `null` leaves a plain variable alone, and a value of the wrong
type is an error that does not stop the rest from being stored. A `Decoder`
therefore gives the variable after the value and whether no error occurred;
`unmarshal` runs one on a text.
-/

namespace SpectreRelay.Lib.Json
set_option autoImplicit false
open Utf8

/-- Stores a value: the variable afterwards, and whether no error was recorded. -/
abbrev Decoder (α : Type) := Json → α → α × Bool

/-- A string variable. -/
def string : Decoder Bytes
  | .str s, _ => (s, true)
  | .null, old => (old, true)
  | _, old => (old, false)

/-- A number variable that holds what `read` makes of a literal. -/
def number {α : Type} (read : Bytes → Option α) : Decoder α
  | .num lit, old =>
    match read lit with
    | some n => (n, true)
    | none => (old, false)
  | .null, old => (old, true)
  | _, old => (old, false)

/-- A signed variable that holds the integers `ofInt` accepts. -/
def integer {α : Type} (ofInt : Int → Option α) : Decoder α := number fun lit => (parseInt lit).bind ofInt

/-- An unsigned variable that holds the numbers `ofNat` accepts. -/
def unsigned {α : Type} (ofNat : Nat → Option α) : Decoder α := number fun lit => (parseNat lit).bind ofNat

/-- A 64-bit signed integer in range. -/
def int64Of (n : Int) : Option Int64 := if -2 ^ 63 ≤ n ∧ n < 2 ^ 63 then some (Int64.ofInt n) else none

/-- A 32-bit unsigned integer in range. -/
def uint32Of (n : Nat) : Option UInt32 := if n < UInt32.size then some (UInt32.ofNat n) else none

/-- A byte in range. -/
def uint8Of (n : Nat) : Option UInt8 := if n < UInt8.size then some (UInt8.ofNat n) else none

/-- The elements of an array, each stored into the element already there or else into a zero variable. Elements that a
shorter array has cut off are not kept: a key given three times may uncover them in a reader that reuses its memory. -/
def elements {α : Type} (elem : Decoder α) (zero : α) : List Json → List α → List α × Bool
  | [], _ => ([], true)
  | x :: xs, olds =>
    let first := elem x (olds.headD zero)
    let rest := elements elem zero xs olds.tail
    (first.1 :: rest.1, first.2 && rest.2)

/-- A list variable. -/
def slice {α : Type} (elem : Decoder α) (zero : α) : Decoder (List α)
  | .arr xs, old => elements elem zero xs old
  | .null, _ => ([], true)
  | _, old => (old, false)

/-- A byte-string variable: base64, or an array of numbers. -/
def bytes : Decoder Bytes
  | .str s, old => if (Base64.decode s).2 then ((Base64.decode s).1, true) else (old, false)
  | .arr xs, old => elements (unsigned uint8Of) 0 xs old
  | .null, _ => ([], true)
  | _, old => (old, false)

/-- An optional variable: `null` clears it, anything else is stored into what it holds or a zero. -/
def pointer {α : Type} (inner : Decoder α) (zero : α) : Decoder (Option α)
  | .null, _ => (none, true)
  | j, old => (some (inner j (old.getD zero)).1, (inner j (old.getD zero)).2)

/-- A field of a record: its key and how a value is stored into the record. -/
structure StructField (α : Type) where
  name : Bytes
  store : Decoder α

/-- The field with key `name`, read by `get` and written by `set`. -/
def StructField.of {α β : Type} (name : String) (get : α → β) (set : β → α → α) (inner : Decoder β) : StructField α where
  name := ascii name
  store j v := (set (inner j (get v)).1 v, (inner j (get v)).2)

/-- Puts `S` for U+017F and `K` for U+212A, the two characters that fold to an ASCII letter. -/
def foldSpecial : Bytes → Bytes
  | a :: b :: c :: t =>
    if a = 0xC5 ∧ b = 0xBF then 83 :: foldSpecial (c :: t)
    else if a = 0xE2 ∧ b = 0x84 ∧ c = 0xAA then 75 :: foldSpecial t
    else a :: foldSpecial (b :: c :: t)
  | [a, b] => if a = 0xC5 ∧ b = 0xBF then [83] else [a, b]
  | s => s

/-- A key with the case of its letters folded, enough to compare it with an ASCII name. -/
def foldName (s : Bytes) : Bytes := foldSpecial (s.map fun a => if 97 ≤ a ∧ a ≤ 122 then a - 32 else a)

/-- The field that a key names: by its exact name, else up to case. -/
def findField {α : Type} (fields : List (StructField α)) (key : Bytes) : Option (StructField α) :=
  match fields.find? fun f => f.name == key with
  | some f => some f
  | none => fields.find? fun f => foldName f.name == foldName key

/-- Stores the members in order; an unknown key is ignored. -/
def storeAll {α : Type} (fields : List (StructField α)) : List (Bytes × Json) → α × Bool → α × Bool
  | [], acc => acc
  | (k, j) :: ms, acc =>
    match findField fields k with
    | none => storeAll fields ms acc
    | some f => storeAll fields ms ((f.store j acc.1).1, acc.2 && (f.store j acc.1).2)

/-- A record variable. -/
def record {α : Type} (fields : List (StructField α)) : Decoder α
  | .obj ms, old => storeAll fields ms (old, true)
  | .null, old => (old, true)
  | _, old => (old, false)

/-- Stores a text into a zero variable; a malformed text stores nothing. -/
def unmarshal {α : Type} (dec : Decoder α) (zero : α) (text : Bytes) : α × Bool :=
  match parse text with
  | some j => dec j zero
  | none => (zero, false)

/-- Stores the first value of a text, whatever follows it. -/
def decodeFirst {α : Type} (dec : Decoder α) (zero : α) (text : Bytes) : α × Bool :=
  match parseFirst text with
  | some (j, _) => dec j zero
  | none => (zero, false)

/-! ## Reading back -/

theorem string_str (s old : Bytes) : string (.str s) old = (s, true) := rfl

theorem integer_int {α : Type} {ofInt : Int → Option α} {n : Int} {v : α} (fits : ofInt n = some v) (old : α) :
    integer ofInt (.int n) old = (v, true) := by
  simp [integer, number, int, parseInt_format, fits]

theorem unsigned_int {α : Type} {ofNat : Nat → Option α} {n : Nat} {v : α} (fits : ofNat n = some v) (old : α) :
    unsigned ofNat (.int n) old = (v, true) := by
  simp [unsigned, number, int, parseNat_format, fits]

theorem int64Of_toInt (n : Int64) : int64Of n.toInt = some n := by
  simp only [int64Of, Int64.ofInt_toInt]
  exact if_pos ⟨n.le_toInt, n.toInt_lt⟩

theorem uint32Of_toNat (n : UInt32) : uint32Of n.toNat = some n := by
  simp only [uint32Of, UInt32.ofNat_toNat]
  exact if_pos n.toNat_lt

theorem bytes_base64 (s old : Bytes) : bytes (.str (Base64.encode s)) old = (s, true) := by
  simp [bytes, Base64.decode_encode]

theorem storeAll_found {α : Type} {fields : List (StructField α)} {k : Bytes} {f : StructField α}
    (found : findField fields k = some f) (j : Json) (ms : List (Bytes × Json)) (acc : α × Bool) :
    storeAll fields ((k, j) :: ms) acc = storeAll fields ms ((f.store j acc.1).1, acc.2 && (f.store j acc.1).2) := by
  simp only [storeAll, found]

theorem storeAll_ignored {α : Type} {fields : List (StructField α)} {k : Bytes}
    (missing : findField fields k = none) (j : Json) (ms : List (Bytes × Json)) (acc : α × Bool) :
    storeAll fields ((k, j) :: ms) acc = storeAll fields ms acc := by
  simp only [storeAll, missing]

theorem mem_of_findField {α : Type} {fields : List (StructField α)} {key : Bytes} {f : StructField α}
    (found : findField fields key = some f) : f ∈ fields := by
  unfold findField at found
  split at found
  · rename_i exact'
    cases found
    exact List.mem_of_find?_eq_some exact'
  · exact List.mem_of_find?_eq_some found

/-- A property of the variable that storing any of the members into any of the fields keeps. -/
theorem storeAll_keeping {α : Type} {P : α → Prop} {fields : List (StructField α)} (ms : List (Bytes × Json))
    (keeps : ∀ m ∈ ms, ∀ f ∈ fields, ∀ v, P v → P (f.store m.2 v).1) (acc : α × Bool) (ok : P acc.1) :
    P (storeAll fields ms acc).1 := by
  induction ms generalizing acc with
  | nil => exact ok
  | cons m ms ih =>
    have later := ih fun m' inside => keeps m' (List.mem_cons_of_mem _ inside)
    simp only [storeAll]
    split
    · exact later acc ok
    · rename_i f found
      exact later _ (keeps m List.mem_cons_self f (mem_of_findField found) acc.1 ok)

/-- A decoder keeps `P` on the values with `J`: storing one into a variable with `P` gives one with `P`. -/
def KeepsOn {α : Type} (J : Json → Prop) (P : α → Prop) (dec : Decoder α) : Prop := ∀ j v, J j → P v → P (dec j v).1

/-- A field keeps what its inner decoder keeps, and leaves the other fields alone. -/
theorem StructField.of_keepsOn {α β : Type} {J : Json → Prop} {P : α → Prop} {Q : β → Prop} {name : String} {get : α → β}
    {set : β → α → α} {inner : Decoder β} (keeps : KeepsOn J Q inner) (held : ∀ v, P v → Q (get v))
    (put : ∀ b v, P v → Q b → P (set b v)) : KeepsOn J P (StructField.of name get set inner).store := by
  intro j v fits ok
  exact put _ v ok (keeps j (get v) fits (held v ok))

/-- A record decoder keeps what each of its fields keeps. -/
theorem record_keepsOn {α : Type} {J : Json → Prop} {P : α → Prop} {fields : List (StructField α)}
    (members : ∀ ms, J (.obj ms) → ∀ m ∈ ms, J m.2) (keeps : ∀ f ∈ fields, KeepsOn J P f.store) :
    KeepsOn J P (record fields) := by
  intro j v fits ok
  cases j with
  | obj ms =>
    exact storeAll_keeping ms (fun m inside f listed w => keeps f listed m.2 w (members ms fits m inside)) (v, true) ok
  | _ => exact ok

/-- The text of a printable value is stored as the value, its strings sanitized. -/
theorem unmarshal_print {α : Type} (dec : Decoder α) (zero : α) {v : Json} (h : Printable maxNesting v) :
    unmarshal dec zero (print v) = dec (clean v) zero := by
  simp [unmarshal, parse_print h]

theorem decodeFirst_print {α : Type} (dec : Decoder α) (zero : α) {v : Json} (h : Printable maxNesting v) :
    decodeFirst dec zero (print v) = dec (clean v) zero := by
  have first := parseFirst_print h stop_nil
  rw [List.append_nil] at first
  simp [decodeFirst, first]

/-- The encoder ends a text with a newline, which the reader skips. -/
theorem unmarshal_line {α : Type} (dec : Decoder α) (zero : α) {v : Json} (h : Printable maxNesting v) :
    unmarshal dec zero (print v ++ [10]) = dec (clean v) zero := by
  have stop : Stop [10] := stop_cons (by decide)
  have blank : skipSpace [10] = [] := by decide
  simp only [unmarshal, parse, parseFirst_print h stop, blank, if_true]

theorem sanitize_base64 (s : Bytes) : sanitize (Base64.encode s) = Base64.encode s :=
  Valid.sanitize (valid_ascii fun c inside => (Base64.encode_plain s c inside).2.2)

theorem clean_int (n : Int) : clean (.int n) = .int n := rfl

end SpectreRelay.Lib.Json
