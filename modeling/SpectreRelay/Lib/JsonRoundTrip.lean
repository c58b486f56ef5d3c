import SpectreRelay.Lib.Json

/-!
# Reading back what was printed

`parse_print`: the text of a printable value reads back as that value, with
every string sanitized. The argument goes by the pieces of a string
(`parseStringAux_escape`), by the digits of an integer (`parseNumber_format`)
and by induction on the value (`parseValue_print`); the fuel of the reader is
three units for each printed character.
-/

namespace SpectreRelay.Lib.Json
set_option autoImplicit false
open Utf8

/-! ## Integers -/

theorem digit_facts : ∀ d < 10, (digit d).toNat = 48 + d ∧ isDigit (digit d) = true ∧ digit d < 0x80 := by
  decide

theorem decimalAux_digits (f n : Nat) : ∀ c ∈ decimalAux f n, isDigit c = true := by
  induction f generalizing n with
  | zero => simp [decimalAux]
  | succ f ih =>
    intro c inside
    simp only [decimalAux] at inside
    split at inside
    · rename_i small
      rw [List.mem_singleton.1 inside]
      exact (digit_facts n small).2.1
    · rcases List.mem_append.1 inside with front | last
      · exact ih _ c front
      · rw [List.mem_singleton.1 last]
        exact (digit_facts _ (Nat.mod_lt _ (by decide))).2.1

theorem natOf_append (ds : Bytes) (c : UInt8) : natOf (ds ++ [c]) = natOf ds * 10 + (c.toNat - 48) := by
  simp [natOf, List.foldl_append]

theorem natOf_decimalAux (f n : Nat) (enough : n < f) : natOf (decimalAux f n) = n := by
  induction f generalizing n with
  | zero => omega
  | succ f ih =>
    simp only [decimalAux]
    split
    · rename_i small
      simp [natOf, (digit_facts n small).1]
    · rename_i large
      rw [natOf_append, ih (n / 10) (by omega), (digit_facts _ (Nat.mod_lt n (by decide))).1]
      omega

/-- The digits of a positive number do not start with zero. -/
theorem decimalAux_head (f n : Nat) (enough : n < f) :
    ∃ c t, decimalAux f n = c :: t ∧ isDigit c = true ∧ (c = 48 → t = []) := by
  induction f generalizing n with
  | zero => omega
  | succ f ih =>
    simp only [decimalAux]
    split
    · rename_i small
      exact ⟨digit n, [], rfl, (digit_facts n small).2.1, fun _ => rfl⟩
    · rename_i large
      obtain ⟨c, t, text, isDig, zero⟩ := ih (n / 10) (by omega)
      refine ⟨c, t ++ [digit (n % 10)], by rw [text]; rfl, isDig, fun leading => ?_⟩
      -- a leading zero would make the quotient zero
      have value := natOf_decimalAux f (n / 10) (by omega)
      rw [text, zero leading, leading] at value
      simp only [natOf, List.foldl_cons, List.foldl_nil] at value
      have : (48 : UInt8).toNat = 48 := rfl
      omega

theorem natOf_decimal (n : Nat) : natOf (decimal n) = n := natOf_decimalAux _ _ (Nat.lt_succ_self n)

theorem decimal_digits (n : Nat) : ∀ c ∈ decimal n, isDigit c = true := decimalAux_digits _ _

/-- Natural numbers read back. -/
theorem parseNat_format (n : Nat) : parseNat (formatInt n) = some n := by
  have digits : formatInt n = decimal n := if_neg (Int.not_lt.2 (Int.natCast_nonneg n))
  have some : decimal n ≠ [] := by
    obtain ⟨c, t, text, -⟩ := decimalAux_head (n + 1) n (Nat.lt_succ_self n)
    rw [decimal, text]
    exact List.cons_ne_nil c t
  rw [digits, parseNat, if_pos ⟨some, List.all_eq_true.2 (decimal_digits n)⟩, natOf_decimal]

/-- Integers read back. -/
theorem parseInt_format (n : Int) : parseInt (formatInt n) = some n := by
  obtain ⟨c, t, text, isDig, -⟩ := decimalAux_head (n.natAbs + 1) n.natAbs (Nat.lt_succ_self _)
  have shape : decimal n.natAbs = c :: t := text
  have all : (c :: t).all isDigit = true := List.all_eq_true.2 (shape ▸ decimal_digits n.natAbs)
  have value : natOf (c :: t) = n.natAbs := shape ▸ natOf_decimal n.natAbs
  unfold formatInt
  split
  · rename_i negative
    rw [shape]
    simp only [parseInt, if_true, ne_eq, reduceCtorEq, not_false_eq_true, all, and_self, value, Option.some.injEq]
    omega
  · rename_i positive
    have notMinus : c ≠ 45 := by rintro rfl; cases isDig
    rw [shape]
    simp only [parseInt, notMinus, if_false, all, if_true, value, Option.some.injEq]
    omega

/-- Nothing at the head of the text continues a number. -/
def Stop (r : Bytes) : Prop :=
  ∀ c t, r = c :: t → isDigit c = false ∧ c ≠ 46 ∧ c ≠ 101 ∧ c ≠ 69

theorem stop_nil : Stop [] := nofun

theorem stop_cons {c : UInt8} {t : Bytes} (h : isDigit c = false ∧ c ≠ 46 ∧ c ≠ 101 ∧ c ≠ 69) : Stop (c :: t) := by
  intro x u same
  cases same
  exact h

theorem span_digits {ds r : Bytes} (digits : ∀ c ∈ ds, isDigit c = true) (stop : Stop r) :
    (ds ++ r).takeWhile isDigit = ds ∧ (ds ++ r).dropWhile isDigit = r := by
  induction ds with
  | nil =>
    cases r with
    | nil => exact ⟨rfl, rfl⟩
    | cons c t => simp [(stop c t rfl).1]
  | cons c ds ih =>
    have first := digits c (by simp)
    have rest := ih fun x inside => digits x (by simp [inside])
    simp [first, rest]

theorem parseFraction_stop {r : Bytes} (stop : Stop r) : parseFraction r = some ([], r) := by
  cases r with
  | nil => rfl
  | cons c t => simp [parseFraction, (stop c t rfl).2.1]

theorem parseExponent_stop {r : Bytes} (stop : Stop r) : parseExponent r = some ([], r) := by
  cases r with
  | nil => rfl
  | cons c t => simp [parseExponent, (stop c t rfl).2.2.1, (stop c t rfl).2.2.2]

theorem parseWhole_decimal (n : Nat) {r : Bytes} (stop : Stop r) :
    parseWhole (decimal n ++ r) = some (decimal n, r) := by
  obtain ⟨c, t, text, isDig, zero⟩ := decimalAux_head (n + 1) n (Nat.lt_succ_self n)
  have shape : decimal n = c :: t := text
  obtain ⟨taken, dropped⟩ := span_digits (decimal_digits n) stop
  rw [shape] at taken dropped ⊢
  by_cases leading : c = 48
  · rw [zero leading, leading]; rfl
  · rw [List.cons_append] at taken dropped ⊢
    simp only [parseWhole, leading, if_false, parseDigits, taken, dropped, reduceCtorEq]

theorem parseMagnitude_decimal (n : Nat) {r : Bytes} (stop : Stop r) :
    parseMagnitude (decimal n ++ r) = some (decimal n, r) := by
  simp [parseMagnitude, parseWhole_decimal n stop, parseFraction_stop stop, parseExponent_stop stop]

/-- The literal of an integer is read whole. -/
theorem parseNumber_format (n : Int) {r : Bytes} (stop : Stop r) :
    parseNumber (formatInt n ++ r) = some (formatInt n, r) := by
  unfold formatInt
  split
  · simp [parseNumber, parseMagnitude_decimal _ stop, prepend]
  · obtain ⟨c, t, text, isDig, -⟩ := decimalAux_head (n.natAbs + 1) n.natAbs (Nat.lt_succ_self _)
    have shape : decimal n.natAbs = c :: t := text
    have notMinus : c ≠ 45 := by rintro rfl; cases isDig
    have whole := parseMagnitude_decimal n.natAbs stop
    rw [shape, List.cons_append] at whole ⊢
    simp only [parseNumber, notMinus, if_false, whole]

/-! ## Strings -/

theorem hexVal_hexDigit : ∀ d < 16, hexVal (hexDigit d) = some d := by decide

theorem parseUnicode_hexEscape {c : UInt8} (small : c < 0x80) (rest : Bytes) :
    parseUnicode (48 :: 48 :: hexDigit (c.toNat / 16) :: hexDigit (c.toNat % 16) :: rest) = some ([c], rest) := by
  have bound : c.toNat < 128 := UInt8.lt_iff_toNat_lt.1 small
  have high := hexVal_hexDigit (c.toNat / 16) (by omega)
  have low := hexVal_hexDigit (c.toNat % 16) (by omega)
  have zero : hexVal 48 = some 0 := rfl
  have whole : ((0 * 16 + 0) * 16 + c.toNat / 16) * 16 + c.toNat % 16 = c.toNat := by omega
  have notSurrogate : ¬(0xD800 ≤ c.toNat ∧ c.toNat < 0xE000) := by omega
  simp only [parseUnicode, hex4, high, low, zero, Option.bind_eq_bind, Option.bind_some, Option.pure_def, whole,
    notSurrogate, if_false, encodeRune, bound, if_true, UInt8.ofNat_toNat]

theorem parseStringAux_escapeAscii {c : UInt8} (small : c < 0x80) (n : Nat) (rest : Bytes) :
    parseStringAux (n + 1) (escapeAscii c ++ rest) = prepend [c] (parseStringAux n rest) := by
  unfold escapeAscii
  split
  · rename_i h
    rcases h with rfl | rfl <;> simp [parseStringAux, parseEscape]
  split
  · rename_i h; subst h; simp [parseStringAux, parseEscape]
  split
  · rename_i h; subst h; simp [parseStringAux, parseEscape]
  split
  · rename_i h; subst h; simp [parseStringAux, parseEscape]
  split
  · rename_i h; subst h; simp [parseStringAux, parseEscape]
  split
  · rename_i h; subst h; simp [parseStringAux, parseEscape]
  split
  · simp [hexEscape, parseStringAux, parseEscape, parseUnicode_hexEscape small]
  · rename_i notQuote _ _ _ _ _ notControl
    have size : leadSize c = 1 := by simp [leadSize, small]
    have alone : isRune [c] = true := decide_eq_true small
    simp only [not_or] at notQuote notControl
    simp [parseStringAux, notQuote.1, notQuote.2, notControl.1, size, alone]

/-- One step of the reader per piece of the string. -/
theorem parseStringAux_escapePiece (p : Piece) (n : Nat) (rest : Bytes) :
    parseStringAux (n + 1) (escapePiece p ++ rest) = prepend p.bytes (parseStringAux n rest) := by
  cases p with
  | bad => rfl
  | rune bs ok =>
    match bs, ok with
    | [c], ok =>
      have small : c < 0x80 := of_decide_eq_true ok
      exact parseStringAux_escapeAscii small n rest
    | a :: b :: t, ok =>
      simp only [escapePiece, Piece.bytes]
      split
      · rename_i line
        rw [line]; rfl
      split
      · rename_i paragraph
        rw [paragraph]; rfl
      · have size := leadSize_of_rune ok
        have large : ¬ a < 0x80 := by
          intro small
          simp [leadSize, small] at size
        have notQuote : a ≠ 34 := by rintro rfl; exact large (by decide)
        have notSlash : a ≠ 92 := by rintro rfl; exact large (by decide)
        have notControl : ¬ a < 0x20 := by
          intro control
          exact large (UInt8.lt_trans control (by decide))
        have front : (a :: (b :: t ++ rest)).take (leadSize a) = a :: b :: t := by
          rw [size, ← List.cons_append, List.take_left']
          rfl
        have back : (a :: (b :: t ++ rest)).drop (leadSize a) = rest := by
          rw [size, ← List.cons_append, List.drop_left']
          rfl
        simp only [List.cons_append] at front back ⊢
        simp only [parseStringAux, notQuote, notSlash, notControl, if_false, front, back, ok, if_true]

theorem parseStringAux_escape (ps : List Piece) (r : Bytes) (n : Nat) (enough : ps.length < n) :
    parseStringAux n (ps.flatMap escapePiece ++ 34 :: r) = some (ps.flatMap Piece.bytes, r) := by
  induction ps generalizing n with
  | nil =>
    cases n with
    | zero => omega
    | succ n => simp [parseStringAux]
  | cons p ps ih =>
    cases n with
    | zero => omega
    | succ n =>
      simp only [List.length_cons] at enough
      rw [List.flatMap_cons, List.append_assoc, parseStringAux_escapePiece, ih n (by omega)]
      rfl

theorem escapeAscii_ne_nil (c : UInt8) : escapeAscii c ≠ [] := by
  unfold escapeAscii hexEscape
  repeat (split; · exact List.cons_ne_nil _ _)
  exact List.cons_ne_nil _ _

theorem escapePiece_ne_nil (p : Piece) : escapePiece p ≠ [] := by
  cases p with
  | bad => exact List.cons_ne_nil _ _
  | rune bs ok =>
    match bs, ok with
    | [c], _ => exact escapeAscii_ne_nil c
    | a :: b :: t, _ =>
      simp only [escapePiece]
      repeat (split; · exact List.cons_ne_nil _ _)
      exact List.cons_ne_nil _ _

theorem pieces_le_escape (ps : List Piece) : ps.length ≤ (ps.flatMap escapePiece).length := by
  induction ps with
  | nil => exact Nat.le_refl _
  | cons p ps ih =>
    have pos := List.length_pos_of_ne_nil (escapePiece_ne_nil p)
    simp only [List.flatMap_cons, List.length_append, List.length_cons]
    omega

/-- A string literal reads back sanitized. -/
theorem parseString_escape (s r : Bytes) : parseString (escape s ++ 34 :: r) = some (sanitize s, r) := by
  have enough := pieces_le_escape (pieces s)
  exact parseStringAux_escape (pieces s) r _ (by simp only [escape, List.length_append, List.length_cons]; omega)

/-! ## Values -/

mutual

/-- The value with every string and key sanitized. -/
def clean : Json → Json
  | .null => .null
  | .bool b => .bool b
  | .num lit => .num lit
  | .str s => .str (sanitize s)
  | .arr xs => .arr (cleanElems xs)
  | .obj ms => .obj (cleanMembers ms)

def cleanElems : List Json → List Json
  | [] => []
  | x :: xs => clean x :: cleanElems xs

def cleanMembers : List (Bytes × Json) → List (Bytes × Json)
  | [] => []
  | (k, x) :: ms => (sanitize k, clean x) :: cleanMembers ms

end

/-- Values an encoder prints: their numbers are integers, and they nest at most `d` deep. -/
inductive Printable : Nat → Json → Prop where
  | null {d : Nat} : Printable d .null
  | bool {d : Nat} (b : Bool) : Printable d (.bool b)
  | int {d : Nat} (n : Int) : Printable d (.int n)
  | str {d : Nat} (s : Bytes) : Printable d (.str s)
  | arr {d : Nat} {xs : List Json} : (∀ x ∈ xs, Printable d x) → Printable (d + 1) (.arr xs)
  | obj {d : Nat} {ms : List (Bytes × Json)} : (∀ m ∈ ms, Printable d m.2) → Printable (d + 1) (.obj ms)

/-- How a printed value can begin. -/
def startsValue (c : UInt8) : Bool :=
  c == 34 || c == 91 || c == 123 || c == 110 || c == 116 || c == 102 || c == 45 || isDigit c

theorem startsValue_ne {c : UInt8} (h : startsValue c = true) : isSpace c = false ∧ c ≠ 93 ∧ c ≠ 125 := by
  refine ⟨?_, ?_, ?_⟩
  · cases space : isSpace c with
    | false => rfl
    | true =>
      simp only [isSpace, Bool.or_eq_true, beq_iff_eq] at space
      rcases space with ((rfl | rfl) | rfl) | rfl <;> cases h
  · rintro rfl; cases h
  · rintro rfl; cases h

theorem formatInt_head (n : Int) : ∃ c t, formatInt n = c :: t ∧ (c = 45 ∨ isDigit c = true) := by
  obtain ⟨c, t, text, isDig, -⟩ := decimalAux_head (n.natAbs + 1) n.natAbs (Nat.lt_succ_self _)
  unfold formatInt
  split
  · exact ⟨45, _, rfl, Or.inl rfl⟩
  · exact ⟨c, t, text, Or.inr isDig⟩

theorem print_head {d : Nat} {v : Json} (h : Printable d v) : ∃ c t, print v = c :: t ∧ startsValue c = true := by
  cases h with
  | null => exact ⟨110, _, rfl, rfl⟩
  | bool b => cases b <;> exact ⟨_, _, rfl, rfl⟩
  | int n =>
    obtain ⟨c, t, text, head⟩ := formatInt_head n
    refine ⟨c, t, by simp only [int, print, text], ?_⟩
    rcases head with rfl | isDig
    · rfl
    · simp [startsValue, isDig]
  | str s => exact ⟨34, _, rfl, rfl⟩
  | arr => rename_i xs _; cases xs <;> exact ⟨91, _, rfl, rfl⟩
  | obj =>
    rename_i ms _
    cases ms with
    | nil => exact ⟨123, _, rfl, rfl⟩
    | cons m ms => exact ⟨123, quote m.1 ++ 58 :: (print m.2 ++ printMembers ms), by simp only [print], rfl⟩

theorem skipSpace_cons {c : UInt8} {t : Bytes} (h : isSpace c = false) : skipSpace (c :: t) = c :: t := by
  simp [skipSpace, h]

/-- What the reader does on a printed value, at one nesting depth. -/
def Reads (d : Nat) (v : Json) : Prop :=
  ∀ n r, 3 * (print v).length ≤ n → Stop r → parseValue n d (print v ++ r) = some (clean v, r)

theorem printElems_stop (xs : List Json) (r : Bytes) : Stop (printElems xs ++ r) := by
  cases xs with
  | nil => exact stop_cons (by decide)
  | cons x xs => simp only [printElems]; exact stop_cons (by decide)

theorem printMembers_stop (ms : List (Bytes × Json)) (r : Bytes) : Stop (printMembers ms ++ r) := by
  cases ms with
  | nil => exact stop_cons (by decide)
  | cons m ms => simp only [printMembers]; exact stop_cons (by decide)

theorem parseElems_print {d : Nat} (xs : List Json) (x : Json) (reads : ∀ y ∈ x :: xs, Reads d y) (n : Nat)
    (r : Bytes) (enough : 3 * ((print x).length + (printElems xs).length) < n) :
    parseElems n d (print x ++ (printElems xs ++ r)) = some (cleanElems (x :: xs), r) := by
  induction xs generalizing x n with
  | nil =>
    cases n with
    | zero => omega
    | succ n =>
      have first := reads x (by simp) n (printElems [] ++ r) (by omega) (printElems_stop [] r)
      simp only [parseElems, first]
      rfl
  | cons y xs ih =>
    cases n with
    | zero => omega
    | succ n =>
      simp only [printElems, List.length_cons, List.length_append] at enough
      have first := reads x (by simp) n (printElems (y :: xs) ++ r) (by omega) (printElems_stop _ r)
      have rest := ih y (fun z inside => reads z (by simp [inside])) n (by omega)
      simp only [printElems, List.cons_append, List.append_assoc] at first ⊢
      have comma : isSpace 44 = false := by decide
      simp only [parseElems, first, skipSpace_cons comma, if_true, rest, Option.map_some]
      rfl

theorem parseKey_quote (k r : Bytes) : parseKey (quote k ++ 58 :: r) = some (sanitize k, r) := by
  have string := parseString_escape k (58 :: r)
  have space : isSpace 34 = false := by decide
  have colon : isSpace 58 = false := by decide
  simp only [quote, List.cons_append, List.append_assoc, List.nil_append, parseKey, skipSpace_cons space, if_true,
    string, skipSpace_cons colon]

theorem parseMembers_print {d : Nat} (ms : List (Bytes × Json)) (m : Bytes × Json)
    (reads : ∀ y ∈ m :: ms, Reads d y.2) (n : Nat) (r : Bytes)
    (enough : 3 * ((quote m.1).length + (print m.2).length + (printMembers ms).length) < n) :
    parseMembers n d (quote m.1 ++ 58 :: (print m.2 ++ (printMembers ms ++ r))) =
      some (cleanMembers (m :: ms), r) := by
  induction ms generalizing m n with
  | nil =>
    cases n with
    | zero => omega
    | succ n =>
      have first := reads m (by simp) n (printMembers [] ++ r) (by omega) (printMembers_stop [] r)
      simp only [parseMembers, parseKey_quote, first]
      rfl
  | cons y ms ih =>
    cases n with
    | zero => omega
    | succ n =>
      obtain ⟨k, x⟩ := y
      simp only [printMembers, List.length_cons, List.length_append] at enough
      have first := reads m (by simp) n (printMembers ((k, x) :: ms) ++ r) (by omega) (printMembers_stop _ r)
      have rest := ih (k, x) (fun z inside => reads z (by simp [inside])) n (by simp only; omega)
      simp only [printMembers, List.cons_append, List.append_assoc] at first rest ⊢
      have comma : isSpace 44 = false := by decide
      simp only [parseMembers, parseKey_quote, first, skipSpace_cons comma, if_true, rest, Option.map_some]
      rfl

/-! The reader's choice by the first character. -/

theorem parseValue_bracket (n d : Nat) (t : Bytes) : parseValue (n + 1) (d + 1) (91 :: t) = parseArray n d t := by
  have space : isSpace 91 = false := by decide
  simp [parseValue, skipSpace_cons space]

theorem parseValue_brace (n d : Nat) (t : Bytes) : parseValue (n + 1) (d + 1) (123 :: t) = parseObject n d t := by
  have space : isSpace 123 = false := by decide
  simp [parseValue, skipSpace_cons space]

theorem parseValue_quote (n d : Nat) (s r : Bytes) : parseValue (n + 1) d (quote s ++ r) = some (.str (sanitize s), r) := by
  have space : isSpace 34 = false := by decide
  have string := parseString_escape s r
  simp only [quote, List.cons_append, List.append_assoc, List.nil_append, parseValue, skipSpace_cons space, if_true,
    string, Option.map_some]

theorem parseWord_append (word : Bytes) (v : Json) (r : Bytes) : parseWord word v (word ++ r) = some (v, r) := by
  simp [parseWord]

theorem parseValue_null (n d : Nat) (r : Bytes) : parseValue (n + 1) d (ascii "null" ++ r) = some (.null, r) := by
  have word := parseWord_append (ascii "null") .null r
  have text : ascii "null" = 110 :: [117, 108, 108] := by decide
  have space : isSpace 110 = false := by decide
  rw [text] at word
  simpa [text, parseValue, skipSpace_cons space] using word

theorem parseValue_true (n d : Nat) (r : Bytes) : parseValue (n + 1) d (ascii "true" ++ r) = some (.bool true, r) := by
  have word := parseWord_append (ascii "true") (.bool true) r
  have text : ascii "true" = 116 :: [114, 117, 101] := by decide
  have space : isSpace 116 = false := by decide
  rw [text] at word
  simpa [text, parseValue, skipSpace_cons space] using word

theorem parseValue_false (n d : Nat) (r : Bytes) : parseValue (n + 1) d (ascii "false" ++ r) = some (.bool false, r) := by
  have word := parseWord_append (ascii "false") (.bool false) r
  have text : ascii "false" = 102 :: [97, 108, 115, 101] := by decide
  have space : isSpace 102 = false := by decide
  rw [text] at word
  simpa [text, parseValue, skipSpace_cons space] using word

/-- The reader on the elements of a printed array. -/
theorem parseArray_print {d : Nat} {xs : List Json} (plain : ∀ x ∈ xs, Printable d x) (reads : ∀ x ∈ xs, Reads d x) :
    Reads (d + 1) (.arr xs) := by
  intro n r enough stop
  cases xs with
  | nil =>
    simp only [print, List.length_cons, List.length_nil] at enough
    obtain ⟨k, rfl⟩ : ∃ k, n = k + 2 := ⟨n - 2, by omega⟩
    have space : isSpace 93 = false := by decide
    simp [print, parseValue_bracket, parseArray, skipSpace_cons space, clean, cleanElems]
  | cons x xs =>
    simp only [print, List.length_cons, List.length_append] at enough
    obtain ⟨k, rfl⟩ : ∃ k, n = k + 2 := ⟨n - 2, by omega⟩
    have elems := parseElems_print xs x reads k r (by omega)
    obtain ⟨c, t, text, head⟩ := print_head (plain x (by simp))
    obtain ⟨space, notClose, -⟩ := startsValue_ne head
    simp only [text, List.cons_append] at elems
    simp only [print, text, List.cons_append, List.append_assoc, parseValue_bracket, parseArray, skipSpace_cons space,
      notClose, if_false, elems, Option.map_some, clean]

/-- The reader on the members of a printed object. -/
theorem parseObject_print {d : Nat} {ms : List (Bytes × Json)} (reads : ∀ m ∈ ms, Reads d m.2) :
    Reads (d + 1) (.obj ms) := by
  intro n r enough stop
  cases ms with
  | nil =>
    simp only [print, List.length_cons, List.length_nil] at enough
    obtain ⟨k, rfl⟩ : ∃ k, n = k + 2 := ⟨n - 2, by omega⟩
    have space : isSpace 125 = false := by decide
    simp [print, parseValue_brace, parseObject, skipSpace_cons space, clean, cleanMembers]
  | cons m ms =>
    obtain ⟨key, x⟩ := m
    simp only [print, List.length_cons, List.length_append] at enough
    obtain ⟨k, rfl⟩ : ∃ k, n = k + 2 := ⟨n - 2, by omega⟩
    have members := parseMembers_print ms (key, x) reads k r (by simp only; omega)
    have space : isSpace 34 = false := by decide
    have notClose : (34 : UInt8) ≠ 125 := by decide
    simp only [quote, List.cons_append, List.append_assoc] at members
    simp only [print, quote, List.cons_append, List.append_assoc, parseValue_brace, parseObject, skipSpace_cons space,
      notClose, if_false, members, Option.map_some, clean]

theorem parseNumber_value {d : Nat} (m : Int) : Reads d (.int m) := by
  intro n r enough stop
  obtain ⟨c, t, text, head⟩ := formatInt_head m
  have number := parseNumber_format m stop
  simp only [int, print, text, List.cons_append, List.length_cons] at number enough ⊢
  obtain ⟨k, rfl⟩ : ∃ k, n = k + 1 := ⟨n - 1, by omega⟩
  have other : isSpace c = false ∧ c ≠ 34 ∧ c ≠ 91 ∧ c ≠ 123 ∧ c ≠ 110 ∧ c ≠ 116 ∧ c ≠ 102 := by
    rcases head with rfl | isDig
    · decide
    · refine ⟨(startsValue_ne (by simp [startsValue, isDig])).1, ?_, ?_, ?_, ?_, ?_, ?_⟩ <;> (rintro rfl; cases isDig)
  obtain ⟨space, h1, h2, h3, h4, h5, h6⟩ := other
  simp only [parseValue, skipSpace_cons space, h1, h2, h3, h4, h5, h6, if_false, number, Option.map_some, clean]

/-- Reading back, by induction on the value. -/
theorem parseValue_print {d : Nat} {v : Json} (h : Printable d v) : Reads d v := by
  induction h with
  | null =>
    intro n r enough stop
    obtain ⟨k, rfl⟩ : ∃ k, n = k + 1 := ⟨n - 1, by simp [print, ascii] at enough; omega⟩
    exact parseValue_null k _ r
  | bool b =>
    intro n r enough stop
    obtain ⟨k, rfl⟩ : ∃ k, n = k + 1 := ⟨n - 1, by cases b <;> simp [print, ascii] at enough <;> omega⟩
    cases b
    · exact parseValue_false k _ r
    · exact parseValue_true k _ r
  | int m => exact parseNumber_value m
  | str s =>
    intro n r enough stop
    obtain ⟨k, rfl⟩ : ∃ k, n = k + 1 := ⟨n - 1, by simp [print, quote] at enough; omega⟩
    exact parseValue_quote k _ s r
  | arr plain reads => exact parseArray_print plain reads
  | obj plain reads => exact parseObject_print reads

/-- The first value of a text that starts with a printed one. -/
theorem parseFirst_print {v : Json} (h : Printable maxNesting v) {r : Bytes} (stop : Stop r) :
    parseFirst (print v ++ r) = some (clean v, r) :=
  parseValue_print h _ r (by simp only [List.length_append]; omega) stop

/-- **Round trip.** The text of a printable value reads back as the value, its strings sanitized. -/
theorem parse_print {v : Json} (h : Printable maxNesting v) : parse (print v) = some (clean v) := by
  have first := parseFirst_print h stop_nil
  rw [List.append_nil] at first
  simp [parse, first, skipSpace]

end SpectreRelay.Lib.Json
