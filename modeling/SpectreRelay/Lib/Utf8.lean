import SpectreRelay.Lib.Bytes

/-!
# UTF-8 and its replacement character

A byte string is read as text piece by piece: a piece is one well-formed
sequence (`isRune`, the table of RFC 3629) or one byte that starts none.
`sanitize` is what a text encoder makes of an arbitrary byte string: it keeps
the well-formed sequences and puts U+FFFD for each other byte. `Valid` strings
are its fixed points.
-/

namespace SpectreRelay.Lib.Utf8
set_option autoImplicit false
open SpectreRelay.Lib

/-- A continuation byte. -/
def isTail (b : UInt8) : Bool := 0x80 ≤ b && b ≤ 0xBF

/-- The length of the sequence that a first byte announces, 0 for a byte that starts none. -/
def leadSize (a : UInt8) : Nat :=
  if a < 0x80 then 1
  else if 0xC2 ≤ a && a ≤ 0xDF then 2
  else if 0xE0 ≤ a && a ≤ 0xEF then 3
  else if 0xF0 ≤ a && a ≤ 0xF4 then 4
  else 0

/-- One well-formed sequence: no overlong form, no surrogate, nothing above U+10FFFF. -/
def isRune : Bytes → Bool
  | [a] => a < 0x80
  | [a, b] => leadSize a == 2 && isTail b
  | [a, b, c] => leadSize a == 3 && isTail b && isTail c && (a != 0xE0 || 0xA0 ≤ b) && (a != 0xED || b ≤ 0x9F)
  | [a, b, c, d] =>
    leadSize a == 4 && isTail b && isTail c && isTail d && (a != 0xF0 || 0x90 ≤ b) && (a != 0xF4 || b ≤ 0x8F)
  | _ => false

/-- The encoding of U+FFFD. -/
def replacement : Bytes := [0xEF, 0xBF, 0xBD]

/-- A well-formed sequence, or a byte that belongs to none. -/
inductive Piece where
  | rune (bs : Bytes) (ok : isRune bs = true)
  | bad

/-- A piece as it reads back once encoded. -/
def Piece.bytes : Piece → Bytes
  | .rune bs _ => bs
  | .bad => replacement

/-- Whether the piece is a well-formed sequence. -/
def Piece.good : Piece → Bool
  | .rune _ _ => true
  | .bad => false

/-- The first `n` pieces of the text. -/
def piecesAux : Nat → Bytes → List Piece
  | 0, _ => []
  | _ + 1, [] => []
  | n + 1, a :: t =>
    if ok : isRune ((a :: t).take (leadSize a)) = true then
      .rune _ ok :: piecesAux n ((a :: t).drop (leadSize a))
    else .bad :: piecesAux n t

/-- The text piece by piece; there are at most as many pieces as bytes. -/
def pieces (s : Bytes) : List Piece := piecesAux s.length s

/-- The text with U+FFFD for each byte outside a well-formed sequence. -/
def sanitize (s : Bytes) : Bytes := (pieces s).flatMap Piece.bytes

/-- The whole text is well-formed UTF-8. -/
def valid (s : Bytes) : Bool := (pieces s).all Piece.good

/-- `valid` as a proposition. -/
abbrev Valid (s : Bytes) : Prop := valid s = true

/-! ## One piece -/

theorem leadSize_of_rune {a : UInt8} {t : Bytes} (ok : isRune (a :: t) = true) :
    leadSize a = (a :: t).length := by
  match t, ok with
  | [], ok => simp only [isRune, decide_eq_true_eq] at ok; simp [leadSize, ok]
  | [b], ok => simp only [isRune, Bool.and_eq_true, beq_iff_eq] at ok; simp [ok.1]
  | [b, c], ok => simp only [isRune, Bool.and_eq_true, beq_iff_eq] at ok; simp [ok.1.1.1.1]
  | [b, c, d], ok => simp only [isRune, Bool.and_eq_true, beq_iff_eq] at ok; simp [ok.1.1.1.1.1]

theorem rune_ne_nil {bs : Bytes} (ok : isRune bs = true) : bs ≠ [] := by
  rintro rfl
  cases ok

/-- The bytes after the first of a sequence are continuation bytes. -/
theorem tail_of_rune {a b : UInt8} {t : Bytes} (ok : isRune (a :: t) = true) (inside : b ∈ t) :
    isTail b = true := by
  match t, ok with
  | [], ok => simp at inside
  | [x], ok =>
    simp only [isRune, Bool.and_eq_true] at ok
    simp only [List.mem_singleton] at inside
    rw [inside]; exact ok.2
  | [x, y], ok =>
    simp only [isRune, Bool.and_eq_true] at ok
    simp only [List.mem_cons, List.not_mem_nil, or_false] at inside
    rcases inside with rfl | rfl
    · exact ok.1.1.1.2
    · exact ok.1.1.2
  | [x, y, z], ok =>
    simp only [isRune, Bool.and_eq_true] at ok
    simp only [List.mem_cons, List.not_mem_nil, or_false] at inside
    rcases inside with rfl | rfl | rfl
    · exact ok.1.1.1.1.2
    · exact ok.1.1.1.2
    · exact ok.1.1.2

/-- An ASCII byte is never a continuation byte. -/
theorem isTail_ascii {b : UInt8} (small : b < 0x80) : isTail b = false := by
  simp only [isTail, Bool.and_eq_false_iff, decide_eq_false_iff_not]
  exact Or.inl (UInt8.not_le.2 small)

/-! ## The pieces of a text -/

theorem leadSize_pos {a : UInt8} {t : Bytes} (ok : isRune ((a :: t).take (leadSize a)) = true) :
    0 < leadSize a := by
  rcases Nat.eq_zero_or_pos (leadSize a) with zero | pos
  · rw [zero] at ok; cases ok
  · exact pos

/-- Any fuel from the length on gives the same pieces. -/
theorem piecesAux_fuel (n m : Nat) (s : Bytes) (hn : s.length ≤ n) (hm : s.length ≤ m) :
    piecesAux n s = piecesAux m s := by
  induction n generalizing m s with
  | zero =>
    have empty : s = [] := List.length_eq_zero_iff.1 (Nat.le_zero.1 hn)
    subst empty
    cases m <;> rfl
  | succ n ih =>
    cases m with
    | zero =>
      have empty : s = [] := List.length_eq_zero_iff.1 (Nat.le_zero.1 hm)
      subst empty
      rfl
    | succ m =>
      cases s with
      | nil => rfl
      | cons a t =>
        simp only [List.length_cons] at hn hm
        simp only [piecesAux]
        split
        · rename_i ok
          have pos := leadSize_pos ok
          rw [ih m _ (by simp; omega) (by simp; omega)]
        · rw [ih m t (by omega) (by omega)]

@[simp] theorem pieces_nil : pieces [] = [] := rfl

/-- A well-formed sequence in front is the first piece, whatever follows. -/
theorem pieces_rune {bs : Bytes} (ok : isRune bs = true) (r : Bytes) :
    pieces (bs ++ r) = .rune bs ok :: pieces r := by
  cases bs with
  | nil => cases ok
  | cons a t =>
    have size := leadSize_of_rune ok
    have front : (a :: (t ++ r)).take (leadSize a) = a :: t := by
      rw [size, ← List.cons_append, List.take_left']
      rfl
    have rest : (a :: (t ++ r)).drop (leadSize a) = r := by
      rw [size, ← List.cons_append, List.drop_left']
      rfl
    simp only [pieces, List.cons_append, List.length_cons, piecesAux, front, rest, ok, dif_pos]
    rw [piecesAux_fuel _ r.length r (by simp) (Nat.le_refl _)]

/-- A byte that starts no sequence is a piece of its own. -/
theorem pieces_bad {a : UInt8} {t : Bytes} (no : isRune ((a :: t).take (leadSize a)) = false) :
    pieces (a :: t) = .bad :: pieces t := by
  simp [pieces, piecesAux, no]

/-- Every text is empty, starts with a sequence, or starts with a byte outside any. -/
theorem text_cases (s : Bytes) :
    s = [] ∨ (∃ bs r, ∃ _ : isRune bs = true, s = bs ++ r) ∨
      (∃ a t, s = a :: t ∧ isRune ((a :: t).take (leadSize a)) = false) := by
  cases s with
  | nil => exact Or.inl rfl
  | cons a t =>
    cases ok : isRune ((a :: t).take (leadSize a)) with
    | true => exact Or.inr (Or.inl ⟨_, _, ok, (List.take_append_drop _ _).symm⟩)
    | false => exact Or.inr (Or.inr ⟨a, t, rfl, ok⟩)

/-- Induction over a text by its pieces. -/
theorem text_induction {motive : Bytes → Prop} (nil : motive [])
    (rune : ∀ bs r, isRune bs = true → motive r → motive (bs ++ r))
    (bad : ∀ a t, isRune ((a :: t).take (leadSize a)) = false → motive t → motive (a :: t))
    (s : Bytes) : motive s := by
  induction h : s.length using Nat.strongRecOn generalizing s with
  | ind n ih =>
    subst h
    rcases text_cases s with rfl | ⟨bs, r, ok, rfl⟩ | ⟨a, t, rfl, no⟩
    · exact nil
    · have pos := List.length_pos_of_ne_nil (rune_ne_nil ok)
      exact rune bs r ok (ih r.length (by simp; omega) r rfl)
    · exact bad a t no (ih t.length (by simp) t rfl)

/-! ## Valid text -/

@[simp] theorem valid_nil : valid [] = true := rfl

theorem valid_rune {bs : Bytes} (ok : isRune bs = true) (r : Bytes) : valid (bs ++ r) = valid r := by
  simp [valid, pieces_rune ok, Piece.good]

theorem sanitize_rune {bs : Bytes} (ok : isRune bs = true) (r : Bytes) :
    sanitize (bs ++ r) = bs ++ sanitize r := by
  simp [sanitize, pieces_rune ok, Piece.bytes]

theorem sanitize_bad {a : UInt8} {t : Bytes} (no : isRune ((a :: t).take (leadSize a)) = false) :
    sanitize (a :: t) = replacement ++ sanitize t := by
  simp [sanitize, pieces_bad no, Piece.bytes]

theorem length_le_sanitize (s : Bytes) : s.length ≤ (sanitize s).length := by
  induction s using text_induction with
  | nil => exact Nat.zero_le _
  | rune bs r ok ih => simp only [sanitize_rune ok, List.length_append]; omega
  | bad a t no ih =>
    simp only [sanitize_bad no, replacement, List.length_append, List.length_cons, List.length_nil]
    omega

theorem sanitize_ne_nil {s : Bytes} (h : s ≠ []) : sanitize s ≠ [] := by
  intro empty
  have longer := length_le_sanitize s
  rw [empty] at longer
  exact h (List.length_eq_zero_iff.1 (Nat.le_zero.1 longer))

/-- The valid texts are those that an encoder leaves as they are. -/
theorem sanitize_eq_iff (s : Bytes) : sanitize s = s ↔ Valid s := by
  induction s using text_induction with
  | nil => exact iff_of_true rfl rfl
  | rune bs r ok ih => rw [sanitize_rune ok, List.append_cancel_left_eq, ih, Valid, Valid, valid_rune ok]
  | bad a t no ih =>
    have invalid : valid (a :: t) = false := by simp [valid, pieces_bad no, Piece.good]
    simp only [Valid, invalid, Bool.false_eq_true, iff_false]
    intro same
    have longer := congrArg List.length same
    have bound := length_le_sanitize t
    simp only [sanitize_bad no, replacement, List.length_append, List.length_cons, List.length_nil] at longer
    omega

theorem Valid.sanitize {s : Bytes} (ok : Valid s) : Utf8.sanitize s = s := (sanitize_eq_iff s).2 ok

/-- What an encoder produces is valid. -/
theorem valid_sanitize (s : Bytes) : Valid (sanitize s) := by
  induction s using text_induction with
  | nil => rfl
  | rune bs r ok ih => rw [sanitize_rune ok, Valid, valid_rune ok]; exact ih
  | bad a t no ih =>
    have ok : isRune replacement = true := by decide
    rw [sanitize_bad no, Valid, valid_rune ok]
    exact ih

/-- ASCII text is valid. -/
theorem valid_ascii {s : Bytes} (small : ∀ b ∈ s, b < 0x80) : Valid s := by
  induction s with
  | nil => rfl
  | cons b rest ih =>
    have ok : isRune [b] = true := decide_eq_true (small b (by simp))
    rw [Valid, ← List.singleton_append, valid_rune ok]
    exact ih fun c inside => small c (by simp [inside])

/-- A byte that starts no sequence in `a :: t` starts none when an ASCII byte follows. -/
theorem not_rune_before_ascii {a sep : UInt8} {t d : Bytes} (small : sep < 0x80)
    (no : isRune ((a :: t).take (leadSize a)) = false) :
    isRune ((a :: t ++ sep :: d).take (leadSize a)) = false := by
  by_cases fits : leadSize a ≤ (a :: t).length
  · rwa [List.take_append_of_le_length fits]
  · -- the sequence would have to reach over the separator, which is no continuation byte
    rw [Bool.eq_false_iff]
    intro ok
    obtain ⟨k, size⟩ : ∃ k, leadSize a = (a :: t).length + (k + 1) := ⟨leadSize a - (a :: t).length - 1, by omega⟩
    rw [size, List.take_length_add_append, List.take_succ_cons, List.cons_append] at ok
    have tail := tail_of_rune ok (b := sep) (by simp)
    rw [isTail_ascii small] at tail
    cases tail

/-- An ASCII byte is a boundary between pieces, so both sides of it are valid. -/
theorem Valid.split {sep : UInt8} (small : sep < 0x80) {u d : Bytes} (ok : Valid (u ++ sep :: d)) :
    Valid u ∧ Valid d := by
  induction u using text_induction with
  | nil =>
    have alone : isRune [sep] = true := decide_eq_true small
    rw [Valid, List.nil_append, ← List.singleton_append, valid_rune alone] at ok
    exact ⟨rfl, ok⟩
  | rune bs r rune ih =>
    rw [Valid, List.append_assoc, valid_rune rune] at ok
    rw [Valid, valid_rune rune]
    exact ih ok
  | bad a t no ih =>
    have bad : pieces (a :: (t ++ sep :: d)) = .bad :: pieces (t ++ sep :: d) :=
      pieces_bad (not_rune_before_ascii small no)
    simp only [Valid, valid, List.cons_append, bad, List.all_cons, Piece.good, Bool.false_and] at ok
    cases ok

end SpectreRelay.Lib.Utf8
