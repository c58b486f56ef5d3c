import SpectreRelay.Lib.Utf8

/-!
# JSON values and their text

`Json.print` is compact JSON with the escapes of a browser-safe encoder;
`Json.parse` reads any JSON text, with the grammar of RFC 8259 and a bound on
nesting. Strings are byte strings: the encoder writes U+FFFD for a byte outside
a well-formed UTF-8 sequence, and the reader puts U+FFFD for such a byte and
for an unpaired surrogate. Numbers keep their literal, so that a reader of
integers can refuse `1.0` and `1e3`.

The file has the definitions; the round trip is in `JsonRoundTrip`.
-/

namespace SpectreRelay.Lib
set_option autoImplicit false
open Utf8

/-- A JSON value; an object keeps its members in textual order, repeated keys included. -/
inductive Json where
  | null
  | bool (b : Bool)
  | num (lit : Bytes)
  | str (s : Bytes)
  | arr (elems : List Json)
  | obj (members : List (Bytes × Json))

namespace Json

/-! ## Integers -/

/-- The character of a decimal digit. -/
def digit (d : Nat) : UInt8 := UInt8.ofNat (48 + d)

def isDigit (c : UInt8) : Bool := 48 ≤ c && c ≤ 57

/-- The decimal digits of `n`, given fuel above their number. -/
def decimalAux : Nat → Nat → Bytes
  | 0, _ => []
  | f + 1, n => if n < 10 then [digit n] else decimalAux f (n / 10) ++ [digit (n % 10)]

/-- Decimal notation of a natural number. -/
def decimal (n : Nat) : Bytes := decimalAux (n + 1) n

/-- Decimal notation of an integer. -/
def formatInt (n : Int) : Bytes := if n < 0 then 45 :: decimal n.natAbs else decimal n.natAbs

/-- The number that a run of digits denotes. -/
def natOf (ds : Bytes) : Nat := ds.foldl (fun acc c => acc * 10 + (c.toNat - 48)) 0

/-- The integer that a literal denotes: digits only, after at most a minus sign. -/
def parseInt (lit : Bytes) : Option Int :=
  match lit with
  | [] => none
  | c :: ds =>
    if c = 45 then (if ds ≠ [] ∧ ds.all isDigit then some (-(natOf ds : Int)) else none)
    else if (c :: ds).all isDigit then some (natOf (c :: ds)) else none

/-- The natural number that a literal denotes: digits only. A sign is refused, that of `-0` too. -/
def parseNat (lit : Bytes) : Option Nat := if lit ≠ [] ∧ lit.all isDigit then some (natOf lit) else none

/-- An integer as a JSON value. -/
def int (n : Int) : Json := .num (formatInt n)

/-! ## Printing -/

/-- A lower-case hexadecimal digit. -/
def hexDigit (d : Nat) : UInt8 := if d < 10 then UInt8.ofNat (48 + d) else UInt8.ofNat (87 + d)

/-- `\u00XX` for a control or markup character. -/
def hexEscape (c : UInt8) : Bytes := [92, 117, 48, 48, hexDigit (c.toNat / 16), hexDigit (c.toNat % 16)]

/-- One ASCII character inside a string: quoting, the five short escapes, and `\u00XX` for the
other control characters and for `&`, `<` and `>`. -/
def escapeAscii (c : UInt8) : Bytes :=
  if c = 34 ∨ c = 92 then [92, c]
  else if c = 8 then [92, 98]
  else if c = 12 then [92, 102]
  else if c = 10 then [92, 110]
  else if c = 13 then [92, 114]
  else if c = 9 then [92, 116]
  else if c < 0x20 ∨ c = 38 ∨ c = 60 ∨ c = 62 then hexEscape c
  else [c]

/-- One piece of a string; U+2028 and U+2029 are escaped, a bad byte is written as the escape of U+FFFD. -/
def escapePiece : Piece → Bytes
  | .rune bs _ =>
    match bs with
    | [c] => escapeAscii c
    | _ =>
      if bs = [0xE2, 0x80, 0xA8] then [92, 117, 50, 48, 50, 56]
      else if bs = [0xE2, 0x80, 0xA9] then [92, 117, 50, 48, 50, 57]
      else bs
  | .bad => [92, 117, 102, 102, 102, 100]

/-- The inside of a string literal. -/
def escape (s : Bytes) : Bytes := (pieces s).flatMap escapePiece

/-- A string literal. -/
def quote (s : Bytes) : Bytes := 34 :: (escape s ++ [34])

mutual

/-- Compact JSON text. -/
def print : Json → Bytes
  | .null => ascii "null"
  | .bool b => if b then ascii "true" else ascii "false"
  | .num lit => lit
  | .str s => quote s
  | .arr [] => [91, 93]
  | .arr (x :: xs) => 91 :: (print x ++ printElems xs)
  | .obj [] => [123, 125]
  | .obj ((k, x) :: ms) => 123 :: (quote k ++ 58 :: (print x ++ printMembers ms))

/-- The elements after the first, and the closing bracket. -/
def printElems : List Json → Bytes
  | [] => [93]
  | x :: xs => 44 :: (print x ++ printElems xs)

/-- The members after the first, and the closing brace. -/
def printMembers : List (Bytes × Json) → Bytes
  | [] => [125]
  | (k, x) :: ms => 44 :: (quote k ++ 58 :: (print x ++ printMembers ms))

end

/-! ## Parsing -/

def isSpace (c : UInt8) : Bool := c == 32 || c == 9 || c == 10 || c == 13

def skipSpace (s : Bytes) : Bytes := s.dropWhile isSpace

/-- The value of a hexadecimal digit of either case. -/
def hexVal (c : UInt8) : Option Nat :=
  if 48 ≤ c && c ≤ 57 then some (c.toNat - 48)
  else if 97 ≤ c && c ≤ 102 then some (c.toNat - 87)
  else if 65 ≤ c && c ≤ 70 then some (c.toNat - 55)
  else none

/-- Four hexadecimal digits. -/
def hex4 : Bytes → Option (Nat × Bytes)
  | a :: b :: c :: d :: t => do
    let x ← hexVal a
    let y ← hexVal b
    let z ← hexVal c
    let w ← hexVal d
    return (((x * 16 + y) * 16 + z) * 16 + w, t)
  | _ => none

/-- The UTF-8 encoding of a code point outside the surrogates. -/
def encodeRune (n : Nat) : Bytes :=
  if n < 0x80 then [UInt8.ofNat n]
  else if n < 0x800 then [UInt8.ofNat (0xC0 + n / 64), UInt8.ofNat (0x80 + n % 64)]
  else if n < 0x10000 then
    [UInt8.ofNat (0xE0 + n / 4096), UInt8.ofNat (0x80 + n / 64 % 64), UInt8.ofNat (0x80 + n % 64)]
  else
    [UInt8.ofNat (0xF0 + n / 262144), UInt8.ofNat (0x80 + n / 4096 % 64), UInt8.ofNat (0x80 + n / 64 % 64),
      UInt8.ofNat (0x80 + n % 64)]

/-- After `\u`: a code unit, or a surrogate pair, or U+FFFD for a surrogate without its partner. -/
def parseUnicode (s : Bytes) : Option (Bytes × Bytes) := do
  let (u, t) ← hex4 s
  if 0xD800 ≤ u ∧ u < 0xE000 then
    match t with
    | b :: c :: t' =>
      if b = 92 ∧ c = 117 then
        match hex4 t' with
        | some (v, t'') =>
          if u < 0xDC00 ∧ 0xDC00 ≤ v ∧ v < 0xE000 then
            return (encodeRune (0x10000 + (u - 0xD800) * 1024 + (v - 0xDC00)), t'')
          else return (replacement, t)
        | none => return (replacement, t)
      else return (replacement, t)
    | _ => return (replacement, t)
  else return (encodeRune u, t)

/-- After a backslash. -/
def parseEscape : Bytes → Option (Bytes × Bytes)
  | [] => none
  | c :: t =>
    if c = 34 ∨ c = 92 ∨ c = 47 then some ([c], t)
    else if c = 98 then some ([8], t)
    else if c = 102 then some ([12], t)
    else if c = 110 then some ([10], t)
    else if c = 114 then some ([13], t)
    else if c = 116 then some ([9], t)
    else if c = 117 then parseUnicode t
    else none

/-- Puts decoded text in front of what the rest of the string gives. -/
def prepend (out : Bytes) (rest : Option (Bytes × Bytes)) : Option (Bytes × Bytes) :=
  rest.map fun p => (out ++ p.1, p.2)

/-- The inside of a string up to its closing quote; control characters are refused. -/
def parseStringAux : Nat → Bytes → Option (Bytes × Bytes)
  | 0, _ => none
  | _ + 1, [] => none
  | n + 1, c :: t =>
    if c = 34 then some ([], t)
    else if c = 92 then
      match parseEscape t with
      | some (out, rest) => prepend out (parseStringAux n rest)
      | none => none
    else if c < 0x20 then none
    else if isRune ((c :: t).take (leadSize c)) then
      prepend ((c :: t).take (leadSize c)) (parseStringAux n ((c :: t).drop (leadSize c)))
    else prepend replacement (parseStringAux n t)

/-- A string after its opening quote. -/
def parseString (s : Bytes) : Option (Bytes × Bytes) := parseStringAux (s.length + 1) s

/-- A run of at least one digit. -/
def parseDigits (s : Bytes) : Option (Bytes × Bytes) :=
  if s.takeWhile isDigit = [] then none else some (s.takeWhile isDigit, s.dropWhile isDigit)

/-- The fraction of a number, when there is one. -/
def parseFraction : Bytes → Option (Bytes × Bytes)
  | [] => some ([], [])
  | c :: t => if c = 46 then prepend [c] (parseDigits t) else some ([], c :: t)

/-- The exponent of a number, when there is one. -/
def parseExponent : Bytes → Option (Bytes × Bytes)
  | [] => some ([], [])
  | c :: t =>
    if c = 101 ∨ c = 69 then
      match t with
      | [] => none
      | x :: u => if x = 43 ∨ x = 45 then prepend [c, x] (parseDigits u) else prepend [c] (parseDigits t)
    else some ([], c :: t)

/-- The integer part of a number: `0`, or digits that do not start with `0`. -/
def parseWhole : Bytes → Option (Bytes × Bytes)
  | [] => none
  | c :: t => if c = 48 then some ([c], t) else parseDigits (c :: t)

/-- A number without its sign. -/
def parseMagnitude (s : Bytes) : Option (Bytes × Bytes) := do
  let (whole, s) ← parseWhole s
  let (fraction, s) ← parseFraction s
  let (exponent, s) ← parseExponent s
  return (whole ++ fraction ++ exponent, s)

/-- The literal of a number. -/
def parseNumber : Bytes → Option (Bytes × Bytes)
  | [] => none
  | c :: t => if c = 45 then prepend [c] (parseMagnitude t) else parseMagnitude (c :: t)

/-- A keyword. -/
def parseWord (word : Bytes) (v : Json) (s : Bytes) : Option (Json × Bytes) :=
  if word <+: s then some (v, s.drop word.length) else none

/-- A key and its colon. -/
def parseKey (s : Bytes) : Option (Bytes × Bytes) :=
  match skipSpace s with
  | [] => none
  | c :: t =>
    if c = 34 then
      match parseString t with
      | none => none
      | some (k, r) =>
        match skipSpace r with
        | [] => none
        | x :: r => if x = 58 then some (k, r) else none
    else none

mutual

/-- A value; `d` more levels of nesting are allowed. -/
def parseValue : Nat → Nat → Bytes → Option (Json × Bytes)
  | 0, _, _ => none
  | n + 1, d, s =>
    match skipSpace s with
    | [] => none
    | c :: t =>
      if c = 34 then (parseString t).map fun p => (.str p.1, p.2)
      else if c = 91 then
        match d with
        | 0 => none
        | d + 1 => parseArray n d t
      else if c = 123 then
        match d with
        | 0 => none
        | d + 1 => parseObject n d t
      else if c = 110 then parseWord (ascii "null") .null (c :: t)
      else if c = 116 then parseWord (ascii "true") (.bool true) (c :: t)
      else if c = 102 then parseWord (ascii "false") (.bool false) (c :: t)
      else (parseNumber (c :: t)).map fun p => (.num p.1, p.2)

/-- An array after its bracket. -/
def parseArray : Nat → Nat → Bytes → Option (Json × Bytes)
  | 0, _, _ => none
  | n + 1, d, s =>
    match skipSpace s with
    | [] => none
    | c :: t =>
      if c = 93 then some (.arr [], t)
      else (parseElems n d s).map fun p => (.arr p.1, p.2)

/-- At least one element, up to the closing bracket. -/
def parseElems : Nat → Nat → Bytes → Option (List Json × Bytes)
  | 0, _, _ => none
  | n + 1, d, s =>
    match parseValue n d s with
    | none => none
    | some (v, r) =>
      match skipSpace r with
      | [] => none
      | c :: t =>
        if c = 44 then (parseElems n d t).map fun p => (v :: p.1, p.2)
        else if c = 93 then some ([v], t)
        else none

/-- An object after its brace. -/
def parseObject : Nat → Nat → Bytes → Option (Json × Bytes)
  | 0, _, _ => none
  | n + 1, d, s =>
    match skipSpace s with
    | [] => none
    | c :: t =>
      if c = 125 then some (.obj [], t)
      else (parseMembers n d s).map fun p => (.obj p.1, p.2)

/-- At least one member, up to the closing brace. -/
def parseMembers : Nat → Nat → Bytes → Option (List (Bytes × Json) × Bytes)
  | 0, _, _ => none
  | n + 1, d, s =>
    match parseKey s with
    | none => none
    | some (k, r) =>
      match parseValue n d r with
      | none => none
      | some (v, r) =>
        match skipSpace r with
        | [] => none
        | c :: t =>
          if c = 44 then (parseMembers n d t).map fun p => ((k, v) :: p.1, p.2)
          else if c = 125 then some ([(k, v)], t)
          else none

end

/-- The deepest nesting that the reader accepts. -/
def maxNesting : Nat := 10000

/-- The first value of a text, and what follows it. -/
def parseFirst (s : Bytes) : Option (Json × Bytes) := parseValue (3 * s.length + 3) maxNesting s

/-- A text that is one value and white space. -/
def parse (s : Bytes) : Option Json :=
  match parseFirst s with
  | some (v, rest) => if skipSpace rest = [] then some v else none
  | none => none

end Json

end SpectreRelay.Lib
