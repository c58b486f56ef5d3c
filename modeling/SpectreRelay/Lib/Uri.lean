import SpectreRelay.Lib.Bytes

/-!
# Generic URIs

The generic syntax of a URI, read from its delimiters alone: the fragment
starts at the first `#`, the query at the first `?` before it, the authority
follows `//` and ends at the next `/`, and the part of the authority up to its
last `@` is the userinfo. `parse_print` is the round trip; `parse_authority`
says of any text which characters an authority cannot have.
-/

namespace SpectreRelay.Lib
set_option autoImplicit false

/-- The components of a URI; those that are introduced by a delimiter may be absent. -/
structure Uri where
  scheme : Option Bytes
  authority : Option Bytes
  path : Bytes
  query : Option Bytes
  fragment : Option Bytes
deriving DecidableEq, Repr

namespace Uri

/-- The text before the first `sep`, and the text after it when there is one. -/
def front (sep : UInt8) (s : Bytes) : Bytes × Option Bytes :=
  match Bytes.cut sep s with
  | none => (s, none)
  | some (before, after) => (before, some after)

/-- A scheme is what stands before the first colon, when that is not empty and has no slash. -/
def splitScheme (s : Bytes) : Option Bytes × Bytes :=
  match Bytes.cut 58 s with
  | none => (none, s)
  | some (scheme, rest) => if scheme ≠ [] ∧ 47 ∉ scheme then (some scheme, rest) else (none, s)

/-- The authority after `//`, and the path. -/
def splitAuthority (s : Bytes) : Option Bytes × Bytes :=
  match s with
  | 47 :: 47 :: rest =>
    match Bytes.cut 47 rest with
    | none => (some rest, [])
    | some (authority, path) => (some authority, 47 :: path)
  | _ => (none, s)

def parse (s : Bytes) : Uri :=
  let (s, fragment) := front 35 s
  let (s, query) := front 63 s
  let (scheme, s) := splitScheme s
  let (authority, path) := splitAuthority s
  ⟨scheme, authority, path, query, fragment⟩

/-- The userinfo of an authority: what stands before its last `@`. -/
def userinfo (authority : Bytes) : Option Bytes := (Bytes.cutLast 64 authority).map Prod.fst

/-- The host and port of an authority: what stands after its last `@`. -/
def hostPort (authority : Bytes) : Bytes :=
  match Bytes.cutLast 64 authority with
  | none => authority
  | some (_, host) => host

theorem front_free {sep : UInt8} {s : Bytes} (free : sep ∉ s) : front sep s = (s, none) := by
  rw [front, Bytes.cut_eq_none.2 free]

/-- What stands before the first separator is free of it, and part of the text. -/
theorem front_fst (sep : UInt8) (s : Bytes) : sep ∉ (front sep s).1 ∧ ∀ c ∈ (front sep s).1, c ∈ s := by
  unfold front
  split
  · rename_i whole
    exact ⟨Bytes.cut_eq_none.1 whole, fun _ inside => inside⟩
  · rename_i before after found
    obtain ⟨rfl, free⟩ := Bytes.cut_eq_some.1 found
    exact ⟨free, fun _ inside => List.mem_append_left _ inside⟩

theorem splitScheme_snd (s : Bytes) : ∀ c ∈ (splitScheme s).2, c ∈ s := by
  intro c inside
  unfold splitScheme at inside
  split at inside
  · exact inside
  · rename_i scheme rest found
    obtain ⟨rfl, -⟩ := Bytes.cut_eq_some.1 found
    split at inside
    · exact List.mem_append_right _ (List.mem_cons_of_mem _ inside)
    · exact inside

theorem splitAuthority_fst {s authority : Bytes} (h : (splitAuthority s).1 = some authority) :
    47 ∉ authority ∧ ∀ c ∈ authority, c ∈ s := by
  unfold splitAuthority at h
  split at h
  · rename_i rest
    split at h
    · rename_i whole
      cases h
      exact ⟨Bytes.cut_eq_none.1 whole, fun c inside => by simp [inside]⟩
    · rename_i found
      cases h
      obtain ⟨rfl, free⟩ := Bytes.cut_eq_some.1 found
      exact ⟨free, fun c inside => by simp [inside]⟩
  · cases h

/-- **Authorities end at a delimiter**: none of `/`, `?` and `#` is in one. -/
theorem parse_authority {s authority : Bytes} (h : (parse s).authority = some authority) :
    47 ∉ authority ∧ 63 ∉ authority ∧ 35 ∉ authority := by
  obtain ⟨slash, part⟩ := splitAuthority_fst h
  have before (c : UInt8) (inside : c ∈ authority) : c ∈ (front 63 (front 35 s).1).1 :=
    splitScheme_snd _ c (part c inside)
  obtain ⟨mark, part'⟩ := front_fst 63 (front 35 s).1
  obtain ⟨hash, -⟩ := front_fst 35 s
  refine ⟨slash, ?_, ?_⟩
  · intro inside
    exact mark (before 63 inside)
  · intro inside
    exact hash (part' 35 (before 35 inside))

/-- **Round trip**, for an address without query and fragment. -/
theorem parse_print {scheme authority path : Bytes} (named : scheme ≠ [])
    (schemeFree : 58 ∉ scheme ∧ 47 ∉ scheme ∧ 63 ∉ scheme ∧ 35 ∉ scheme)
    (authorityFree : 47 ∉ authority ∧ 63 ∉ authority ∧ 35 ∉ authority) (pathFree : 63 ∉ path ∧ 35 ∉ path) :
    parse (scheme ++ 58 :: 47 :: 47 :: (authority ++ 47 :: path)) =
      ⟨some scheme, some authority, 47 :: path, none, none⟩ := by
  have hash : 35 ∉ scheme ++ 58 :: 47 :: 47 :: (authority ++ 47 :: path) := by
    simp [schemeFree, authorityFree, pathFree]
  have mark : 63 ∉ scheme ++ 58 :: 47 :: 47 :: (authority ++ 47 :: path) := by
    simp [schemeFree, authorityFree, pathFree]
  have cutScheme : splitScheme (scheme ++ 58 :: 47 :: 47 :: (authority ++ 47 :: path)) =
      (some scheme, 47 :: 47 :: (authority ++ 47 :: path)) := by
    rw [splitScheme, Bytes.cut_append _ schemeFree.1]
    exact if_pos ⟨named, schemeFree.2.1⟩
  have cutAuthority : splitAuthority (47 :: 47 :: (authority ++ 47 :: path)) = (some authority, 47 :: path) := by
    simp only [splitAuthority, Bytes.cut_append _ authorityFree.1]
  simp only [parse, front_free hash, front_free mark, cutScheme, cutAuthority]

theorem userinfo_eq_none {authority : Bytes} : userinfo authority = none ↔ 64 ∉ authority := by
  rw [userinfo, Option.map_eq_none_iff, Bytes.cutLast_eq_none]

theorem hostPort_free {authority : Bytes} (free : 64 ∉ authority) : hostPort authority = authority := by
  rw [hostPort, Bytes.cutLast_eq_none.2 free]

end Uri

end SpectreRelay.Lib
