import SpectreRelay.Lib.Bytes
import SpectreRelay.Lib.Utf8

/-!
# User names and relay names

A user is named `name` or `name@domain`. `isLocalRelay` decides whether a
domain means this relay, after splitting optional ports as the standard
library does; the normalisers cut a name at its first `@`.
-/

namespace SpectreRelay.Server
set_option autoImplicit false
open Lib

/-- `net.SplitHostPort`: the host and the port of `host:port` or `[host]:port`, or no result on an error. -/
def splitHostPort (hostport : Bytes) : Option (Bytes × Bytes) :=
  match Bytes.cutLast 58 hostport with
  | none => none
  | some (front, port) =>
    if hostport.head? = some 91 then
      match Bytes.cut 93 hostport with
      | none => none
      | some (inside, rest) =>
        -- the first closing bracket stands just before the last colon
        if inside.length + 1 ≠ front.length then none
        else if 91 ∈ hostport.drop 1 ∨ 93 ∈ rest then none
        else some (inside.drop 1, port)
    else if 58 ∈ front then none
    else if 91 ∈ hostport ∨ 93 ∈ hostport then none
    else some (front, port)

/-- The host and port of a name; a name that does not split is a host without a port. -/
def hostAndPort (name : Bytes) : Bytes × Bytes := (splitHostPort name).getD (name, [])

/-- The domain names this relay: the hosts are equal, and so are the ports if the domain has one. -/
def isLocalRelay (domain relayID : Bytes) : Bool :=
  let (host, port) := hostAndPort domain
  let (relayHost, relayPort) := hostAndPort relayID
  if host ≠ relayHost then false
  else if port ≠ [] ∧ port ≠ relayPort then false
  else true

/-- The key under which a session is registered: a local domain is cut off. -/
def normalizeUser (relayID userID : Bytes) : Bytes :=
  match Bytes.cut 64 userID with
  | none => userID
  | some (name, domain) => if isLocalRelay domain relayID then name else userID

/-- A key is its own key. -/
theorem normalizeUser_normalizeUser (relayID userID : Bytes) :
    normalizeUser relayID (normalizeUser relayID userID) = normalizeUser relayID userID := by
  cases split : Bytes.cut 64 userID with
  | none => simp only [normalizeUser, split]
  | some parts =>
    obtain ⟨name, domain⟩ := parts
    by_cases here : isLocalRelay domain relayID = true
    · have plain : Bytes.cut 64 name = none := Bytes.cut_eq_none.2 (Bytes.cut_eq_some.1 split).2
      simp only [normalizeUser, split, here, if_true, plain]
    · simp only [normalizeUser, split, here, Bool.false_eq_true, if_false]

theorem normalizeUser_valid {relayID userID : Bytes} (ok : Utf8.Valid userID) :
    Utf8.Valid (normalizeUser relayID userID) := by
  unfold normalizeUser
  split
  · exact ok
  · rename_i name domain split
    split
    · rw [(Bytes.cut_eq_some.1 split).1] at ok
      exact (Utf8.Valid.split (by decide) ok).1
    · exact ok

end SpectreRelay.Server
