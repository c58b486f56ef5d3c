import SpectreRelay.Model.Envelope
import SpectreRelay.Server.Limits

/-!
# The handshake

`server/auth.go`. The server sends a random nonce, the client answers with a
user id, a public key and a signature of the nonce, and the server checks that
the signature verifies under the key the client sent. Every failure gives the
same answer.
-/

namespace SpectreRelay.Server
set_option autoImplicit false
open Lib Lib.Json Model

/-- The reading, the drawn nonce and the outcomes of the calls of one handshake. -/
structure AuthIo where
  now : Time
  nonce : Option (Block 32)
  challengeFails : Bool
  readFails : Bool
  responseFails : Bool

/-- A handshake in which no call fails. -/
def AuthIo.clean (now : Time) (nonce : Block 32) : AuthIo := ⟨now, some nonce, false, false, false⟩

/-- The checks on the client's answer to `nonce`: the user id it authenticates, if any. Decoding errors of the key and
the signature are ignored; what was decoded has to have the right length. -/
def checkAuthRequest (E : Ed25519) (nonce : Block 32) (frame : Bytes) : Option Bytes :=
  let req := unmarshal AuthRequest.decoder .zero frame
  if req.2 = false then none
  else
    let pub := (Base64.decode req.1.identityPublicKey).1
    let sig := (Base64.decode req.1.signature).1
    if pub.length ≠ 32 then none
    else if sig.length ≠ 64 then none
    else if E.verify pub nonce.bytes sig = false then none
    else if req.1.userID = [] then none
    else some req.1.userID

/-- The handshake on a connection from `ip` whose client answers with `frame`: the limiter, and the user id. -/
def authenticate (E : Ed25519) (attempts : Attempts) (ip frame : Bytes) (io : AuthIo) : Attempts × Option Bytes :=
  let admitted := authAllow attempts ip io.now
  if admitted.2 = false then (admitted.1, none)
  else
    match io.nonce with
    | none => (admitted.1, none)
    | some nonce =>
      if io.challengeFails then (admitted.1, none)
      else if io.readFails then (admitted.1, none)
      else
        match checkAuthRequest E nonce frame with
        | none => (admitted.1, none)
        | some userID => if io.responseFails then (admitted.1, none) else (admitted.1, some userID)

/-- Whatever the outcome, the handshake counts against the address. -/
theorem authenticate_attempts (E : Ed25519) (attempts : Attempts) (ip frame : Bytes) (io : AuthIo) :
    (authenticate E attempts ip frame io).1 = (authAllow attempts ip io.now).1 := by
  simp only [authenticate]
  repeat' split
  all_goals rfl

/-- What an accepted answer has passed. -/
structure Passed (E : Ed25519) (nonce : Block 32) (req : AuthRequest) : Prop where
  keyLength : (Base64.decode req.identityPublicKey).1.length = 32
  signatureLength : (Base64.decode req.signature).1.length = 64
  verifies : E.verify (Base64.decode req.identityPublicKey).1 nonce.bytes (Base64.decode req.signature).1 = true
  named : req.userID ≠ []

theorem checkAuthRequest_passed {E : Ed25519} {nonce : Block 32} {frame userID : Bytes}
    (h : checkAuthRequest E nonce frame = some userID) :
    Passed E nonce (unmarshal AuthRequest.decoder .zero frame).1 ∧
      (unmarshal AuthRequest.decoder .zero frame).1.userID = userID := by
  simp only [checkAuthRequest] at h
  split at h
  · cases h
  split at h
  · cases h
  rename_i key
  split at h
  · cases h
  rename_i signature
  split at h
  · cases h
  rename_i verified
  split at h
  · cases h
  · rename_i named
    exact ⟨⟨not_not.1 key, not_not.1 signature, (Bool.not_eq_false _).mp verified, named⟩, Option.some.inj h⟩

/-- An authenticated id is well-formed and not empty. -/
theorem checkAuthRequest_some {E : Ed25519} {nonce : Block 32} {frame userID : Bytes}
    (h : checkAuthRequest E nonce frame = some userID) : Utf8.Valid userID ∧ userID ≠ [] := by
  obtain ⟨passed, rfl⟩ := checkAuthRequest_passed h
  exact ⟨unmarshal_keeps AuthRequest.decoder_keeps rfl frame, passed.named⟩

theorem authenticate_some {E : Ed25519} {attempts after : Attempts} {ip frame userID : Bytes} {io : AuthIo}
    (h : authenticate E attempts ip frame io = (after, some userID)) :
    ∃ nonce, io.nonce = some nonce ∧ checkAuthRequest E nonce frame = some userID := by
  simp only [authenticate] at h
  split at h
  · cases h
  split at h
  · cases h
  · rename_i nonce drawn
    split at h
    · cases h
    split at h
    · cases h
    split at h
    · cases h
    · rename_i found
      split at h
      · cases h
      · cases h
        exact ⟨nonce, drawn, found⟩

end SpectreRelay.Server
