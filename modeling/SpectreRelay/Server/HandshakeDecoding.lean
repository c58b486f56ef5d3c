import SpectreRelay.Server.Client
import SpectreRelay.Server.Reference

/-!
# Decoding in the handshake

The handshake drops the errors of the base64 decoder and looks only at the
lengths of what was decoded; registration refuses on the same errors
(`checkBase64Len`). The two disagree on one kind of text: the decoder stops at
the padding, and reports what follows it as an error together with all the
bytes before. A key is 32 bytes and a signature 64, neither a multiple of three,
so both are padded, and both can be followed by anything.
-/

namespace SpectreRelay.Server
set_option autoImplicit false
open Lib Lib.Json Model

/-- What the handshake asks of an answer to `nonce` if it decodes as strictly as registration does. -/
structure Strict (E : Ed25519) (nonce : Block 32) (req : AuthRequest) : Prop where
  key : checkBase64Len req.identityPublicKey 32 = true
  signature : checkBase64Len req.signature 64 = true
  verifies : E.verify (Base64.decode req.identityPublicKey).1 nonce.bytes (Base64.decode req.signature).1 = true
  named : req.userID ≠ []

/-- Of texts that decode to `want` bytes, short of a full group, the strict check passes those of the right length. -/
theorem checkBase64Len_iff {s : Bytes} {want : Nat} (decoded : (Base64.decode s).1.length = want) (uneven : want % 3 ≠ 0) :
    checkBase64Len s want = true ↔ Base64.textLength s = (want + 2) / 3 * 4 := by
  subst decoded
  rw [← Base64.decode_ok_iff uneven]
  simp [checkBase64Len]

theorem Passed.strict_iff {E : Ed25519} {nonce : Block 32} {req : AuthRequest} (h : Passed E nonce req) :
    Strict E nonce req ↔ Base64.textLength req.identityPublicKey = 44 ∧ Base64.textLength req.signature = 88 := by
  have key := checkBase64Len_iff h.keyLength (by decide)
  have signature := checkBase64Len_iff h.signatureLength (by decide)
  constructor
  · intro strict
    exact ⟨key.1 strict.key, signature.1 strict.signature⟩
  · intro ⟨keyText, signatureText⟩
    exact ⟨key.2 keyText, signature.2 signatureText, h.verifies, h.named⟩

/-- **When the handshake is strict.** An accepted answer is one that strict decoding accepts exactly when nothing
follows the padding of its fields: line breaks aside, the key has 44 characters and the signature 88. -/
theorem authenticate_strict_iff {E : Ed25519} {attempts : Attempts} {ip frame userID : Bytes} {io : AuthIo}
    (accepted : (authenticate E attempts ip frame io).2 = some userID) :
    (∃ nonce, io.nonce = some nonce ∧ Strict E nonce (unmarshal AuthRequest.decoder .zero frame).1) ↔
      Base64.textLength (unmarshal AuthRequest.decoder .zero frame).1.identityPublicKey = 44 ∧
        Base64.textLength (unmarshal AuthRequest.decoder .zero frame).1.signature = 88 := by
  have whole : authenticate E attempts ip frame io = ((authenticate E attempts ip frame io).1, some userID) :=
    Prod.ext rfl accepted
  obtain ⟨nonce, drawn, checked⟩ := authenticate_some whole
  obtain ⟨passed, -⟩ := checkAuthRequest_passed checked
  rw [← passed.strict_iff]
  constructor
  · rintro ⟨nonce', drawn', strict⟩
    rw [drawn] at drawn'
    cases drawn'
    exact strict
  · intro strict
    exact ⟨nonce, drawn, strict⟩

namespace Scene

/-- The answer of the key of a seed, with `tail` after the base64 of the key. -/
def answerWith (seed nonce : Block 32) (tail : Bytes) : AuthRequest :=
  ⟨ascii "ann", Base64.encode (Reference.ed25519.publicOf seed).bytes ++ tail,
    Base64.encode (Reference.ed25519.sign (Reference.ed25519.privateKey seed) nonce.bytes)⟩

end Scene

theorem authenticate_strict_iff_ann :
    (authenticate Reference.ed25519 (fun _ => []) [] (Scene.answerWith (.zeros 32) (.zeros 32) []).marshal
        (.clean Reference.start (.zeros 32))).2 = some (ascii "ann") ∧
      Strict Reference.ed25519 (.zeros 32)
        (unmarshal AuthRequest.decoder .zero (Scene.answerWith (.zeros 32) (.zeros 32) []).marshal).1 := by
  have accepted : (authenticate Reference.ed25519 (fun _ => []) [] (Scene.answerWith (.zeros 32) (.zeros 32) []).marshal
      (.clean Reference.start (.zeros 32))).2 = some (ascii "ann") := by decide +kernel
  obtain ⟨nonce, drawn, strict⟩ := (authenticate_strict_iff accepted).2 (by decide +kernel)
  cases drawn
  exact ⟨accepted, strict⟩

/-- A key with an exclamation mark after its padding is accepted, and strict decoding refuses it. -/
theorem handshake_ignores_tail :
    (authenticate Reference.ed25519 (fun _ => []) [] (Scene.answerWith (.zeros 32) (.zeros 32) (ascii "!")).marshal
        (.clean Reference.start (.zeros 32))).2 = some (ascii "ann") ∧
      (unmarshal AuthRequest.decoder .zero (Scene.answerWith (.zeros 32) (.zeros 32) (ascii "!")).marshal) =
        (Scene.answerWith (.zeros 32) (.zeros 32) (ascii "!"), true) ∧
      checkBase64Len (Scene.answerWith (.zeros 32) (.zeros 32) (ascii "!")).identityPublicKey 32 = false := by
  decide +kernel

end SpectreRelay.Server
