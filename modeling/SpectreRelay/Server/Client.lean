import SpectreRelay.Server.Server

/-!
# What a client sends

The frames of a client that holds a private key, and what the relay makes of
them: the answer to a challenge, the registration of a bundle, and the request
for a certificate.
-/

namespace SpectreRelay.Server.Client
set_option autoImplicit false
open Lib Lib.Json Model

/-- The answer to a challenge, signed with the key of a seed. -/
def answer (E : Ed25519) (seed nonce : Block 32) (userID : Bytes) : Bytes :=
  AuthRequest.marshal ⟨userID, Base64.encode (E.publicOf seed).bytes,
    Base64.encode (E.sign (E.privateKey seed) nonce.bytes)⟩

/-- The registration of a bundle. -/
def registration (bundle : PrekeyBundle) : Bytes :=
  print (.obj [(ascii "type", .str (ascii "register_prekeys")), (ascii "bundle", bundle.toJson)])

/-- The request for a certificate. -/
def certRequest : Bytes := print (.obj [(ascii "type", .str (ascii "request_sender_cert"))])

theorem unmarshal_answer (E : Ed25519) (seed nonce : Block 32) {userID : Bytes} (text : Utf8.Valid userID) :
    unmarshal AuthRequest.decoder .zero (answer E seed nonce userID) =
      (⟨userID, Base64.encode (E.publicOf seed).bytes, Base64.encode (E.sign (E.privateKey seed) nonce.bytes)⟩, true) := by
  rw [answer, AuthRequest.unmarshal_marshal]
  simp only [AuthRequest.sanitize, text.sanitize, sanitize_base64]

/-- **The answer is accepted**, under whatever name the client gives. -/
theorem checkAuthRequest_answer (E : Ed25519) (seed nonce : Block 32) {userID : Bytes} (text : Utf8.Valid userID)
    (named : userID ≠ []) : checkAuthRequest E nonce (answer E seed nonce userID) = some userID := by
  have verified : E.verify (E.publicOf seed).bytes nonce.bytes (E.sign (E.privateKey seed) nonce.bytes) = true :=
    E.verify_sign seed nonce.bytes
  have size : (E.sign (E.privateKey seed) nonce.bytes).length = 64 := (E.signWith _ _).size
  simp only [checkAuthRequest, unmarshal_answer E seed nonce text, Base64.decode_encode, (E.publicOf seed).size, size,
    verified, named, Bool.true_eq_false, ne_eq, not_true_eq_false, if_false]

theorem unmarshal_registration {α : Type} (fields : List (StructField α)) (zero : α) (bundle : PrekeyBundle) :
    unmarshal (record fields) zero (registration bundle) =
      storeAll fields [(ascii "type", .str (ascii "register_prekeys")), (ascii "bundle", clean bundle.toJson)]
        (zero, true) := by
  have plain : Printable maxNesting (.obj [(ascii "type", .str (ascii "register_prekeys")),
      (ascii "bundle", bundle.toJson)]) := by
    apply Printable.obj
    simp [Printable.str, bundle.toJson_printable 9996]
  rw [registration, unmarshal_print _ _ plain]
  rfl

/-- A registration is recognised, with its bundle. -/
theorem frameKind_registration {bundle : PrekeyBundle} (valid : bundle.Valid) :
    frameKind (registration bundle) = .registerPrekeys (some bundle) := by
  have type : unmarshal headerDecoder [] (registration bundle) = (ascii "register_prekeys", true) := by
    rw [headerDecoder, unmarshal_registration, storeAll_found rfl, storeAll_ignored rfl]
    rfl
  have content : unmarshal registrationDecoder .zero (registration bundle) = (bundle, true) := by
    rw [registrationDecoder, unmarshal_registration, storeAll_ignored rfl, storeAll_found rfl]
    simp only [storeAll, StructField.of, PrekeyBundle.decoder_toJson valid, Bool.and_self]
  have differ : ascii "register_prekeys" ≠ ascii "request_sender_cert" := by decide
  simp only [frameKind, type, content, differ, and_false, if_false, if_true]

theorem frameKind_certRequest : frameKind certRequest = .requestSenderCert := by
  have plain : Printable maxNesting (.obj [(ascii "type", .str (ascii "request_sender_cert"))]) := by
    apply Printable.obj
    simp [Printable.str]
  have type : unmarshal headerDecoder [] certRequest = (ascii "request_sender_cert", true) := by
    rw [headerDecoder, certRequest, unmarshal_print _ _ plain]
    rfl
  simp only [frameKind, type, and_self, if_true]

end SpectreRelay.Server.Client
