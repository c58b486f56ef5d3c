import SpectreRelay.Model.Envelope
import SpectreRelay.Server.Platform

/-!
# The sealed-sender authority

`server/sealed_ca.go`: the signing key that is loaded or created at a start,
the proof that a rotated key was authorised by the one before it, and the
certificates that bind a user id to an identity key.
-/

namespace SpectreRelay.Server
set_option autoImplicit false
open Lib Lib.Json

/-- The signing key; after a rotation also the previous public key and its signature of the new one. -/
structure SealedCA where
  priv : Block 64
  pub : Block 32
  prevPub : Option (Block 32)
  rotationSig : Bytes

/-- What a certificate says. -/
structure SenderCert where
  iss : Bytes
  uid : Bytes
  ik : Bytes
  exp : Int64
deriving DecidableEq

namespace SenderCert

def zero : SenderCert := ⟨[], [], [], 0⟩

/-- The exact structure that is signed. -/
def toJson (c : SenderCert) : Json :=
  .obj [(ascii "iss", .str c.iss), (ascii "uid", .str c.uid), (ascii "ik", .str c.ik), (ascii "exp", .int c.exp.toInt)]

def fields : List (StructField SenderCert) :=
  [.of "iss" iss (fun v c => { c with iss := v }) string,
   .of "uid" uid (fun v c => { c with uid := v }) string,
   .of "ik" ik (fun v c => { c with ik := v }) string,
   .of "exp" exp (fun v c => { c with exp := v }) (integer int64Of)]

def decoder : Decoder SenderCert := record fields

/-- `json.Marshal` of a certificate. -/
def marshal (c : SenderCert) : Bytes := print c.toJson

/-- **Round trip.** A certificate of well-formed strings is decoded from its text. -/
theorem unmarshal_marshal {c : SenderCert} (iss : Utf8.Valid c.iss) (uid : Utf8.Valid c.uid) (ik : Utf8.Valid c.ik) :
    unmarshal decoder zero c.marshal = (c, true) := by
  have plain : Printable maxNesting c.toJson := by
    apply Printable.obj
    simp [Printable.int, Printable.str]
  rw [marshal, unmarshal_print _ _ plain]
  simp only [toJson, decoder, record, clean, cleanMembers, clean_int]
  rw [storeAll_found rfl, storeAll_found rfl, storeAll_found rfl, storeAll_found rfl]
  simp only [storeAll, StructField.of, string_str, integer_int (int64Of_toInt _), iss.sanitize, uid.sanitize, ik.sanitize]
  rfl

/-- The text of a certificate is longer than a public key. -/
theorem marshal_length (c : SenderCert) : 32 < c.marshal.length := by
  have iss : (quote (ascii "iss")).length = 5 := by decide
  have uid : (quote (ascii "uid")).length = 5 := by decide
  have ik : (quote (ascii "ik")).length = 4 := by decide
  have exp : (quote (ascii "exp")).length = 5 := by decide
  have quoted : ∀ s : Bytes, (quote s).length = (escape s).length + 2 := fun s => by simp [quote]
  simp only [marshal, toJson, print, printMembers, List.length_cons, List.length_append, List.length_nil, iss, uid, ik,
    exp, quoted]
  omega

end SenderCert

/-- A day in nanoseconds. -/
def defaultCertTTL : Int64 := 86400000000000

namespace SealedCA

variable (E : Ed25519)

/-- The previous private key, when its file is present and of the right length. -/
def readPrevKey (prev : Option Bytes) (readFails : Bool) : Option (Block 64) :=
  if readFails then none
  else
    match prev with
    | none => none
    | some data => if size : data.length = 64 then some ⟨data, size⟩ else none

/-- The authority of a key, with the rotation proof when there is a previous key. -/
def withRotation (priv : Block 64) (pub : Block 32) (prev : Option (Block 64)) : SealedCA :=
  match prev with
  | none => ⟨priv, pub, none, []⟩
  | some prevPriv => ⟨priv, pub, some (Ed25519.publicKey prevPriv), E.sign prevPriv pub.bytes⟩

/-- The outcomes of the calls of `NewSealedCA`; `seed` is what key generation draws. -/
structure StartIo where
  readFails : Bool
  seed : Option (Block 32)
  mkdirFails : Bool
  writeFails : Option Nat
  prevReadFails : Bool

def StartIo.clean (seed : Block 32) : StartIo := ⟨false, some seed, false, none, false⟩

/-- Loads the key at the path, or generates and writes one: the key file afterwards, and the authority. -/
def newSealedCA (file prev : Option Bytes) (io : StartIo) : Option Bytes × Except String SealedCA :=
  if io.readFails then (file, .error systemError)
  else
    match file with
    | some data =>
      if size : data.length = 64 then
        (file, .ok (withRotation E ⟨data, size⟩ (Ed25519.publicKey ⟨data, size⟩) (readPrevKey prev io.prevReadFails)))
      else (file, .error "invalid sealed-ca key length")
    | none =>
      match io.seed with
      | none => (none, .error systemError)
      | some seed =>
        if io.mkdirFails then (none, .error systemError)
        else
          match io.writeFails with
          | some written => (some ((E.privateKey seed).bytes.take written), .error systemError)
          | none =>
            (some (E.privateKey seed).bytes,
              .ok (withRotation E (E.privateKey seed) (E.publicOf seed) (readPrevKey prev io.prevReadFails)))

/-- The public key as it is served. -/
def publicKeyB64 (ca : SealedCA) : Bytes := Base64.encode ca.pub.bytes

/-- The previous public key and the rotation signature, or two empty strings. -/
def rotationProofB64 (ca : SealedCA) : Bytes × Bytes :=
  match ca.prevPub with
  | none => ([], [])
  | some prev => if ca.rotationSig = [] then ([], []) else (Base64.encode prev.bytes, Base64.encode ca.rotationSig)

/-- The certificate for a user and the signature over its bytes. -/
def issueCert (ca : SealedCA) (uid identityKeyB64 issuer : Bytes) (now : Time) : Bytes × Bytes :=
  let cert := SenderCert.marshal ⟨issuer, uid, identityKeyB64, now.addUnixMilli defaultCertTTL⟩
  (cert, E.sign ca.priv cert)

variable {E}

@[simp] theorem withRotation_priv (priv : Block 64) (pub : Block 32) (prev : Option (Block 64)) :
    (withRotation E priv pub prev).priv = priv := by
  cases prev <;> rfl

@[simp] theorem withRotation_pub (priv : Block 64) (pub : Block 32) (prev : Option (Block 64)) :
    (withRotation E priv pub prev).pub = pub := by
  cases prev <;> rfl

/-- An authority is that of a key pair and of what `<path>.prev` holds. -/
theorem newSealedCA_ok {file prev : Option Bytes} {io : StartIo} {ca : SealedCA}
    (made : (newSealedCA E file prev io).2 = .ok ca) :
    ∃ priv pub, ca = .withRotation E priv pub (readPrevKey prev io.prevReadFails) := by
  unfold newSealedCA at made
  split at made
  · cases made
  · split at made
    · split at made
      · cases made
        exact ⟨_, _, rfl⟩
      · cases made
    · split at made
      · cases made
      · split at made
        · cases made
        · split at made
          · cases made
          · cases made
            exact ⟨_, _, rfl⟩

/-- A key file that was written is loaded with its own public key. -/
theorem newSealedCA_written (seed : Block 32) (prev : Option Bytes) {io : StartIo} (reads : io.readFails = false) :
    newSealedCA E (some (E.privateKey seed).bytes) prev io =
      (some (E.privateKey seed).bytes,
        .ok (withRotation E (E.privateKey seed) (E.publicOf seed) (readPrevKey prev io.prevReadFails))) := by
  have size := (E.privateKey seed).size
  simp only [newSealedCA, reads, Bool.false_eq_true, if_false, size, dite_true]
  rw [← E.publicKey_privateKey seed]

/-- A private key that was written is read back. -/
theorem readPrevKey_written (priv : Block 64) : readPrevKey (some priv.bytes) false = some priv := by
  simp only [readPrevKey, priv.size, Bool.false_eq_true, if_false, dite_true]

/-- A start without a key file fails and writes none, or writes the key it drew. -/
theorem newSealedCA_absent (prev : Option Bytes) {io : StartIo} (writes : io.writeFails = none) :
    (∃ e, newSealedCA E none prev io = (none, .error e)) ∨ ∃ seed, io.seed = some seed ∧
      newSealedCA E none prev io = (some (E.privateKey seed).bytes,
        .ok (withRotation E (E.privateKey seed) (E.publicOf seed) (readPrevKey prev io.prevReadFails))) := by
  unfold newSealedCA
  cases io.readFails with
  | true => exact .inl ⟨_, rfl⟩
  | false =>
    cases io.seed with
    | none => exact .inl ⟨_, rfl⟩
    | some seed =>
      cases io.mkdirFails with
      | true => exact .inl ⟨_, rfl⟩
      | false =>
        rw [writes]
        exact .inr ⟨seed, rfl, rfl⟩

/-- The authority of the key pair of a seed, whose private half is on file. -/
structure Keyed (E : Ed25519) (seed : Block 32) (file : Option Bytes) (ca : SealedCA) : Prop where
  file : file = some (E.privateKey seed).bytes
  priv : ca.priv = E.privateKey seed
  pub : ca.pub = E.publicOf seed

namespace Keyed

variable {seed : Block 32} {file file' prev : Option Bytes} {ca ca' : SealedCA}

/-- A start without a key file generates a key pair. -/
theorem fresh (drawn : Block 32) (started : newSealedCA E none prev (.clean drawn) = (file, .ok ca)) :
    Keyed E drawn file ca := by
  obtain ⟨written, made⟩ := Prod.mk.inj started
  cases made
  exact ⟨written.symm, withRotation_priv _ _ _, withRotation_pub _ _ _⟩

/-- A start on the key file loads the key pair. -/
theorem loaded {io : StartIo} (reads : io.readFails = false)
    (started : newSealedCA E (some (E.privateKey seed).bytes) prev io = (file, .ok ca)) : Keyed E seed file ca := by
  rw [newSealedCA_written seed prev reads] at started
  obtain ⟨written, made⟩ := Prod.mk.inj started
  cases made
  exact ⟨written.symm, withRotation_priv _ _ _, withRotation_pub _ _ _⟩

end Keyed

end SealedCA

end SpectreRelay.Server
