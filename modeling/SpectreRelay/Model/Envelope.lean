import SpectreRelay.Lib.JsonClean
import SpectreRelay.Lib.JsonSize

/-!
# Wire envelopes

The records of `model/envelope.go` with their JSON forms. Each has the value
that `json.Marshal` prints (`toJson`) and the fields that `json.Unmarshal`
stores (`decoder`). Decoding what was encoded gives the record back with its
strings sanitized (`decoder_toJson`), and every record decoded from any text
holds well-formed strings (`decoder_keeps`). The two envelopes overlap: the
sealed decoder accepts the JSON of every open envelope and loses the sender
(`OpenEnvelope.sealed_decoder_toJson`).
-/

namespace SpectreRelay.Model
set_option autoImplicit false
open Lib Lib.Json

/-- A recipient-encrypted payload with the sender hidden from the relay. -/
structure SealedEnvelope where
  recipientID : Bytes
  ciphertext : Bytes
  timestampMS : Int64
  id : Bytes
  federationSenderRelay : Bytes
deriving DecidableEq, Repr

/-- The wire form that discloses the sender. -/
structure OpenEnvelope where
  senderID : Bytes
  recipientID : Bytes
  ciphertext : Bytes
  timestampMS : Int64
  id : Bytes
deriving DecidableEq, Repr

/-- The random nonce that the client signs during the handshake. -/
structure Challenge where
  nonce : Bytes
deriving DecidableEq, Repr

/-- The client's answer to a challenge; key and signature are base64 text. -/
structure AuthRequest where
  userID : Bytes
  identityPublicKey : Bytes
  signature : Bytes
deriving DecidableEq, Repr

/-- The server's verdict; it never carries a detailed error. -/
structure AuthResponse where
  success : Bool
  error : Bytes
deriving DecidableEq, Repr

/-! ## Sealed envelopes -/

namespace SealedEnvelope

def zero : SealedEnvelope := ⟨[], [], 0, [], []⟩

/-- The JSON object of an envelope; the federation tag is left out when empty. -/
def toJson (e : SealedEnvelope) : Json :=
  .obj ([(ascii "recipient_id", .str e.recipientID),
    (ascii "ciphertext", .str (Base64.encode e.ciphertext)),
    (ascii "timestamp_ms", .int e.timestampMS.toInt),
    (ascii "id", .str e.id)] ++
    if e.federationSenderRelay = [] then []
    else [(ascii "federation_sender_relay", .str e.federationSenderRelay)])

def fields : List (StructField SealedEnvelope) :=
  [.of "recipient_id" recipientID (fun b e => { e with recipientID := b }) string,
   .of "ciphertext" ciphertext (fun b e => { e with ciphertext := b }) bytes,
   .of "timestamp_ms" timestampMS (fun b e => { e with timestampMS := b }) (integer int64Of),
   .of "id" id (fun b e => { e with id := b }) string,
   .of "federation_sender_relay" federationSenderRelay (fun b e => { e with federationSenderRelay := b }) string]

def decoder : Decoder SealedEnvelope := record fields

/-- `json.Marshal` of an envelope. -/
def marshal (e : SealedEnvelope) : Bytes := print e.toJson

/-- The envelope with every string made well-formed. -/
def sanitize (e : SealedEnvelope) : SealedEnvelope where
  recipientID := Utf8.sanitize e.recipientID
  ciphertext := e.ciphertext
  timestampMS := e.timestampMS
  id := Utf8.sanitize e.id
  federationSenderRelay := Utf8.sanitize e.federationSenderRelay

/-- Every string of the envelope is well-formed. -/
structure Valid (e : SealedEnvelope) : Prop where
  recipientID : Utf8.Valid e.recipientID
  id : Utf8.Valid e.id
  federationSenderRelay : Utf8.Valid e.federationSenderRelay

theorem Valid.sanitize {e : SealedEnvelope} (ok : Valid e) : e.sanitize = e := by
  simp only [SealedEnvelope.sanitize, ok.recipientID.sanitize, ok.id.sanitize, ok.federationSenderRelay.sanitize]

theorem valid_sanitize (e : SealedEnvelope) : Valid e.sanitize :=
  ⟨Utf8.valid_sanitize _, Utf8.valid_sanitize _, Utf8.valid_sanitize _⟩

theorem toJson_printable (e : SealedEnvelope) (d : Nat) : Printable (d + 1) e.toJson := by
  apply Printable.obj
  split <;> simp [Printable.str, Printable.int]

/-- **Round trip.** Decoding the JSON of an envelope gives the envelope, its strings sanitized. -/
theorem decoder_toJson (e : SealedEnvelope) : decoder (clean e.toJson) zero = (e.sanitize, true) := by
  simp only [toJson, clean, decoder, record]
  by_cases untagged : e.federationSenderRelay = []
  · simp only [untagged, if_true, List.append_nil, cleanMembers, clean, sanitize_base64, clean_int]
    rw [storeAll_found rfl, storeAll_found rfl, storeAll_found rfl, storeAll_found rfl]
    simp only [storeAll, StructField.of, string_str, bytes_base64, integer_int (int64Of_toInt _), sanitize, untagged]
    rfl
  · simp only [untagged, if_false, List.cons_append, List.nil_append, cleanMembers, clean, sanitize_base64, clean_int]
    rw [storeAll_found rfl, storeAll_found rfl, storeAll_found rfl, storeAll_found rfl, storeAll_found rfl]
    simp only [storeAll, StructField.of, string_str, bytes_base64, integer_int (int64Of_toInt _), sanitize]
    rfl

/-- Every envelope read from a text holds well-formed strings. -/
theorem decoder_keeps : Keeps Valid decoder := by
  apply record_keeps
  intro f inside
  simp only [fields, List.mem_cons, List.not_mem_nil, or_false] at inside
  obtain rfl | rfl | rfl | rfl | rfl := inside
  · exact StructField.of_keeps string_keeps (fun _ ok => ok.recipientID) fun _ _ ok new => ⟨new, ok.id, ok.federationSenderRelay⟩
  · exact StructField.of_keeps (any_keeps _) (fun _ _ => trivial) fun _ _ ok _ => ⟨ok.recipientID, ok.id, ok.federationSenderRelay⟩
  · exact StructField.of_keeps (any_keeps _) (fun _ _ => trivial) fun _ _ ok _ => ⟨ok.recipientID, ok.id, ok.federationSenderRelay⟩
  · exact StructField.of_keeps string_keeps (fun _ ok => ok.id) fun _ _ ok new =>
      ⟨ok.recipientID, new, ok.federationSenderRelay⟩
  · exact StructField.of_keeps string_keeps (fun _ ok => ok.federationSenderRelay) fun _ _ ok new =>
      ⟨ok.recipientID, ok.id, new⟩

theorem valid_zero : Valid zero := ⟨rfl, rfl, rfl⟩

theorem unmarshal_valid (text : Bytes) : Valid (unmarshal decoder zero text).1 :=
  unmarshal_keeps decoder_keeps valid_zero text

theorem decodeFirst_valid (text : Bytes) : Valid (decodeFirst decoder zero text).1 :=
  decodeFirst_keeps decoder_keeps valid_zero text

/-- A ciphertext is no longer than the value it is stored from. -/
theorem decoder_within (n : Nat) :
    KeepsOn (fun j => weight j ≤ n) (fun e : SealedEnvelope => e.ciphertext.length ≤ n) decoder := by
  apply record_within
  intro f inside
  simp only [fields, List.mem_cons, List.not_mem_nil, or_false] at inside
  obtain rfl | rfl | rfl | rfl | rfl := inside
  · exact fun _ _ _ short => short
  · exact StructField.of_keepsOn (bytes_within n) (fun _ short => short) fun _ _ _ short => short
  · exact fun _ _ _ short => short
  · exact fun _ _ _ short => short
  · exact fun _ _ _ short => short

theorem unmarshal_size (text : Bytes) : (unmarshal decoder zero text).1.ciphertext.length ≤ text.length :=
  unmarshal_within (P := fun e : SealedEnvelope => e.ciphertext.length ≤ text.length) (Nat.zero_le _) text
    (decoder_within _)

theorem decodeFirst_size (text : Bytes) : (decodeFirst decoder zero text).1.ciphertext.length ≤ text.length :=
  decodeFirst_within (P := fun e : SealedEnvelope => e.ciphertext.length ≤ text.length) (Nat.zero_le _) text
    (decoder_within _)

theorem unmarshal_marshal (e : SealedEnvelope) : unmarshal decoder zero e.marshal = (e.sanitize, true) := by
  rw [marshal, unmarshal_print _ _ (toJson_printable e _), decoder_toJson]

theorem decodeFirst_marshal (e : SealedEnvelope) : decodeFirst decoder zero e.marshal = (e.sanitize, true) := by
  rw [marshal, decodeFirst_print _ _ (toJson_printable e _), decoder_toJson]

end SealedEnvelope

/-! ## Open envelopes -/

namespace OpenEnvelope

def zero : OpenEnvelope := ⟨[], [], [], 0, []⟩

def toJson (e : OpenEnvelope) : Json :=
  .obj [(ascii "sender_id", .str e.senderID),
    (ascii "recipient_id", .str e.recipientID),
    (ascii "ciphertext", .str (Base64.encode e.ciphertext)),
    (ascii "timestamp_ms", .int e.timestampMS.toInt),
    (ascii "id", .str e.id)]

def fields : List (StructField OpenEnvelope) :=
  [.of "sender_id" senderID (fun b e => { e with senderID := b }) string,
   .of "recipient_id" recipientID (fun b e => { e with recipientID := b }) string,
   .of "ciphertext" ciphertext (fun b e => { e with ciphertext := b }) bytes,
   .of "timestamp_ms" timestampMS (fun b e => { e with timestampMS := b }) (integer int64Of),
   .of "id" id (fun b e => { e with id := b }) string]

def decoder : Decoder OpenEnvelope := record fields

/-- `json.Marshal` of an envelope. -/
def marshal (e : OpenEnvelope) : Bytes := print e.toJson

/-- The envelope with every string made well-formed. -/
def sanitize (e : OpenEnvelope) : OpenEnvelope where
  senderID := Utf8.sanitize e.senderID
  recipientID := Utf8.sanitize e.recipientID
  ciphertext := e.ciphertext
  timestampMS := e.timestampMS
  id := Utf8.sanitize e.id

/-- Every string of the envelope is well-formed. -/
structure Valid (e : OpenEnvelope) : Prop where
  senderID : Utf8.Valid e.senderID
  recipientID : Utf8.Valid e.recipientID
  id : Utf8.Valid e.id

theorem Valid.sanitize {e : OpenEnvelope} (ok : Valid e) : e.sanitize = e := by
  simp only [OpenEnvelope.sanitize, ok.senderID.sanitize, ok.recipientID.sanitize, ok.id.sanitize]

theorem valid_sanitize (e : OpenEnvelope) : Valid e.sanitize :=
  ⟨Utf8.valid_sanitize _, Utf8.valid_sanitize _, Utf8.valid_sanitize _⟩

theorem toJson_printable (e : OpenEnvelope) (d : Nat) : Printable (d + 1) e.toJson := by
  apply Printable.obj
  simp [Printable.str, Printable.int]

/-- **Round trip.** Decoding the JSON of an envelope gives the envelope, its strings sanitized. -/
theorem decoder_toJson (e : OpenEnvelope) : decoder (clean e.toJson) zero = (e.sanitize, true) := by
  simp only [toJson, decoder, record, cleanMembers, clean, sanitize_base64, clean_int]
  rw [storeAll_found rfl, storeAll_found rfl, storeAll_found rfl, storeAll_found rfl, storeAll_found rfl]
  simp only [storeAll, StructField.of, string_str, bytes_base64, integer_int (int64Of_toInt _), sanitize]
  rfl

/-- Every envelope read from a text holds well-formed strings. -/
theorem decoder_keeps : Keeps Valid decoder := by
  apply record_keeps
  intro f inside
  simp only [fields, List.mem_cons, List.not_mem_nil, or_false] at inside
  obtain rfl | rfl | rfl | rfl | rfl := inside
  · exact StructField.of_keeps string_keeps (fun _ ok => ok.senderID) fun _ _ ok new => ⟨new, ok.recipientID, ok.id⟩
  · exact StructField.of_keeps string_keeps (fun _ ok => ok.recipientID) fun _ _ ok new => ⟨ok.senderID, new, ok.id⟩
  · exact StructField.of_keeps (any_keeps _) (fun _ _ => trivial) fun _ _ ok _ => ⟨ok.senderID, ok.recipientID, ok.id⟩
  · exact StructField.of_keeps (any_keeps _) (fun _ _ => trivial) fun _ _ ok _ => ⟨ok.senderID, ok.recipientID, ok.id⟩
  · exact StructField.of_keeps string_keeps (fun _ ok => ok.id) fun _ _ ok new => ⟨ok.senderID, ok.recipientID, new⟩

theorem unmarshal_valid (text : Bytes) : Valid (unmarshal decoder zero text).1 :=
  unmarshal_keeps decoder_keeps ⟨rfl, rfl, rfl⟩ text

/-- A ciphertext is no longer than the value it is stored from. -/
theorem decoder_within (n : Nat) :
    KeepsOn (fun j => weight j ≤ n) (fun e : OpenEnvelope => e.ciphertext.length ≤ n) decoder := by
  apply record_within
  intro f inside
  simp only [fields, List.mem_cons, List.not_mem_nil, or_false] at inside
  obtain rfl | rfl | rfl | rfl | rfl := inside
  · exact fun _ _ _ short => short
  · exact fun _ _ _ short => short
  · exact StructField.of_keepsOn (bytes_within n) (fun _ short => short) fun _ _ _ short => short
  · exact fun _ _ _ short => short
  · exact fun _ _ _ short => short

theorem unmarshal_size (text : Bytes) : (unmarshal decoder zero text).1.ciphertext.length ≤ text.length :=
  unmarshal_within (P := fun e : OpenEnvelope => e.ciphertext.length ≤ text.length) (Nat.zero_le _) text
    (decoder_within _)

theorem unmarshal_marshal (e : OpenEnvelope) : unmarshal decoder zero e.marshal = (e.sanitize, true) := by
  rw [marshal, unmarshal_print _ _ (toJson_printable e _), decoder_toJson]

/-- What the sealed decoder makes of an open envelope: the sender is dropped. -/
def asSealed (e : OpenEnvelope) : SealedEnvelope where
  recipientID := Utf8.sanitize e.recipientID
  ciphertext := e.ciphertext
  timestampMS := e.timestampMS
  id := Utf8.sanitize e.id
  federationSenderRelay := []

/-- **Overlap.** The sealed decoder accepts the JSON of every open envelope: `sender_id` is an unknown key to it. -/
theorem sealed_decoder_toJson (e : OpenEnvelope) :
    SealedEnvelope.decoder (clean e.toJson) SealedEnvelope.zero = (e.asSealed, true) := by
  simp only [toJson, SealedEnvelope.decoder, record, cleanMembers, clean, sanitize_base64, clean_int]
  rw [storeAll_ignored rfl, storeAll_found rfl, storeAll_found rfl, storeAll_found rfl, storeAll_found rfl]
  simp only [storeAll, StructField.of, string_str, bytes_base64, integer_int (int64Of_toInt _), asSealed]
  rfl

theorem sealed_unmarshal_marshal (e : OpenEnvelope) :
    unmarshal SealedEnvelope.decoder SealedEnvelope.zero e.marshal = (e.asSealed, true) := by
  rw [marshal, unmarshal_print _ _ (toJson_printable e _), sealed_decoder_toJson]

end OpenEnvelope

/-! ## The handshake -/

/-- The frame with which the server opens the handshake; the encoder ends it with a newline. -/
def Challenge.frame (c : Challenge) : Bytes :=
  print (.obj [(ascii "nonce", .str (Base64.encode c.nonce))]) ++ [10]

/-- The frame with which the server accepts. -/
def AuthResponse.frame (r : AuthResponse) : Bytes :=
  print (.obj [(ascii "success", .bool r.success), (ascii "error", .str r.error)]) ++ [10]

namespace AuthRequest

def zero : AuthRequest := ⟨[], [], []⟩

def toJson (r : AuthRequest) : Json :=
  .obj [(ascii "user_id", .str r.userID),
    (ascii "identity_public_key", .str r.identityPublicKey),
    (ascii "signature", .str r.signature)]

def fields : List (StructField AuthRequest) :=
  [.of "user_id" userID (fun b r => { r with userID := b }) string,
   .of "identity_public_key" identityPublicKey (fun b r => { r with identityPublicKey := b }) string,
   .of "signature" signature (fun b r => { r with signature := b }) string]

def decoder : Decoder AuthRequest := record fields

/-- `json.Marshal` of a request. -/
def marshal (r : AuthRequest) : Bytes := print r.toJson

/-- The request with every string made well-formed. -/
def sanitize (r : AuthRequest) : AuthRequest :=
  ⟨Utf8.sanitize r.userID, Utf8.sanitize r.identityPublicKey, Utf8.sanitize r.signature⟩

theorem unmarshal_marshal (r : AuthRequest) : unmarshal decoder zero r.marshal = (r.sanitize, true) := by
  have plain : Printable maxNesting r.toJson := by
    apply Printable.obj
    simp [Printable.str]
  rw [marshal, unmarshal_print _ _ plain]
  simp only [toJson, clean, decoder, record, cleanMembers]
  rw [storeAll_found rfl, storeAll_found rfl, storeAll_found rfl]
  rfl

/-- The user id read from any text is well-formed. -/
theorem decoder_keeps : Keeps (fun r : AuthRequest => Utf8.Valid r.userID) decoder := by
  apply record_keeps
  intro f inside
  simp only [fields, List.mem_cons, List.not_mem_nil, or_false] at inside
  obtain rfl | rfl | rfl := inside
  · exact StructField.of_keeps string_keeps (fun _ ok => ok) fun _ _ _ new => new
  · exact StructField.of_keeps (any_keeps _) (fun _ _ => trivial) fun _ _ ok _ => ok
  · exact StructField.of_keeps (any_keeps _) (fun _ _ => trivial) fun _ _ ok _ => ok

end AuthRequest

end SpectreRelay.Model
