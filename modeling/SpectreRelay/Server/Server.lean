import SpectreRelay.Config
import SpectreRelay.Server.Auth
import SpectreRelay.Server.Prekeys
import SpectreRelay.Server.Router
import SpectreRelay.Server.SealedCa

/-!
# The server

`server/server.go`: the state that the handlers share, the dispatch of an
authenticated frame, certificate issue, and the public endpoints.
-/

namespace SpectreRelay.Server
set_option autoImplicit false
set_option linter.dupNamespace false
open Lib Lib.Json Model

def certRequestsPerMin : Int := 6
def prekeyFetchesPerMinPerTarget : Int := 10

/-- The files of a relay: the offline queue's, the prekey store's, and the present and previous signing key. -/
structure Files where
  queue : Disk
  prekeys : Disk
  sealedCA : Option Bytes
  prevSealedCA : Option Bytes

def Files.empty : Files := ⟨.empty, .empty, none, none⟩

/-- The parts of a running relay. -/
structure Server where
  relayID : Bytes
  store : Store
  prekeys : PrekeyStore
  router : Router
  auth : Attempts
  sealedCA : SealedCA
  certLimiter : RateLimiter
  prekeyLimiter : RateLimiter

/-! ## Frames -/

/-- What an authenticated frame asks for; a bundle that does not decode is absent. -/
inductive FrameKind where
  | requestSenderCert
  | registerPrekeys (bundle : Option PrekeyBundle)
  | route
deriving DecidableEq

/-- The `type` of a frame. -/
def headerDecoder : Decoder Bytes := record [.of "type" (fun t => t) (fun v _ => v) string]

/-- The `bundle` of a registration. -/
def registrationDecoder : Decoder PrekeyBundle :=
  record [.of "bundle" (fun b => b) (fun v _ => v) PrekeyBundle.decoder]

/-- The branch that `handleAuthedFrame` takes. A certificate request needs a frame without a decoding error; a
registration is recognised by whatever type was stored before one. -/
def frameKind (data : Bytes) : FrameKind :=
  let hdr := unmarshal headerDecoder [] data
  if hdr.2 ∧ hdr.1 = ascii "request_sender_cert" then .requestSenderCert
  else if hdr.1 = ascii "register_prekeys" then
    let msg := unmarshal registrationDecoder .zero data
    .registerPrekeys (if msg.2 then some msg.1 else none)
  else .route

/-! ## Certificates -/

/-- The frame that carries a certificate. -/
structure CertResponse where
  type : Bytes
  cert : Bytes
  signature : Bytes
deriving DecidableEq

namespace CertResponse

def zero : CertResponse := ⟨[], [], []⟩

def toJson (r : CertResponse) : Json :=
  .obj [(ascii "type", .str r.type), (ascii "cert", .str (Base64.encode r.cert)),
    (ascii "signature", .str (Base64.encode r.signature))]

def fields : List (StructField CertResponse) :=
  [.of "type" type (fun v r => { r with type := v }) string,
   .of "cert" cert (fun v r => { r with cert := v }) bytes,
   .of "signature" signature (fun v r => { r with signature := v }) bytes]

def decoder : Decoder CertResponse := record fields

def marshal (r : CertResponse) : Bytes := print r.toJson

theorem unmarshal_marshal {r : CertResponse} (type : Utf8.Valid r.type) :
    unmarshal decoder zero r.marshal = (r, true) := by
  have plain : Printable maxNesting r.toJson := by
    apply Printable.obj
    simp [Printable.str]
  rw [marshal, unmarshal_print _ _ plain]
  simp only [toJson, decoder, record, clean, cleanMembers, sanitize_base64]
  rw [storeAll_found rfl, storeAll_found rfl, storeAll_found rfl]
  simp only [storeAll, StructField.of, string_str, bytes_base64, type.sanitize]
  rfl

end CertResponse

namespace Server

variable (P : Platform)

/-- A certificate for the identity key of the user's own registered bundle, if there is one. -/
def buildSenderCert (s : Server) (userID : Bytes) (now : Time) : Option (Bytes × Bytes) :=
  (s.prekeys.identityKeyOf userID).map fun ik => s.sealedCA.issueCert P.ed25519 userID ik s.relayID now

/-- Answers a certificate request, within the user's budget: the frame written, if any. -/
def issueSenderCert (s : Server) (userID : Bytes) (limitAt signAt : Time) : Server × Option Bytes :=
  let admitted := s.certLimiter.allow userID limitAt
  let s := { s with certLimiter := admitted.1 }
  if admitted.2 = false then (s, none)
  else
    (s, (buildSenderCert P s userID signAt).map fun (cert, sig) =>
      CertResponse.marshal ⟨ascii "sender_cert", cert, sig⟩)

/-- What an authenticated frame led to. -/
inductive FrameEffect where
  /-- The frame written in answer to a certificate request. -/
  | cert (frame : Option Bytes)
  /-- The answer of `registerBundle`, or none for a frame without a bundle. -/
  | registered (bundle : Option PrekeyBundle) (result : Option (Except String Unit))
  /-- The `deliver` call of a routed frame. -/
  | routed (call : Option (Bytes × QueuedMessage))

/-- The readings and the persist of one frame; a frame uses those of its branch. -/
structure FrameIo where
  now : Time
  signAt : Time
  persist : PersistIo

/-- The dispatch of one frame of a session that authenticated as `userID`. -/
def handleAuthedFrame (s : Server) (userID data : Bytes) (io : FrameIo) : Server × FrameEffect :=
  match frameKind data with
  | .requestSenderCert =>
    let answer := issueSenderCert P s userID io.now io.signAt
    (answer.1, .cert answer.2)
  | .registerPrekeys none => (s, .registered none none)
  | .registerPrekeys (some bundle) =>
    let answer := s.prekeys.registerBundle P.aead userID bundle io.persist
    ({ s with prekeys := answer.1 }, .registered (some bundle) (some answer.2))
  | .route =>
    let answer := s.router.route userID data io.now
    ({ s with router := answer.1 }, .routed answer.2)

/-- The outcomes of a frame, by their effects. -/
inductive Handled (s : Server) (userID : Bytes) (io : FrameIo) : Server × FrameEffect → Prop where
  | uncertified : Handled s userID io ({ s with certLimiter := (s.certLimiter.allow userID io.now).1 }, .cert none)
  | certified {ik : Bytes} {cert : Bytes × Bytes} (key : s.prekeys.identityKeyOf userID = some ik)
      (issued : cert = s.sealedCA.issueCert P.ed25519 userID ik s.relayID io.signAt) :
      Handled s userID io ({ s with certLimiter := (s.certLimiter.allow userID io.now).1 },
        .cert (some (CertResponse.marshal ⟨ascii "sender_cert", cert.1, cert.2⟩)))
  | malformed : Handled s userID io (s, .registered none none)
  | registered {bundle : PrekeyBundle} {prekeys : PrekeyStore} {result : Except String Unit}
      (answer : s.prekeys.registerBundle P.aead userID bundle io.persist = (prekeys, result)) :
      Handled s userID io ({ s with prekeys }, .registered (some bundle) (some result))
  | routed {router : Router} {call : Option (Bytes × QueuedMessage)} :
      Handled s userID io ({ s with router }, .routed call)

variable {P} in
/-- Every frame has one of these outcomes. -/
theorem handleAuthedFrame_cases (s : Server) (userID data : Bytes) (io : FrameIo) :
    Handled P s userID io (s.handleAuthedFrame P userID data io) := by
  unfold handleAuthedFrame
  split
  · simp only [issueSenderCert]
    split
    · exact .uncertified
    · cases key : s.prekeys.identityKeyOf userID with
      | none =>
        simp only [buildSenderCert, key, Option.map_none]
        exact .uncertified
      | some ik =>
        simp only [buildSenderCert, key, Option.map_some]
        exact .certified key rfl
  · exact .malformed
  · exact .registered rfl
  · exact .routed

variable {P} in
/-- A routed frame keeps the router's name, and the `deliver` call is for what the frame was classified as. -/
theorem handleAuthedFrame_routed (s s' : Server) (userID data : Bytes) (io : FrameIo) (call : Option (Bytes × QueuedMessage))
    (h : s.handleAuthedFrame P userID data io = (s', .routed call)) :
    s'.router.relayID = s.router.relayID ∧ ∀ c, call = some c → classify data = some c := by
  unfold handleAuthedFrame at h
  split at h
  · cases h
  · cases h
  · cases h
  · cases h
    refine ⟨route_relayID rfl, fun c found => ?_⟩
    exact route_classify (Prod.ext rfl found)

/-! ## Starting -/

/-- The outcomes of the calls of `New`. -/
structure StartIo where
  store : Store.StartIo
  prekeys : PrekeyStore.StartIo
  sealedCA : SealedCA.StartIo

/-- A start in which no call fails. -/
def StartIo.clean (queueKey prekeyKey seed : Block 32) (fileNonce : Block 12) : StartIo :=
  ⟨.clean queueKey fileNonce, .clean prekeyKey, .clean seed⟩

/-- Starts a relay on its files; the first part that fails to start is the result. -/
def new (cfg : Config) (files : Files) (io : StartIo) : Files × Except String Server :=
  let store := Store.newStore P files.queue cfg.messageTTLSeconds io.store
  let files := { files with queue := store.1 }
  match store.2 with
  | .error e => (files, .error e)
  | .ok store =>
    let prekeys := PrekeyStore.newPrekeyStore P.aead files.prekeys io.prekeys
    let files := { files with prekeys := prekeys.1 }
    match prekeys.2 with
    | .error e => (files, .error e)
    | .ok prekeys =>
      let sealedCA := SealedCA.newSealedCA P.ed25519 files.sealedCA files.prevSealedCA io.sealedCA
      let files := { files with sealedCA := sealedCA.1 }
      match sealedCA.2 with
      | .error e => (files, .error e)
      | .ok sealedCA =>
        (files, .ok {
          relayID := cfg.relayID
          store
          prekeys
          router := .new cfg.maxMessageSize.toInt cfg.rateLimitPerMin.toInt cfg.relayID
          auth := fun _ => []
          sealedCA
          certLimiter := .new certRequestsPerMin
          prekeyLimiter := .new prekeyFetchesPerMinPerTarget })

/-- What a relay that started is made of. -/
structure Started (cfg : Config) (files : Files) (io : StartIo) (files' : Files) (s : Server) : Prop where
  relayID : s.relayID = cfg.relayID
  auth : s.auth = fun _ => []
  certLimiter : s.certLimiter = .new certRequestsPerMin
  prekeys : PrekeyStore.newPrekeyStore P.aead files.prekeys io.prekeys = (files'.prekeys, .ok s.prekeys)
  sealedCA : SealedCA.newSealedCA P.ed25519 files.sealedCA files.prevSealedCA io.sealedCA = (files'.sealedCA, .ok s.sealedCA)
  prevSealedCA : files'.prevSealedCA = files.prevSealedCA

variable {P} in
theorem new_ok {cfg : Config} {files files' : Files} {io : StartIo} {s : Server}
    (h : new P cfg files io = (files', .ok s)) : Started P cfg files io files' s := by
  simp only [new] at h
  split at h
  · cases h
  · split at h
    · cases h
    · rename_i prekeys madePrekeys
      split at h
      · cases h
      · rename_i sealedCA madeCA
        cases h
        exact ⟨rfl, rfl, rfl, Prod.ext rfl madePrekeys, Prod.ext rfl madeCA, rfl⟩

variable {P} in
/-- The offline store and the router of a relay that started. -/
theorem new_store {cfg : Config} {files files' : Files} {io : StartIo} {s : Server}
    (h : new P cfg files io = (files', .ok s)) :
    (Store.newStore P files.queue cfg.messageTTLSeconds io.store).2 = .ok s.store ∧
      s.router = .new cfg.maxMessageSize.toInt cfg.rateLimitPerMin.toInt cfg.relayID := by
  simp only [new] at h
  split at h
  · cases h
  · rename_i store madeStore
    split at h
    · cases h
    · split at h
      · cases h
      · cases h
        exact ⟨madeStore, rfl⟩

variable {P} in
/-- The limits and the time to live of a relay that started on what `Load` accepts are positive. -/
theorem new_positive {env : Bytes → Bytes} {cfg : Config} {files files' : Files} {io : StartIo} {s : Server}
    (loaded : Config.load env = .ok cfg) (h : new P cfg files io = (files', .ok s)) :
    0 < s.router.maxMessageSize ∧ 0 < s.router.ratePerMin ∧ 0 < cfg.messageTTLSeconds.toInt := by
  have accepted := (Config.load_eq_ok.1 loaded).2
  rw [(new_store h).2]
  refine ⟨?_, ?_, ?_⟩
  · exact Int64.lt_iff_toInt_lt.1 accepted.maxMessageSize
  · exact Int64.lt_iff_toInt_lt.1 accepted.rateLimitPerMin
  · exact Int64.lt_iff_toInt_lt.1 accepted.messageTTLSeconds

/-! ## Public endpoints -/

/-- The method of a request, as far as the handlers look at it. -/
inductive Method where
  | get | post | other
deriving DecidableEq

/-- The answers of the prekey endpoint. -/
inductive PrekeyAnswer where
  | methodNotAllowed
  | notFound
  | ok (response : PrekeyResponse)
deriving DecidableEq

/-- The user id that a path asks for. -/
def prekeyTarget (path : Bytes) : Option Bytes :=
  let userID := Bytes.trimPrefix (ascii "/prekeys/") path
  if userID = [] ∨ 47 ∈ userID ∨ 63 ∈ userID ∨ 35 ∈ userID then none else some userID

/-- Serves a bundle. Over the target's budget it is served without taking a one-time prekey. -/
def handlePrekeysGet (s : Server) (method : Method) (path : Bytes) (now : Time) (io : PersistIo) :
    Server × PrekeyAnswer :=
  if method ≠ .get then (s, .methodNotAllowed)
  else
    match prekeyTarget path with
    | none => (s, .notFound)
    | some userID =>
      let consume := s.prekeyLimiter.allow userID now
      let served := s.prekeys.getBundleWithOTPK P.aead userID consume.2 io
      ({ s with prekeyLimiter := consume.1, prekeys := served.1 },
        match served.2 with
        | none => .notFound
        | some response => .ok response)

variable {P} in
/-- A fetch touches the target limiter and the bundle it serves, if anything. -/
theorem handlePrekeysGet_cases (s : Server) (method : Method) (path : Bytes) (now : Time) (io : PersistIo) :
    (s.handlePrekeysGet P method path now io).1 = s ∨
      ∃ prekeyLimiter userID consume, (s.handlePrekeysGet P method path now io).1 =
        { s with prekeyLimiter, prekeys := (s.prekeys.getBundleWithOTPK P.aead userID consume io).1 } := by
  simp only [handlePrekeysGet]
  split
  · exact .inl rfl
  · split
    · exact .inl rfl
    · exact .inr ⟨_, _, _, rfl⟩

/-- The keys served for pinning: the public key, the previous one and the rotation signature. -/
def handleSealedCA (s : Server) (method : Method) : Option (Bytes × Bytes × Bytes) :=
  if method ≠ .get then none else some (s.sealedCA.publicKeyB64, s.sealedCA.rotationProofB64)

/-- The federation endpoint: the `deliver` call of a request, if it makes one. -/
def handleFederationDeliver (s : Server) (method : Method) (header body : Bytes) : Option (Bytes × QueuedMessage) :=
  if method ≠ .post then none else federationDeliver s.relayID header body

end Server

end SpectreRelay.Server
