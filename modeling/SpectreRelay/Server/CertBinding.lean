import SpectreRelay.Server.Ownership

/-!
# What a certificate binds

A certificate is made from the session's name, the relay's name and the
identity key of the bundle that the prekey store holds for that name; nothing
in it comes from the request. Over whole runs the store's identity key is that
of the last accepted registration under the name, through fetches and restarts,
and the signing key stays the one on file. So every certificate written decodes
to exactly that binding and verifies under the served key (`certs_bound`).
-/

namespace SpectreRelay.Server.Sessions
set_option autoImplicit false
open Lib Lib.Json Model PrekeyStore

/-- The last bundle that was accepted for a user. -/
def latest (u : Bytes) (log : List Event) : Option PrekeyBundle :=
  log.foldl (fun last e => if e.userID = u then e.bundle.or last else last) none

theorem latest_append (u : Bytes) (log : List Event) (e : Event) :
    latest u (log ++ [e]) = if e.userID = u then e.bundle.or (latest u log) else latest u log := by
  simp only [latest, List.foldl_append, List.foldl_cons, List.foldl_nil]

/-- An event that stores no bundle changes nobody's last one. -/
theorem latest_other {e : Event} (none : e.bundle = none) (u : Bytes) (log : List Event) :
    latest u (log ++ [e]) = latest u log := by
  rw [latest_append, none, Option.none_or, ite_self]

/-- No persist of the step fails, and a restart is clean. -/
def Label.Clean : Label → Prop
  | .frame _ _ io _ _ => io.persist.fault = none
  | .fetch _ _ _ persist => persist.fault = none
  | .restart io => ∃ queueKey prekeyKey seed nonce, io = .clean queueKey prekeyKey seed nonce
  | _ => True

/-- A frame carries a certificate for the user, the relay, the time and the last bundle accepted before it, signed over
the bytes sent. -/
def Binds (E : Ed25519) (pub relayID : Bytes) (before : List Event) (u frame : Bytes) (signAt : Time) : Prop :=
  ∃ bundle answer exp, latest u before = some bundle ∧
    unmarshal CertResponse.decoder .zero frame = (answer, true) ∧ answer.type = ascii "sender_cert" ∧
    unmarshal SenderCert.decoder .zero answer.cert = (⟨relayID, u, bundle.identityKey, exp⟩, true) ∧
    exp.toInt = signAt.milliseconds + 24 * 60 * 60 * 1000 ∧ E.verify pub answer.cert answer.signature = true

/-- The certificates of a log bind what was registered before each of them. -/
def AllBind (E : Ed25519) (pub relayID : Bytes) (log : List Event) : Prop :=
  ∀ i u key frame signAt, log[i]? = some (.cert u key frame signAt) → Binds E pub relayID (log.take i) u frame signAt

theorem AllBind.nil {E : Ed25519} {pub relayID : Bytes} : AllBind E pub relayID [] := by
  intro i u key frame signAt found
  rw [List.getElem?_nil] at found
  cases found

/-- An event that is added keeps the certificates before it bound. -/
theorem AllBind.append {E : Ed25519} {pub relayID : Bytes} {log : List Event} (h : AllBind E pub relayID log) {e : Event}
    (new : ∀ u key frame signAt, e = .cert u key frame signAt → Binds E pub relayID log u frame signAt) :
    AllBind E pub relayID (log ++ [e]) := by
  intro i u key frame signAt found
  by_cases old : i < log.length
  · rw [List.getElem?_append_left old] at found
    rw [List.take_append_of_le_length (Nat.le_of_lt old)]
    exact h i u key frame signAt found
  · have last : i = log.length := by
      have bound := (List.getElem?_eq_some_iff.1 found).1
      rw [List.length_append, List.length_singleton] at bound
      omega
    subst last
    rw [List.getElem?_concat_length] at found
    rw [List.take_left]
    exact new u key frame signAt (Option.some.inj found)

/-- What holds in every state of a run of the relay `relayID` on the signing key of `seed`. -/
structure CertInv (P : Platform) (relayID : Bytes) (seed : Block 32) (s : State) : Prop where
  config : s.cfg.relayID = relayID
  name : s.server.relayID = relayID
  sessions : ∀ ss ∈ s.sessions, Utf8.Valid ss.userID
  prekeys : InStep P.aead s.server.prekeys
  keys : ∀ u, s.server.prekeys.identityKeyOf u = (latest u s.log).map PrekeyBundle.identityKey
  ca : SealedCA.Keyed P.ed25519 seed s.caFile s.server.sealedCA
  certs : AllBind P.ed25519 (P.ed25519.publicOf seed).bytes relayID s.log

/-- A certificate for a registered key binds it. -/
theorem issueCert_binds {E : Ed25519} {seed : Block 32} {ca : SealedCA} (priv : ca.priv = E.privateKey seed)
    {relayID u : Bytes} {log : List Event} {bundle : PrekeyBundle} {signAt : Time} {cert : Bytes × Bytes}
    (relay : Utf8.Valid relayID) (text : Utf8.Valid u) (last : latest u log = some bundle)
    (ik : Utf8.Valid bundle.identityKey) (issued : cert = ca.issueCert E u bundle.identityKey relayID signAt) :
    Binds E (E.publicOf seed).bytes relayID log u (CertResponse.marshal ⟨ascii "sender_cert", cert.1, cert.2⟩) signAt := by
  have type : Utf8.Valid (ascii "sender_cert") := by decide
  refine ⟨bundle, ⟨ascii "sender_cert", cert.1, cert.2⟩, signAt.addUnixMilli defaultCertTTL, last,
    CertResponse.unmarshal_marshal type, rfl, ?_, ?_, ?_⟩
  · rw [issued]
    exact SenderCert.unmarshal_marshal relay text ik
  · rw [Time.addUnixMilli_toInt]
    have day : defaultCertTTL.toInt = 86400000000000 := by decide
    rw [day, Time.milliseconds]
    omega
  · rw [issued]
    simp only [SealedCA.issueCert, priv]
    exact E.verify_sign seed _

namespace CertInv

variable {P : Platform} {relayID : Bytes} {seed : Block 32} {s s' : State}

/-- A start on prekey files that hold no bundle, with the signing key on file or a fresh one. -/
theorem start {cfg : Config} {files : Files} (prekeys : files.prekeys = .empty)
    (ca : files.sealedCA = none ∨ ∃ seed, files.sealedCA = some (P.ed25519.privateKey seed).bytes)
    {queueKey prekeyKey drawn : Block 32} {nonce : Block 12}
    (started : State.start P cfg files (.clean queueKey prekeyKey drawn nonce) [] = some s) :
    ∃ seed, CertInv P cfg.relayID seed s := by
  obtain ⟨files', server, made, rfl⟩ := State.start_some started
  have parts := Server.new_ok made
  have fresh := parts.prekeys
  rw [prekeys] at fresh
  have bundles : server.prekeys = ⟨∅, ⟨some prekeyKey.bytes, none⟩, prekeyKey⟩ :=
    (Except.ok.inj (Prod.mk.inj ((newPrekeyStore_empty prekeyKey).symm.trans fresh)).2).symm
  have key : ∃ seed, SealedCA.Keyed P.ed25519 seed files'.sealedCA server.sealedCA := by
    have made := parts.sealedCA
    rcases ca with absent | ⟨seed, present⟩
    · rw [absent] at made
      exact ⟨drawn, .fresh drawn made⟩
    · rw [present] at made
      exact ⟨seed, .loaded rfl made⟩
  obtain ⟨seed, keyed⟩ := key
  refine ⟨seed, rfl, parts.relayID, fun _ inside => absurd inside List.not_mem_nil, ?_, ?_, keyed, AllBind.nil⟩
  · rw [bundles]
    exact InStep.fresh P.aead prekeyKey
  · intro u
    rw [bundles]
    rfl

/-- An accepted bundle is the user's last one. -/
theorem accept (h : CertInv P relayID seed s) {ss : Session} (session : ss ∈ s.sessions) {bundle : PrekeyBundle}
    {io : PersistIo} (clean : io.fault = none) {prekeys : PrekeyStore}
    (answer : s.server.prekeys.registerBundle P.aead ss.userID bundle io = (prekeys, .ok ())) :
    CertInv P relayID seed { s with
      server := { s.server with prekeys }
      log := s.log ++ [.accepted ss.userID ss.key bundle] } := by
  refine ⟨h.config, h.name, h.sessions, h.prekeys.registerBundle (h.sessions ss session) clean answer, ?_, h.ca,
    h.certs.append nofun⟩
  obtain ⟨_, _, rfl⟩ := registerBundle_ok answer
  intro u
  have before := h.keys u
  rw [latest_append]
  by_cases same : ss.userID = u
  · subst same
    simp only [identityKeyOf, persistLocked, Map.get_insert_self, Event.userID, Event.bundle, if_true, Option.some_or]
  · simp only [identityKeyOf, persistLocked, Map.get_insert_other _ _ (Ne.symm same), Event.userID, same, if_false]
    exact before

/-- A certificate for the stored identity key binds the last accepted bundle. -/
theorem certify (h : CertInv P relayID seed s) (relay : Utf8.Valid relayID) {ss : Session} (session : ss ∈ s.sessions)
    {ik : Bytes} (key : s.server.prekeys.identityKeyOf ss.userID = some ik) {signAt : Time} {cert : Bytes × Bytes}
    (issued : cert = s.server.sealedCA.issueCert P.ed25519 ss.userID ik s.server.relayID signAt) :
    Binds P.ed25519 (P.ed25519.publicOf seed).bytes relayID s.log ss.userID
      (CertResponse.marshal ⟨ascii "sender_cert", cert.1, cert.2⟩) signAt := by
  obtain ⟨stored, found, rfl⟩ := Option.map_eq_some_iff.1 key
  have known := h.keys ss.userID
  rw [key] at known
  obtain ⟨bundle, last, same⟩ := Option.map_eq_some_iff.1 known.symm
  have text : Utf8.Valid bundle.identityKey := by
    rw [same]
    exact (h.prekeys.sound ss.userID stored found).2.2.valid.identityKey
  rw [← same, h.name] at issued
  exact issueCert_binds h.ca.priv relay (h.sessions ss session) last text issued

/-- **One step.** -/
theorem step (h : CertInv P relayID seed s) (relay : Utf8.Valid relayID) {l : Label} (clean : l.Clean)
    (stepped : State.step P s l = some s') : CertInv P relayID seed s' := by
  cases State.step_cases stepped with
  | refused failed => exact ⟨h.config, h.name, h.sessions, h.prekeys, h.keys, h.ca, h.certs⟩
  | connected authenticated =>
    obtain ⟨nonce, _, checked⟩ := authenticate_some authenticated
    refine ⟨h.config, h.name, ?_, h.prekeys, fun u => ?_, h.ca, h.certs.append nofun⟩
    · intro ss inside
      rcases List.mem_cons.1 inside with rfl | other
      · exact normalizeUser_valid (checkAuthRequest_some checked).1
      · exact h.sessions ss other
    · rw [latest_other rfl]
      exact h.keys u
  | uncertified session => exact ⟨h.config, h.name, h.sessions, h.prekeys, h.keys, h.ca, h.certs⟩
  | certified session key issued =>
    refine ⟨h.config, h.name, h.sessions, h.prekeys, fun u => ?_, h.ca, h.certs.append ?_⟩
    · rw [latest_other rfl]
      exact h.keys u
    · intro u key' frame signAt same
      cases same
      exact h.certify relay session key issued
  | malformed => exact h
  | rejected session answer =>
    rw [registerBundle_error clean answer]
    exact h
  | accepted session answer => exact h.accept session clean answer
  | routed => exact ⟨h.config, h.name, h.sessions, h.prekeys, h.keys, h.ca, h.certs⟩
  | @fetch method path now persist =>
    rcases s.server.handlePrekeysGet_cases (P := P) method path now persist with same | ⟨limiter, userID, consume, same⟩
    · rw [same]
      exact h
    · rw [same]
      refine ⟨h.config, h.name, h.sessions, h.prekeys.getBundleWithOTPK userID consume clean, fun u => ?_, h.ca, h.certs⟩
      rw [identityKeyOf_getBundleWithOTPK]
      exact h.keys u
  | post => exact ⟨h.config, h.name, h.sessions, h.prekeys, h.keys, h.ca, h.certs⟩
  | disconnect fewer =>
    exact ⟨h.config, h.name, fun ss inside => h.sessions ss (fewer ss inside), h.prekeys, h.keys, h.ca, h.certs⟩
  | @restart io files server started =>
    obtain ⟨queueKey, prekeyKey, drawn, nonce, rfl⟩ := clean
    have parts := Server.new_ok started
    -- Both the bundles and the signing key come back from the files as they were.
    have same : server.prekeys = s.server.prekeys := by
      have made := parts.prekeys
      rw [show (s.files.prekeys) = s.server.prekeys.disk from rfl] at made
      exact (Except.ok.inj (Prod.mk.inj ((h.prekeys.restart prekeyKey).symm.trans made)).2).symm
    have loaded := parts.sealedCA
    rw [show s.files.sealedCA = s.caFile from rfl, h.ca.file] at loaded
    refine ⟨h.config, parts.relayID.trans h.config, fun _ inside => absurd inside List.not_mem_nil, ?_, ?_, .loaded rfl loaded, h.certs⟩
    · rw [same]
      exact h.prekeys
    · rw [same]
      exact h.keys

end CertInv

/-- **Certificates are bound.** In every run without a failing persist, of any sessions and frames, with fetches and clean
restarts: every certificate written says the relay, the session's user, a day from its issue and the identity key of the
last bundle accepted for that user before it, of which there is one; and its signature over the bytes sent verifies under
the key served for pinning. -/
theorem certs_bound (P : Platform) (cfg : Config) (relay : Utf8.Valid cfg.relayID) (files : Files)
    (prekeys : files.prekeys = .empty)
    (ca : files.sealedCA = none ∨ ∃ seed, files.sealedCA = some (P.ed25519.privateKey seed).bytes)
    (queueKey prekeyKey drawn : Block 32) (nonce : Block 12) (first s : State) (labels : List Label)
    (started : State.start P cfg files (.clean queueKey prekeyKey drawn nonce) [] = some first)
    (clean : ∀ l ∈ labels, l.Clean) (reached : run (State.step P) first labels = some s) :
    ∃ pub proof, s.server.handleSealedCA .get = some (Base64.encode pub, proof) ∧
      AllBind P.ed25519 pub cfg.relayID s.log := by
  obtain ⟨seed, begins⟩ := CertInv.start prekeys ca started
  have inv : CertInv P cfg.relayID seed s := run_invariant_under (fun _ _ _ before clean stepped => before.step relay clean stepped)
    begins (always_of_forall clean first) reached
  refine ⟨(P.ed25519.publicOf seed).bytes, s.server.sealedCA.rotationProofB64, ?_, inv.certs⟩
  rw [← inv.ca.pub]
  rfl

namespace Scene

open Reference

/-- A certificate request that names another user and key. -/
def forgedRequest : Bytes :=
  print (.obj [(ascii "type", .str (ascii "request_sender_cert")), (ascii "uid", .str (ascii "ann")),
    (ascii "ik", .str (ascii "forged"))])

/-- bob registers; after a fetch and a restart, bob asks for a certificate in another's name. -/
def bindingRun : List Label :=
  [.connect 1 [] (Client.answer ed25519 (.zeros 32) (.zeros 32) (ascii "bob")) (.clean start (.zeros 32))
      (State.flushIo start),
    State.frameLabel 1 (Client.registration bundle) start,
    .fetch .get (ascii "/prekeys/bob") start (.clean (.zeros 12)),
    .restart startIo,
    .connect 2 [] (Client.answer ed25519 otherSeed (.zeros 32) (ascii "bob")) (.clean start (.zeros 32))
      (State.flushIo start),
    State.frameLabel 2 forgedRequest start]

/-- The certificate that the request is answered with. -/
def bobCert : Bytes × Bytes :=
  let priv := ed25519.privateKey (.zeros 32)
  SealedCA.issueCert ed25519 ⟨priv, Ed25519.publicKey priv, none, []⟩ (ascii "bob") bundle.identityKey cfg.relayID start

end Scene

/-- The forged request is answered with bob's own binding. -/
theorem certs_bound_bob :
    ∃ first s pub proof, State.start Reference.platform Reference.cfg .empty Reference.startIo [] = some first ∧
      run (State.step Reference.platform) first Scene.bindingRun = some s ∧
      s.server.handleSealedCA .get = some (Base64.encode pub, proof) ∧
      s.log[3]? = some (.cert (ascii "bob") Scene.otherSeed.bytes
        (CertResponse.marshal ⟨ascii "sender_cert", Scene.bobCert.1, Scene.bobCert.2⟩) Reference.start) ∧
      AllBind Reference.ed25519 pub Reference.cfg.relayID s.log := by
  have result : ((State.start Reference.platform Reference.cfg .empty Reference.startIo []).bind fun first =>
      (run (State.step Reference.platform) first Scene.bindingRun).map fun s => s.log[3]?) =
      some (some (.cert (ascii "bob") Scene.otherSeed.bytes
        (CertResponse.marshal ⟨ascii "sender_cert", Scene.bobCert.1, Scene.bobCert.2⟩) Reference.start)) := by
    decide +kernel
  obtain ⟨first, started, rest⟩ := Option.bind_eq_some_iff.1 result
  obtain ⟨s, reached, written⟩ := Option.map_eq_some_iff.1 rest
  have clean : ∀ l ∈ Scene.bindingRun, l.Clean := by
    simp only [Scene.bindingRun, List.forall_mem_cons, List.not_mem_nil, false_imp_iff, implies_true, Label.Clean,
      State.frameLabel, PersistIo.clean, true_and, and_true]
    exact ⟨_, _, _, _, rfl⟩
  obtain ⟨pub, proof, served, bound⟩ := certs_bound Reference.platform Reference.cfg (by decide) .empty rfl (.inl rfl)
    _ _ _ _ first s Scene.bindingRun started clean reached
  exact ⟨first, s, pub, proof, started, reached, served, written, bound⟩

end SpectreRelay.Server.Sessions
