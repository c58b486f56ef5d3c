import SpectreRelay.Server.Client
import SpectreRelay.Server.QueueRefinement
import SpectreRelay.Server.Sessions

/-!
# Who owns a user id

The handshake checks that the client holds the private half of the key it
sends, and nothing ties that key to the user id it sends along. So an id whose
owner has registered a bundle can be taken over with any other key: the new
session is flushed the owner's queued messages, replaces the bundle and is
given a certificate. `taken_over` is such a run, and `any_key_takes_over` says
that every run in which an id was registered can be continued that way.
-/

namespace SpectreRelay.Server.Sessions
set_option autoImplicit false
open Lib Lib.Json Model

/-- Once a session has registered a bundle for a user, whatever is achieved for that user is achieved with its key. -/
def Exclusive (log : List Event) : Prop :=
  log.Pairwise fun e e' => e.bundle.isSome → e'.userID = e.userID → e'.key = e.key

instance (log : List Event) : Decidable (Exclusive log) := inferInstanceAs (Decidable (List.Pairwise _ _))

/-- The readings of the clock that count against the handshake and certificate limits. -/
def Label.readings : Label → List Time
  | .connect _ _ _ auth _ => [auth.now]
  | .frame _ _ io _ _ => [io.now]
  | _ => []

/-- A key or user id is the name under which its sessions are registered. -/
structure Proper (relayID userID : Bytes) : Prop where
  text : Utf8.Valid userID
  name : normalizeUser relayID userID = userID

/-- What a takeover at `now` relies on. -/
structure Ready (now : Time) (s : State) : Prop where
  auth : s.server.auth.Old now
  cert : s.server.certLimiter.attempts.Old now
  limit : s.server.certLimiter.perMin = certRequestsPerMin
  sessions : ∀ ss ∈ s.sessions, Proper s.cfg.relayID ss.userID
  log : ∀ e ∈ s.log, e.bundle.isSome → e.userID ≠ [] ∧ Proper s.cfg.relayID e.userID

namespace Ready

variable {P : Platform} {now : Time} {s s' : State}

theorem start {cfg : Config} {files : Files} {io : Server.StartIo} {log : List Event}
    (known : ∀ e ∈ log, e.bundle.isSome → e.userID ≠ [] ∧ Proper cfg.relayID e.userID)
    (started : State.start P cfg files io log = some s) : Ready now s := by
  obtain ⟨files', server, made, rfl⟩ := State.start_some started
  have parts := Server.new_ok made
  exact ⟨by rw [parts.auth]; exact Attempts.old_empty now, by rw [parts.certLimiter]; exact Attempts.old_empty now,
    by rw [parts.certLimiter]; rfl, fun _ inside => absurd inside List.not_mem_nil, known⟩

/-- An event that stores no bundle, or stores one for a session of the relay. -/
theorem record (h : Ready now s) {e : Event} (ok : e.bundle.isSome → e.userID ≠ [] ∧ Proper s.cfg.relayID e.userID) :
    ∀ e' ∈ s.log ++ [e], e'.bundle.isSome → e'.userID ≠ [] ∧ Proper s.cfg.relayID e'.userID := by
  intro e' inside
  rcases List.mem_append.1 inside with old | new
  · exact h.log e' old
  · rw [List.mem_singleton.1 new]
    exact ok

theorem handshake (h : Ready now s) {ip answer : Bytes} {io : AuthIo} {attempts : Attempts} {result : Option Bytes}
    (early : io.now.ns + minute ≤ now.ns)
    (made : authenticate P.ed25519 s.server.auth ip answer io = (attempts, result)) : attempts.Old now := by
  have counted := authenticate_attempts P.ed25519 s.server.auth ip answer io
  have old := h.auth.allowAt early 5 ip
  rw [made] at counted
  rw [← show attempts = (allowAt 5 s.server.auth ip io.now).1 from counted] at old
  exact old

theorem step (h : Ready now s) {l : Label} (early : ∀ t ∈ l.readings, t.ns + minute ≤ now.ns)
    (stepped : State.step P s l = some s') : Ready now s' := by
  cases State.step_cases stepped with
  | @refused conn ip answer auth flush attempts failed =>
    exact ⟨h.handshake (early _ List.mem_cons_self) failed, h.cert, h.limit, h.sessions, h.log⟩
  | @connected conn ip answer claimed auth flush attempts store frames authenticated =>
    obtain ⟨nonce, _, checked⟩ := authenticate_some authenticated
    refine ⟨h.handshake (early _ List.mem_cons_self) authenticated, h.cert, h.limit, ?_, h.record nofun⟩
    intro ss inside
    rcases List.mem_cons.1 inside with rfl | other
    · exact ⟨normalizeUser_valid (checkAuthRequest_some checked).1, normalizeUser_normalizeUser _ _⟩
    · exact h.sessions ss other
  | uncertified session =>
    exact ⟨h.auth, h.cert.allowAt (early _ List.mem_cons_self) _ _, h.limit, h.sessions, h.log⟩
  | certified session key issued =>
    exact ⟨h.auth, h.cert.allowAt (early _ List.mem_cons_self) _ _, h.limit, h.sessions, h.record nofun⟩
  | malformed => exact h
  | rejected session answer => exact ⟨h.auth, h.cert, h.limit, h.sessions, h.log⟩
  | accepted session answer =>
    exact ⟨h.auth, h.cert, h.limit, h.sessions,
      h.record fun _ => ⟨(PrekeyStore.registerBundle_ok answer).1, h.sessions _ session⟩⟩
  | routed => exact ⟨h.auth, h.cert, h.limit, h.sessions, h.log⟩
  | @fetch method path reading persist =>
    rcases s.server.handlePrekeysGet_cases (P := P) method path reading persist with same | ⟨limiter, userID, consume, same⟩ <;>
    · rw [same]
      exact ⟨h.auth, h.cert, h.limit, h.sessions, h.log⟩
  | post => exact ⟨h.auth, h.cert, h.limit, h.sessions, h.log⟩
  | disconnect fewer => exact ⟨h.auth, h.cert, h.limit, fun ss inside => h.sessions ss (fewer ss inside), h.log⟩
  | restart started =>
    have restarted : State.start P s.cfg s.files _ s.log = some _ := stepped
    exact start h.log restarted

end Ready

/-! ## The takeover -/

namespace State

variable {P : Platform} {now : Time} {s : State} {u : Bytes}

/-- The calls of a session that is flushed without a failing write. -/
def flushIo (now : Time) : FlushIo :=
  ⟨.clean now (.zeros 12), fun _ => false, fun _ => .clean now now (.zeros 12) (.zeros 12)⟩

def frameLabel (conn : Conn) (data : Bytes) (now : Time) : Label :=
  .frame conn data ⟨now, now, .clean (.zeros 12)⟩ false (.clean now now (.zeros 12) (.zeros 12))

/-- Answer the challenge as `u` with the key of a seed, register a bundle and ask for a certificate. -/
def takeover (E : Ed25519) (seed nonce : Block 32) (u : Bytes) (bundle : PrekeyBundle) (conn : Conn) (now : Time) :
    List Label :=
  [.connect conn [] (Client.answer E seed nonce u) (.clean now nonce) (flushIo now),
    frameLabel conn (Client.registration bundle) now, frameLabel conn Client.certRequest now]

theorem provedKey_answer (E : Ed25519) (seed nonce : Block 32) (text : Utf8.Valid u) :
    provedKey (Client.answer E seed nonce u) = (E.publicOf seed).bytes := by
  simp only [provedKey, Client.unmarshal_answer E seed nonce text, Base64.decode_encode]

/-- The handshake gives the session the name and drains its queue. -/
theorem connect_takes (h : Ready now s) (named : u ≠ []) (proper : Proper s.cfg.relayID u) (seed nonce : Block 32)
    {conn : Conn} (fresh : ∀ ss ∈ s.sessions, ss.conn ≠ conn) :
    ∃ attempts store, step P s (.connect conn [] (Client.answer P.ed25519 seed nonce u) (.clean now nonce) (flushIo now)) =
        some { s with
          server := { s.server with auth := attempts, store }
          sessions := ⟨conn, u, (P.ed25519.publicOf seed).bytes⟩ :: s.sessions
          log := s.log ++ [.flushed u (P.ed25519.publicOf seed).bytes
            ((s.server.store.drainQueue P u (.clean now (.zeros 12))).2.filterMap marshalQueued)] } ∧
      Store.rowsOf store.table u = [] := by
  have new : (s.sessions.any fun ss => ss.conn = conn) = false := by
    rw [List.any_eq_false]
    exact fun ss inside => by simpa using fresh ss inside
  have authed : authenticate P.ed25519 s.server.auth [] (Client.answer P.ed25519 seed nonce u) (.clean now nonce) =
      ((authAllow s.server.auth [] now).1, some u) := by
    simp only [authenticate, AuthIo.clean, authAllow, h.auth.admits (by decide : (0 : Int) < 5),
      Client.checkAuthRequest_answer P.ed25519 seed nonce proper.text named, Bool.true_eq_false, Bool.false_eq_true, if_false]
  refine ⟨(authAllow s.server.auth [] now).1,
    ((s.server.store.register u conn).1.drainQueue P u (.clean now (.zeros 12))).1, ?_, ?_⟩
  · simp only [step, new, authed, proper.name, provedKey_answer P.ed25519 seed nonce proper.text, flushQueue, flushIo,
      flushLoop_written, Bool.false_eq_true, if_false]
    rfl
  · exact Table.group_delete_self s.server.store.table u

theorem find_session (ss : Session) (rest : List Session) :
    ((ss :: rest).find? fun other => other.conn = ss.conn) = some ss :=
  List.find?_cons_of_pos (decide_eq_true rfl)

/-- A registration replaces the bundle. -/
theorem frame_registers {ss : Session} {rest : List Session} (here : s.sessions = ss :: rest) (named : ss.userID ≠ [])
    {bundle : PrekeyBundle} (ok : bundle.Accepted) (now : Time) :
    ∃ prekeys, step P s (frameLabel ss.conn (Client.registration bundle) now) = some { s with
        server := { s.server with prekeys }
        log := s.log ++ [.accepted ss.userID ss.key bundle] } ∧
      prekeys.bundles[ss.userID]? = some bundle := by
  have registered : s.server.prekeys.registerBundle P.aead ss.userID bundle (.clean (.zeros 12)) =
      ((PrekeyStore.persistLocked P.aead { s.server.prekeys with
        bundles := s.server.prekeys.bundles.insert ss.userID bundle } (.clean (.zeros 12))).1, .ok ()) := by
    simp only [PrekeyStore.registerBundle, named, if_false, validatePrekeyBundle_ok.2 ok]
    rfl
  refine ⟨(PrekeyStore.persistLocked P.aead { s.server.prekeys with
    bundles := s.server.prekeys.bundles.insert ss.userID bundle } (.clean (.zeros 12))).1, ?_, Map.get_insert_self _ _ _⟩
  simp only [step, frameLabel, here, find_session, Server.handleAuthedFrame, Client.frameKind_registration ok.valid,
    registered]

/-- A request is answered with a certificate for the registered key. -/
theorem frame_certifies {ss : Session} {rest : List Session} (here : s.sessions = ss :: rest)
    (old : s.server.certLimiter.attempts.Old now) (limit : s.server.certLimiter.perMin = certRequestsPerMin)
    {bundle : PrekeyBundle} (found : s.server.prekeys.bundles[ss.userID]? = some bundle) :
    ∃ limiter cert, cert = s.server.sealedCA.issueCert P.ed25519 ss.userID bundle.identityKey s.server.relayID now ∧
      step P s (frameLabel ss.conn Client.certRequest now) = some { s with
        server := { s.server with certLimiter := limiter }
        log := s.log ++ [.cert ss.userID ss.key (CertResponse.marshal ⟨ascii "sender_cert", cert.1, cert.2⟩) now] } := by
  have admitted : (s.server.certLimiter.allow ss.userID now).2 = true := by
    simp only [RateLimiter.allow, limit]
    exact old.admits (by decide) ss.userID
  refine ⟨(s.server.certLimiter.allow ss.userID now).1, _, rfl, ?_⟩
  · simp only [step, frameLabel, here, find_session, Server.handleAuthedFrame, Client.frameKind_certRequest,
      Server.issueSenderCert, admitted, Bool.true_eq_false, if_false, Server.buildSenderCert, PrekeyStore.identityKeyOf,
      found, Option.map_some]

/-- What a session under `conn` with this key has gained over the log before: the queue's messages, a bundle of its own
and a certificate for that bundle's key. -/
structure Gained (P : Platform) (s s' : State) (u key : Bytes) (bundle : PrekeyBundle) (conn : Conn) (now : Time) : Prop where
  session : ⟨conn, u, key⟩ ∈ s'.sessions
  log : ∃ cert, cert = s.server.sealedCA.issueCert P.ed25519 u bundle.identityKey s.server.relayID now ∧
    s'.log = s.log ++ [.flushed u key ((s.server.store.drainQueue P u (.clean now (.zeros 12))).2.filterMap marshalQueued),
      .accepted u key bundle, .cert u key (CertResponse.marshal ⟨ascii "sender_cert", cert.1, cert.2⟩) now]
  queue : Store.rowsOf s'.server.store.table u = []
  bundle : s'.server.prekeys.bundles[u]? = some bundle

theorem takeover_gains (h : Ready now s) (named : u ≠ []) (proper : Proper s.cfg.relayID u) (seed nonce : Block 32)
    {bundle : PrekeyBundle} (ok : bundle.Accepted) {conn : Conn} (fresh : ∀ ss ∈ s.sessions, ss.conn ≠ conn) :
    ∃ s', run (step P) s (takeover P.ed25519 seed nonce u bundle conn now) = some s' ∧
      Gained P s s' u (P.ed25519.publicOf seed).bytes bundle conn now := by
  obtain ⟨attempts, store, connected, drained⟩ := connect_takes (P := P) h named proper seed nonce fresh
  simp only [takeover, run, connected, Option.bind_some]
  generalize joined : { s with
    server := { s.server with auth := attempts, store }
    sessions := ⟨conn, u, (P.ed25519.publicOf seed).bytes⟩ :: s.sessions
    log := s.log ++ [.flushed u (P.ed25519.publicOf seed).bytes
      ((s.server.store.drainQueue P u (.clean now (.zeros 12))).2.filterMap marshalQueued)] : State } = s₁
  have here : s₁.sessions = ⟨conn, u, (P.ed25519.publicOf seed).bytes⟩ :: s.sessions := by rw [← joined]
  obtain ⟨prekeys, registered, stored⟩ := frame_registers (P := P) here named ok now
  simp only [registered, Option.bind_some]
  generalize replaced : { s₁ with
    server := { s₁.server with prekeys }
    log := s₁.log ++ [.accepted u (P.ed25519.publicOf seed).bytes bundle] : State } = s₂
  have there : s₂.sessions = ⟨conn, u, (P.ed25519.publicOf seed).bytes⟩ :: s.sessions := by rw [← replaced]; exact here
  have old : s₂.server.certLimiter.attempts.Old now := by rw [← replaced, ← joined]; exact h.cert
  have limit : s₂.server.certLimiter.perMin = certRequestsPerMin := by rw [← replaced, ← joined]; exact h.limit
  have found : s₂.server.prekeys.bundles[u]? = some bundle := by rw [← replaced]; exact stored
  obtain ⟨limiter, cert, issued, certified⟩ := frame_certifies (P := P) there old limit found
  simp only [certified, Option.bind_some]
  refine ⟨_, rfl, ?_, ⟨cert, ?_, ?_⟩, ?_, found⟩
  · rw [there]
    exact List.mem_cons_self
  · rw [issued, ← replaced, ← joined]
  · simp only [← replaced, ← joined, List.append_assoc, List.cons_append, List.nil_append]
  · rw [← replaced, ← joined]
    exact drained

end State

namespace Scene

open Reference

/-- bob registers a bundle and leaves; ann sends bob a message. -/
def ownerRun : List Label :=
  [.connect 1 [] (Client.answer ed25519 (.zeros 32) (.zeros 32) (ascii "bob")) (.clean start (.zeros 32))
      (State.flushIo start),
    State.frameLabel 1 (Client.registration bundle) start, .disconnect 1,
    .connect 2 [] (Client.answer ed25519 (.zeros 32) (.zeros 32) (ascii "ann")) (.clean start (.zeros 32))
      (State.flushIo start),
    State.frameLabel 2 (SealedEnvelope.marshal ⟨ascii "bob", [1], 0, [], []⟩) start]

/-- The seed of another key. -/
def otherSeed : Block 32 := ⟨List.replicate 32 1, rfl⟩

end Scene

/-- Another key authenticates as bob: it is flushed bob's message, replaces the bundle and is given a certificate. -/
theorem taken_over :
    ∃ first s, State.start Reference.platform Reference.cfg .empty Reference.startIo [] = some first ∧
      run (State.step Reference.platform) first (Scene.ownerRun ++
        State.takeover Reference.ed25519 Scene.otherSeed (.zeros 32) (ascii "bob") Reference.bundle 3
          Reference.start) = some s ∧
      (s.log.map fun e => (e.userID, e.key)) =
        [(ascii "bob", (Block.zeros 32).bytes), (ascii "bob", (Block.zeros 32).bytes),
          (ascii "ann", (Block.zeros 32).bytes), (ascii "bob", Scene.otherSeed.bytes),
          (ascii "bob", Scene.otherSeed.bytes), (ascii "bob", Scene.otherSeed.bytes)] ∧
      ¬ Exclusive s.log := by
  have result : ((State.start Reference.platform Reference.cfg .empty Reference.startIo []).bind fun first =>
      (run (State.step Reference.platform) first (Scene.ownerRun ++
        State.takeover Reference.ed25519 Scene.otherSeed (.zeros 32) (ascii "bob") Reference.bundle 3
          Reference.start)).map fun s => (s.log.map fun e => (e.userID, e.key), decide (Exclusive s.log))) =
      some ([(ascii "bob", (Block.zeros 32).bytes), (ascii "bob", (Block.zeros 32).bytes),
          (ascii "ann", (Block.zeros 32).bytes), (ascii "bob", Scene.otherSeed.bytes),
          (ascii "bob", Scene.otherSeed.bytes), (ascii "bob", Scene.otherSeed.bytes)], false) := by
    decide +kernel
  obtain ⟨first, started, rest⟩ := Option.bind_eq_some_iff.1 result
  obtain ⟨s, reached, both⟩ := Option.map_eq_some_iff.1 rest
  exact ⟨first, s, started, reached, (Prod.mk.inj both).1, of_decide_eq_false (Prod.mk.inj both).2⟩

/-- **Any key takes over.** However a run has registered a user id with a key, a session that proves any other key can
follow, after a minute's pause, that authenticates as the user, is flushed the user's queue, replaces the bundle and is
given a certificate for a key of its own. -/
theorem any_key_takes_over (P : Platform) (cfg : Config) (files : Files) (io : Server.StartIo) (first s : State)
    (labels : List Label) (started : State.start P cfg files io [] = some first)
    (reached : run (State.step P) first labels = some s) (u pk : Bytes) (owned : PrekeyBundle)
    (owner : .accepted u pk owned ∈ s.log) (seed nonce : Block 32) (other : (P.ed25519.publicOf seed).bytes ≠ pk)
    (bundle : PrekeyBundle) (ok : bundle.Accepted) (conn : Conn) (fresh : ∀ ss ∈ s.sessions, ss.conn ≠ conn) (now : Time)
    (late : ∀ l ∈ labels, ∀ t ∈ l.readings, t.ns + minute ≤ now.ns) :
    ∃ s', run (State.step P) s (State.takeover P.ed25519 seed nonce u bundle conn now) = some s' ∧
      State.Gained P s s' u (P.ed25519.publicOf seed).bytes bundle conn now ∧ ¬ Exclusive s'.log := by
  have ready : Ready now s := run_invariant_under (fun _ _ _ before early stepped => before.step early stepped)
    (Ready.start (fun _ inside => absurd inside List.not_mem_nil) started) (always_of_forall late first) reached
  obtain ⟨named, proper⟩ := ready.log _ owner rfl
  obtain ⟨s', took, gained⟩ := State.takeover_gains (P := P) ready named proper seed nonce ok fresh
  refine ⟨s', took, gained, fun exclusive => ?_⟩
  obtain ⟨cert, _, grown⟩ := gained.log
  rw [grown] at exclusive
  have same := (List.pairwise_append.1 exclusive).2.2 _ owner _ List.mem_cons_self rfl rfl
  exact other same

/-- A minute after bob's registration, bob's id goes to another key. -/
theorem any_key_takes_over_bob :
    ∃ first s s', State.start Reference.platform Reference.cfg .empty Reference.startIo [] = some first ∧
      run (State.step Reference.platform) first Scene.ownerRun = some s ∧
      run (State.step Reference.platform) s (State.takeover Reference.ed25519 Scene.otherSeed (.zeros 32) (ascii "bob")
        Reference.bundle 3 ⟨61000000000, by decide⟩) = some s' ∧
      State.Gained Reference.platform s s' (ascii "bob") Scene.otherSeed.bytes Reference.bundle 3
        ⟨61000000000, by decide⟩ ∧ ¬ Exclusive s'.log := by
  have result : ((State.start Reference.platform Reference.cfg .empty Reference.startIo []).bind fun first =>
      (run (State.step Reference.platform) first Scene.ownerRun).map fun s =>
        decide (.accepted (ascii "bob") (Block.zeros 32).bytes Reference.bundle ∈ s.log ∧ ∀ ss ∈ s.sessions, ss.conn ≠ 3)) =
      some true := by decide +kernel
  obtain ⟨first, started, rest⟩ := Option.bind_eq_some_iff.1 result
  obtain ⟨s, reached, both⟩ := Option.map_eq_some_iff.1 rest
  obtain ⟨owner, fresh⟩ := of_decide_eq_true both
  have accepted : Reference.bundle.Accepted := validatePrekeyBundle_ok.1 (by decide +kernel)
  obtain ⟨s', took, gained, lost⟩ := any_key_takes_over Reference.platform Reference.cfg .empty Reference.startIo first s
    Scene.ownerRun started reached (ascii "bob") (Block.zeros 32).bytes Reference.bundle owner Scene.otherSeed (.zeros 32)
    (by decide) Reference.bundle accepted 3 fresh ⟨61000000000, by decide⟩ (by decide +kernel)
  exact ⟨first, s, s', started, reached, took, gained, lost⟩

end SpectreRelay.Server.Sessions
