import SpectreRelay.Lib.Runs
import SpectreRelay.Server.Reference
import SpectreRelay.Server.Server

/-!
# Sessions

The relay over whole runs: handshakes, authenticated frames, prekey fetches,
federation requests, disconnects and restarts, in any order and on any number
of connections. Each is one step. A frame touches the prekey store in one
critical section and a certificate is made from what that section read, so the
order of steps is the order of those sections; the steps inside `deliver` and
`FlushQueue` are `Delivery`'s subject.

The log is history that the relay does not keep: for every session its key is
the one whose possession the handshake proved.
-/

namespace SpectreRelay.Server.Sessions
set_option autoImplicit false
open Lib Lib.Json Model

/-- A session after its handshake: the name it goes by, and the key it proved. -/
structure Session where
  conn : Conn
  userID : Bytes
  key : Bytes
deriving DecidableEq

/-- What a session achieved. -/
inductive Event where
  /-- `registerBundle` accepted a bundle. -/
  | accepted (userID key : Bytes) (bundle : PrekeyBundle)
  /-- A certificate was written. -/
  | cert (userID key frame : Bytes) (signAt : Time)
  /-- The queue was drained and these frames were written. -/
  | flushed (userID key : Bytes) (frames : List Bytes)
deriving DecidableEq

namespace Event

def userID : Event → Bytes
  | accepted userID _ _ => userID
  | cert userID _ _ _ => userID
  | flushed userID _ _ => userID

def key : Event → Bytes
  | accepted _ key _ => key
  | cert _ key _ _ => key
  | flushed _ key _ => key

/-- The bundle that the event stored. -/
def bundle : Event → Option PrekeyBundle
  | accepted _ _ bundle => some bundle
  | _ => none

end Event

structure State where
  cfg : Config
  server : Server
  /-- The signing key's file and the previous key's. -/
  caFile : Option Bytes
  prevFile : Option Bytes
  sessions : List Session
  log : List Event

/-- The outcomes of the system calls of one flush. -/
structure FlushIo where
  drain : Store.DrainIo
  fails : Nat → Bool
  requeue : Nat → Store.EnqueueIo

inductive Label where
  | connect (conn : Conn) (ip answer : Bytes) (auth : AuthIo) (flush : FlushIo)
  | frame (conn : Conn) (data : Bytes) (io : Server.FrameIo) (writeFails : Bool) (enqueue : Store.EnqueueIo)
  | fetch (method : Server.Method) (path : Bytes) (now : Time) (persist : PersistIo)
  | post (method : Server.Method) (header body : Bytes) (writeFails : Bool) (enqueue : Store.EnqueueIo)
  | disconnect (conn : Conn)
  | restart (io : Server.StartIo)

/-- The public key in a client's answer to the challenge. -/
def provedKey (answer : Bytes) : Bytes :=
  (Base64.decode (unmarshal AuthRequest.decoder .zero answer).1.identityPublicKey).1

namespace State

variable (P : Platform)

/-- A relay that was just started. -/
def start (cfg : Config) (files : Files) (io : Server.StartIo) (log : List Event) : Option State :=
  match Server.new P cfg files io with
  | (files, .ok server) =>
    some { cfg, server, caFile := files.sealedCA, prevFile := files.prevSealedCA, sessions := [], log }
  | (_, .error _) => none

/-- The files of a running relay. -/
def files (s : State) : Files := ⟨s.server.store.disk, s.server.prekeys.disk, s.caFile, s.prevFile⟩

/-- The state with the offline store after a `deliver` call. -/
def delivered (s : State) (call : Option (Bytes × QueuedMessage)) (writeFails : Bool) (enqueue : Store.EnqueueIo) : State :=
  match call with
  | none => s
  | some (recipientID, m) =>
    let store := (deliver P s.server.store s.server.router.relayID recipientID m writeFails enqueue).1
    { s with server := { s.server with store } }

/-- One step, or none when it cannot be taken. -/
def step (s : State) : Label → Option State
  | .connect conn ip answer auth flush =>
    if s.sessions.any fun ss => ss.conn = conn then none
    else
      match authenticate P.ed25519 s.server.auth ip answer auth with
      | (attempts, none) => some { s with server := { s.server with auth := attempts } }
      | (attempts, some claimed) =>
        let userID := normalizeUser s.cfg.relayID claimed
        let flushed := flushQueue P (s.server.store.register userID conn).1 userID flush.drain flush.fails flush.requeue
        some { s with
          server := { s.server with auth := attempts, store := flushed.1 }
          sessions := ⟨conn, userID, provedKey answer⟩ :: s.sessions
          log := s.log ++ [.flushed userID (provedKey answer) flushed.2] }
  | .frame conn data io writeFails enqueue =>
    match s.sessions.find? fun ss => ss.conn = conn with
    | none => none
    | some ss =>
      match s.server.handleAuthedFrame P ss.userID data io with
      | (server, .cert (some frame)) =>
        some { s with server, log := s.log ++ [.cert ss.userID ss.key frame io.signAt] }
      | (server, .registered (some bundle) (some (.ok ()))) =>
        some { s with server, log := s.log ++ [.accepted ss.userID ss.key bundle] }
      | (server, .routed call) => some (delivered P { s with server } call writeFails enqueue)
      | (server, _) => some { s with server }
  | .fetch method path now persist =>
    some { s with server := (s.server.handlePrekeysGet P method path now persist).1 }
  | .post method header body writeFails enqueue =>
    some (s.delivered P (s.server.handleFederationDeliver method header body) writeFails enqueue)
  | .disconnect conn =>
    match s.sessions.find? fun ss => ss.conn = conn with
    | none => none
    | some ss =>
      some { s with
        server := { s.server with store := s.server.store.unregister ss.userID conn }
        sessions := s.sessions.filter fun ss => ss.conn ≠ conn }
  | .restart io => start P s.cfg s.files io s.log

variable {P} in
/-- The state of a relay that was just started. -/
theorem start_some {cfg : Config} {files : Files} {io : Server.StartIo} {log : List Event} {s : State}
    (started : start P cfg files io log = some s) : ∃ files' server, Server.new P cfg files io = (files', .ok server) ∧
      s = { cfg, server, caFile := files'.sealedCA, prevFile := files'.prevSealedCA, sessions := [], log } := by
  simp only [start] at started
  split at started
  · rename_i files' server made
    cases started
    exact ⟨files', server, made, rfl⟩
  · cases started

/-! ## What a step can do -/

/-- The steps by their effects; the offline store apart, which may be any. -/
inductive Step (s : State) : Label → State → Prop where
  | refused {conn : Conn} {ip answer : Bytes} {auth : AuthIo} {flush : FlushIo} {attempts : Attempts}
      (failed : authenticate P.ed25519 s.server.auth ip answer auth = (attempts, none)) :
      Step s (.connect conn ip answer auth flush) { s with server := { s.server with auth := attempts } }
  | connected {conn : Conn} {ip answer claimed : Bytes} {auth : AuthIo} {flush : FlushIo} {attempts : Attempts}
      {store : Store} {frames : List Bytes}
      (authenticated : authenticate P.ed25519 s.server.auth ip answer auth = (attempts, some claimed)) :
      Step s (.connect conn ip answer auth flush) { s with
        server := { s.server with auth := attempts, store }
        sessions := ⟨conn, normalizeUser s.cfg.relayID claimed, provedKey answer⟩ :: s.sessions
        log := s.log ++ [.flushed (normalizeUser s.cfg.relayID claimed) (provedKey answer) frames] }
  | uncertified {conn : Conn} {data : Bytes} {io : Server.FrameIo} {writeFails : Bool} {enqueue : Store.EnqueueIo} {ss : Session}
      (session : ss ∈ s.sessions) :
      Step s (.frame conn data io writeFails enqueue)
        { s with server := { s.server with certLimiter := (s.server.certLimiter.allow ss.userID io.now).1 } }
  | certified {conn : Conn} {data ik : Bytes} {io : Server.FrameIo} {writeFails : Bool} {enqueue : Store.EnqueueIo} {ss : Session}
      {cert : Bytes × Bytes} (session : ss ∈ s.sessions) (key : s.server.prekeys.identityKeyOf ss.userID = some ik)
      (issued : cert = s.server.sealedCA.issueCert P.ed25519 ss.userID ik s.server.relayID io.signAt) :
      Step s (.frame conn data io writeFails enqueue) { s with
        server := { s.server with certLimiter := (s.server.certLimiter.allow ss.userID io.now).1 }
        log := s.log ++ [.cert ss.userID ss.key (CertResponse.marshal ⟨ascii "sender_cert", cert.1, cert.2⟩) io.signAt] }
  | malformed {conn : Conn} {data : Bytes} {io : Server.FrameIo} {writeFails : Bool} {enqueue : Store.EnqueueIo} :
      Step s (.frame conn data io writeFails enqueue) s
  | rejected {conn : Conn} {data : Bytes} {io : Server.FrameIo} {writeFails : Bool} {enqueue : Store.EnqueueIo} {ss : Session}
      {bundle : PrekeyBundle} {prekeys : PrekeyStore} {e : String} (session : ss ∈ s.sessions)
      (answer : s.server.prekeys.registerBundle P.aead ss.userID bundle io.persist = (prekeys, .error e)) :
      Step s (.frame conn data io writeFails enqueue) { s with server := { s.server with prekeys } }
  | accepted {conn : Conn} {data : Bytes} {io : Server.FrameIo} {writeFails : Bool} {enqueue : Store.EnqueueIo} {ss : Session}
      {bundle : PrekeyBundle} {prekeys : PrekeyStore} (session : ss ∈ s.sessions)
      (answer : s.server.prekeys.registerBundle P.aead ss.userID bundle io.persist = (prekeys, .ok ())) :
      Step s (.frame conn data io writeFails enqueue)
        { s with server := { s.server with prekeys }, log := s.log ++ [.accepted ss.userID ss.key bundle] }
  | routed {conn : Conn} {data : Bytes} {io : Server.FrameIo} {writeFails : Bool} {enqueue : Store.EnqueueIo} {router : Router}
      {store : Store} : Step s (.frame conn data io writeFails enqueue) { s with server := { s.server with router, store } }
  | fetch {method : Server.Method} {path : Bytes} {now : Time} {persist : PersistIo} :
      Step s (.fetch method path now persist) { s with server := (s.server.handlePrekeysGet P method path now persist).1 }
  | post {method : Server.Method} {header body : Bytes} {writeFails : Bool} {enqueue : Store.EnqueueIo} {store : Store} :
      Step s (.post method header body writeFails enqueue) { s with server := { s.server with store } }
  | disconnect {conn : Conn} {store : Store} {sessions : List Session} (fewer : ∀ ss ∈ sessions, ss ∈ s.sessions) :
      Step s (.disconnect conn) { s with server := { s.server with store }, sessions }
  | restart {io : Server.StartIo} {files : Files} {server : Server}
      (started : Server.new P s.cfg s.files io = (files, .ok server)) :
      Step s (.restart io) { s with server, caFile := files.sealedCA, prevFile := files.prevSealedCA, sessions := [] }

variable {P}

/-- A `deliver` call changes the offline store only. -/
theorem delivered_store (s : State) (call : Option (Bytes × QueuedMessage)) (writeFails : Bool)
    (enqueue : Store.EnqueueIo) :
    ∃ store, s.delivered P call writeFails enqueue = { s with server := { s.server with store } } := by
  cases call with
  | none => exact ⟨s.server.store, rfl⟩
  | some call => exact ⟨_, rfl⟩

/-- Every step is one of these. -/
theorem step_cases {s s' : State} {l : Label} (h : step P s l = some s') : Step P s l s' := by
  cases l with
  | connect conn ip answer auth flush =>
    simp only [step] at h
    split at h
    · cases h
    · split at h
      · rename_i failed
        cases h
        exact .refused failed
      · rename_i authenticated
        cases h
        exact .connected authenticated
  | frame conn data io writeFails enqueue =>
    simp only [step] at h
    split at h
    · cases h
    · rename_i ss found
      have session : ss ∈ s.sessions := List.mem_of_find?_eq_some found
      have handled := s.server.handleAuthedFrame_cases (P := P) ss.userID data io
      generalize s.server.handleAuthedFrame P ss.userID data io = out at h handled
      cases handled with
      | uncertified => cases h; exact .uncertified session
      | certified key issued => cases h; exact .certified session key issued
      | malformed => cases h; exact .malformed
      | @registered bundle prekeys result answer =>
        cases result with
        | ok done => cases h; exact .accepted session answer
        | error e => cases h; exact .rejected session answer
      | @routed router call =>
        obtain ⟨store, same⟩ := delivered_store (P := P) { s with server := { s.server with router } } call writeFails enqueue
        simp only [same] at h
        cases h
        exact .routed
  | fetch method path now persist => cases h; exact .fetch
  | post method header body writeFails enqueue =>
    obtain ⟨store, same⟩ := s.delivered_store (P := P) (s.server.handleFederationDeliver method header body) writeFails enqueue
    simp only [step, same] at h
    cases h
    exact .post
  | disconnect conn =>
    simp only [step] at h
    split at h
    · cases h
    · cases h
      exact .disconnect fun ss inside => (List.mem_filter.1 inside).1
  | restart io =>
    obtain ⟨files, server, started, rfl⟩ := start_some h
    exact .restart started

/-! ## The offline store -/

/-- The name by which the parts of the relay know it. -/
structure Names (relayID : Bytes) (s : State) : Prop where
  cfg : s.cfg.relayID = relayID
  server : s.server.relayID = relayID
  router : s.server.router.relayID = relayID

variable (P) in
/-- What a step of the relay `relayID` makes of the offline store. -/
inductive StoreStep (relayID : Bytes) (s : State) : Label → Store → Prop where
  | same {l : Label} : StoreStep relayID s l s.server.store
  | connected {conn : Conn} {ip answer claimed : Bytes} {auth : AuthIo} {flush : FlushIo} {attempts : Attempts}
      (authenticated : authenticate P.ed25519 s.server.auth ip answer auth = (attempts, some claimed)) :
      StoreStep relayID s (.connect conn ip answer auth flush)
        (flushQueue P (s.server.store.register (normalizeUser relayID claimed) conn).1 (normalizeUser relayID claimed)
          flush.drain flush.fails flush.requeue).1
  | routed {conn : Conn} {data r : Bytes} {io : Server.FrameIo} {writeFails : Bool} {enqueue : Store.EnqueueIo}
      {m : QueuedMessage} (call : classify data = some (r, m)) :
      StoreStep relayID s (.frame conn data io writeFails enqueue)
        (deliver P s.server.store relayID r m writeFails enqueue).1
  | posted {method : Server.Method} {header body r : Bytes} {writeFails : Bool} {enqueue : Store.EnqueueIo}
      {m : QueuedMessage} (call : federationDeliver relayID header body = some (r, m)) :
      StoreStep relayID s (.post method header body writeFails enqueue)
        (deliver P s.server.store relayID r m writeFails enqueue).1
  | left {conn : Conn} {userID : Bytes} :
      StoreStep relayID s (.disconnect conn) (s.server.store.unregister userID conn)
  | restarted {io : Server.StartIo} {store : Store}
      (started : (Store.newStore P s.server.store.disk s.cfg.messageTTLSeconds io.store).2 = .ok store) :
      StoreStep relayID s (.restart io) store

section Store

variable {s s' : State} {relayID : Bytes}

/-- The names and the offline store of a relay that was just started. -/
theorem start_store {cfg : Config} {files : Files} {io : Server.StartIo} {log : List Event}
    (started : start P cfg files io log = some s) :
    (Store.newStore P files.queue cfg.messageTTLSeconds io.store).2 = .ok s.server.store ∧ Names cfg.relayID s := by
  obtain ⟨files', server, made, rfl⟩ := start_some started
  obtain ⟨store, router⟩ := Server.new_store made
  exact ⟨store, rfl, (Server.new_ok made).relayID, congrArg Router.relayID router⟩

/-- A frame leaves the offline store alone, or makes the `deliver` call that it was classified as. -/
theorem frame_store (names : Names relayID s) {conn : Conn} {data : Bytes} {io : Server.FrameIo} {writeFails : Bool}
    {enqueue : Store.EnqueueIo} (h : step P s (.frame conn data io writeFails enqueue) = some s') :
    StoreStep P relayID s (.frame conn data io writeFails enqueue) s'.server.store ∧ Names relayID s' := by
  simp only [step] at h
  split at h
  · cases h
  · rename_i ss found
    have handled := s.server.handleAuthedFrame_cases (P := P) ss.userID data io
    have sent (server : Server) (call : Option (Bytes × QueuedMessage)) :=
      s.server.handleAuthedFrame_routed (P := P) server ss.userID data io call
    generalize s.server.handleAuthedFrame P ss.userID data io = out at h handled sent
    cases handled with
    | uncertified => cases h; exact ⟨.same, names.cfg, names.server, names.router⟩
    | certified key issued => cases h; exact ⟨.same, names.cfg, names.server, names.router⟩
    | malformed => cases h; exact ⟨.same, names⟩
    | @registered bundle prekeys result answer =>
      cases result with
      | ok done => cases h; exact ⟨.same, names.cfg, names.server, names.router⟩
      | error e => cases h; exact ⟨.same, names.cfg, names.server, names.router⟩
    | @routed router call =>
      cases h
      obtain ⟨name, classified⟩ := sent _ _ rfl
      have here : router.relayID = relayID := name.trans names.router
      cases call with
      | none => exact ⟨.same, names.cfg, names.server, here⟩
      | some call =>
        obtain ⟨r, m⟩ := call
        refine ⟨?_, names.cfg, names.server, here⟩
        show StoreStep P relayID s _ (deliver P s.server.store router.relayID r m writeFails enqueue).1
        rw [here]
        exact .routed (classified (r, m) rfl)

/-- A federation request leaves the offline store alone, or makes one `deliver` call. -/
theorem post_store (names : Names relayID s) (method : Server.Method) (header body : Bytes) (writeFails : Bool)
    (enqueue : Store.EnqueueIo) :
    StoreStep P relayID s (.post method header body writeFails enqueue)
      (s.delivered P (s.server.handleFederationDeliver method header body) writeFails enqueue).server.store := by
  cases call : s.server.handleFederationDeliver method header body with
  | none => exact .same
  | some call' =>
    obtain ⟨r, m⟩ := call'
    show StoreStep P relayID s _ (deliver P s.server.store s.server.router.relayID r m writeFails enqueue).1
    rw [names.router]
    simp only [Server.handleFederationDeliver, names.server] at call
    split at call
    · cases call
    · exact .posted call

/-- Every step does one of these to the offline store, and the names stay. -/
theorem step_store (names : Names relayID s) {l : Label} (h : step P s l = some s') :
    StoreStep P relayID s l s'.server.store ∧ Names relayID s' := by
  cases l with
  | connect conn ip answer auth flush =>
    simp only [step] at h
    split at h
    · cases h
    · split at h
      · cases h
        exact ⟨.same, names.cfg, names.server, names.router⟩
      · rename_i authenticated
        cases h
        rw [names.cfg]
        exact ⟨.connected authenticated, names.cfg, names.server, names.router⟩
  | frame conn data io writeFails enqueue => exact frame_store names h
  | fetch method path now persist =>
    cases h
    rcases s.server.handlePrekeysGet_cases (P := P) method path now persist with same | ⟨limiter, userID, consume, same⟩
    · rw [same]
      exact ⟨.same, names.cfg, names.server, names.router⟩
    · rw [same]
      exact ⟨.same, names.cfg, names.server, names.router⟩
  | post method header body writeFails enqueue =>
    cases h
    refine ⟨post_store names method header body writeFails enqueue, ?_⟩
    obtain ⟨store, same⟩ :=
      s.delivered_store (P := P) (s.server.handleFederationDeliver method header body) writeFails enqueue
    rw [same]
    exact ⟨names.cfg, names.server, names.router⟩
  | disconnect conn =>
    simp only [step] at h
    split at h
    · cases h
    · cases h
      exact ⟨.left, names.cfg, names.server, names.router⟩
  | restart io =>
    obtain ⟨store, again⟩ := start_store h
    exact ⟨.restarted store, again.cfg.trans names.cfg, again.server.trans names.cfg, again.router.trans names.cfg⟩

end Store

end State

end SpectreRelay.Server.Sessions
