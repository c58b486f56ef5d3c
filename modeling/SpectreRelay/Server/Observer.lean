import SpectreRelay.Server.Ownership
import SpectreRelay.Server.StoreParts

/-!
# An observer of the relay

A party with ids, addresses and connections of its own: which steps of a run are
the observer's, what they show it, and what of a server concerns it. A frame or a
message does the same to two servers that agree on that part, and those of other
users leave it alone.
-/

namespace SpectreRelay.Server.Presence
set_option autoImplicit false
open Lib Lib.Json Model Sessions Server

/-! ## The observer -/

/-- A party with user ids, addresses that it connects from, connections, and names under which it posts as a relay. -/
structure Observer where
  mine : Bytes → Bool
  home : Bytes → Bool
  ours : Conn → Bool
  peer : Bytes → Bool

variable (P : Platform) (O : Observer) (relayID : Bytes)

/-- The `deliver` call ends at an id of the observer. -/
def reaches : Option (Bytes × QueuedMessage) → Bool
  | none => false
  | some (recipientID, m) =>
    match target relayID recipientID m with
    | .local name => O.mine name
    | _ => false

/-- The observer's steps: what it does itself, and what is fetched or posted for its own ids. -/
def visible : Label → Bool
  | .connect conn _ _ _ _ => O.ours conn
  | .frame conn _ _ _ _ => O.ours conn
  | .fetch _ path _ _ =>
    match prekeyTarget path with
    | none => false
    | some userID => O.mine userID
  | .post _ header body _ _ => O.peer header || reaches O relayID (federationDeliver relayID header body)
  | .disconnect conn => O.ours conn
  | .restart _ => false

/-- Who is who: the observer's handshakes come from its addresses and succeed under its ids only, those of others from
elsewhere and under other ids; and no other client writes to the observer. One process, without restarts. -/
def Apart : Label → Prop
  | .connect conn ip answer auth _ => O.ours conn = O.home ip ∧
      ∀ userID ∈ auth.nonce.bind fun nonce => checkAuthRequest P.ed25519 nonce answer,
        O.mine (normalizeUser relayID userID) = O.ours conn
  | .frame conn data _ _ _ => O.ours conn = true ∨ reaches O relayID (classify data) = false
  | .restart _ => False
  | _ => True

instance (l : Label) : Decidable (Apart P O relayID l) :=
  match l with
  | .connect _ _ _ _ _ => inferInstanceAs (Decidable (_ ∧ _))
  | .frame _ _ _ _ _ => inferInstanceAs (Decidable (_ ∨ _))
  | .fetch _ _ _ _ => .isTrue trivial
  | .post _ _ _ _ _ => .isTrue trivial
  | .disconnect _ => .isTrue trivial
  | .restart _ => .isFalse id

/-- What a step of the observer shows it. -/
inductive Sight where
  /-- The handshake failed, or was accepted and these queued frames were written. -/
  | handshake (flushed : Option (List Bytes))
  /-- The frame that answers a certificate request, if any. -/
  | answered (frame : Option Bytes)
  /-- What became of a message, as far as the observer sees it, and the status of the request that brought it. -/
  | sent (status : Option Nat) (delivered : Option Delivered)
  | fetched (answer : PrekeyAnswer)
  | nothing
deriving DecidableEq

/-- A message is seen when it is written to a connection of the observer, or goes to another relay. -/
def seen : Delivered → Option Delivered
  | .written conn frame => if O.ours conn then some (.written conn frame) else none
  | .forwarded domain sealed => some (.forwarded domain sealed)
  | _ => none

/-- The status of a federation request; all that pass the method check are answered alike. -/
def federationStatus (method : Method) : Nat := if method ≠ .post then 405 else 204

/-- What the observer sees of the `deliver` call. -/
def deliveredSight (s : State) (call : Option (Bytes × QueuedMessage)) (writeFails : Bool) (enqueue : Store.EnqueueIo) :
    Option Delivered :=
  call.bind fun (recipientID, m) =>
    seen O (deliver P s.server.store s.server.router.relayID recipientID m writeFails enqueue).2

def sight (s : State) : Label → Sight
  | .connect conn ip answer auth flush =>
    .handshake ((authenticate P.ed25519 s.server.auth ip answer auth).2.map fun claimed =>
      let userID := normalizeUser s.cfg.relayID claimed
      (flushQueue P (s.server.store.register userID conn).1 userID flush.drain flush.fails flush.requeue).2)
  | .frame conn data io writeFails enqueue =>
    match s.sessions.find? fun ss => ss.conn = conn with
    | none => .nothing
    | some ss =>
      match (s.server.handleAuthedFrame P ss.userID data io).2 with
      | .cert frame => .answered frame
      | .registered _ _ => .nothing
      | .routed call => .sent none (deliveredSight P O s call writeFails enqueue)
  | .fetch method path now persist => .fetched (s.server.handlePrekeysGet P method path now persist).2
  | .post method header body writeFails enqueue =>
    .sent (some (federationStatus method))
      (deliveredSight P O s (s.server.handleFederationDeliver method header body) writeFails enqueue)
  | _ => .nothing

/-! ## States that look the same -/

/-- The sessions and the registered connections are the observer's exactly when the ids are. -/
structure Owned (s : State) : Prop where
  names : State.Names relayID s
  sessions : ∀ ss ∈ s.sessions, O.mine ss.userID = O.ours ss.conn
  clients : ∀ u c, s.server.store.lookupClient u = some c → O.mine u = O.ours c

/-- The limiters count alike for the keys of the set. -/
structure SameLimiter (mine : Bytes → Bool) (a b : RateLimiter) : Prop where
  perMin : a.perMin = b.perMin
  attempts : AgreeOn mine a.attempts b.attempts

/-- The servers agree on all that concerns the observer. -/
structure SameServer (a b : Server) : Prop where
  relayID : a.relayID = b.relayID
  sealedCA : a.sealedCA = b.sealedCA
  store : Store.Alike O.mine a.store b.store
  prekeys : AgreeOn O.mine (fun u => a.prekeys.bundles[u]?) fun u => b.prekeys.bundles[u]?
  auth : AgreeOn O.home a.auth b.auth
  maxMessageSize : a.router.maxMessageSize = b.router.maxMessageSize
  ratePerMin : a.router.ratePerMin = b.router.ratePerMin
  rateAttempts : AgreeOn O.mine a.router.rateAttempts b.router.rateAttempts
  certLimiter : SameLimiter O.mine a.certLimiter b.certLimiter
  prekeyLimiter : SameLimiter O.mine a.prekeyLimiter b.prekeyLimiter

/-- And so do the sessions. -/
structure Same (s t : State) : Prop where
  server : SameServer O s.server t.server
  sessions : s.sessions.filter (fun ss => O.ours ss.conn) = t.sessions.filter fun ss => O.ours ss.conn

variable {P O relayID}

theorem SameLimiter.symm {mine : Bytes → Bool} {a b : RateLimiter} (h : SameLimiter mine a b) : SameLimiter mine b a :=
  ⟨h.perMin.symm, h.attempts.symm⟩

theorem SameLimiter.allow {mine : Bytes → Bool} {a b : RateLimiter} (h : SameLimiter mine a b) {key : Bytes}
    (own : mine key = true) (now : Time) :
    (a.allow key now).2 = (b.allow key now).2 ∧ SameLimiter mine (a.allow key now).1 (b.allow key now).1 := by
  have counted := h.attempts.allowAt own b.perMin now
  simp only [RateLimiter.allow, h.perMin]
  exact ⟨counted.1, rfl, counted.2⟩

theorem SameLimiter.elsewhere {mine : Bytes → Bool} {a b : RateLimiter} (h : SameLimiter mine a b) {key : Bytes}
    (other : mine key = false) (now : Time) : SameLimiter mine (a.allow key now).1 b :=
  ⟨h.perMin, (allowAt_elsewhere other a.perMin a.attempts now).trans h.attempts⟩

theorem SameServer.symm {a b : Server} (h : SameServer O a b) : SameServer O b a :=
  ⟨h.relayID.symm, h.sealedCA.symm, h.store.symm, h.prekeys.symm, h.auth.symm, h.maxMessageSize.symm, h.ratePerMin.symm,
    h.rateAttempts.symm, h.certLimiter.symm, h.prekeyLimiter.symm⟩

theorem insert_elsewhere {mine : Bytes → Bool} {bundles : Map PrekeyBundle} {userID : Bytes} (other : mine userID = false)
    (b : PrekeyBundle) : AgreeOn mine (fun u => (bundles.insert userID b)[u]?) fun u => bundles[u]? := by
  intro u own
  apply Map.get_insert_other
  rintro rfl
  rw [own] at other
  cases other

theorem insert_alike {mine : Bytes → Bool} {bundles bundles' : Map PrekeyBundle}
    (h : AgreeOn mine (fun u => bundles[u]?) fun u => bundles'[u]?) (userID : Bytes) (b : PrekeyBundle) :
    AgreeOn mine (fun u => (bundles.insert userID b)[u]?) fun u => (bundles'.insert userID b)[u]? := by
  intro u own
  simp only [Map.get_insert]
  split
  · rfl
  · exact h u own

/-! ## One frame -/

theorem issueSenderCert_server (s : Server) (userID : Bytes) (limitAt signAt : Time) :
    (s.issueSenderCert P userID limitAt signAt).1 = { s with certLimiter := (s.certLimiter.allow userID limitAt).1 } := by
  simp only [issueSenderCert]
  split <;> rfl

theorem route_router (r : Router) (senderID payload : Bytes) (now : Time) :
    (r.route senderID payload now).1 = if r.maxMessageSize < payload.length then r
      else { r with rateAttempts := (allowAt r.ratePerMin r.rateAttempts senderID now).1 } := by
  simp only [Router.route]
  split
  · rfl
  · split <;> rfl

/-- A frame of another user is not noticed, up to the message it may send. -/
theorem SameServer.frame_elsewhere {a b : Server} (h : SameServer O a b) {userID : Bytes} (other : O.mine userID = false)
    (data : Bytes) (io : FrameIo) : SameServer O (a.handleAuthedFrame P userID data io).1 b := by
  unfold handleAuthedFrame
  split
  · dsimp only
    rw [issueSenderCert_server]
    exact { h with certLimiter := h.certLimiter.elsewhere other io.now }
  · exact h
  · rename_i bundle _
    have done := PrekeyStore.registerBundle_cases P.aead a.prekeys userID bundle io.persist
    generalize a.prekeys.registerBundle P.aead userID bundle io.persist = answer at done ⊢
    cases done with
    | refused bad => exact h
    | stored named accepted => exact { h with prekeys := (insert_elsewhere other bundle).trans h.prekeys }
  · dsimp only
    rw [route_router]
    split
    · exact h
    · have counted := allowAt_elsewhere other a.router.ratePerMin a.router.rateAttempts io.now
      exact { h with rateAttempts := counted.trans h.rateAttempts }

/-- Whether a persist succeeds does not depend on what is persisted. -/
theorem persistLocked_written (A : Aead) (ps ps' : PrekeyStore) (io : PersistIo) :
    (ps.persistLocked A io).2 = (ps'.persistLocked A io).2 := by
  unfold PrekeyStore.persistLocked replaceFile
  split <;> rfl

/-- The answer of a registration does not depend on the store. -/
theorem registerBundle_answer (A : Aead) (ps ps' : PrekeyStore) (userID : Bytes) (bundle : PrekeyBundle) (io : PersistIo) :
    (ps.registerBundle A userID bundle io).2 = (ps'.registerBundle A userID bundle io).2 := by
  have written := persistLocked_written A { ps with bundles := ps.bundles.insert userID bundle }
    { ps' with bundles := ps'.bundles.insert userID bundle } io
  unfold PrekeyStore.registerBundle
  split
  · rfl
  · split
    · rfl
    · simp only [written]

/-- A registration stores the same in both. -/
theorem registerBundle_alike {mine : Bytes → Bool} (A : Aead) {ps ps' : PrekeyStore}
    (h : AgreeOn mine (fun u => ps.bundles[u]?) fun u => ps'.bundles[u]?) (userID : Bytes) (bundle : PrekeyBundle)
    (io : PersistIo) : AgreeOn mine (fun u => (ps.registerBundle A userID bundle io).1.bundles[u]?)
      fun u => (ps'.registerBundle A userID bundle io).1.bundles[u]? := by
  have first := PrekeyStore.registerBundle_cases A ps userID bundle io
  have second := PrekeyStore.registerBundle_cases A ps' userID bundle io
  generalize ps.registerBundle A userID bundle io = answer at first ⊢
  generalize ps'.registerBundle A userID bundle io = answer' at second ⊢
  cases first with
  | refused bad =>
    cases second with
    | refused _ => exact h
    | stored named accepted => exact absurd accepted (bad.resolve_left named)
  | stored named accepted =>
    cases second with
    | refused bad => exact absurd accepted (bad.resolve_left named)
    | stored _ _ => exact insert_alike h userID bundle

theorem issueSenderCert_answer {a b : Server} (h : SameServer O a b) {userID : Bytes} (own : O.mine userID = true)
    (limitAt signAt : Time) :
    (a.issueSenderCert P userID limitAt signAt).2 = (b.issueSenderCert P userID limitAt signAt).2 := by
  have key : a.prekeys.identityKeyOf userID = b.prekeys.identityKeyOf userID := congrArg (Option.map _) (h.prekeys userID own)
  simp only [issueSenderCert, (h.certLimiter.allow own limitAt).1, buildSenderCert, key, h.sealedCA, h.relayID]
  split <;> rfl

theorem route_call (r : Router) (senderID payload : Bytes) (now : Time) :
    (r.route senderID payload now).2 = if r.maxMessageSize < payload.length then none
      else if (allowAt r.ratePerMin r.rateAttempts senderID now).2 then classify payload else none := by
  unfold Router.route
  split
  · rfl
  · by_cases admitted : (r.allow senderID now).2 = true
    · have counted : (allowAt r.ratePerMin r.rateAttempts senderID now).2 = true := admitted
      simp only [admitted, counted, if_true]
    · have counted : ¬ (allowAt r.ratePerMin r.rateAttempts senderID now).2 = true := admitted
      simp only [admitted, counted, if_false, Bool.false_eq_true]

/-- A frame of the observer has the same effect. -/
theorem SameServer.frame {a b : Server} (h : SameServer O a b) {userID : Bytes} (own : O.mine userID = true) (data : Bytes)
    (io : FrameIo) :
    (a.handleAuthedFrame P userID data io).2 = (b.handleAuthedFrame P userID data io).2 ∧
      SameServer O (a.handleAuthedFrame P userID data io).1 (b.handleAuthedFrame P userID data io).1 := by
  unfold handleAuthedFrame
  split
  · refine ⟨congrArg FrameEffect.cert (issueSenderCert_answer h own _ _), ?_⟩
    dsimp only
    rw [issueSenderCert_server, issueSenderCert_server]
    exact { h with certLimiter := (h.certLimiter.allow own io.now).2 }
  · exact ⟨rfl, h⟩
  · rename_i bundle _
    refine ⟨?_, { h with prekeys := registerBundle_alike P.aead h.prekeys userID bundle io.persist }⟩
    dsimp only
    rw [registerBundle_answer P.aead a.prekeys b.prekeys]
  · obtain ⟨answer, counted⟩ := h.rateAttempts.allowAt own a.router.ratePerMin io.now
    refine ⟨?_, ?_⟩
    · dsimp only
      rw [route_call, route_call, ← h.maxMessageSize, ← h.ratePerMin, answer]
    · dsimp only
      rw [route_router, route_router]
      by_cases large : a.router.maxMessageSize < data.length
      · rw [if_pos large, if_pos (h.maxMessageSize ▸ large)]
        exact h
      · rw [if_neg large, if_neg (h.maxMessageSize ▸ large)]
        rw [h.ratePerMin] at counted
        exact { h with rateAttempts := h.ratePerMin ▸ counted }

/-! ## One message -/

/-- A message for another user is not noticed. -/
theorem deliver_elsewhere {recipientID : Bytes} {m : QueuedMessage} (other : reaches O relayID (some (recipientID, m)) = false)
    (s : Store) (writeFails : Bool) (io : Store.EnqueueIo) :
    Store.Alike O.mine (deliver P s relayID recipientID m writeFails io).1 s := by
  simp only [reaches] at other
  unfold deliver
  split
  · exact Store.Alike.refl s
  · exact Store.Alike.refl s
  · rename_i name here
    simp only [here] at other
    have queued := Store.enqueue_elsewhere (P := P) other s m io
    split
    · split
      · exact queued
      · exact Store.Alike.refl s
    · exact queued

/-- Nor is what becomes of it seen. -/
theorem seen_elsewhere {s : Store} (clients : ∀ u c, s.lookupClient u = some c → O.mine u = O.ours c) {recipientID : Bytes}
    {m : QueuedMessage} {name : Bytes} (goes : target relayID recipientID m = .local name) (other : O.mine name = false)
    (writeFails : Bool) (io : Store.EnqueueIo) : seen O (deliver P s relayID recipientID m writeFails io).2 = none := by
  simp only [deliver, goes]
  split
  · rename_i conn frame connected text
    have notOurs : O.ours conn = false := (clients name conn connected).symm.trans other
    split
    · rfl
    · simp only [seen, notOurs, Bool.false_eq_true, if_false]
  · rfl

/-- The observer sees the same become of a message, whoever it is for. -/
theorem deliver_alike {s t : Store} (h : Store.Alike O.mine s t)
    (clients : ∀ u c, s.lookupClient u = some c → O.mine u = O.ours c)
    (clients' : ∀ u c, t.lookupClient u = some c → O.mine u = O.ours c) (recipientID : Bytes) (m : QueuedMessage)
    (writeFails : Bool) (io : Store.EnqueueIo) :
    seen O (deliver P s relayID recipientID m writeFails io).2 = seen O (deliver P t relayID recipientID m writeFails io).2 ∧
      Store.Alike O.mine (deliver P s relayID recipientID m writeFails io).1
        (deliver P t relayID recipientID m writeFails io).1 := by
  cases goes : target relayID recipientID m with
  | drop =>
    simp only [deliver, goes]
    exact ⟨trivial, h⟩
  | forward domain sealed =>
    simp only [deliver, goes]
    exact ⟨trivial, h⟩
  | «local» name =>
    cases own : O.mine name with
    | true =>
      simp only [deliver, goes, h.clients name own]
      split
      · split
        · exact ⟨rfl, h.enqueue name m io⟩
        · exact ⟨rfl, h⟩
      · exact ⟨rfl, h.enqueue name m io⟩
    | false =>
      have elsewhere : reaches O relayID (some (recipientID, m)) = false := by simp only [reaches, goes, own]
      constructor
      · rw [seen_elsewhere clients goes own, seen_elsewhere clients' goes own]
      · exact (deliver_elsewhere elsewhere s writeFails io).trans (h.trans (deliver_elsewhere elsewhere t writeFails io).symm)

end SpectreRelay.Server.Presence
