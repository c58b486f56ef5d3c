import SpectreRelay.Lib.Unwinding
import SpectreRelay.Server.Observer

/-!
# No presence oracle

`Route` treats every recipient alike, the handshake fails in one way, and the
federation endpoint has one answer, so that a sender cannot find out who uses
the relay. `Observer` is a party with ids, addresses and connections of its own;
it may send anything to anyone and try to authenticate under any name. Two runs
with the same steps of the observer, and any steps of others that are not
addressed to it, show it the same (`no_presence_oracle`): whether another user
exists, is connected, has a full queue or a bundle makes no difference to what it
is written and answered. The prekey endpoint tells by design who has registered;
the observer's fetches are those for its own ids.
-/

namespace SpectreRelay.Server.Presence
set_option autoImplicit false
open Lib Lib.Json Model Sessions Server

variable {P : Platform} {O : Observer} {relayID : Bytes}

/-! ## Single steps -/

section Steps

variable {s t s' t' : State}

/-- What a handshake answers depends on the address's own list. -/
theorem authenticate_answer {E : Ed25519} {a b : Attempts} {ip frame : Bytes} {io : AuthIo}
    (same : (authAllow a ip io.now).2 = (authAllow b ip io.now).2) :
    (authenticate E a ip frame io).2 = (authenticate E b ip frame io).2 := by
  simp only [authenticate, same]
  repeat' split
  all_goals rfl

/-- A handshake changes the limiter alone, or starts a session that is registered and flushed. -/
theorem connect_cases {conn : Conn} {ip answer : Bytes} {auth : AuthIo} {flush : FlushIo}
    (next : State.step P s (.connect conn ip answer auth flush) = some s') :
    ((authenticate P.ed25519 s.server.auth ip answer auth).2 = none ∧
        s' = { s with server := { s.server with auth := (authAllow s.server.auth ip auth.now).1 } }) ∨
      ∃ claimed, (authenticate P.ed25519 s.server.auth ip answer auth).2 = some claimed ∧
        s'.sessions = ⟨conn, normalizeUser s.cfg.relayID claimed, provedKey answer⟩ :: s.sessions ∧
        s'.server = { s.server with
          auth := (authAllow s.server.auth ip auth.now).1
          store := (flushQueue P (s.server.store.register (normalizeUser s.cfg.relayID claimed) conn).1
            (normalizeUser s.cfg.relayID claimed) flush.drain flush.fails flush.requeue).1 } := by
  have attempts := authenticate_attempts P.ed25519 s.server.auth ip answer auth
  simp only [State.step] at next
  split at next
  · cases next
  · split at next
    · rename_i after outcome
      rw [outcome] at attempts
      cases next
      exact .inl ⟨congrArg Prod.snd outcome, by rw [← attempts]⟩
    · rename_i after claimed outcome
      rw [outcome] at attempts
      cases next
      refine .inr ⟨claimed, congrArg Prod.snd outcome, rfl, ?_⟩
      rw [← attempts]

/-- The `deliver` call of a frame's effect. -/
def calls : FrameEffect → Option (Bytes × QueuedMessage)
  | .routed call => call
  | _ => none

theorem frame_cases {conn : Conn} {data : Bytes} {io : FrameIo} {writeFails : Bool} {enqueue : Store.EnqueueIo}
    (next : State.step P s (.frame conn data io writeFails enqueue) = some s') :
    ∃ ss, (s.sessions.find? fun ss => ss.conn = conn) = some ss ∧ s'.sessions = s.sessions ∧
      s'.server = (({ s with server := (s.server.handleAuthedFrame P ss.userID data io).1 } : State).delivered P
        (calls (s.server.handleAuthedFrame P ss.userID data io).2) writeFails enqueue).server := by
  simp only [State.step] at next
  split at next
  · cases next
  · rename_i ss found
    refine ⟨ss, found, ?_⟩
    split at next
    · rename_i outcome
      cases next
      simp only [outcome, calls, State.delivered, and_self]
    · rename_i outcome
      cases next
      simp only [outcome, calls, State.delivered, and_self]
    · rename_i server call outcome
      cases next
      obtain ⟨store, same⟩ := State.delivered_store (P := P) { s with server } call writeFails enqueue
      constructor
      · rw [same]
      · simp only [outcome, calls]
    · rename_i server effect certless unregistered unrouted outcome
      cases next
      have none : calls effect = none := by
        cases effect with
        | routed call => exact absurd rfl (unrouted call)
        | _ => rfl
      simp only [outcome, none, State.delivered, and_self]

theorem handleAuthedFrame_store (a : Server) (userID data : Bytes) (io : FrameIo) :
    (a.handleAuthedFrame P userID data io).1.store = a.store := by
  have handled := a.handleAuthedFrame_cases (P := P) userID data io
  generalize a.handleAuthedFrame P userID data io = out at handled ⊢
  cases handled <;> rfl

theorem handleAuthedFrame_relayID (a : Server) (userID data : Bytes) (io : FrameIo) :
    (a.handleAuthedFrame P userID data io).1.router.relayID = a.router.relayID := by
  unfold handleAuthedFrame
  split
  · dsimp only
    rw [issueSenderCert_server]
  · rfl
  · rfl
  · exact route_relayID rfl

/-- What a frame routes, it was classified as. -/
theorem calls_classify (a : Server) (userID data : Bytes) (io : FrameIo) :
    calls (a.handleAuthedFrame P userID data io).2 = none ∨
      calls (a.handleAuthedFrame P userID data io).2 = classify data := by
  have routed (b : Server) (call : Option (Bytes × QueuedMessage)) :=
    a.handleAuthedFrame_routed (P := P) b userID data io call
  generalize a.handleAuthedFrame P userID data io = out at routed ⊢
  obtain ⟨b, effect⟩ := out
  cases effect with
  | cert frame => exact .inl rfl
  | registered bundle result => exact .inl rfl
  | routed call =>
    cases call with
    | none => exact .inl rfl
    | some c => exact .inr ((routed b (some c) rfl).2 c rfl).symm

theorem session_of_find {conn : Conn} {ss : Session} (owned : Owned O relayID s)
    (found : (s.sessions.find? fun ss => ss.conn = conn) = some ss) : O.mine ss.userID = O.ours conn := by
  have same : ss.conn = conn := by simpa using List.find?_some found
  rw [← same]
  exact owned.sessions ss (List.mem_of_find?_eq_some found)

/-- The id of a session that a handshake started. -/
theorem claimed_owned (owned : Owned O relayID s) {conn : Conn} {ip answer claimed : Bytes} {auth : AuthIo} {flush : FlushIo}
    (apart : Apart P O relayID (.connect conn ip answer auth flush))
    (accepted : (authenticate P.ed25519 s.server.auth ip answer auth).2 = some claimed) :
    O.mine (normalizeUser s.cfg.relayID claimed) = O.ours conn := by
  obtain ⟨nonce, drawn, passed⟩ := authenticate_some (Prod.ext rfl accepted)
  rw [owned.names.cfg]
  refine apart.2 claimed ?_
  rw [drawn, Option.bind_some]
  exact passed

/-- **Every step keeps whose sessions are whose.** -/
theorem Owned.step {l : Label} (h : Owned O relayID s) (apart : Apart P O relayID l) (next : State.step P s l = some s') :
    Owned O relayID s' := by
  obtain ⟨store, names⟩ := State.step_store h.names next
  refine ⟨names, ?_, ?_⟩
  · cases State.step_cases next with
    | connected accepted =>
      intro ss inside
      rcases List.mem_cons.1 inside with rfl | old
      · exact claimed_owned h apart (congrArg Prod.snd accepted)
      · exact h.sessions ss old
    | disconnect fewer => exact fun ss inside => h.sessions ss (fewer ss inside)
    | restart started => exact apart.elim
    | _ => exact h.sessions
  · generalize s'.server.store = after at store
    intro u c found
    cases store with
    | same => exact h.clients u c found
    | connected accepted =>
      have own := claimed_owned h apart (congrArg Prod.snd accepted)
      rw [h.names.cfg] at own
      rw [Store.lookupClient, Store.flushQueue_clients, ← Store.lookupClient, Store.register_lookup] at found
      split at found
      · rename_i same
        cases found
        rw [← same]
        exact own
      · exact h.clients u c found
    | routed call =>
      rw [Store.lookupClient, Store.deliver_clients] at found
      exact h.clients u c found
    | posted call =>
      rw [Store.lookupClient, Store.deliver_clients] at found
      exact h.clients u c found
    | left => exact h.clients u c (Store.unregister_lookup _ _ found)
    | restarted started => exact apart.elim

theorem SameServer.delivered_elsewhere {call : Option (Bytes × QueuedMessage)} (h : SameServer O s.server t.server)
    (name : s.server.router.relayID = relayID) (other : reaches O relayID call = false) (writeFails : Bool)
    (enqueue : Store.EnqueueIo) : SameServer O (s.delivered P call writeFails enqueue).server t.server := by
  cases call with
  | none => exact h
  | some call =>
    obtain ⟨r, m⟩ := call
    simp only [State.delivered, name]
    exact { h with store := (deliver_elsewhere other s.server.store writeFails enqueue).trans h.store }

/-! ### Steps of others -/

/-- A handshake of someone else counts at their address, and registers and flushes an id of theirs. -/
theorem Same.connect_elsewhere {conn : Conn} {ip answer : Bytes} {auth : AuthIo} {flush : FlushIo} (h : Same O s t)
    (owned : Owned O relayID s) (apart : Apart P O relayID (.connect conn ip answer auth flush))
    (notOurs : O.ours conn = false) (next : State.step P s (.connect conn ip answer auth flush) = some s') :
    Same O s' t := by
  have away : O.home ip = false := apart.1.symm.trans notOurs
  have counted := (allowAt_elsewhere away 5 s.server.auth auth.now).trans h.server.auth
  rcases connect_cases next with ⟨-, rfl⟩ | ⟨claimed, accepted, sessions, server⟩
  · exact ⟨{ h.server with auth := counted }, h.sessions⟩
  · have other : O.mine (normalizeUser s.cfg.relayID claimed) = false := (claimed_owned owned apart accepted).trans notOurs
    constructor
    · rw [server]
      have flushed := Store.flushQueue_elsewhere (P := P) other
        (s.server.store.register (normalizeUser s.cfg.relayID claimed) conn).1 flush.drain flush.fails flush.requeue
      have store := (flushed.trans (Store.register_elsewhere other s.server.store conn)).trans h.server.store
      exact { h.server with auth := counted, store }
    · rw [sessions, List.filter_cons_of_neg (by simp [notOurs])]
      exact h.sessions

/-- A frame of someone else counts for their id, and its message goes to another user. -/
theorem Same.frame_elsewhere {conn : Conn} {data : Bytes} {io : FrameIo} {writeFails : Bool} {enqueue : Store.EnqueueIo}
    (h : Same O s t) (owned : Owned O relayID s) (notOurs : O.ours conn = false)
    (elsewhere : reaches O relayID (classify data) = false)
    (next : State.step P s (.frame conn data io writeFails enqueue) = some s') : Same O s' t := by
  obtain ⟨ss, found, sessions, server⟩ := frame_cases next
  have other : O.mine ss.userID = false := (session_of_find owned found).trans notOurs
  refine ⟨?_, sessions ▸ h.sessions⟩
  rw [server]
  have name : (s.server.handleAuthedFrame P ss.userID data io).1.router.relayID = relayID :=
    (handleAuthedFrame_relayID s.server ss.userID data io).trans owned.names.router
  apply SameServer.delivered_elsewhere (s := { s with server := _ }) (h.server.frame_elsewhere other data io) name
  rcases calls_classify (P := P) s.server ss.userID data io with none | same
  · rw [none]
    rfl
  · rw [same]
    exact elsewhere

theorem getBundleWithOTPK_elsewhere {mine : Bytes → Bool} (A : Aead) (ps : PrekeyStore) {userID : Bytes}
    (other : mine userID = false) (consume : Bool) (io : PersistIo) :
    AgreeOn mine (fun u => (ps.getBundleWithOTPK A userID consume io).1.bundles[u]?) fun u => ps.bundles[u]? := by
  have served := PrekeyStore.getBundleWithOTPK_served (A := A) ps userID consume io
  generalize (ps.getBundleWithOTPK A userID consume io).1 = after at served ⊢
  cases served with
  | same => exact fun _ _ => rfl
  | popped found pool => exact insert_elsewhere other _

/-- A fetch of another user's bundle counts for that user and takes a prekey of that bundle. -/
theorem SameServer.fetch_elsewhere {a b : Server} (h : SameServer O a b) (method : Method) {path : Bytes} (now : Time)
    (persist : PersistIo) (other : ∀ userID, prekeyTarget path = some userID → O.mine userID = false) :
    SameServer O (a.handlePrekeysGet P method path now persist).1 b := by
  unfold handlePrekeysGet
  split
  · exact h
  · split
    · exact h
    · rename_i userID asked
      have prekeys := getBundleWithOTPK_elsewhere P.aead a.prekeys (other userID asked)
        (a.prekeyLimiter.allow userID now).2 persist
      exact { h with
        prekeys := prekeys.trans h.prekeys
        prekeyLimiter := h.prekeyLimiter.elsewhere (other userID asked) now }

/-- A post for someone else reaches their queue or connection. -/
theorem Same.post_elsewhere {method : Method} {header body : Bytes} {writeFails : Bool} {enqueue : Store.EnqueueIo}
    (h : Same O s t) (owned : Owned O relayID s) (elsewhere : reaches O relayID (federationDeliver relayID header body) = false)
    (next : State.step P s (.post method header body writeFails enqueue) = some s') : Same O s' t := by
  cases next
  obtain ⟨store, same⟩ :=
    s.delivered_store (P := P) (s.server.handleFederationDeliver method header body) writeFails enqueue
  refine ⟨?_, same ▸ h.sessions⟩
  apply SameServer.delivered_elsewhere h.server owned.names.router
  simp only [handleFederationDeliver, owned.names.server]
  split
  · rfl
  · exact elsewhere

/-- Someone else's connection that ends takes only its own session along. -/
theorem Same.disconnect_elsewhere {conn : Conn} (h : Same O s t) (owned : Owned O relayID s) (notOurs : O.ours conn = false)
    (next : State.step P s (.disconnect conn) = some s') : Same O s' t := by
  simp only [State.step] at next
  split at next
  · cases next
  · rename_i ss found
    cases next
    have other : O.mine ss.userID = false := (session_of_find owned found).trans notOurs
    refine ⟨{ h.server with store := (Store.unregister_elsewhere other s.server.store conn).trans h.server.store }, ?_⟩
    rw [List.filter_filter, ← h.sessions]
    apply List.filter_congr
    intro entry _
    by_cases same : entry.conn = conn
    · simp [same, notOurs]
    · simp [same]

/-- **A hidden step** leaves what concerns the observer as it was. -/
theorem Same.hidden {l : Label} (h : Same O s t) (owned : Owned O relayID s) (apart : Apart P O relayID l)
    (unseen : visible O relayID l = false) (next : State.step P s l = some s') : Same O s' t := by
  cases l with
  | connect conn ip answer auth flush => exact h.connect_elsewhere owned apart unseen next
  | frame conn data io writeFails enqueue =>
    have notOurs : O.ours conn = false := unseen
    apply h.frame_elsewhere owned notOurs _ next
    apply apart.resolve_left
    rw [notOurs]
    exact Bool.false_ne_true
  | fetch method path now persist =>
    cases next
    refine ⟨h.server.fetch_elsewhere method now persist ?_, h.sessions⟩
    intro userID asked
    simpa only [visible, asked] using unseen
  | post method header body writeFails enqueue =>
    simp only [visible, Bool.or_eq_false_iff] at unseen
    exact h.post_elsewhere owned unseen.2 next
  | disconnect conn => exact h.disconnect_elsewhere owned unseen next
  | restart io => exact apart.elim

/-! ### Steps of the observer -/

/-- The observer's sessions are found alike. -/
theorem Same.find (h : Same O s t) {conn : Conn} (ours : O.ours conn = true) :
    (s.sessions.find? fun ss => ss.conn = conn) = t.sessions.find? fun ss => ss.conn = conn := by
  have narrow (sessions : List Session) : (sessions.find? fun ss => ss.conn = conn) =
      (sessions.filter fun ss => O.ours ss.conn).find? fun ss => ss.conn = conn := by
    rw [List.find?_filter]
    congr 1
    funext ss
    by_cases same : ss.conn = conn
    · simp [same, ours]
    · simp [same]
  rw [narrow, narrow t.sessions, h.sessions]

theorem SameServer.deliveredSight {call : Option (Bytes × QueuedMessage)} (h : SameServer O s.server t.server)
    (owned : Owned O relayID s) (owned' : Owned O relayID t) (writeFails : Bool) (enqueue : Store.EnqueueIo) :
    Presence.deliveredSight P O s call writeFails enqueue = Presence.deliveredSight P O t call writeFails enqueue := by
  cases call with
  | none => rfl
  | some call =>
    simp only [Presence.deliveredSight, Option.bind_some, owned.names.router, owned'.names.router]
    exact (deliver_alike h.store owned.clients owned'.clients call.1 call.2 writeFails enqueue).1

theorem SameServer.delivered {call : Option (Bytes × QueuedMessage)} (h : SameServer O s.server t.server)
    (name : s.server.router.relayID = t.server.router.relayID)
    (clients : ∀ u c, s.server.store.lookupClient u = some c → O.mine u = O.ours c)
    (clients' : ∀ u c, t.server.store.lookupClient u = some c → O.mine u = O.ours c) (writeFails : Bool)
    (enqueue : Store.EnqueueIo) :
    SameServer O (s.delivered P call writeFails enqueue).server (t.delivered P call writeFails enqueue).server := by
  cases call with
  | none => exact h
  | some call =>
    simp only [State.delivered, name]
    exact { h with store := (deliver_alike h.store clients clients' call.1 call.2 writeFails enqueue).2 }

theorem getBundleWithOTPK_alike {mine : Bytes → Bool} (A : Aead) {ps ps' : PrekeyStore}
    (h : AgreeOn mine (fun u => ps.bundles[u]?) fun u => ps'.bundles[u]?) {userID : Bytes} (own : mine userID = true)
    (consume : Bool) (io : PersistIo) :
    (ps.getBundleWithOTPK A userID consume io).2 = (ps'.getBundleWithOTPK A userID consume io).2 ∧
      AgreeOn mine (fun u => (ps.getBundleWithOTPK A userID consume io).1.bundles[u]?)
        fun u => (ps'.getBundleWithOTPK A userID consume io).1.bundles[u]? := by
  have bundle : ps.bundles[userID]? = ps'.bundles[userID]? := h userID own
  unfold PrekeyStore.getBundleWithOTPK
  rw [bundle]
  cases ps'.bundles[userID]? with
  | none => exact ⟨rfl, h⟩
  | some b =>
    cases consume with
    | false => exact ⟨rfl, h⟩
    | true =>
      cases pool : b.oneTimePrekeys with
      | nil =>
        simp only [pool]
        exact ⟨trivial, h⟩
      | cons k rest =>
        simp only [pool]
        exact ⟨trivial, insert_alike h userID _⟩

/-- **A fetch of the observer's bundle** is answered alike. -/
theorem SameServer.fetch {a b : Server} (h : SameServer O a b) (method : Method) {path : Bytes} (now : Time)
    (persist : PersistIo) (own : ∀ userID, prekeyTarget path = some userID → O.mine userID = true) :
    (a.handlePrekeysGet P method path now persist).2 = (b.handlePrekeysGet P method path now persist).2 ∧
      SameServer O (a.handlePrekeysGet P method path now persist).1 (b.handlePrekeysGet P method path now persist).1 := by
  unfold handlePrekeysGet
  split
  · exact ⟨rfl, h⟩
  · split
    · exact ⟨rfl, h⟩
    · rename_i userID asked
      obtain ⟨answer, counted⟩ := h.prekeyLimiter.allow (own userID asked) now
      obtain ⟨response, prekeys⟩ := getBundleWithOTPK_alike P.aead h.prekeys (own userID asked)
        (b.prekeyLimiter.allow userID now).2 persist
      dsimp only
      rw [answer, response]
      exact ⟨rfl, { h with prekeyLimiter := counted, prekeys }⟩

/-- A handshake of the observer is answered alike, and is written the same queued frames. -/
theorem Same.connect {conn : Conn} {ip answer : Bytes} {auth : AuthIo} {flush : FlushIo} (h : Same O s t)
    (owned : Owned O relayID s) (owned' : Owned O relayID t) (apart : Apart P O relayID (.connect conn ip answer auth flush))
    (ours : O.ours conn = true) (next : State.step P s (.connect conn ip answer auth flush) = some s')
    (next' : State.step P t (.connect conn ip answer auth flush) = some t') :
    sight P O s (.connect conn ip answer auth flush) = sight P O t (.connect conn ip answer auth flush) ∧ Same O s' t' := by
  have names : s.cfg.relayID = t.cfg.relayID := owned.names.cfg.trans owned'.names.cfg.symm
  have home : O.home ip = true := apart.1.symm.trans ours
  obtain ⟨admitted, counted⟩ := h.server.auth.allowAt home 5 auth.now
  have outcome : (authenticate P.ed25519 s.server.auth ip answer auth).2 =
      (authenticate P.ed25519 t.server.auth ip answer auth).2 := authenticate_answer admitted
  rcases connect_cases next with ⟨refused, rfl⟩ | ⟨claimed, accepted, sessions, server⟩
  · rcases connect_cases next' with ⟨refused', rfl⟩ | ⟨claimed, accepted', -, -⟩
    · constructor
      · simp only [sight, refused, refused', Option.map_none]
      · exact ⟨{ h.server with auth := counted }, h.sessions⟩
    · rw [← outcome, refused] at accepted'
      cases accepted'
  · rcases connect_cases next' with ⟨refused', -⟩ | ⟨claimed', accepted', sessions', server'⟩
    · rw [← outcome, accepted] at refused'
      cases refused'
    · obtain rfl : claimed = claimed' := by
        rw [← outcome, accepted] at accepted'
        exact Option.some.inj accepted'
      have own : O.mine (normalizeUser t.cfg.relayID claimed) = true := (claimed_owned owned' apart accepted').trans ours
      obtain ⟨frames, store⟩ := (h.server.store.register (normalizeUser t.cfg.relayID claimed) conn).flushQueue (P := P) own
        flush.drain flush.fails flush.requeue
      rw [names] at server sessions
      refine ⟨?_, ?_, ?_⟩
      · simp only [sight, accepted, accepted', Option.map_some, names, frames]
      · rw [server, server']
        exact { h.server with auth := counted, store }
      · simp only [sessions, sessions', List.filter_cons, ours, if_true, h.sessions]

/-- A frame of the observer has the same effect, and the same becomes of its message. -/
theorem Same.frame {conn : Conn} {data : Bytes} {io : FrameIo} {writeFails : Bool} {enqueue : Store.EnqueueIo}
    (h : Same O s t) (owned : Owned O relayID s) (owned' : Owned O relayID t) (ours : O.ours conn = true)
    (next : State.step P s (.frame conn data io writeFails enqueue) = some s')
    (next' : State.step P t (.frame conn data io writeFails enqueue) = some t') :
    sight P O s (.frame conn data io writeFails enqueue) = sight P O t (.frame conn data io writeFails enqueue) ∧
      Same O s' t' := by
  obtain ⟨ss, found, sessions, server⟩ := frame_cases next
  obtain ⟨ss', found', sessions', server'⟩ := frame_cases next'
  obtain rfl : ss = ss' := by
    rw [h.find ours, found'] at found
    exact (Option.some.inj found).symm
  have own : O.mine ss.userID = true := (session_of_find owned found).trans ours
  obtain ⟨effect, after⟩ := h.server.frame (P := P) own data io
  refine ⟨?_, ?_, ?_⟩
  · simp only [sight, found, found', effect]
    split
    · rfl
    · rfl
    · rw [h.server.deliveredSight owned owned']
  · rw [server, server', effect]
    refine SameServer.delivered (s := { s with server := _ }) (t := { t with server := _ }) after ?_ ?_ ?_ writeFails enqueue
    · show Router.relayID _ = Router.relayID _
      rw [handleAuthedFrame_relayID, handleAuthedFrame_relayID, owned.names.router, owned'.names.router]
    · intro u c client
      exact owned.clients u c (handleAuthedFrame_store (P := P) s.server ss.userID data io ▸ client)
    · intro u c client
      exact owned'.clients u c (handleAuthedFrame_store (P := P) t.server ss.userID data io ▸ client)
  · rw [sessions, sessions', h.sessions]

/-- A post shows the same, whoever its message is for. -/
theorem Same.post {method : Method} {header body : Bytes} {writeFails : Bool} {enqueue : Store.EnqueueIo} (h : Same O s t)
    (owned : Owned O relayID s) (owned' : Owned O relayID t)
    (next : State.step P s (.post method header body writeFails enqueue) = some s')
    (next' : State.step P t (.post method header body writeFails enqueue) = some t') :
    sight P O s (.post method header body writeFails enqueue) = sight P O t (.post method header body writeFails enqueue) ∧
      Same O s' t' := by
  cases next
  cases next'
  have call : s.server.handleFederationDeliver method header body = t.server.handleFederationDeliver method header body := by
    simp only [handleFederationDeliver, h.server.relayID]
  have router : s.server.router.relayID = t.server.router.relayID := owned.names.router.trans owned'.names.router.symm
  obtain ⟨store, same⟩ :=
    s.delivered_store (P := P) (t.server.handleFederationDeliver method header body) writeFails enqueue
  obtain ⟨store', same'⟩ :=
    t.delivered_store (P := P) (t.server.handleFederationDeliver method header body) writeFails enqueue
  refine ⟨?_, ?_, ?_⟩
  · simp only [sight, call]
    rw [h.server.deliveredSight owned owned']
  · rw [call]
    exact h.server.delivered router owned.clients owned'.clients writeFails enqueue
  · rw [call, same, same']
    exact h.sessions

/-- A connection of the observer ends alike. -/
theorem Same.disconnect {conn : Conn} (h : Same O s t) (owned' : Owned O relayID t) (ours : O.ours conn = true)
    (next : State.step P s (.disconnect conn) = some s') (next' : State.step P t (.disconnect conn) = some t') :
    Same O s' t' := by
  have found := h.find ours
  simp only [State.step, found] at next next'
  split at next
  · cases next
  · rename_i ss here
    simp only [here] at next'
    cases next
    cases next'
    have own : O.mine ss.userID = true := (session_of_find owned' here).trans ours
    refine ⟨{ h.server with store := h.server.store.unregister own conn }, ?_⟩
    have swap (sessions : List Session) : (sessions.filter fun ss => ss.conn ≠ conn).filter (fun ss => O.ours ss.conn) =
        (sessions.filter fun ss => O.ours ss.conn).filter fun ss => ss.conn ≠ conn := List.filter_comm ..
    rw [swap, swap, h.sessions]

/-- **A step of the observer** shows it the same and leaves what concerns it the same. -/
theorem Same.visible {l : Label} (h : Same O s t) (owned : Owned O relayID s) (owned' : Owned O relayID t)
    (apart : Apart P O relayID l) (seen : Presence.visible O relayID l = true) (next : State.step P s l = some s')
    (next' : State.step P t l = some t') : sight P O s l = sight P O t l ∧ Same O s' t' := by
  cases l with
  | connect conn ip answer auth flush => exact h.connect owned owned' apart seen next next'
  | frame conn data io writeFails enqueue => exact h.frame owned owned' seen next next'
  | fetch method path now persist =>
    cases next
    cases next'
    have own : ∀ userID, prekeyTarget path = some userID → O.mine userID = true := by
      intro userID asked
      simpa only [Presence.visible, asked] using seen
    obtain ⟨answer, after⟩ := h.server.fetch (P := P) method now persist own
    exact ⟨congrArg Sight.fetched answer, after, h.sessions⟩
  | post method header body writeFails enqueue => exact h.post owned owned' next next'
  | disconnect conn => exact ⟨rfl, h.disconnect owned' seen next next'⟩
  | restart io => exact apart.elim

end Steps

variable (P O relayID) in
/-- Nothing that the observer can do tells such states apart. -/
structure Indistinct (s t : State) : Prop where
  first : Owned O relayID s
  second : Owned O relayID t
  same : Same O s t

theorem unwinds : Unwinds (State.step P) (visible O relayID) (sight P O) (Apart P O relayID) (Indistinct O relayID) where
  symm h := ⟨h.second, h.first, h.same.server.symm, h.same.sessions.symm⟩
  hidden h apart unseen next := ⟨h.first.step apart next, h.second, h.same.hidden h.first apart unseen next⟩
  output h apart seen next next' := (h.same.visible h.first h.second apart seen next next').1
  keep h apart seen next next' :=
    ⟨h.first.step apart next, h.second.step apart next', (h.same.visible h.first h.second apart seen next next').2⟩

theorem Owned.start {cfg : Config} {files : Files} {io : StartIo} {s : State}
    (started : State.start P cfg files io [] = some s) : Owned O cfg.relayID s := by
  obtain ⟨store, names⟩ := State.start_store started
  obtain ⟨files', server, -, rfl⟩ := State.start_some started
  refine ⟨names, fun _ inside => absurd inside List.not_mem_nil, ?_⟩
  intro u c found
  rw [Store.lookupClient, Store.newStore_clients store, Map.get_empty] at found
  cases found

/-- ann, on the connections with odd numbers, who also posts as the relay m. -/
def ann : Observer where
  mine u := u = ascii "ann"
  home ip := ip = ascii "::1"
  ours conn := conn % 2 = 1
  peer name := name = ascii "m"

/-- An attempt to log in as bob with a signature of another nonce; then ann's session sends to bob and to ann, and asks
for a certificate; and the relay m posts a message for bob. -/
def probes : List Label :=
  [.connect 1 (ascii "::1") (Client.answer Reference.ed25519 (.zeros 32) Scene.otherSeed (ascii "bob"))
      (.clean Reference.start (.zeros 32)) (State.flushIo Reference.start),
    .connect 3 (ascii "::1") (Client.answer Reference.ed25519 (.zeros 32) (.zeros 32) (ascii "ann"))
      (.clean Reference.start (.zeros 32)) (State.flushIo Reference.start),
    State.frameLabel 3 (SealedEnvelope.marshal ⟨ascii "bob", [1], 0, [], []⟩) Reference.start,
    State.frameLabel 3 (SealedEnvelope.marshal ⟨ascii "ann", [2], 0, [], []⟩) Reference.start,
    State.frameLabel 3 Client.certRequest Reference.start,
    .post .post (ascii "m") (SealedEnvelope.marshal ⟨ascii "bob", [3], 0, [], []⟩) false
      (.clean Reference.start Reference.start (.zeros 12) (.zeros 12))]

/-- bob connects and registers a bundle. -/
def bobsSteps : List Label :=
  [.connect 2 [] (Client.answer Reference.ed25519 (.zeros 32) (.zeros 32) (ascii "bob"))
      (.clean Reference.start (.zeros 32)) (State.flushIo Reference.start),
    State.frameLabel 2 (Client.registration Reference.bundle) Reference.start]

end SpectreRelay.Server.Presence
