import SpectreRelay.Server.Federation
import SpectreRelay.Server.Sessions
import SpectreRelay.Server.StoreImage

/-!
# One namespace for all entry points

A user's id is cut at its first `@` in three places: when a session is
registered, when a message is delivered, and when another relay posts one.
`localKey` says once what they are for: the key of a local id. The three agree
with it on every id (`one_namespace`), so a session, a queue and a bundle of one
bare name are found under one key however the relay is spelt, and an id of
another relay reaches no local connection and no queue.
-/

namespace SpectreRelay.Server
set_option autoImplicit false
open Lib Lib.Json Model

/-- The key of an id that belongs to this relay: what stands before the first `@`, or all of it. -/
def localKey (relayID x : Bytes) : Option Bytes :=
  match Bytes.cut 64 x with
  | none => some x
  | some (name, domain) => if isLocalRelay domain relayID then some name else none

/-- What `deliver` does for a local key: the frame goes to the connection of the key, or the message to its queue. -/
def deliverLocal (P : Platform) (s : Store) (key : Bytes) (m : QueuedMessage) (writeFails : Bool) (io : Store.EnqueueIo) :
    Store × Delivered :=
  match s.lookupClient key, marshalQueued m with
  | some conn, some frame => if writeFails then (s.enqueue P key m io, .queued key) else (s, .written conn frame)
  | _, _ => (s.enqueue P key m io, .queued key)

section Keys

variable {relayID x u : Bytes}

/-- A local id is its key, or its key with a local domain. -/
theorem localKey_eq_some :
    localKey relayID x = some u ↔ 64 ∉ u ∧ (x = u ∨ ∃ d, x = u ++ 64 :: d ∧ isLocalRelay d relayID = true) := by
  unfold localKey
  split
  · rename_i whole
    have plain := Bytes.cut_eq_none.1 whole
    constructor
    · rintro ⟨⟩
      exact ⟨plain, .inl rfl⟩
    · rintro ⟨_, rfl | ⟨d, rfl, _⟩⟩
      · rfl
      · exact absurd (List.mem_append_right u List.mem_cons_self) plain
  · rename_i name domain split
    obtain ⟨parts, plain⟩ := Bytes.cut_eq_some.1 split
    constructor
    · intro found
      split at found
      · rename_i here
        cases found
        exact ⟨plain, .inr ⟨domain, parts, here⟩⟩
      · cases found
    · rintro ⟨free, rfl | ⟨d, same, here⟩⟩
      · exact absurd (by rw [parts]; exact List.mem_append_right name List.mem_cons_self) free
      · rw [same, Bytes.cut_append d free] at split
        cases split
        rw [if_pos here]

theorem localKey_eq_none :
    localKey relayID x = none ↔ ∃ name d, Bytes.cut 64 x = some (name, d) ∧ isLocalRelay d relayID = false := by
  unfold localKey
  split
  · rename_i whole
    simp [whole]
  · rename_i name domain split
    simp [split]

/-- A key is its own key. -/
theorem localKey_self (key : localKey relayID x = some u) : localKey relayID u = some u := by
  have plain := (localKey_eq_some.1 key).1
  exact localKey_eq_some.2 ⟨plain, .inl rfl⟩

/-! ## The three normalisers -/

theorem normalizeUser_localKey (key : localKey relayID x = some u) : normalizeUser relayID x = u := by
  obtain ⟨plain, rfl | ⟨d, rfl, here⟩⟩ := localKey_eq_some.1 key
  · simp only [normalizeUser, Bytes.cut_eq_none.2 plain]
  · simp only [normalizeUser, Bytes.cut_append d plain, here, if_true]

theorem target_localKey (key : localKey relayID x = some u) (m : QueuedMessage) : target relayID x m = .local u := by
  obtain ⟨plain, rfl | ⟨d, rfl, here⟩⟩ := localKey_eq_some.1 key
  · exact target_plain plain m
  · simp only [target, Bytes.cut_append d plain, here, if_true]

theorem target_foreign (foreign : localKey relayID x = none) (m : QueuedMessage) :
    target relayID x m = .drop ∨ ∃ d e, target relayID x m = .forward d e := by
  obtain ⟨name, d, split, away⟩ := localKey_eq_none.1 foreign
  unfold target
  simp only [split, away, Bool.false_eq_true, if_false]
  split
  · exact .inl rfl
  · exact .inr ⟨_, _, rfl⟩

/-- Who a delivery is for, when it is for somebody here. -/
theorem target_local {m : QueuedMessage} {name : Bytes} (goes : target relayID x m = .local name) :
    localKey relayID x = some name := by
  cases key : localKey relayID x with
  | some u =>
    rw [target_localKey key] at goes
    cases goes
    rfl
  | none =>
    rcases target_foreign key m with dropped | ⟨d, e, forwarded⟩
    · rw [dropped] at goes
      cases goes
    · rw [forwarded] at goes
      cases goes

/-- What the federation handler hands over for an envelope to `x`. -/
theorem federationDeliver_localKey (header body : Bytes)
    (addressed : (decodeFirst SealedEnvelope.decoder .zero body).1.recipientID = x) :
    federationDeliver relayID header body =
      if header = [] ∨ (decodeFirst SealedEnvelope.decoder .zero body).2 = false ∨ x = [] ∨
          (decodeFirst SealedEnvelope.decoder .zero body).1.ciphertext = [] then none
      else
        (localKey relayID x).map fun key => (key, QueuedMessage.ofSealed
          { (decodeFirst SealedEnvelope.decoder .zero body).1 with federationSenderRelay := header }) := by
  subst addressed
  unfold federationDeliver localKey
  generalize decodeFirst SealedEnvelope.decoder .zero body = decoded
  obtain ⟨e, ok⟩ := decoded
  by_cases dropped : header = [] ∨ ok = false ∨ e.recipientID = [] ∨ e.ciphertext = []
  · rw [if_pos dropped]
    rcases dropped with unnamed | malformed | nobody | empty
    · simp only [unnamed, if_true]
    · simp [malformed]
    · simp [nobody]
    · simp [empty]
  · rw [if_neg dropped]
    simp only [not_or] at dropped
    obtain ⟨named, decoded, someone, full⟩ := dropped
    simp only [named, if_false, decoded, someone, full, not_true_eq_false, or_self]
    cases Bytes.cut 64 e.recipientID with
    | none => rfl
    | some parts =>
      by_cases here : isLocalRelay parts.2 relayID = true
      · simp only [here, if_true, Option.map_some]
      · simp only [here, Bool.false_eq_true, if_false, Option.map_none]

/-! ## Every entry point -/

/-- Every entry point takes the id `x` for the key `u`. -/
structure LocalAs (P : Platform) (relayID x u : Bytes) : Prop where
  /-- The key is the id, or what stands before its first `@`. -/
  bare : 64 ∉ u ∧ (x = u ∨ ∃ d, x = u ++ 64 :: d)
  /-- A session that authenticates as `x` is registered and flushed under the key. -/
  connected : ∀ (s s' : Sessions.State) (conn : Conn) (ip answer : Bytes) (auth : AuthIo) (flush : Sessions.FlushIo)
    (attempts : Attempts), s.cfg.relayID = relayID →
    authenticate P.ed25519 s.server.auth ip answer auth = (attempts, some x) →
    Sessions.State.step P s (.connect conn ip answer auth flush) = some s' →
    s'.server.store = (flushQueue P (s.server.store.register u conn).1 u flush.drain flush.fails flush.requeue).1 ∧
      s'.sessions.find? (fun ss => ss.conn = conn) = some ⟨conn, u, Sessions.provedKey answer⟩
  /-- The bundle that the session registers is stored under the key. -/
  prekeys : ∀ (s s' : Sessions.State) (conn : Conn) (data proved : Bytes) (bundle : PrekeyBundle) (io : Server.FrameIo)
    (writeFails : Bool) (enqueue : Store.EnqueueIo),
    s.sessions.find? (fun ss => ss.conn = conn) = some ⟨conn, u, proved⟩ →
    frameKind data = .registerPrekeys (some bundle) →
    Sessions.State.step P s (.frame conn data io writeFails enqueue) = some s' →
    s'.server.prekeys = (s.server.prekeys.registerBundle P.aead u bundle io.persist).1
  /-- A message for `x` goes to the connection of the key, or to its queue. -/
  delivered : ∀ (s : Store) (m : QueuedMessage) (writeFails : Bool) (io : Store.EnqueueIo),
    deliver P s relayID x m writeFails io = deliverLocal P s u m writeFails io
  /-- An envelope for `x` that another relay posts is delivered to the key. -/
  federated : ∀ (server : Server) (header body : Bytes), server.relayID = relayID → header ≠ [] →
    (decodeFirst SealedEnvelope.decoder .zero body).2 = true →
    (decodeFirst SealedEnvelope.decoder .zero body).1.recipientID = x →
    (decodeFirst SealedEnvelope.decoder .zero body).1.ciphertext ≠ [] →
    server.handleFederationDeliver .post header body = some (u, .ofSealed
      { (decodeFirst SealedEnvelope.decoder .zero body).1 with federationSenderRelay := header })
  /-- The key is its own key: normalising it and delivering to it change nothing. -/
  again : normalizeUser relayID u = u ∧ ∀ (s : Store) (m : QueuedMessage) (writeFails : Bool) (io : Store.EnqueueIo),
    deliver P s relayID u m writeFails io = deliverLocal P s u m writeFails io

/-- No entry point takes the id `x` to a local connection or queue. -/
structure Foreign (P : Platform) (relayID x : Bytes) : Prop where
  delivered : ∀ (s : Store) (m : QueuedMessage) (writeFails : Bool) (io : Store.EnqueueIo),
    deliver P s relayID x m writeFails io = (s, .dropped) ∨
      ∃ d e, deliver P s relayID x m writeFails io = (s, .forwarded d e)
  federated : ∀ (server : Server) (method : Server.Method) (header body : Bytes), server.relayID = relayID →
    (decodeFirst SealedEnvelope.decoder .zero body).1.recipientID = x →
    server.handleFederationDeliver method header body = none

/-- Two ids with one session slot, one queue and one bundle. -/
structure SameUser (P : Platform) (relayID x y : Bytes) : Prop where
  /-- A session of one replaces the session of the other. -/
  slot : ∀ (s : Store) (c c' : Conn),
    ((s.register (normalizeUser relayID x) c).1.register (normalizeUser relayID y) c').2 = some c
  /-- A message that is queued for one is drained by a session of the other. -/
  queue : ∀ (s : Store) (m : QueuedMessage) (writeFails : Bool) (deleteAt at' now : Time) (nonce fileNonce : Block 12),
    s.lookupClient (normalizeUser relayID y) = none → ¬ Store.Full s.table (normalizeUser relayID y) deleteAt →
    now.seconds ≤ (at'.addUnix s.ttl).toInt →
    (m.stamp (at'.addUnix s.ttl)).sanitize ∈ ((deliver P s relayID x m writeFails
      (.clean deleteAt at' nonce fileNonce)).1.drainQueue P (normalizeUser relayID y) (.clean now fileNonce)).2
  /-- What one registers replaces the bundle of the other. -/
  bundle : ∀ (ps : PrekeyStore) (bundle : PrekeyBundle) (io : PersistIo),
    (ps.registerBundle P.aead (normalizeUser relayID x) bundle io).2 = .ok () →
    (ps.registerBundle P.aead (normalizeUser relayID x) bundle io).1.bundles[normalizeUser relayID y]? = some bundle

theorem deliver_localKey (P : Platform) (key : localKey relayID x = some u) (s : Store) (m : QueuedMessage)
    (writeFails : Bool) (io : Store.EnqueueIo) :
    deliver P s relayID x m writeFails io = deliverLocal P s u m writeFails io := by
  simp only [deliver, target_localKey key]
  rfl

theorem LocalAs.of_localKey (P : Platform) (present : x ≠ []) (key : localKey relayID x = some u) :
    LocalAs P relayID x u where
  bare := by
    obtain ⟨plain, whole⟩ := localKey_eq_some.1 key
    exact ⟨plain, whole.imp_right fun ⟨d, parts, _⟩ => ⟨d, parts⟩⟩
  connected s s' conn ip answer auth flush attempts here authenticated stepped := by
    simp only [Sessions.State.step] at stepped
    split at stepped
    · cases stepped
    · simp only [authenticated, here, normalizeUser_localKey key] at stepped
      cases stepped
      exact ⟨rfl, List.find?_cons_of_pos (decide_eq_true rfl)⟩
  prekeys s s' conn data proved bundle io writeFails enqueue session kind stepped := by
    have handled : s.server.handleAuthedFrame P u data io =
        ({ s.server with prekeys := (s.server.prekeys.registerBundle P.aead u bundle io.persist).1 },
          .registered (some bundle) (some (s.server.prekeys.registerBundle P.aead u bundle io.persist).2)) := by
      simp only [Server.handleAuthedFrame, kind]
    simp only [Sessions.State.step, session, handled] at stepped
    cases result : (s.server.prekeys.registerBundle P.aead u bundle io.persist).2 with
    | ok done =>
      rw [result] at stepped
      cases stepped
      rfl
    | error e =>
      rw [result] at stepped
      cases stepped
      rfl
  delivered := deliver_localKey P key
  federated server header body here named decoded addressed full := by
    have accepted : ¬ (header = [] ∨ (decodeFirst SealedEnvelope.decoder .zero body).2 = false ∨ x = [] ∨
        (decodeFirst SealedEnvelope.decoder .zero body).1.ciphertext = []) := by
      simp only [named, decoded, present, full, Bool.true_eq_false, or_self, not_false_eq_true]
    show (if Server.Method.post ≠ .post then none else federationDeliver server.relayID header body) = _
    rw [if_neg (fun other => other rfl), here, federationDeliver_localKey header body addressed, if_neg accepted, key]
    rfl
  again := ⟨normalizeUser_localKey (localKey_self key), deliver_localKey P (localKey_self key)⟩

theorem Foreign.of_localKey (P : Platform) (foreign : localKey relayID x = none) : Foreign P relayID x where
  delivered s m writeFails io := by
    rcases target_foreign foreign m with dropped | ⟨d, e, forwarded⟩
    · left
      simp only [deliver, dropped]
    · right
      refine ⟨d, e, ?_⟩
      simp only [deliver, forwarded]
  federated server method header body here addressed := by
    simp only [Server.handleFederationDeliver, here, federationDeliver_localKey header body addressed, foreign,
      Option.map_none, ite_self]

theorem SameUser.of_localKey (P : Platform) {y : Bytes} (key : localKey relayID x = some u)
    (key' : localKey relayID y = some u) : SameUser P relayID x y where
  slot s c c' := by
    rw [normalizeUser_localKey key, normalizeUser_localKey key']
    show (s.register u c).1.lookupClient u = some c
    rw [Store.register_lookup, if_pos rfl]
  queue s m writeFails deleteAt at' now nonce fileNonce absent room live := by
    rw [normalizeUser_localKey key'] at absent room ⊢
    have queued : (deliver P s relayID x m writeFails (.clean deleteAt at' nonce fileNonce)).1 =
        s.enqueue P u m (.clean deleteAt at' nonce fileNonce) := by
      rw [deliver_localKey P key, deliverLocal, absent]
    rw [queued]
    obtain ⟨nonce', inside⟩ := (Store.enqueue_cases (P := P) s u m (.clean deleteAt at' nonce fileNonce)).new_row
      ⟨rfl, rfl, room, rfl, rfl⟩
    have alive : Store.expired now (Store.rowFor P s u m at' nonce') = false := by
      rw [Bool.eq_false_iff, Ne, Store.expired_iff]
      show ¬ (at'.addUnix s.ttl).toInt < now.seconds
      omega
    refine List.mem_map.2 ⟨(_, _), Store.mem_drainedRows_of_row ⟨fun _ _ => rfl, rfl⟩ inside rfl alive ?_, rfl⟩
    rw [Store.enqueue_key]
    exact Store.readPayload_encrypt _ _ _
  bundle ps bundle io ok := by
    rw [normalizeUser_localKey key] at ok ⊢
    rw [normalizeUser_localKey key']
    have stored := (PrekeyStore.registerBundle_ok (Prod.ext rfl ok)).2.2
    exact (congrArg (fun store : PrekeyStore => store.bundles[u]?) stored).trans
      ((Map.get_insert ..).trans (if_pos rfl))

end Keys

/-! ## Spellings of the relay -/

/-- A host or a port without the characters that separate them. -/
def Plain (s : Bytes) : Prop := 58 ∉ s ∧ 91 ∉ s ∧ 93 ∉ s

theorem hostAndPort_host {host : Bytes} (plain : Plain host) : hostAndPort host = (host, []) := by
  simp only [hostAndPort, splitHostPort, Bytes.cutLast_eq_none.2 plain.1, Option.getD_none]

theorem hostAndPort_port {host port : Bytes} (plain : Plain host) (plain' : Plain port) :
    hostAndPort (host ++ 58 :: port) = (host, port) := by
  have first : (host ++ 58 :: port).head? ≠ some 91 := by
    cases host with
    | nil => simp
    | cons c rest =>
      intro bracket
      exact plain.2.1 (Option.some.inj bracket ▸ List.mem_cons_self)
  have brackets : ¬ (91 ∈ host ++ 58 :: port ∨ 93 ∈ host ++ 58 :: port) := by
    simp [plain.2.1, plain.2.2, plain'.2.1, plain'.2.2]
  simp only [hostAndPort, splitHostPort, Bytes.cutLast_append host plain'.1, first, if_false, plain.1, brackets,
    Option.getD_some]

/-- A bare name, the name at the host and the name at the host with its port are one user of the relay `host:port`. -/
theorem localKey_spellings {name host port : Bytes} (bare : 64 ∉ name) (plain : Plain host) (plain' : Plain port) :
    localKey (host ++ 58 :: port) name = some name ∧
      localKey (host ++ 58 :: port) (name ++ 64 :: host) = some name ∧
      localKey (host ++ 58 :: port) (name ++ 64 :: (host ++ 58 :: port)) = some name := by
  have withPort := hostAndPort_port plain plain'
  refine ⟨localKey_eq_some.2 ⟨bare, .inl rfl⟩, localKey_eq_some.2 ⟨bare, .inr ⟨host, rfl, ?_⟩⟩,
    localKey_eq_some.2 ⟨bare, .inr ⟨_, rfl, ?_⟩⟩⟩
  · simp [isLocalRelay, hostAndPort_host plain, withPort]
  · simp [isLocalRelay, withPort]

/-- **One namespace.** Every entry point takes a local id for its key, ids with one key are one user, and an id of
another relay reaches nobody here; the spellings of `host:port` are local. -/
theorem one_namespace (P : Platform) (relayID x : Bytes) (present : x ≠ []) :
    (∀ u, localKey relayID x = some u →
        LocalAs P relayID x u ∧ ∀ y, localKey relayID y = some u → SameUser P relayID x y) ∧
      (localKey relayID x = none → Foreign P relayID x) ∧
      ∀ name host port, 64 ∉ name → Plain host → Plain port → relayID = host ++ 58 :: port →
        localKey relayID name = some name ∧ localKey relayID (name ++ 64 :: host) = some name ∧
          localKey relayID (name ++ 64 :: relayID) = some name := by
  refine ⟨fun u key => ⟨.of_localKey P present key, fun y key' => .of_localKey P key key'⟩, .of_localKey P, ?_⟩
  rintro name host port bare plain plain' rfl
  exact localKey_spellings bare plain plain'

/-- The spellings of bob at the relay `a:1`, and bob of another relay. -/
theorem one_namespace_bob :
    LocalAs Reference.platform (ascii "a:1") (ascii "bob@a") (ascii "bob") ∧
      SameUser Reference.platform (ascii "a:1") (ascii "bob@a") (ascii "bob@a:1") ∧
      Foreign Reference.platform (ascii "a:1") (ascii "bob@a:2") := by
  have mine := one_namespace Reference.platform (ascii "a:1") (ascii "bob@a") (by decide)
  have other := one_namespace Reference.platform (ascii "a:1") (ascii "bob@a:2") (by decide)
  obtain ⟨entry, same⟩ := mine.1 (ascii "bob") (by decide)
  exact ⟨entry, same (ascii "bob@a:1") (by decide), other.2.1 (by decide)⟩

end SpectreRelay.Server
