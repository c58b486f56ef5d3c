import SpectreRelay.Server.CertBinding
import SpectreRelay.Server.Namespaces
import SpectreRelay.Server.StoreCalls

/-!
# The empty id

Every entry point refuses an empty id, and then cuts a local domain off what it
accepted. An id that is an `@` and a domain of this relay passes the check and
is cut down to nothing (`DomainOnly`), so a session, a queue row and a federated
message can end up under the empty id (`stored_under_empty`). No other id does
that: in every run without such ids nothing is stored under the empty one
(`empty_id_unused`). `registerBundle` checks what is left of the id, so no
bundle ever is.
-/

namespace SpectreRelay.Server
set_option autoImplicit false
open Lib Lib.Json Model PrekeyStore

/-- The id is an `@` followed by a domain of this relay. -/
def DomainOnly (relayID : Bytes) : Bytes → Prop
  | [] => False
  | b :: domain => b = 64 ∧ isLocalRelay domain relayID = true

instance (relayID x : Bytes) : Decidable (DomainOnly relayID x) :=
  match x with
  | [] => .isFalse id
  | b :: domain => inferInstanceAs (Decidable (b = 64 ∧ isLocalRelay domain relayID = true))

section Keys

variable {relayID x : Bytes}

/-- Those are the ids, apart from the empty one, whose key is empty. -/
theorem localKey_empty : localKey relayID x = some [] ↔ x = [] ∨ DomainOnly relayID x := by
  rw [localKey_eq_some]
  cases x with
  | nil => simp
  | cons b domain => simp [DomainOnly]

theorem normalizeUser_named (named : x ≠ []) (other : ¬ DomainOnly relayID x) : normalizeUser relayID x ≠ [] := by
  intro empty
  cases key : localKey relayID x with
  | some u =>
    rw [normalizeUser_localKey key] at empty
    subst empty
    rcases localKey_empty.1 key with absent | domain
    · exact named absent
    · exact other domain
  | none =>
    obtain ⟨name, d, split, away⟩ := localKey_eq_none.1 key
    simp only [normalizeUser, split, away, Bool.false_eq_true, if_false] at empty
    exact named empty

theorem target_named {m : QueuedMessage} {name : Bytes} (named : x ≠ []) (other : ¬ DomainOnly relayID x)
    (goes : target relayID x m = .local name) : name ≠ [] := by
  rintro rfl
  rcases localKey_empty.1 (target_local goes) with absent | domain
  · exact named absent
  · exact other domain

end Keys

/-- The recipients that the two decodings of a payload give. -/
def recipients (payload : Bytes) : List Bytes :=
  [(unmarshal SealedEnvelope.decoder .zero payload).1.recipientID,
    (unmarshal OpenEnvelope.decoder .zero payload).1.recipientID]

theorem classify_recipient {payload r : Bytes} {m : QueuedMessage} (h : classify payload = some (r, m)) :
    r ∈ recipients payload ∧ r ≠ [] := by
  simp only [classify] at h
  split at h
  · rename_i accepted
    cases h
    exact ⟨List.mem_cons_self, accepted.2.1⟩
  · split at h
    · rename_i accepted
      cases h
      exact ⟨List.mem_cons_of_mem _ List.mem_cons_self, accepted.2.1⟩
    · cases h

/-- The key that a federation request is handed over for. -/
theorem federationDeliver_key {relayID header body r : Bytes} {m : QueuedMessage}
    (h : federationDeliver relayID header body = some (r, m)) :
    (decodeFirst SealedEnvelope.decoder .zero body).1.recipientID ≠ [] ∧
      localKey relayID (decodeFirst SealedEnvelope.decoder .zero body).1.recipientID = some r := by
  rw [federationDeliver_localKey header body rfl] at h
  split at h
  · cases h
  · rename_i accepted
    obtain ⟨key, found, same⟩ := Option.map_eq_some_iff.1 h
    cases same
    simp only [not_or] at accepted
    exact ⟨accepted.2.2.1, found⟩

/-! ## Stores -/

/-- Messages are queued for a recipient with a name. -/
def Addressed (r : Bytes) (_ : QueuedMessage) : Prop := r ≠ []

theorem addressed_closed (P : Platform) :
    Store.Closed P Addressed fun _ t => ∀ row ∈ t.rows, row.2.recipientID ≠ [] where
  empty _ _ inside := absurd inside List.not_mem_nil
  delete _ _ _ h row inside := h row (List.mem_filter.1 inside).1
  insert s r m io nonce named _ h row inside := by
    rcases List.mem_append.1 inside with old | added
    · exact h row (List.mem_filter.1 old).1
    · rw [List.mem_singleton.1 added]
      exact named

namespace Sessions

/-- The ids that the inputs of a step carry. -/
def Label.ids : Label → List Bytes
  | .connect _ _ answer _ _ => [(unmarshal AuthRequest.decoder .zero answer).1.userID]
  | .frame _ data _ _ _ => recipients data
  | .post _ _ body _ _ => [(decodeFirst SealedEnvelope.decoder .zero body).1.recipientID]
  | .fetch .. | .disconnect _ | .restart _ => []

/-- None of them is only a domain of this relay. -/
def Label.Named (relayID : Bytes) (l : Label) : Prop := ∀ x ∈ l.ids, ¬ DomainOnly relayID x

instance (relayID : Bytes) (l : Label) : Decidable (l.Named relayID) := inferInstanceAs (Decidable (∀ x ∈ l.ids, _))

/-- Connections and rows in every state of a run of the relay `relayID` with such inputs. -/
structure StoreInv (P : Platform) (relayID : Bytes) (s : State) : Prop where
  names : s.Names relayID
  client : s.server.store.lookupClient [] = none
  store : Store.Reached P Addressed s.server.store

namespace StoreInv

variable {P : Platform} {relayID : Bytes} {s s' : State}

theorem start {cfg : Config} {files : Files} (queue : files.queue = .empty) {io : Server.StartIo} {log : List Event}
    (started : State.start P cfg files io log = some s) : StoreInv P cfg.relayID s := by
  obtain ⟨store, names⟩ := State.start_store started
  rw [queue] at store
  obtain ⟨clients, -, -⟩ := Store.newStore_fresh store
  refine ⟨names, ?_, .first store⟩
  rw [Store.lookupClient, clients]
  exact Map.get_empty _

/-- **One step.** -/
theorem step (h : StoreInv P relayID s) {l : Label} (named : l.Named relayID) (stepped : State.step P s l = some s') :
    StoreInv P relayID s' := by
  obtain ⟨stored, names⟩ := State.step_store h.names stepped
  suffices both : s'.server.store.lookupClient [] = none ∧ Store.Reached P Addressed s'.server.store from
    ⟨names, both.1, both.2⟩
  generalize s'.server.store = store at stored
  cases stored with
  | same => exact ⟨h.client, h.store⟩
  | @connected conn ip answer claimed auth flush attempts authenticated =>
    obtain ⟨nonce, -, checked⟩ := authenticate_some authenticated
    obtain ⟨passed, rfl⟩ := checkAuthRequest_passed checked
    have key := normalizeUser_named passed.named (named _ List.mem_cons_self)
    constructor
    · rw [Store.lookupClient, Store.flushQueue_clients]
      exact (Store.register_lookup ..).trans ((if_neg key).trans h.client)
    · exact (h.store.next (.register _ conn)).flushQueue (fun _ _ => key) _ _
  | @routed conn data r io writeFails enqueue m call =>
    obtain ⟨listed, present⟩ := classify_recipient call
    constructor
    · rw [Store.lookupClient, Store.deliver_clients]
      exact h.client
    · exact h.store.deliver (fun name goes => target_named present (named r listed) goes) writeFails enqueue
  | @posted method header body r writeFails enqueue m call =>
    obtain ⟨present, key⟩ := federationDeliver_key call
    constructor
    · rw [Store.lookupClient, Store.deliver_clients]
      exact h.client
    · refine h.store.deliver (fun name goes => ?_) writeFails enqueue
      -- what is handed over is its own key
      have own := (localKey_self key).symm.trans (target_local goes)
      cases own
      rintro rfl
      rcases localKey_empty.1 key with absent | domain
      · exact present absent
      · exact named _ List.mem_cons_self domain
  | @left conn userID =>
    refine ⟨?_, h.store.next (.unregister userID conn)⟩
    rw [Store.lookupClient_unregister, h.client, ite_self]
  | restarted started =>
    obtain ⟨t, image, -⟩ := (h.store.tables (addressed_closed P)).file
    refine ⟨?_, h.store.next (.restart started)⟩
    rw [image.newStore started]
    exact Map.get_empty _

end StoreInv

/-- Bundles in every state of every run: session names are well-formed, and the bundles are sound, as are those in the
file, which holds `m`. -/
structure BundleInv (P : Platform) (s : State) (m : Map PrekeyBundle) : Prop where
  sessions : ∀ ss ∈ s.sessions, Utf8.Valid ss.userID
  backed : Backed P.aead s.server.prekeys m

namespace BundleInv

variable {P : Platform} {s s' : State} {m : Map PrekeyBundle}

theorem start {cfg : Config} {files : Files} (prekeys : files.prekeys = .empty) {io : Server.StartIo} {log : List Event}
    (started : State.start P cfg files io log = some s) : BundleInv P s ∅ := by
  obtain ⟨files', server, made, rfl⟩ := State.start_some started
  have fresh := (Server.new_ok made).prekeys
  rw [prekeys] at fresh
  obtain ⟨key, bundles⟩ := newPrekeyStore_first fresh
  refine ⟨fun _ inside => absurd inside List.not_mem_nil, ?_⟩
  rw [bundles]
  exact (InStep.fresh P.aead key).backed

/-- **One step**, whatever fails in it. -/
theorem step (h : BundleInv P s m) {l : Label} (stepped : State.step P s l = some s') : ∃ m', BundleInv P s' m' := by
  have register (ss : Session) (session : ss ∈ s.sessions) (bundle : PrekeyBundle) (io : PersistIo) :=
    h.backed.registered (h.sessions ss session) (registerBundle_cases P.aead s.server.prekeys ss.userID bundle io)
  cases State.step_cases stepped with
  | refused failed => exact ⟨m, h.sessions, h.backed⟩
  | connected authenticated =>
    obtain ⟨nonce, -, checked⟩ := authenticate_some authenticated
    refine ⟨m, fun ss inside => ?_, h.backed⟩
    rcases List.mem_cons.1 inside with rfl | other
    · exact normalizeUser_valid (checkAuthRequest_some checked).1
    · exact h.sessions ss other
  | uncertified session => exact ⟨m, h.sessions, h.backed⟩
  | certified session key issued => exact ⟨m, h.sessions, h.backed⟩
  | malformed => exact ⟨m, h⟩
  | @rejected conn data io writeFails enqueue ss bundle prekeys e session answer =>
    obtain ⟨m', after⟩ := register ss session bundle io.persist
    rw [answer] at after
    exact ⟨m', h.sessions, after⟩
  | @accepted conn data io writeFails enqueue ss bundle prekeys session answer =>
    obtain ⟨m', after⟩ := register ss session bundle io.persist
    rw [answer] at after
    exact ⟨m', h.sessions, after⟩
  | routed => exact ⟨m, h.sessions, h.backed⟩
  | @fetch method path now persist =>
    rcases s.server.handlePrekeysGet_cases (P := P) method path now persist with same | ⟨limiter, userID, consume, same⟩
    · rw [same]
      exact ⟨m, h⟩
    · rw [same]
      rcases h.backed.served (getBundleWithOTPK_served s.server.prekeys userID consume persist) with old | written
      · exact ⟨m, h.sessions, old⟩
      · exact ⟨_, h.sessions, written⟩
  | post => exact ⟨m, h.sessions, h.backed⟩
  | disconnect fewer => exact ⟨m, fun ss inside => h.sessions ss (fewer ss inside), h.backed⟩
  | @restart io files server started =>
    have same : server.prekeys = ⟨m, s.server.prekeys.disk, s.server.prekeys.key⟩ :=
      h.backed.reloaded (congrArg Prod.snd (Server.new_ok started).prekeys)
    refine ⟨m, fun _ inside => absurd inside List.not_mem_nil, ?_⟩
    rw [same]
    exact ⟨h.backed.file, h.backed.file, h.backed.stored⟩

/-- No bundle is stored under the empty id. -/
theorem no_bundle (h : BundleInv P s m) : s.server.prekeys.bundles[([] : Bytes)]? = none := by
  cases found : s.server.prekeys.bundles[([] : Bytes)]? with
  | none => rfl
  | some b => exact absurd rfl (h.backed.sound [] b found).1

end BundleInv

/-! ## Whole runs -/

/-- No connection, no row and no bundle is stored under the empty id. -/
structure EmptyUnused (s : State) : Prop where
  client : s.server.store.lookupClient [] = none
  rows : ∀ row ∈ s.server.store.table.rows, row.2.recipientID ≠ []
  bundle : s.server.prekeys.bundles[([] : Bytes)]? = none

/-- **The empty id is not used** in any state of a run in which no handshake, frame or post carries an id that is only
an `@` and a domain of the relay; whatever else they carry, and whatever fails. -/
theorem empty_id_unused (P : Platform) (cfg : Config) (files : Files) (queue : files.queue = .empty)
    (prekeys : files.prekeys = .empty) (io : Server.StartIo) (first s : State) (labels : List Label)
    (started : State.start P cfg files io [] = some first) (named : ∀ l ∈ labels, l.Named cfg.relayID)
    (reached : run (State.step P) first labels = some s) : EmptyUnused s := by
  have stored : StoreInv P cfg.relayID s := run_invariant_under
    (fun _ _ _ before named stepped => before.step named stepped) (StoreInv.start queue started)
    (always_of_forall named first) reached
  obtain ⟨m, bundles⟩ := run_invariant (P := fun s : State => ∃ m, BundleInv P s m)
    (fun _ _ _ ⟨_, before⟩ stepped => before.step stepped) ⟨∅, BundleInv.start prekeys started⟩ reached
  exact ⟨stored.client, (stored.store.tables (addressed_closed P)).memory, bundles.no_bundle⟩

namespace Scene

open Reference

/-- A session of `x` sends a message to `y`, and another relay posts one to `z`. -/
def exchange (x y z : Bytes) : List Label :=
  [.connect 1 [] (Client.answer ed25519 (.zeros 32) (.zeros 32) x) (.clean start (.zeros 32)) (State.flushIo start),
    State.frameLabel 1 (SealedEnvelope.marshal ⟨y, [1], 0, [], []⟩) start,
    .post .post (ascii "b") (SealedEnvelope.marshal ⟨z, [1], 0, [], []⟩) false
      (.clean start start (.zeros 12) (.zeros 12))]

/-- The relay `a` after that: the connection of the empty id, and the recipients in the queue. -/
def exchanged (x y z : Bytes) : Option (Option Conn × List Bytes) :=
  (State.start platform cfg .empty startIo []).bind fun first =>
    (run (State.step platform) first (exchange x y z)).map fun s =>
      (s.server.store.lookupClient [], s.server.store.table.rows.map fun row => row.2.recipientID)

end Scene

/-- Ann writes to bob at this relay, and another relay to carol. -/
theorem empty_id_unused_ann :
    ∃ first s, State.start Reference.platform Reference.cfg .empty Reference.startIo [] = some first ∧
      run (State.step Reference.platform) first (Scene.exchange (ascii "ann@a") (ascii "bob@a") (ascii "carol")) = some s ∧
      EmptyUnused s := by
  have result : ((State.start Reference.platform Reference.cfg .empty Reference.startIo []).bind fun first =>
      (run (State.step Reference.platform) first
        (Scene.exchange (ascii "ann@a") (ascii "bob@a") (ascii "carol"))).map fun s =>
          s.server.store.table.rows.length) = some 2 := by decide +kernel
  obtain ⟨first, started, rest⟩ := Option.bind_eq_some_iff.1 result
  obtain ⟨s, reached, -⟩ := Option.map_eq_some_iff.1 rest
  exact ⟨first, s, started, reached,
    empty_id_unused _ _ _ rfl rfl _ first s _ started (by decide +kernel) reached⟩

/-- At the relay `a`, a session of `@a` is registered under the empty id, and messages to `@a`, from a session or from
another relay, are queued under it. -/
theorem stored_under_empty :
    Scene.exchanged (ascii "@a") (ascii "bob") (ascii "carol") = some (some 1, [ascii "bob", ascii "carol"]) ∧
      Scene.exchanged (ascii "ann") (ascii "@a") (ascii "@a") = some (none, [[], []]) := by
  constructor
  · decide +kernel
  · decide +kernel

end Sessions

end SpectreRelay.Server
