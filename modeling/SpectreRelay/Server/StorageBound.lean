import Mathlib.Algebra.Group.Action.Defs
import Mathlib.Algebra.Order.BigOperators.Group.List
import Mathlib.Algebra.Order.Ring.Nat
import SpectreRelay.Server.Federation
import SpectreRelay.Server.PathIndependence
import SpectreRelay.Server.QueueRefinement

/-!
# How much is stored for a recipient

The queue takes at most `maxQueuePerRecipient` rows for a recipient, whatever
they hold, and `Route` refuses a payload above the size limit; a ciphertext is
no longer than the payload it was decoded from. So the ciphertexts of a
recipient take at most the product of the two limits, as long as what other
relays post is within the limit too (`storage_bounded`). Nothing in
`handleFederationDeliver` makes it so (`oversized`).
-/

namespace SpectreRelay.Server
set_option autoImplicit false
open Lib Lib.Json Model

/-! ## Sizes -/

/-- The bytes of the ciphertext that a message holds. -/
def QueuedMessage.size (m : QueuedMessage) : Nat :=
  match m.contents with
  | some c => c.ciphertext.length
  | none => 0

theorem QueuedMessage.size_sanitize (m : QueuedMessage) : m.sanitize.size = m.size := by
  obtain ⟨sealed, opened, x⟩ := m
  cases sealed with
  | some e => rfl
  | none => cases opened <;> rfl

theorem QueuedMessage.size_congr {m m' : QueuedMessage} (sealed : m.sealed = m'.sealed) (opened : m.opened = m'.opened) :
    m.size = m'.size := by
  simp only [size, contents, sealed, opened]

/-- A routed message is no larger than its payload. -/
theorem classify_size {payload r : Bytes} {m : QueuedMessage} (h : classify payload = some (r, m)) :
    m.size ≤ payload.length := by
  simp only [classify] at h
  split at h
  · cases h
    exact SealedEnvelope.unmarshal_size payload
  · split at h
    · cases h
      exact OpenEnvelope.unmarshal_size payload
    · cases h

/-- A federated message is no larger than the body. -/
theorem federationDeliver_size {relayID header body r : Bytes} {m : QueuedMessage}
    (h : federationDeliver relayID header body = some (r, m)) : m.size ≤ body.length := by
  rw [federationDeliver_some h]
  exact SealedEnvelope.decodeFirst_size body

/-! ## Rows -/

namespace Store

/-- No recipient has too many rows. -/
def Capped (t : Table QueueRow) : Prop := ∀ r, (rowsOf t r).length ≤ maxQueuePerRecipient

theorem Capped.empty : Capped .empty := fun _ => Nat.zero_le _

theorem Capped.delete {t : Table QueueRow} (h : Capped t) (gone : QueueRow → Bool) : Capped (t.delete gone) :=
  fun r => (rowsOf_delete_le t gone r).trans (h r)

/-- One row more for a recipient that is below the cap. -/
theorem Capped.insert {t : Table QueueRow} (h : Capped t) {row : QueueRow}
    (room : t.count (fun other => other.recipientID = row.recipientID) < maxQueuePerRecipient) :
    Capped (t.insert row) := by
  intro r
  rw [rowsOf, Table.group_insert]
  rw [Table.count_key] at room
  split
  · rename_i mine
    subst mine
    rw [List.length_append, List.length_singleton]
    exact room
  · exact h r

theorem Capped.enqueued {P : Platform} {s s' : Store} {r : Bytes} {m : QueuedMessage} {io : EnqueueIo}
    (h : Capped s.table) (done : Enqueued P s r m io s') : Capped s'.table := by
  cases done with
  | inserted inserts => exact (h.delete _).insert (Nat.lt_of_not_le inserts.2.2.1)
  | purged not => exact h.delete _
  | failed not => exact h

/-- The bytes of all ciphertexts that are queued for a recipient. -/
def queuedBytes (P : Platform) (s : Store) (recipientID : Bytes) : Nat :=
  ((rowsOf s.table recipientID).map fun row => ((readPayload P s.key row.payload).map QueuedMessage.size).getD 0).sum

/-- The product of the two limits. -/
theorem queuedBytes_le {P : Platform} {s : Store} (capped : Capped s.table) {limit : Nat}
    (small : ∀ row ∈ s.table.rows, ∀ m, readPayload P s.key row.2.payload = some m → m.size ≤ limit) (r : Bytes) :
    s.queuedBytes P r ≤ maxQueuePerRecipient * limit := by
  have each : ∀ n ∈ (rowsOf s.table r).map fun row => ((readPayload P s.key row.payload).map QueuedMessage.size).getD 0,
      n ≤ limit := by
    intro n inside
    obtain ⟨row, listed, rfl⟩ := List.mem_map.1 inside
    obtain ⟨numbered, selected, rfl⟩ := List.mem_map.1 listed
    cases read : readPayload P s.key numbered.2.payload with
    | none => exact Nat.zero_le _
    | some m => exact small numbered (List.mem_filter.1 selected).1 m read
  calc s.queuedBytes P r
      ≤ ((rowsOf s.table r).map fun row =>
          ((readPayload P s.key row.payload).map QueuedMessage.size).getD 0).length • limit :=
        List.sum_le_card_nsmul _ _ each
    _ = (rowsOf s.table r).length * limit := by rw [List.length_map, smul_eq_mul]
    _ ≤ maxQueuePerRecipient * limit := Nat.mul_le_mul_right _ (capped r)

end Store

namespace Delivery

theorem SameText.size {m m' : QueuedMessage} (same : SameText m m') : m.size = m'.size := by
  rw [← m.size_sanitize, ← m'.size_sanitize]
  exact QueuedMessage.size_congr same.1 same.2

/-! ## Whole runs -/

/-- The body of a post is within the limit. -/
def Event.Fits (limit : Int) : Event → Prop
  | .step (.post _ body) => body.length ≤ limit
  | _ => True

/-- What was handed in is within the limit, and no recipient has too many rows, in memory or in the file. -/
structure Limited (P : Platform) (limit : Int) (s : State) : Prop where
  router : s.router.maxMessageSize = limit
  handed : ∀ h ∈ s.handed, (h.msg.size : Int) ≤ limit
  memory : Store.Capped s.store.table
  file : ∃ t, Store.Image P s.store t ∧ Store.Capped t

namespace Limited

variable {P : Platform} {limit : Int} {ttlSeconds : Int64} {s : State}

theorem init {fresh : Block 32} {fileNonce : Block 12} {store : Store}
    (started : (Store.newStore P .empty ttlSeconds (.clean fresh fileNonce)).2 = .ok store) (router : Router) :
    Limited P router.maxMessageSize (State.init store router) := by
  cases started
  exact ⟨rfl, fun _ inside => absurd inside List.not_mem_nil, .empty, .empty, ⟨rfl, fileNonce, rfl⟩, .empty⟩

/-- A call that is handed in within the limit. -/
theorem hand_handed (h : ∀ h ∈ s.handed, (h.msg.size : Int) ≤ limit) {call : Option (Bytes × QueuedMessage)}
    (small : ∀ r m, call = some (r, m) → (m.size : Int) ≤ limit) (origin : Origin) :
    ∀ h ∈ (s.hand call origin).handed, (h.msg.size : Int) ≤ limit := by
  rcases State.hand_cases s call origin with ⟨posts, same⟩ | ⟨r, m, name, made, _, same⟩
  · rw [same]
    exact h
  · rw [same]
    intro handed inside
    rcases List.mem_append.1 inside with old | new
    · exact h handed old
    · rw [List.mem_singleton.1 new]
      exact small r m made

theorem hand_capped (h : Store.Capped s.store.table) (call : Option (Bytes × QueuedMessage)) (origin : Origin) :
    Store.Capped (s.hand call origin).store.table := by
  rcases State.hand_cases s call origin with ⟨posts, same⟩ | ⟨r, m, name, made, _, same⟩
  · rw [same]
    exact h
  · rw [same]
    exact h

theorem enqueue_capped (h : Store.Capped s.store.table) (id : Nat) (r : Bytes) (m : QueuedMessage) (t : Stamp) :
    Store.Capped (State.enqueue P s id r m t).store.table := by
  show Store.Capped (s.store.enqueue P r m t.io).table
  exact h.enqueued (Store.enqueue_cases _ _ _ _)

/-- The rows in memory after one step. -/
theorem step_memory (h : Store.Capped s.store.table) {l : Label} {s' : State} (stepped : State.step P s l = some s') :
    Store.Capped s'.store.table := by
  cases State.step_cases stepped with
  | @frame _ _ _ router call kind route => exact hand_capped (s := { s with router }) h call _
  | post => exact hand_capped h _ _
  | @enqueue i id r m rest t picked => exact enqueue_capped (s := { s with calls := rest }) h id r m t
  | @requeue j id conn userID m left rest t picked =>
    exact enqueue_capped (s := { s with sessions := ⟨conn, userID, .requeue left⟩ :: rest }) h id userID m t
  | drain picked => exact h.delete _
  | purge => exact h.delete _
  | unregister picked =>
    show Store.Capped (Store.unregister _ _ _).table
    rw [Store.unregister_table]
    exact h
  | _ => exact h

/-- What one step hands in. -/
theorem step_handed (h : Limited P limit s) {l : Label} (fits : (Event.step l).Fits limit) {s' : State}
    (stepped : State.step P s l = some s') :
    s'.router.maxMessageSize = limit ∧ ∀ h ∈ s'.handed, (h.msg.size : Int) ≤ limit := by
  have kept (call : Option (Bytes × QueuedMessage)) (origin : Origin) (s : State) :
      (s.hand call origin).router = s.router := by
    rcases State.hand_cases s call origin with ⟨posts, same⟩ | ⟨r, m, name, made, _, same⟩
    · rw [same]
    · rw [same]
  cases State.step_cases stepped with
  | @frame senderID data now router call kind route =>
    obtain ⟨same, within⟩ := route_limit route
    refine ⟨by rw [kept, same]; exact h.router, hand_handed (s := { s with router }) h.handed ?_ _⟩
    rintro r m rfl
    have small := classify_size (route_classify route)
    have payload := within (Option.some_ne_none _)
    rw [h.router] at payload
    omega
  | @post header body =>
    refine ⟨by rw [kept]; exact h.router, hand_handed h.handed ?_ _⟩
    intro r m made
    have small := federationDeliver_size made
    have payload : (body.length : Int) ≤ limit := fits
    omega
  | _ => exact ⟨h.router, h.handed⟩

/-- **One step under the limit.** -/
theorem step (h : Limited P limit s) {l : Label} (fits : (Event.step l).Fits limit) {s' : State}
    (stepped : State.step P s l = some s') : Limited P limit s' := by
  have memory := step_memory h.memory stepped
  obtain ⟨router, handed⟩ := h.step_handed fits stepped
  exact ⟨router, handed, memory, (Grows.step stepped).image h.file memory⟩

theorem advance (h : Limited P limit s) {e : Event} (fits : e.Fits limit) {s' : State}
    (advanced : State.advance P ttlSeconds s e = some s') : Limited P limit s' := by
  rcases State.advance_cases advanced with ⟨l, rfl, stepped⟩ | ⟨io, store, rfl, started, rfl⟩
  · exact h.step fits stepped
  · obtain ⟨t, image, capped⟩ := h.file
    have same := image.newStore started
    refine ⟨h.router, h.handed, ?_, t, ?_, capped⟩
    · show Store.Capped store.table
      rw [same]
      exact capped
    · show Store.Image P store t
      rw [same]
      exact image.of_disk rfl rfl

/-- The queued ciphertexts are those that were handed in. -/
theorem rows (h : Limited P limit s) (kept : Kept P s) {row : Nat × QueueRow} (inside : row ∈ s.store.table.rows) :
    ∃ m, Store.readPayload P s.store.key row.2.payload = some m ∧ (m.size : Int) ≤ limit := by
  obtain ⟨m, read, _, call, found, _, _, same⟩ := kept.inv.rows row inside
  refine ⟨m, read, ?_⟩
  rw [same.size]
  exact h.handed call (List.mem_of_getElem? found)

end Limited

/-- **Bounded storage.** Along every run from a first start, with restarts, in which no post is larger than the limit for
client payloads, every queued ciphertext is within that limit, and those of a recipient within the product of the limits.
The limit is positive in every relay that was started on what `Load` accepts (`Server.new_positive`). -/
theorem storage_bounded (P : Platform) (ttlSeconds : Int64) (fresh : Block 32) (fileNonce : Block 12) (store : Store)
    (started : (Store.newStore P .empty ttlSeconds (.clean fresh fileNonce)).2 = .ok store) (router : Router)
    (positive : 0 < router.maxMessageSize) (events : List Event) (fits : ∀ e ∈ events, e.Fits router.maxMessageSize)
    (s : State) (reached : run (State.advance P ttlSeconds) (State.init store router) events = some s) :
    (∀ row ∈ s.store.table.rows, ∃ m, Store.readPayload P s.store.key row.2.payload = some m ∧
        (m.size : Int) ≤ router.maxMessageSize) ∧
      ∀ u, (s.store.queuedBytes P u : Int) ≤ maxQueuePerRecipient * router.maxMessageSize := by
  have all : Kept P s ∧ Limited P router.maxMessageSize s :=
    run_invariant_under (C := fun _ e => e.Fits router.maxMessageSize)
      (P := fun s => Kept P s ∧ Limited P router.maxMessageSize s)
      (fun _ _ _ before small advanced => ⟨before.1.advance advanced, before.2.advance small advanced⟩)
      ⟨.init started router, .init started router⟩ (always_of_forall fits _) reached
  obtain ⟨kept, limited⟩ := all
  refine ⟨fun row inside => limited.rows kept inside, fun u => ?_⟩
  obtain ⟨limit, same⟩ := Int.eq_ofNat_of_zero_le (Int.le_of_lt positive)
  have bound : s.store.queuedBytes P u ≤ maxQueuePerRecipient * limit := by
    refine Store.queuedBytes_le limited.memory (fun row inside m read => ?_) u
    obtain ⟨m', read', small⟩ := limited.rows kept inside
    rw [read] at read'
    cases read'
    omega
  rw [same]
  exact_mod_cast bound

/-- A frame and a post for an absent user, within the limit. -/
def withinLimit : List Event :=
  [.step (.frame (ascii "ann") (OpenEnvelope.marshal ⟨ascii "ann", ascii "bob", [1, 2], 0, []⟩) Reference.start),
    .step (.lookup 0), .step (.enqueue 0 .start),
    .step (.post (ascii "b") (SealedEnvelope.marshal ⟨ascii "bob@a", [3], 0, [], []⟩)),
    .step (.lookup 0), .step (.enqueue 0 .start)]

theorem storage_bounded_withinLimit :
    ∃ s, run (State.advance Reference.platform 60)
        (State.init Reference.firstStore (.new 120 60 (ascii "a"))) withinLimit = some s ∧ s.store.table.rows.length = 2 ∧
      (∀ row ∈ s.store.table.rows, ∃ m, Store.readPayload Reference.platform s.store.key row.2.payload = some m ∧
        (m.size : Int) ≤ 120) ∧
      ∀ u, (s.store.queuedBytes Reference.platform u : Int) ≤ maxQueuePerRecipient * 120 := by
  have found : ((run (State.advance Reference.platform 60) (State.init Reference.firstStore (.new 120 60 (ascii "a")))
      withinLimit).map fun s => s.store.table.rows.length) = some 2 := by decide +kernel
  obtain ⟨s, reached, two⟩ := Option.map_eq_some_iff.1 found
  have fits : ∀ e ∈ withinLimit, e.Fits 120 := by
    intro e inside
    simp only [withinLimit, List.mem_cons, List.not_mem_nil, or_false] at inside
    obtain rfl | rfl | rfl | rfl | rfl | rfl := inside
    · trivial
    · trivial
    · trivial
    · show ((SealedEnvelope.marshal ⟨ascii "bob@a", [3], 0, [], []⟩).length : Int) ≤ 120
      decide +kernel
    · trivial
    · trivial
  exact ⟨s, reached, two, storage_bounded Reference.platform 60 (.zeros 32) (.zeros 12) Reference.firstStore
    Reference.firstStore_started (.new 120 60 (ascii "a")) (by decide) withinLimit fits s reached⟩

/-- A posted envelope of any size for an absent user is enqueued. -/
theorem post_queued (P : Platform) (ttlSeconds : Int64) (store : Store) (router : Router) {e : SealedEnvelope}
    {u d : Bytes} (valid : e.Valid) (full : e.ciphertext ≠ []) (plain : 64 ∉ u)
    (recipient : e.recipientID = u ++ 64 :: d) (header : Bytes) (named : header ≠ []) (mine : isLocalRelay d router.relayID = true)
    (t : Stamp) :
    ∃ s, run (State.advance P ttlSeconds) (State.init store router)
        [.step (.post header e.marshal), .step (.lookup 0), .step (.enqueue 0 t)] = some s ∧
      s.store = (State.init store router).store.enqueue P u (.ofSealed { e with federationSenderRelay := header }) t.io := by
  have absent : (State.init store router).store.lookupClient u = none := Map.get_empty u
  have delivered := federationDeliver_marshal valid full plain recipient named router.relayID
  rw [mine, if_pos rfl] at delivered
  -- the state in which the call has reached this stage
  let at' (stage : Stage) : State := { State.init store router with
    calls := [⟨0, u, .ofSealed { e with federationSenderRelay := header }, stage⟩]
    handed := [⟨u, .ofSealed { e with federationSenderRelay := header }, .federation header⟩] }
  have posted : State.advance P ttlSeconds (State.init store router) (.step (.post header e.marshal)) =
      some (at' .lookup) := by
    show some ((State.init store router).hand (federationDeliver router.relayID header e.marshal) _) = _
    rw [delivered, State.hand]
    simp only [target_plain plain]
    rfl
  have looked : State.advance P ttlSeconds (at' .lookup) (.step (.lookup 0)) = some (at' .enqueue) := by
    have only (c : Call) : pick [c] 0 = some (c, []) := rfl
    simp only [State.advance, State.step, at', only, absent]
  exact ⟨_, run_cons.2 ⟨_, posted, run_cons.2 ⟨_, looked, run_cons.2 ⟨_, rfl, rfl⟩⟩⟩, rfl⟩

/-- A ciphertext of one byte more than the default limit. -/
def large : SealedEnvelope := ⟨ascii "bob@a", List.replicate 65537 0, 0, [], []⟩

theorem oversized :
    ∃ s, run (State.advance Reference.platform 60) (State.init Reference.firstStore (.new 65536 60 (ascii "a")))
        [.step (.post (ascii "b") large.marshal), .step (.lookup 0), .step (.enqueue 0 .start)] = some s ∧
      ∃ row ∈ s.store.table.rows, ∃ m, Store.readPayload Reference.platform s.store.key row.2.payload = some m ∧
        65536 < m.size := by
  have local' : isLocalRelay (ascii "a") (ascii "a") = true := by decide
  obtain ⟨s, reached, store⟩ := post_queued Reference.platform 60 Reference.firstStore (.new 65536 60 (ascii "a"))
    (e := large) (u := ascii "bob") (d := ascii "a") ⟨by decide, rfl, rfl⟩ (List.cons_ne_nil 0 (List.replicate 65536 0))
    (by decide) rfl (ascii "b") (by decide) local' .start
  have room : Store.Inserts (State.init Reference.firstStore (.new 65536 60 (ascii "a"))).store.table (ascii "bob")
      Stamp.start.io := by decide
  obtain ⟨nonce, inside⟩ := (Store.enqueue_cases (P := Reference.platform) _ _ _ _).new_row room
  rw [← store] at inside
  have key : s.store.key = Reference.firstStore.key := by
    rw [store]
    exact Store.enqueue_key_any _ _ _ _
  refine ⟨s, reached, _, inside, _, by rw [key]; exact Store.readPayload_encrypt _ _ _, ?_⟩
  rw [QueuedMessage.size_sanitize]
  show 65536 < (List.replicate 65537 (0 : UInt8)).length
  rw [List.length_replicate]
  decide

end Delivery

end SpectreRelay.Server
