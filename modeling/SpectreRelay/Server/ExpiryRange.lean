import SpectreRelay.Config
import SpectreRelay.Server.QueueRefinement

/-!
# The range of the time to live

`NewStore` takes the time to live in seconds and multiplies it into nanoseconds.
`Load` accepts every positive number, and from 9223372037 seconds on the product
does not fit into 64 bits. `expiry_range` says what that means: the accepted
configurations up to the number before are exactly those under which an expiry is
the time of the call plus the time to live.
-/

namespace SpectreRelay.Server.Store
set_option autoImplicit false
open Lib Model

/-- A store of a relay that was started with this time to live, on any files, after any calls. -/
inductive Running (P : Platform) (ttlSeconds : Int64) : Store → Prop where
  | started {disk : Disk} {io : StartIo} {s : Store} (made : (newStore P disk ttlSeconds io).2 = .ok s) :
      Running P ttlSeconds s
  | enqueue {s : Store} (before : Running P ttlSeconds s) (r : Bytes) (m : QueuedMessage) (io : EnqueueIo) :
      Running P ttlSeconds (s.enqueue P r m io)
  | drainQueue {s : Store} (before : Running P ttlSeconds s) (r : Bytes) (io : DrainIo) :
      Running P ttlSeconds (s.drainQueue P r io).1
  | purgeExpired {s : Store} (before : Running P ttlSeconds s) (now : Time) (fails : Bool) (io : PersistIo) :
      Running P ttlSeconds (s.purgeExpired P now fails io)
  | register {s : Store} (before : Running P ttlSeconds s) (userID : Bytes) (c : Conn) :
      Running P ttlSeconds (s.register userID c).1
  | unregister {s : Store} (before : Running P ttlSeconds s) (userID : Bytes) (c : Conn) :
      Running P ttlSeconds (s.unregister userID c)

/-- What `row` has to be as the row that this `Enqueue` inserts. -/
structure Lasting (P : Platform) (ttlSeconds : Int64) (s : Store) (r : Bytes) (m : QueuedMessage) (io : EnqueueIo)
    (row : QueueRow) : Prop where
  stored : (s.enqueue P r m io).table = (purgeOf s.table r io.deleteAt).insert row
  recipient : row.recipientID = r
  /-- The expiry is the sum, when there is such a number. -/
  exact : io.now.seconds + ttlSeconds.toInt < 2 ^ 63 → row.expiresAt.toInt = io.now.seconds + ttlSeconds.toInt
  later : io.now.seconds ≤ row.expiresAt.toInt
  /-- A `DrainQueue` in the same second returns the message. -/
  returned : ∀ (now : Time) (nonce : Block 12), now.seconds = io.now.seconds →
    m.sanitize.stamp row.expiresAt ∈ ((s.enqueue P r m io).drainQueue P r (.clean now nonce)).2
  /-- `QueuedMessages` in the same second counts it. -/
  counted : ∀ now : Time, now.seconds = io.now.seconds → (s.enqueue P r m io).queuedMessages now false =
    ({ s with table := purgeOf s.table r io.deleteAt } : Store).queuedMessages now false + 1

variable {P : Platform} {ttlSeconds : Int64}

theorem Running.ttl {s : Store} (h : Running P ttlSeconds s) : s.ttl = ttlSeconds * 1000000000 := by
  induction h with
  | started made => exact newStore_ttl made
  | enqueue _ r m io ih => rw [enqueue_ttl_any, ih]
  | drainQueue _ r io ih => rw [drainQueue_ttl_any, ih]
  | purgeExpired _ now fails io ih => rw [purgeExpired_ttl_any, ih]
  | register _ userID c ih => exact ih
  | unregister _ userID c ih => rw [unregister_ttl, ih]

/-- A live row that decodes is returned by a drain of its recipient. -/
theorem mem_drained {s : Store} {t : Table QueueRow} (row : QueueRow) {m : QueuedMessage} {now : Time} (nonce : Block 12)
    (table : s.table = t.insert row) (decodes : readPayload P s.key row.payload = some m)
    (live : expired now row = false) : m ∈ (s.drainQueue P row.recipientID (.clean now nonce)).2 := by
  rw [drained_reading, table, rowsOf, Table.group_insert, if_pos rfl, reading, List.mem_filterMap]
  refine ⟨row, List.mem_append_right _ List.mem_cons_self, ?_⟩
  simp only [live, Bool.false_eq_true, if_false, decodes]

/-- Up to 9223372036 seconds, every row that is inserted lasts as it should. -/
theorem lasting {s : Store} (running : Running P ttlSeconds s) (good : GoodTtl ttlSeconds) {r : Bytes} (m : QueuedMessage)
    {io : EnqueueIo} (inserts : Inserts s.table r io) : ∃ row, Lasting P ttlSeconds s r m io row := by
  obtain ⟨nonce, table⟩ := (enqueue_cases (P := P) s r m io).table inserts
  have life : (rowFor P s r m io.now nonce).expiresAt.toInt = io.now.seconds + ttlSeconds.toInt := by
    show (io.now.addUnix s.ttl).toInt = _
    rw [running.ttl]
    exact addUnix_ttl good io.now
  have live : ∀ now : Time, now.seconds = io.now.seconds → expired now (rowFor P s r m io.now nonce) = false := by
    intro now same
    rw [Bool.eq_false_iff, ne_eq, expired_iff, life, same]
    have positive := good.pos
    omega
  refine ⟨rowFor P s r m io.now nonce, table, rfl, fun _ => life, ?_, fun now fileNonce same => ?_, fun now same => ?_⟩
  · have positive := good.pos
    rw [life]
    omega
  · refine mem_drained (rowFor P s r m io.now nonce) fileNonce table ?_ (live now same)
    rw [enqueue_key_any, rowFor, readPayload_encrypt, QueuedMessage.sanitize_stamp]
  · have counted : (!expired now (rowFor P s r m io.now nonce)) = true := by rw [live now same]; rfl
    simp only [queuedMessages, Bool.false_eq_true, if_false, table]
    exact Table.count_insert counted

/-- Beyond that, the expiry that is stored at the epoch is too early. -/
theorem addUnix_wrapped (now : Time) (epoch : now.ns = 0) (beyond : 9223372036 < ttlSeconds.toInt) :
    (now.addUnix (ttlSeconds * 1000000000)).toInt < ttlSeconds.toInt := by
  have high := (ttlSeconds * 1000000000).toInt_lt
  rw [Time.addUnix_toInt, epoch]
  omega

/-- **The range of the time to live.** For every configuration that `Load` accepts: each `Enqueue` before `2^40` seconds
that inserts, into any store of a relay with this configuration, stores the expiry that it should, and the message is
returned and counted in the same second, if and only if the time to live is at most 9223372036 seconds. -/
theorem expiry_range (P : Platform) {env : Bytes → Bytes} {cfg : SpectreRelay.Config} (loaded : Config.load env = .ok cfg) :
    (∀ s, Running P cfg.messageTTLSeconds s → ∀ (r : Bytes) (m : QueuedMessage) (io : EnqueueIo),
      io.now.seconds < 2 ^ 40 → Inserts s.table r io → ∃ row, Lasting P cfg.messageTTLSeconds s r m io row) ↔
      cfg.messageTTLSeconds.toInt ≤ 9223372036 := by
  constructor
  · intro lasts
    by_contra beyond
    -- the first message of a new relay, at the epoch
    let epoch : Time := ⟨0, by decide⟩
    let io : EnqueueIo := .clean epoch epoch (.zeros 12) (.zeros 12)
    obtain ⟨s, made⟩ : ∃ s, (newStore P .empty cfg.messageTTLSeconds (.clean (.zeros 32) (.zeros 12))).2 = .ok s := ⟨_, rfl⟩
    have running : Running P cfg.messageTTLSeconds s := .started made
    have inserts : Inserts s.table [] io := by
      have empty : s.table = .empty := by cases made; rfl
      rw [empty]
      decide
    obtain ⟨row, lasting⟩ := lasts s running [] .zero io (by decide) inserts
    obtain ⟨nonce, table⟩ := (enqueue_cases (P := P) s [] .zero io).table inserts
    have same : row = rowFor P s [] .zero epoch nonce := Table.insert_injective _ (lasting.stored.symm.trans table)
    have zero : io.now.seconds = 0 := by decide
    have high := cfg.messageTTLSeconds.toInt_lt
    have expiry := lasting.exact (by omega)
    have early := addUnix_wrapped epoch rfl (not_le.1 beyond)
    rw [same] at expiry
    have stamped : (epoch.addUnix s.ttl).toInt = _ := expiry
    rw [running.ttl] at stamped
    omega
  · intro fits s running r m io _ inserts
    have positive := (Config.load_eq_ok.1 loaded).2.messageTTLSeconds
    exact lasting running ⟨Int64.lt_iff_toInt_lt.1 positive, by omega⟩ m inserts

/-- A message to bob. -/
def letter : QueuedMessage := ⟨none, some ⟨ascii "ann", ascii "bob", [1], 0, []⟩, 0⟩

/-- The largest time to live that lasts. -/
theorem expiry_range_largest :
    ∃ cfg s row, Config.load (Config.devEnv (ascii "9223372036")) = .ok cfg ∧
      (newStore Reference.platform .empty cfg.messageTTLSeconds (.clean (.zeros 32) (.zeros 12))).2 = .ok s ∧
      Lasting Reference.platform cfg.messageTTLSeconds s (ascii "bob") letter (Reference.enqueueAt 1) row := by
  have loaded : Config.load (Config.devEnv (ascii "9223372036")) =
      .ok (Config.read (Config.devEnv (ascii "9223372036"))) := by rfl
  have fits : (Config.read (Config.devEnv (ascii "9223372036"))).messageTTLSeconds.toInt ≤ 9223372036 := by decide
  obtain ⟨s, made⟩ : ∃ s, (newStore Reference.platform .empty (Config.read (Config.devEnv (ascii "9223372036"))).messageTTLSeconds
      (.clean (.zeros 32) (.zeros 12))).2 = .ok s := ⟨_, rfl⟩
  have inserts : Inserts s.table (ascii "bob") (Reference.enqueueAt 1) := by
    cases made
    decide
  obtain ⟨row, lasting⟩ := (expiry_range Reference.platform loaded).2 fits s (.started made) (ascii "bob") letter
    (Reference.enqueueAt 1) (by decide) inserts
  exact ⟨_, s, row, loaded, made, lasting⟩

/-- With one second more, a message is expired when it is stored. -/
theorem expired_at_once :
    ∃ cfg s, Config.load (Config.devEnv (ascii "9223372037")) = .ok cfg ∧
      (newStore Reference.platform .empty cfg.messageTTLSeconds (.clean (.zeros 32) (.zeros 12))).2 = .ok s ∧
      Inserts s.table (ascii "bob") (Reference.enqueueAt 1) ∧
      ((s.enqueue Reference.platform (ascii "bob") letter (Reference.enqueueAt 1)).table.rows.map fun row =>
        row.2.expiresAt.toInt) = [-9223372036] ∧
      ((s.enqueue Reference.platform (ascii "bob") letter (Reference.enqueueAt 1)).drainQueue Reference.platform
        (ascii "bob") (Reference.drainAt 1)).2 = [] ∧
      (s.enqueue Reference.platform (ascii "bob") letter (Reference.enqueueAt 1)).queuedMessages (Reference.second 1)
        false = 0 := by
  refine ⟨_, _, rfl, rfl, ?_, ?_, ?_, ?_⟩
  · decide +kernel
  · decide +kernel
  · decide +kernel
  · decide +kernel

end SpectreRelay.Server.Store
