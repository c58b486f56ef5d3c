import SpectreRelay.Lib.Runs
import SpectreRelay.Server.Reference
import SpectreRelay.Server.StoreImage

/-!
# The offline queue refines a list per recipient

The table drops expired rows at different moments in memory and on disk:
`Enqueue` deletes the dead rows of one recipient, on its full path without
writing the file, and the purge deletes those of everyone. None of this can be
seen. `Holds` says that a table and the plain queues of `Lib.Expiring` agree on
what is live from some second on; the table in memory and the one in the file
both keep it under every call (`run_spec`), so every answer over every run is
the plain queues' (`queue_refines`).
-/

namespace SpectreRelay.Server.Store
set_option autoImplicit false
open Lib

variable (P : Platform)

/-- A row as an entry of a queue: what its payload decodes to, and its expiry. -/
def entryOf (key : Block 32) (row : QueueRow) : Entry (Option QueuedMessage) :=
  ⟨readPayload P key row.payload, row.expiresAt.toInt⟩

/-- The rows of a recipient, in order. -/
abbrev rowsOf (t : Table QueueRow) (recipientID : Bytes) : List QueueRow := t.group QueueRow.recipientID recipientID

/-- The entries of a recipient. -/
def contents (key : Block 32) (t : Table QueueRow) (recipientID : Bytes) : List (Entry (Option QueuedMessage)) :=
  (rowsOf t recipientID).map (entryOf P key)

/-- From the second `now` on, the table holds what the queues hold, and no recipient has too many rows. -/
structure Holds (key : Block 32) (now : Int) (t : Table QueueRow) (q : Queues Bytes QueuedMessage) : Prop where
  agree : Agree some now (contents P key t) q
  small : ∀ r, (rowsOf t r).length ≤ maxQueuePerRecipient

variable {P}

/-! ## The table's operations on entries -/

theorem live_contents (key : Block 32) (now : Time) (t : Table QueueRow) (r : Bytes) :
    live now.seconds (contents P key t r) = ((rowsOf t r).filter fun row => !expired now row).map (entryOf P key) := by
  simp only [live, contents, List.filter_map]
  congr 1
  apply List.filter_congr
  intro row _
  have same : (now.seconds ≤ row.expiresAt.toInt) ↔ ¬ expired now row = true := by rw [expired_iff, not_lt]
  simp [entryOf, same]

/-- Deleting dead rows of some recipients changes no live entry. -/
theorem live_delete (key : Block 32) {now : Time} {t : Table QueueRow} {p : QueueRow → Bool}
    (dead : ∀ row, p row = true → expired now row = true) (r : Bytes) :
    live now.seconds (contents P key (t.delete p) r) = live now.seconds (contents P key t r) := by
  rw [live_contents, live_contents]
  simp only [rowsOf, Table.group_delete, List.filter_filter]
  congr 1
  apply List.filter_congr
  intro row _
  cases doomed : p row with
  | false => simp
  | true => simp [dead row doomed]

theorem rowsOf_delete_le (t : Table QueueRow) (p : QueueRow → Bool) (r : Bytes) :
    (rowsOf (t.delete p) r).length ≤ (rowsOf t r).length := by
  rw [rowsOf, Table.group_delete]
  exact List.length_filter_le ..

theorem contents_insert (key : Block 32) (t : Table QueueRow) (row : QueueRow) (r : Bytes) :
    contents P key (t.insert row) r =
      if row.recipientID = r then contents P key t r ++ [entryOf P key row] else contents P key t r := by
  unfold contents rowsOf
  rw [Table.group_insert]
  split <;> simp

/-- An `Enqueue` for another user leaves the rows of `r` alone. -/
theorem rowsOf_enqueue_other (s : Store) {u r : Bytes} (other : r ≠ u) (m : QueuedMessage) (io : EnqueueIo) :
    rowsOf (s.enqueue P u m io).table r = rowsOf s.table r := by
  have purged : rowsOf (purgeOf s.table u io.deleteAt) r = rowsOf s.table r := by
    rw [rowsOf, Table.group_delete, List.filter_eq_self]
    intro row inside
    simp [Table.key_of_mem_group inside, other]
  have done := enqueue_cases (P := P) s u m io
  generalize s.enqueue P u m io = s' at done
  cases done with
  | @inserted nonce inserts =>
    have elsewhere : ¬ (rowFor P s u m io.now nonce).recipientID = r := Ne.symm other
    exact (Table.group_insert ..).trans ((if_neg elsewhere).trans purged)
  | purged not => exact purged
  | failed not => rfl

theorem Holds.later {key : Block 32} {now now' : Int} {t : Table QueueRow} {q : Queues Bytes QueuedMessage}
    (h : Holds P key now t q) (order : now ≤ now') : Holds P key now' t q := ⟨h.agree.later order, h.small⟩

theorem Holds.empty (key : Block 32) (now : Int) : Holds P key now .empty .empty :=
  ⟨fun _ => rfl, fun _ => Nat.zero_le _⟩

/-- Deleting dead rows keeps what the table holds. -/
theorem Holds.delete {key : Block 32} {now : Time} {t : Table QueueRow} {q : Queues Bytes QueuedMessage}
    (h : Holds P key now.seconds t q) {p : QueueRow → Bool} (dead : ∀ row, p row = true → expired now row = true) :
    Holds P key now.seconds (t.delete p) q where
  agree := h.agree.drop (live_delete key dead)
  small r := (rowsOf_delete_le t p r).trans (h.small r)

/-- Deleting all rows of a recipient empties its list. -/
theorem Holds.clear {key : Block 32} {now : Int} {t : Table QueueRow} {q : Queues Bytes QueuedMessage}
    (h : Holds P key now t q) (r : Bytes) :
    Holds P key now (t.delete fun row => row.recipientID = r) (q.clear r) where
  agree := by
    apply h.agree.clear
    · simp only [contents, rowsOf, Table.group_delete_self, List.map_nil]
    · intro r' other
      simp only [contents, rowsOf, Table.group_delete_other t other]
  small r' := (rowsOf_delete_le t _ r').trans (h.small r')

theorem Holds.purgeOf {key : Block 32} {now : Time} {t : Table QueueRow} {q : Queues Bytes QueuedMessage}
    (h : Holds P key now.seconds t q) (r : Bytes) : Holds P key now.seconds (purgeOf t r now) q :=
  h.delete fun _ doomed => (of_decide_eq_true doomed).2

/-- After that deletion the rows of the recipient are its live entries. -/
theorem count_purgeOf (key : Block 32) (t : Table QueueRow) (r : Bytes) (now : Time) :
    ((purgeOf t r now).count fun row => row.recipientID = r) = (live now.seconds (contents P key t r)).length := by
  rw [Table.count_key, live_contents, List.length_map, Table.group_delete]
  congr 1
  apply List.filter_congr
  intro row inside
  simp [Table.key_of_mem_group inside]

/-- A row inserted below the cap is the entry that the queues append. -/
theorem Holds.insert {key : Block 32} {now : Time} {t : Table QueueRow} {q : Queues Bytes QueuedMessage}
    (h : Holds P key now.seconds t q) {row : QueueRow} {e : Entry QueuedMessage} (same : entryOf P key row = e.map some)
    (room : ((Store.purgeOf t row.recipientID now).count fun r => r.recipientID = row.recipientID) < maxQueuePerRecipient) :
    Holds P key now.seconds ((Store.purgeOf t row.recipientID now).insert row)
      (q.enqueue maxQueuePerRecipient now.seconds row.recipientID e) where
  agree := by
    have purged := h.purgeOf row.recipientID
    have below : (live now.seconds (contents P key (Store.purgeOf t row.recipientID now) row.recipientID)).length <
        maxQueuePerRecipient := by
      rw [purged.agree.length_live, ← h.agree.length_live, ← count_purgeOf]
      exact room
    apply purged.agree.enqueue below
    · rw [contents_insert, if_pos rfl, live_append, same]
    · intro r other
      rw [contents_insert, if_neg fun mine => other mine.symm]
  small := by
    intro r
    rw [rowsOf, Table.group_insert]
    rw [Table.count_key] at room
    split
    · rename_i mine
      subst mine
      rw [List.length_append, List.length_singleton]
      omega
    · exact (h.purgeOf row.recipientID).small r

theorem Holds.full {key : Block 32} {now : Time} {t : Table QueueRow} {q : Queues Bytes QueuedMessage}
    (h : Holds P key now.seconds t q) {r : Bytes} (e : Entry QueuedMessage)
    (full : maxQueuePerRecipient ≤ (Store.purgeOf t r now).count fun row => row.recipientID = r) :
    q.enqueue maxQueuePerRecipient now.seconds r e = q := by
  rw [count_purgeOf key] at full
  exact h.agree.full e full

/-- What a drain at `now` reads in a list of rows. -/
def reading (P : Platform) (key : Block 32) (now : Time) (rows : List QueueRow) : List QueuedMessage :=
  rows.filterMap fun row => if expired now row then none else readPayload P key row.payload

theorem drained_reading (s : Store) (u : Bytes) (now : Time) (fileNonce : Block 12) :
    (s.drainQueue P u (.clean now fileNonce)).2 = reading P s.key now (rowsOf s.table u) := by
  rw [drainQueue_clean]
  simp only [drainedRows, DrainIo.clean, readRows_clean, List.map_filterMap, reading, rowsOf, Table.group,
    List.filterMap_map]
  apply List.filterMap_congr
  intro row _
  cases dead : expired now row.2 <;> simp [dead]

theorem reading_contents (key : Block 32) (now : Time) (t : Table QueueRow) (r : Bytes) :
    reading P key now (rowsOf t r) = (live now.seconds (contents P key t r)).filterMap Entry.message := by
  rw [live_contents, List.filterMap_map, reading, List.filterMap_filter]
  apply List.filterMap_congr
  intro row _
  cases expired now row <;> simp [entryOf]

/-- What a drain reads are the live entries of the list. -/
theorem Holds.drained {s : Store} {now : Time} {q : Queues Bytes QueuedMessage}
    (h : Holds P s.key now.seconds s.table q) (r : Bytes) (nonce : Block 12) :
    (drainedRows P s r (.clean now nonce)).map Prod.snd = (live now.seconds (q.lists r)).map Entry.message := by
  have read : (drainedRows P s r (.clean now nonce)).map Prod.snd = reading P s.key now (rowsOf s.table r) :=
    drained_reading s r now nonce
  rw [read, reading_contents, h.agree r, List.filterMap_map]
  exact congrFun List.filterMap_eq_map _

/-- The count of live rows is the number of live entries of all lists. -/
theorem Holds.total {key : Block 32} {now : Time} {t : Table QueueRow} {q : Queues Bytes QueuedMessage}
    (h : Holds P key now.seconds t q) : (t.count fun row => !expired now row) = q.total now.seconds := by
  let keys := q.keys ∪ (t.rows.map fun row => row.2.recipientID).toFinset
  have cover : ∀ r ∉ keys, t.group QueueRow.recipientID r = [] := by
    intro r outside
    have absent : r ∉ t.rows.map fun row => row.2.recipientID := by
      intro inside
      exact outside (Finset.mem_union_right _ (List.mem_toFinset.2 inside))
    simp only [Table.group, Table.select, List.map_eq_nil_iff, List.filter_eq_nil_iff, decide_eq_true_eq]
    intro row inside mine
    exact absent (List.mem_map.2 ⟨row, inside, mine⟩)
  rw [t.count_eq_sum _ keys cover, q.total_eq_sum _ Finset.subset_union_left]
  apply Finset.sum_congr rfl
  intro r _
  rw [← h.agree.length_live, live_contents, List.length_map]

/-! ## Runs -/

/-- The calls of a run in which no system call fails, with their clock readings and nonces. -/
inductive Op where
  | enqueue (recipientID : Bytes) (msg : QueuedMessage) (deleteAt now : Time) (nonce fileNonce : Block 12)
  | drainQueue (recipientID : Bytes) (now : Time) (fileNonce : Block 12)
  | queuedMessages (now : Time)
  | purgeExpired (now : Time) (fileNonce : Block 12)
  | restart (fresh : Block 32) (fileNonce : Block 12)

/-- What a caller sees of a call. -/
inductive Answer where
  | done
  | messages (ms : List QueuedMessage)
  | count (n : Nat)
  | started (ok : Bool)
deriving DecidableEq

namespace Op

/-- The call on the store; a restart starts a new store on the same files. -/
def run (P : Platform) (ttlSeconds : Int64) (s : Store) : Op → Store × Answer
  | enqueue r m deleteAt now nonce fileNonce => (s.enqueue P r m (.clean deleteAt now nonce fileNonce), .done)
  | drainQueue r now fileNonce =>
    let drained := s.drainQueue P r (.clean now fileNonce)
    (drained.1, .messages drained.2)
  | queuedMessages now => (s, .count (s.queuedMessages now false))
  | purgeExpired now fileNonce => (s.purgeExpired P now false (.clean fileNonce), .done)
  | restart fresh fileNonce =>
    match (newStore P s.disk ttlSeconds (.clean fresh fileNonce)).2 with
    | .ok s' => (s', .started true)
    | .error _ => (s, .started false)

/-- The call on one list per recipient: purges and restarts do nothing. -/
def spec (ttlSeconds : Int64) (q : Queues Bytes QueuedMessage) : Op → Queues Bytes QueuedMessage × Answer
  | enqueue r m deleteAt now _ _ =>
    let expiry := now.seconds + ttlSeconds.toInt
    (q.enqueue maxQueuePerRecipient deleteAt.seconds r ⟨m.stamp (Int64.ofInt expiry), expiry⟩, .done)
  | drainQueue r now _ => (q.clear r, .messages ((live now.seconds (q.lists r)).map Entry.message))
  | queuedMessages now => (q, .count (q.total now.seconds))
  | purgeExpired _ _ => (q, .done)
  | restart _ _ => (q, .started true)

/-- The readings of a call follow `last`, in order. -/
def After (last : Time) : Op → Prop
  | enqueue _ _ deleteAt now _ _ => last ≤ deleteAt ∧ deleteAt ≤ now
  | drainQueue _ now _ => last ≤ now
  | queuedMessages now => last ≤ now
  | purgeExpired now _ => last ≤ now
  | restart _ _ => True

/-- The last reading once the call is over. -/
def clock (last : Time) : Op → Time
  | enqueue _ _ _ now _ _ => now
  | drainQueue _ now _ => now
  | queuedMessages now => now
  | purgeExpired now _ => now
  | restart _ _ => last

/-- An enqueued message survives JSON: its strings are well-formed. -/
def Readable : Op → Prop
  | enqueue _ m _ _ _ _ => m.Valid
  | _ => True

end Op

/-- A time to live that is positive and fits in nanoseconds. -/
structure GoodTtl (ttlSeconds : Int64) : Prop where
  pos : 0 < ttlSeconds.toInt
  fits : ttlSeconds.toInt * 10 ^ 9 < 2 ^ 63

/-- The store in memory and the image on its disk both hold the queues. -/
structure Refines (P : Platform) (ttlSeconds : Int64) (now : Time) (s : Store) (q : Queues Bytes QueuedMessage) :
    Prop where
  memory : Holds P s.key now.seconds s.table q
  keyFile : s.disk.keyFile = some s.key.bytes
  image : ∃ nonce t, s.disk.dataFile = some (P.aead.encrypt s.key nonce (P.sqlite.serialize t)) ∧
    Holds P s.key now.seconds t q
  ttl : s.ttl = ttlSeconds * 1000000000

/-- Persisting writes the table in memory to disk. -/
theorem Refines.persist {ttlSeconds : Int64} {now : Time} {s : Store} {q : Queues Bytes QueuedMessage} (nonce : Block 12)
    (memory : Holds P s.key now.seconds s.table q) (keyFile : s.disk.keyFile = some s.key.bytes)
    (ttl : s.ttl = ttlSeconds * 1000000000) :
    Refines P ttlSeconds now (persistLocked P s (.clean nonce)).1 q := by
  rw [persistLocked_clean]
  exact ⟨memory, keyFile, ⟨nonce, s.table, rfl, memory⟩, ttl⟩

theorem Refines.later {ttlSeconds : Int64} {now now' : Time} {s : Store} {q : Queues Bytes QueuedMessage}
    (h : Refines P ttlSeconds now s q) (order : now ≤ now') : Refines P ttlSeconds now' s q := by
  obtain ⟨nonce, t, file, held⟩ := h.image
  have seconds := Time.seconds_mono order
  exact ⟨h.memory.later seconds, h.keyFile, ⟨nonce, t, file, held.later seconds⟩, h.ttl⟩

/-- The stored expiry is the reading plus the time to live, in seconds. -/
theorem addUnix_ttl {ttlSeconds : Int64} (good : GoodTtl ttlSeconds) (now : Time) :
    (now.addUnix (ttlSeconds * 1000000000)).toInt = now.seconds + ttlSeconds.toInt := by
  have exact' : (ttlSeconds * 1000000000).toInt = ttlSeconds.toInt * 10 ^ 9 := by
    have := good.pos
    have := good.fits
    rw [Int64.toInt_mul]
    have : (1000000000 : Int64).toInt = 10 ^ 9 := by decide
    rw [this]
    apply Int.bmod_eq_of_le <;> omega
  rw [Time.addUnix_toInt, exact', Time.seconds]
  omega

theorem Refines.enqueue {ttlSeconds : Int64} {s : Store} {q : Queues Bytes QueuedMessage} {deleteAt now : Time}
    (good : GoodTtl ttlSeconds) (h : Refines P ttlSeconds deleteAt s q) (order : deleteAt ≤ now) {m : QueuedMessage}
    (readable : m.Valid) (r : Bytes) (nonce fileNonce : Block 12) :
    Refines P ttlSeconds now (s.enqueue P r m (.clean deleteAt now nonce fileNonce))
      (q.enqueue maxQueuePerRecipient deleteAt.seconds r
        ⟨m.stamp (Int64.ofInt (now.seconds + ttlSeconds.toInt)), now.seconds + ttlSeconds.toInt⟩) := by
  have stamp : (now.addUnix s.ttl).toInt = now.seconds + ttlSeconds.toInt := by rw [h.ttl, addUnix_ttl good]
  rw [← stamp, Int64.ofInt_toInt, enqueue_clean]
  apply Refines.later _ order
  split
  · rename_i full
    rw [h.memory.full _ full]
    exact ⟨h.memory.purgeOf r, h.keyFile, h.image, h.ttl⟩
  · rename_i room
    refine Refines.persist fileNonce ?_ h.keyFile h.ttl
    have same : entryOf P s.key (rowFor P s r m now nonce) =
        Entry.map some ⟨m.stamp (now.addUnix s.ttl), (now.addUnix s.ttl).toInt⟩ := by
      simp only [entryOf, rowFor, readPayload_encrypt, Entry.map, QueuedMessage.sanitize_stamp, readable.sanitize]
    exact h.memory.insert same (not_le.1 room)

/-- A store whose image is on disk starts again with the table of that image. -/
theorem newStore_image {s : Store} {nonce : Block 12} {t : Table QueueRow} (keyFile : s.disk.keyFile = some s.key.bytes)
    (file : s.disk.dataFile = some (P.aead.encrypt s.key nonce (P.sqlite.serialize t))) (ttlSeconds : Int64)
    (fresh : Block 32) (fileNonce : Block 12) :
    newStore P s.disk ttlSeconds (.clean fresh fileNonce) =
      (s.disk, .ok { clients := ∅, table := t, disk := s.disk, key := s.key, ttl := ttlSeconds * 1000000000 }) := by
  have same : ({ s.disk with keyFile := some s.key.bytes } : Disk) = s.disk := by rw [← keyFile]
  have key : loadOrCreateKey (some s.key.bytes) (.clean fresh) = (some s.key.bytes, .ok s.key) :=
    loadOrCreateKey_some s.key rfl
  have loaded := loadFromDisk_image (P := P) (s := ⟨∅, .empty, s.disk, s.key, ttlSeconds * 1000000000⟩) file
    (.clean fresh fileNonce)
  simp only [StartIo.clean, Bool.false_eq_true, if_false] at loaded
  simp only [newStore, StartIo.clean, Bool.false_eq_true, if_false, keyFile, key, same, loaded]

/-- **One call.** It answers as the lists do and keeps the refinement. -/
theorem run_spec {ttlSeconds : Int64} (good : GoodTtl ttlSeconds) (last : Time) (s : Store)
    (q : Queues Bytes QueuedMessage) (op : Op) (h : Refines P ttlSeconds last s q) (after : op.After last ∧ op.Readable) :
    (op.run P ttlSeconds s).2 = (op.spec ttlSeconds q).2 ∧
      Refines P ttlSeconds (op.clock last) (op.run P ttlSeconds s).1 (op.spec ttlSeconds q).1 := by
  obtain ⟨after, readable⟩ := after
  cases op with
  | enqueue r m deleteAt now nonce fileNonce =>
    exact ⟨rfl, Refines.enqueue good (h.later after.1) after.2 readable r nonce fileNonce⟩
  | drainQueue r now fileNonce =>
    have held := (h.later after).memory
    simp only [Op.run, Op.spec, Op.clock, drainQueue_clean, held.drained r fileNonce]
    exact ⟨trivial, Refines.persist fileNonce (held.clear r) h.keyFile h.ttl⟩
  | queuedMessages now =>
    have held := (h.later after).memory
    exact ⟨congrArg Answer.count held.total, h.later after⟩
  | purgeExpired now fileNonce =>
    have held := (h.later after).memory
    exact ⟨rfl, Refines.persist fileNonce (held.delete fun _ dead => dead) h.keyFile h.ttl⟩
  | restart fresh fileNonce =>
    obtain ⟨nonce, t, file, held⟩ := h.image
    simp only [Op.run, Op.spec, Op.clock, newStore_image h.keyFile file]
    exact ⟨trivial, held, h.keyFile, ⟨nonce, t, file, held⟩, rfl⟩

/-- A first start creates an empty table and writes it. -/
theorem newStore_empty (P : Platform) (ttlSeconds : Int64) (fresh : Block 32) (fileNonce : Block 12) (now : Time) :
    ∃ s, (newStore P .empty ttlSeconds (.clean fresh fileNonce)).2 = .ok s ∧ Refines P ttlSeconds now s .empty :=
  ⟨_, rfl, Holds.empty fresh _, rfl, ⟨fileNonce, .empty, rfl, Holds.empty fresh _⟩, rfl⟩

/-- **Queue refinement.** From a first start, every run of calls with readings that do not go back answers as one list
per recipient does, and no recipient ever has more rows than the cap. -/
theorem queue_refines (P : Platform) {ttlSeconds : Int64} (good : GoodTtl ttlSeconds) (fresh : Block 32)
    (fileNonce : Block 12) (start : Time) (ops : List Op) (ordered : Clocked Op.After Op.clock start ops)
    (readable : ∀ op ∈ ops, op.Readable) :
    ∃ s, (newStore P .empty ttlSeconds (.clean fresh fileNonce)).2 = .ok s ∧
      outputs (Op.run P ttlSeconds) s ops = outputs (Op.spec ttlSeconds) .empty ops ∧
      ∀ r, (rowsOf (final (Op.run P ttlSeconds) s ops).table r).length ≤ maxQueuePerRecipient := by
  obtain ⟨s, started, refines⟩ := newStore_empty P ttlSeconds fresh fileNonce start
  obtain ⟨same, _, last⟩ := outputs_simulated (run_spec good) ops start s .empty refines (ordered.and readable)
  exact ⟨s, started, same, last.memory.small⟩

/-- A message enqueued, a restart and a drain within the time to live. -/
theorem queue_refines_restart :
    let at1 : Time := ⟨1000000000, by decide⟩
    let at2 : Time := ⟨2000000000, by decide⟩
    let msg : QueuedMessage := ⟨none, some ⟨ascii "ann", ascii "bob", [1], 0, []⟩, 0⟩
    let ops := [Op.enqueue (ascii "bob") msg at1 at1 (.zeros 12) (.zeros 12), .restart (.zeros 32) (.zeros 12),
      .drainQueue (ascii "bob") at2 (.zeros 12)]
    ∃ s, (newStore Reference.platform .empty 60 (.clean (.zeros 32) (.zeros 12))).2 = .ok s ∧
      outputs (Op.run Reference.platform 60) s ops = outputs (Op.spec 60) .empty ops ∧
      ∀ r, (rowsOf (final (Op.run Reference.platform 60) s ops).table r).length ≤ maxQueuePerRecipient := by
  refine queue_refines Reference.platform ⟨by decide, by decide⟩ (.zeros 32) (.zeros 12) ⟨0, by decide⟩ _ ?_ ?_
  · simp only [Clocked, Op.After, Op.clock, Time.le_def]
    decide
  · intro op inside
    simp only [List.mem_cons, List.not_mem_nil, or_false] at inside
    rcases inside with rfl | rfl | rfl
    · exact ⟨nofun, fun e same => Option.some.inj same ▸ ⟨by decide, by decide, by decide⟩⟩
    · trivial
    · trivial

end SpectreRelay.Server.Store
