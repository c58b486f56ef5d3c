import SpectreRelay.Lib.Expiring
import SpectreRelay.Lib.Map
import SpectreRelay.Model.Envelope
import SpectreRelay.Server.Platform

/-!
# The offline queue and the client registry

`server/store.go`. The queue is a table in an in-memory database; every change
is followed by writing an encrypted image of the whole table to a file, and a
start reads that file back. Each method takes the outcomes of its system calls
and clock readings as an argument and follows the source's order of checks and
early returns, so a failing call has the effect it has there.
-/

namespace SpectreRelay.Server
set_option autoImplicit false
open Lib Lib.Json Model

/-- Hard cap per recipient queue. -/
def maxQueuePerRecipient : Nat := 500

/-! ## Stored messages -/

/-- The wrapper that is stored; callers fill one of the two envelopes. -/
structure QueuedMessage where
  sealed : Option SealedEnvelope
  opened : Option OpenEnvelope
  expiresAt : Int64
deriving DecidableEq

namespace QueuedMessage

def zero : QueuedMessage := ⟨none, none, 0⟩

/-- The JSON object of a message; an absent envelope is left out. -/
def toJson (m : QueuedMessage) : Json :=
  .obj ((m.sealed.map fun e => (ascii "sealed", e.toJson)).toList ++
    ((m.opened.map fun e => (ascii "open", e.toJson)).toList ++ [(ascii "expires_at", .int m.expiresAt.toInt)]))

def fields : List (StructField QueuedMessage) :=
  [.of "sealed" sealed (fun b m => { m with sealed := b }) (pointer SealedEnvelope.decoder SealedEnvelope.zero),
   .of "open" opened (fun b m => { m with opened := b }) (pointer OpenEnvelope.decoder OpenEnvelope.zero),
   .of "expires_at" expiresAt (fun b m => { m with expiresAt := b }) (integer int64Of)]

def decoder : Decoder QueuedMessage := record fields

/-- `json.Marshal` of a message. -/
def marshal (m : QueuedMessage) : Bytes := print m.toJson

/-- The message with every string made well-formed. -/
def sanitize (m : QueuedMessage) : QueuedMessage where
  sealed := m.sealed.map SealedEnvelope.sanitize
  opened := m.opened.map OpenEnvelope.sanitize
  expiresAt := m.expiresAt

/-- Every string of the message is well-formed. -/
structure Valid (m : QueuedMessage) : Prop where
  sealed : ∀ e, m.sealed = some e → e.Valid
  opened : ∀ e, m.opened = some e → e.Valid

theorem Valid.sanitize {m : QueuedMessage} (ok : Valid m) : m.sanitize = m := by
  obtain ⟨s, o, x⟩ := m
  have first : s.map SealedEnvelope.sanitize = s := by
    cases s with
    | none => rfl
    | some e => exact congrArg some (ok.sealed e rfl).sanitize
  have second : o.map OpenEnvelope.sanitize = o := by
    cases o with
    | none => rfl
    | some e => exact congrArg some (ok.opened e rfl).sanitize
  simp only [QueuedMessage.sanitize, first, second]

/-- The message with its expiry set. -/
def stamp (m : QueuedMessage) (expiresAt : Int64) : QueuedMessage := { m with expiresAt }

theorem valid_sanitize (m : QueuedMessage) : Valid m.sanitize where
  sealed e found := by
    obtain ⟨e', _, rfl⟩ := Option.map_eq_some_iff.1 found
    exact e'.valid_sanitize
  opened e found := by
    obtain ⟨e', _, rfl⟩ := Option.map_eq_some_iff.1 found
    exact e'.valid_sanitize

theorem sanitize_stamp (m : QueuedMessage) (x : Int64) : (m.stamp x).sanitize = m.sanitize.stamp x := rfl

theorem toJson_printable (m : QueuedMessage) : Printable maxNesting m.toJson := by
  apply Printable.obj
  intro member inside
  simp only [List.mem_append, Option.mem_toList, Option.map_eq_some_iff, List.mem_singleton] at inside
  rcases inside with ⟨e, _, rfl⟩ | ⟨e, _, rfl⟩ | rfl
  · exact e.toJson_printable _
  · exact e.toJson_printable _
  · exact .int _

theorem pointer_sealed (e : SealedEnvelope) :
    pointer SealedEnvelope.decoder SealedEnvelope.zero (clean e.toJson) none = (some e.sanitize, true) := by
  have inner := e.decoder_toJson
  simp only [SealedEnvelope.toJson, clean] at inner ⊢
  simp only [pointer, Option.getD_none, inner]

theorem pointer_open (e : OpenEnvelope) :
    pointer OpenEnvelope.decoder OpenEnvelope.zero (clean e.toJson) none = (some e.sanitize, true) := by
  have inner := e.decoder_toJson
  simp only [OpenEnvelope.toJson, clean] at inner ⊢
  simp only [pointer, Option.getD_none, inner]

/-- **Round trip.** Decoding what was encoded gives the message, its strings sanitized. -/
theorem unmarshal_marshal (m : QueuedMessage) : unmarshal decoder zero m.marshal = (m.sanitize, true) := by
  rw [marshal, unmarshal_print _ _ m.toJson_printable]
  obtain ⟨s, o, x⟩ := m
  cases s <;> cases o <;>
    simp only [toJson, clean, decoder, record, Option.map_none, Option.map_some, Option.toList_none, Option.toList_some,
      List.nil_append, List.cons_append, cleanMembers, clean_int]
  · rw [storeAll_found rfl]
    simp only [storeAll, StructField.of, integer_int (int64Of_toInt _)]
    rfl
  · rw [storeAll_found rfl, storeAll_found rfl]
    simp only [storeAll, StructField.of, integer_int (int64Of_toInt _), zero, pointer_open]
    rfl
  · rw [storeAll_found rfl, storeAll_found rfl]
    simp only [storeAll, StructField.of, integer_int (int64Of_toInt _), zero, pointer_sealed]
    rfl
  · rw [storeAll_found rfl, storeAll_found rfl, storeAll_found rfl]
    simp only [storeAll, StructField.of, integer_int (int64Of_toInt _), zero, pointer_sealed, pointer_open]
    rfl

end QueuedMessage

/-! ## The store -/

/-- A row of the `queue` table; its number is the table's. -/
structure QueueRow where
  recipientID : Bytes
  payload : Bytes
  expiresAt : Int64
deriving DecidableEq

/-- The third-party code the relay runs on. -/
structure Platform where
  aead : Aead
  sqlite : Sqlite QueueRow
  ed25519 : Ed25519

/-- A WebSocket connection, by its identity. -/
abbrev Conn := Nat

/-- The registry and the queue of a running relay, with the files it writes. -/
structure Store where
  clients : Map Conn
  table : Table QueueRow
  disk : Disk
  key : Block 32
  ttl : Int64

variable (P : Platform)

namespace Store

/-- Binds a user to a connection and gives back the connection it replaces. -/
def register (s : Store) (userID : Bytes) (c : Conn) : Store × Option Conn :=
  ({ s with clients := s.clients.insert userID c }, s.clients[userID]?)

/-- Removes the binding only while it still is `c`. -/
def unregister (s : Store) (userID : Bytes) (c : Conn) : Store :=
  if s.clients[userID]? = some c then { s with clients := s.clients.erase userID } else s

def lookupClient (s : Store) (userID : Bytes) : Option Conn := s.clients[userID]?

def connectedClients (s : Store) : Nat := s.clients.size

/-- Writes the encrypted image of the table; gives whether no call failed. -/
def persistLocked (s : Store) (io : PersistIo) : Store × Bool :=
  let written := replaceFile s.disk.dataFile (P.aead.encrypt s.key io.nonce (P.sqlite.serialize s.table)) io
  ({ s with disk := { s.disk with dataFile := written.1 } }, written.2)

/-- Clock readings and call outcomes of one `Enqueue`. -/
structure EnqueueIo where
  deleteAt : Time
  deleteFails : Bool
  countFails : Bool
  now : Time
  nonce : Option (Block 12)
  insertFails : Bool
  persist : PersistIo

/-- An `Enqueue` in which no call fails. -/
def EnqueueIo.clean (deleteAt now : Time) (nonce fileNonce : Block 12) : EnqueueIo where
  deleteAt
  deleteFails := false
  countFails := false
  now
  nonce := some nonce
  insertFails := false
  persist := .clean fileNonce

/-- `expires_at < unixepoch()`, read at `now`. -/
def expired (now : Time) (row : QueueRow) : Bool := row.expiresAt < now.unix

/-- Persists a message for later delivery; drops it silently when the recipient's queue is full. -/
def enqueue (s : Store) (recipientID : Bytes) (msg : QueuedMessage) (io : EnqueueIo) : Store :=
  if io.deleteFails then s
  else
    let s := { s with table := s.table.delete fun row => row.recipientID = recipientID ∧ expired io.deleteAt row }
    if io.countFails then s
    -- the purge above is not persisted on this path
    else if maxQueuePerRecipient ≤ s.table.count fun row => row.recipientID = recipientID then s
    else
      let msg := msg.stamp (io.now.addUnix s.ttl)
      match io.nonce with
      | none => s
      | some nonce =>
        let ciphertext := P.aead.encrypt s.key nonce msg.marshal
        if io.insertFails then s
        else
          (persistLocked P { s with table := s.table.insert ⟨recipientID, ciphertext, msg.expiresAt⟩ } io.persist).1

/-- Decrypts and decodes a stored payload. -/
def readPayload (key : Block 32) (payload : Bytes) : Option QueuedMessage :=
  match P.aead.decrypt key payload with
  | none => none
  | some plaintext =>
    let decoded := unmarshal QueuedMessage.decoder .zero plaintext
    if decoded.2 then some decoded.1 else none

/-- How the `Commit` of a transaction ends. After a failed one `database/sql` holds the transaction for finished, and the
deferred `Rollback` does nothing. Whether the statements were undone, or the transaction is still open on the connection
and later statements join it, is up to the driver. -/
inductive CommitOutcome where
  | done
  | rolledBack
  | leftOpen
deriving DecidableEq

/-- Clock reading and call outcomes of one `DrainQueue`; `rowLimit` is where the iteration breaks off. Whether a `BEGIN`
fails because a transaction is open already is `beginFails`. -/
structure DrainIo where
  beginFails : Bool
  queryFails : Bool
  now : Time
  scanFails : Nat → Bool
  rowLimit : Option Nat
  deleteFails : Bool
  commit : CommitOutcome
  persist : PersistIo

/-- A `DrainQueue` in which no call fails. -/
def DrainIo.clean (now : Time) (fileNonce : Block 12) : DrainIo where
  beginFails := false
  queryFails := false
  now
  scanFails := fun _ => false
  rowLimit := none
  deleteFails := false
  commit := .done
  persist := .clean fileNonce

/-- The live rows that decode, with their numbers; the others are skipped. -/
def readRows (key : Block 32) (now : Time) (scanFails : Nat → Bool) (rows : List (Nat × QueueRow)) :
    List (Nat × QueuedMessage) :=
  rows.zipIdx.filterMap fun (row, i) =>
    if scanFails i then none
    else if expired now row.2 then none
    else (readPayload P key row.2.payload).map fun msg => (row.1, msg)

/-- What one `DrainQueue` reads before it deletes. -/
def drainedRows (s : Store) (recipientID : Bytes) (io : DrainIo) : List (Nat × QueuedMessage) :=
  let rows := s.table.select fun row => row.recipientID = recipientID
  readRows P s.key io.now io.scanFails (match io.rowLimit with | none => rows | some n => rows.take n)

/-- Returns and removes the messages of a user. A failing begin, query or delete changes nothing. When the commit fails,
nothing is returned or written out: the rows are back, or they are gone for the calls that follow. -/
def drainQueue (s : Store) (recipientID : Bytes) (io : DrainIo) : Store × List QueuedMessage :=
  if io.beginFails then (s, [])
  else if io.queryFails then (s, [])
  else
    let messages := (drainedRows P s recipientID io).map Prod.snd
    if io.deleteFails then (s, [])
    else
      let deleted := { s with table := s.table.delete fun row => row.recipientID = recipientID }
      match io.commit with
      | .rolledBack => (s, [])
      | .leftOpen => (deleted, [])
      | .done => ((persistLocked P deleted io.persist).1, messages)

/-- Counts the live rows of all users. -/
def queuedMessages (s : Store) (now : Time) (fails : Bool) : Nat :=
  if fails then 0 else s.table.count fun row => !expired now row

/-- Removes the expired rows of all users. -/
def purgeExpired (s : Store) (now : Time) (fails : Bool) (io : PersistIo) : Store :=
  if fails then s else (persistLocked P { s with table := s.table.delete (expired now) } io).1

/-! ## Starting -/

/-- The outcomes of the calls of `NewStore`. -/
structure StartIo where
  mkdirFails : Bool
  key : KeyIo
  openFails : Bool
  readFails : Bool
  schemaFails : Bool
  persist : PersistIo

/-- A start in which no call fails. -/
def StartIo.clean (fresh : Block 32) (fileNonce : Block 12) : StartIo where
  mkdirFails := false
  key := .clean fresh
  openFails := false
  readFails := false
  schemaFails := false
  persist := .clean fileNonce

/-- A new empty table, written to disk at once. -/
def initSchema (s : Store) (io : StartIo) : Disk × Except String Store :=
  if io.schemaFails then (s.disk, .error systemError)
  else
    let written := persistLocked P { s with table := .empty } io.persist
    (written.1.disk, if written.2 then .ok written.1 else .error systemError)

/-- Restores the table from the queue file, or creates it when there is none. -/
def loadFromDisk (s : Store) (io : StartIo) : Disk × Except String Store :=
  if io.readFails then (s.disk, .error systemError)
  else
    match s.disk.dataFile with
    | none => initSchema P s io
    | some [] => initSchema P s io
    | some data =>
      if data.length < 12 then (s.disk, .error "queue file truncated")
      else
        match P.aead.decrypt s.key data with
        | none => (s.disk, .error "queue authentication failed")
        | some plain =>
          match P.sqlite.deserialize plain with
          | none => (s.disk, .error systemError)
          | some table => (s.disk, .ok { s with table })

/-- Starts a store on the files at its path: what is on disk afterwards, and the store. -/
def newStore (disk : Disk) (ttlSeconds : Int64) (io : StartIo) : Disk × Except String Store :=
  if io.mkdirFails then (disk, .error systemError)
  else
    let key := loadOrCreateKey disk.keyFile io.key
    let disk := { disk with keyFile := key.1 }
    match key.2 with
    | .error e => (disk, .error e)
    | .ok key =>
      if io.openFails then (disk, .error systemError)
      else loadFromDisk P { clients := ∅, table := .empty, disk, key, ttl := ttlSeconds * 1000000000 } io

/-! ## Calls in which nothing fails -/

variable {P}

@[simp] theorem readPayload_encrypt (key : Block 32) (nonce : Block 12) (m : QueuedMessage) :
    readPayload P key (P.aead.encrypt key nonce m.marshal) = some m.sanitize := by
  simp [readPayload, QueuedMessage.unmarshal_marshal]

theorem expired_iff {now : Time} {row : QueueRow} : expired now row = true ↔ row.expiresAt.toInt < now.seconds := by
  rw [expired, decide_eq_true_eq, Int64.lt_iff_toInt_lt, now.unix_toInt]

/-- A row stays expired. -/
theorem expired_mono {a b : Time} (order : a ≤ b) {row : QueueRow} (dead : expired a row = true) :
    expired b row = true := by
  have seconds := Time.seconds_mono order
  rw [expired_iff] at dead ⊢
  omega

theorem persistLocked_clean (s : Store) (nonce : Block 12) :
    persistLocked P s (.clean nonce) =
      ({ s with disk := ⟨s.disk.keyFile, some (P.aead.encrypt s.key nonce (P.sqlite.serialize s.table))⟩ }, true) := rfl

theorem readRows_clean (key : Block 32) (now : Time) (rows : List (Nat × QueueRow)) :
    readRows P key now (fun _ => false) rows = rows.filterMap fun row =>
      if expired now row.2 then none else (readPayload P key row.2.payload).map fun msg => (row.1, msg) := by
  conv_rhs => rw [← List.zipIdx_map_fst 0 rows, List.filterMap_map]
  rfl

/-- When every row decodes, a drain reads all live rows of the recipient. -/
theorem drainedRows_numbers {s : Store} (decodes : ∀ row ∈ s.table.rows, ∃ m, readPayload P s.key row.2.payload = some m)
    (r : Bytes) (now : Time) (fileNonce : Block 12) :
    (drainedRows P s r (.clean now fileNonce)).map Prod.fst =
      ((s.table.select fun row => row.recipientID = r).filter fun row => !expired now row.2).map Prod.fst := by
  simp only [drainedRows, DrainIo.clean, readRows_clean]
  have inside : ∀ row ∈ s.table.select fun row => row.recipientID = r, ∃ m, readPayload P s.key row.2.payload = some m :=
    fun row selected => decodes row (List.mem_filter.1 selected).1
  generalize (s.table.select fun row => row.recipientID = r) = rows at inside
  induction rows with
  | nil => rfl
  | cons row rows ih =>
    have rest := ih fun row' listed => inside row' (List.mem_cons_of_mem _ listed)
    obtain ⟨m, decoded⟩ := inside row List.mem_cons_self
    cases dead : expired now row.2 with
    | true => simpa [List.filterMap_cons, List.filter_cons, dead] using rest
    | false => simpa [List.filterMap_cons, List.filter_cons, dead, decoded] using rest

/-- The table without the dead rows of one recipient, as `Enqueue` leaves it. -/
abbrev purgeOf (t : Table QueueRow) (r : Bytes) (now : Time) : Table QueueRow :=
  t.delete fun row => row.recipientID = r ∧ expired now row

/-- `Enqueue` at these readings finds the recipient's queue full. -/
def Full (t : Table QueueRow) (r : Bytes) (deleteAt : Time) : Prop :=
  maxQueuePerRecipient ≤ (purgeOf t r deleteAt).count fun row => row.recipientID = r

instance (t : Table QueueRow) (r : Bytes) (deleteAt : Time) : Decidable (Full t r deleteAt) :=
  inferInstanceAs (Decidable (_ ≤ _))

/-- The row that `Enqueue` inserts at `now`. -/
def rowFor (P : Platform) (s : Store) (r : Bytes) (m : QueuedMessage) (now : Time) (nonce : Block 12) : QueueRow where
  recipientID := r
  payload := P.aead.encrypt s.key nonce (m.stamp (now.addUnix s.ttl)).marshal
  expiresAt := now.addUnix s.ttl

/-- `Enqueue` as two cases: the full path, and the insertion. -/
theorem enqueue_clean (s : Store) (r : Bytes) (m : QueuedMessage) (deleteAt now : Time) (nonce fileNonce : Block 12) :
    s.enqueue P r m (.clean deleteAt now nonce fileNonce) =
      if Full s.table r deleteAt then { s with table := purgeOf s.table r deleteAt }
      else
        (persistLocked P { s with table := (purgeOf s.table r deleteAt).insert (rowFor P s r m now nonce) }
          (.clean fileNonce)).1 := rfl

theorem drainQueue_clean (s : Store) (r : Bytes) (now : Time) (fileNonce : Block 12) :
    s.drainQueue P r (.clean now fileNonce) =
      ((persistLocked P { s with table := s.table.delete fun row => row.recipientID = r } (.clean fileNonce)).1,
        (drainedRows P s r (.clean now fileNonce)).map Prod.snd) := rfl

section Frames

variable (s : Store) (r : Bytes) (m : QueuedMessage) (deleteAt now : Time) (nonce fileNonce : Block 12)

theorem enqueue_table : (s.enqueue P r m (.clean deleteAt now nonce fileNonce)).table =
    if Full s.table r deleteAt then purgeOf s.table r deleteAt
    else (purgeOf s.table r deleteAt).insert (rowFor P s r m now nonce) := by
  rw [enqueue_clean]
  split <;> rfl

@[simp] theorem enqueue_clients : (s.enqueue P r m (.clean deleteAt now nonce fileNonce)).clients = s.clients := by
  rw [enqueue_clean]
  split <;> rfl

@[simp] theorem enqueue_key : (s.enqueue P r m (.clean deleteAt now nonce fileNonce)).key = s.key := by
  rw [enqueue_clean]
  split <;> rfl

@[simp] theorem drainQueue_table : (s.drainQueue P r (.clean now fileNonce)).1.table =
    s.table.delete fun row => row.recipientID = r := rfl

@[simp] theorem purgeExpired_table : (s.purgeExpired P now false (.clean fileNonce)).table =
    s.table.delete (expired now) := rfl

@[simp] theorem unregister_table (c : Conn) : (s.unregister r c).table = s.table := by
  unfold unregister
  split <;> rfl

@[simp] theorem unregister_key (c : Conn) : (s.unregister r c).key = s.key := by
  unfold unregister
  split <;> rfl

@[simp] theorem unregister_ttl (c : Conn) : (s.unregister r c).ttl = s.ttl := by
  unfold unregister
  split <;> rfl

theorem register_lookup (c : Conn) (u : Bytes) :
    (s.register r c).1.lookupClient u = if r = u then some c else s.lookupClient u := Map.get_insert ..

theorem lookupClient_unregister (c : Conn) (u : Bytes) :
    (s.unregister r c).lookupClient u = if r = u ∧ s.lookupClient r = some c then none else s.lookupClient u := by
  by_cases held : s.lookupClient r = some c
  · have taken : s.unregister r c = { s with clients := s.clients.erase r } := if_pos held
    rw [taken]
    simp only [held, and_true]
    exact Map.get_erase ..
  · have kept : s.unregister r c = s := if_neg held
    rw [kept, if_neg fun both => held both.2]

/-- Unregistering only takes away. -/
theorem unregister_lookup {c c' : Conn} {u : Bytes} (h : (s.unregister r c).lookupClient u = some c') :
    s.lookupClient u = some c' := by
  rw [lookupClient_unregister] at h
  split at h
  · cases h
  · exact h

end Frames

end Store

end SpectreRelay.Server
