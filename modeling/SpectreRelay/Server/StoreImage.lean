import SpectreRelay.Server.Store

/-!
# The store's calls when some of them fail, and the image they leave on disk

One lemma for each call of the queue says which of its outcomes a run can see,
whatever the system calls inside answer: `Enqueue` inserts, or at most drops
dead rows; `DrainQueue` takes everything, or nothing, and gives nothing when its
commit fails. `Image` says which table the queue file holds. A call replaces it
by the table in memory or leaves it alone, and a start reads it back
(`Image.newStore`).
-/

namespace SpectreRelay.Server.Store
set_option autoImplicit false
open Lib

variable {P : Platform}

/-! ## Outcomes -/

/-- No call of the `Enqueue` before the insertion fails, and there is room. -/
def Inserts (t : Table QueueRow) (r : Bytes) (io : EnqueueIo) : Prop :=
  io.deleteFails = false ∧ io.countFails = false ∧ ¬ Full t r io.deleteAt ∧ io.nonce.isSome ∧ io.insertFails = false

instance (t : Table QueueRow) (r : Bytes) (io : EnqueueIo) : Decidable (Inserts t r io) :=
  inferInstanceAs (Decidable (_ ∧ _))

/-- What an `Enqueue` makes of the store. -/
inductive Enqueued (P : Platform) (s : Store) (r : Bytes) (m : QueuedMessage) (io : EnqueueIo) : Store → Prop where
  | inserted {nonce : Block 12} (inserts : Inserts s.table r io) :
      Enqueued P s r m io
        (persistLocked P { s with table := (purgeOf s.table r io.deleteAt).insert (rowFor P s r m io.now nonce) }
          io.persist).1
  | purged (not : ¬ Inserts s.table r io) : Enqueued P s r m io { s with table := purgeOf s.table r io.deleteAt }
  | failed (not : ¬ Inserts s.table r io) : Enqueued P s r m io s

theorem enqueue_cases (s : Store) (r : Bytes) (m : QueuedMessage) (io : EnqueueIo) :
    Enqueued P s r m io (s.enqueue P r m io) := by
  unfold enqueue
  split
  · rename_i deleteFails
    exact .failed fun inserts => by simp [inserts.1] at deleteFails
  · rename_i deleted
    dsimp only
    split
    · rename_i countFails
      exact .purged fun inserts => by simp [inserts.2.1] at countFails
    · rename_i counted
      split
      · rename_i full
        exact .purged fun inserts => inserts.2.2.1 full
      · rename_i room
        split
        · rename_i missing
          refine .purged fun inserts => ?_
          have present := inserts.2.2.2.1
          rw [missing] at present
          cases present
        · rename_i nonce found
          split
          · rename_i insertFails
            exact .purged fun inserts => by simp [inserts.2.2.2.2] at insertFails
          · rename_i inserted
            refine .inserted ⟨?_, ?_, room, ?_, ?_⟩
            · simpa using deleted
            · simpa using counted
            · rw [found]; rfl
            · simpa using inserted

/-- The table after an insertion. -/
theorem Enqueued.table {s s' : Store} {r : Bytes} {m : QueuedMessage} {io : EnqueueIo} (done : Enqueued P s r m io s')
    (inserts : Inserts s.table r io) :
    ∃ nonce, s'.table = (purgeOf s.table r io.deleteAt).insert (rowFor P s r m io.now nonce) := by
  cases done with
  | @inserted nonce _ => exact ⟨nonce, rfl⟩
  | purged not => exact absurd inserts not
  | failed not => exact absurd inserts not

/-- An insertion adds the row under the next number. -/
theorem Enqueued.new_row {s s' : Store} {r : Bytes} {m : QueuedMessage} {io : EnqueueIo} (done : Enqueued P s r m io s')
    (inserts : Inserts s.table r io) : ∃ nonce, (s.table.next, rowFor P s r m io.now nonce) ∈ s'.table.rows := by
  obtain ⟨nonce, table⟩ := done.table inserts
  refine ⟨nonce, ?_⟩
  rw [table]
  exact List.mem_append_right _ List.mem_cons_self

/-- The rows that are not dead stay. -/
theorem Enqueued.old_row {s s' : Store} {r : Bytes} {m : QueuedMessage} {io : EnqueueIo} (done : Enqueued P s r m io s')
    {row : Nat × QueueRow} (inside : row ∈ s.table.rows) :
    row ∈ s'.table.rows ∨ expired io.deleteAt row.2 = true := by
  by_cases dead : row.2.recipientID = r ∧ expired io.deleteAt row.2 = true
  · exact .inr dead.2
  · have stays : row ∈ (purgeOf s.table r io.deleteAt).rows := List.mem_filter.2 ⟨inside, by simp only [dead]; rfl⟩
    cases done with
    | inserted inserts => exact .inl (List.mem_append_left _ stays)
    | purged not => exact .inl stays
    | failed not => exact .inl inside

/-- A `DrainQueue` reaches its commit. -/
def Executes (io : DrainIo) : Prop := io.beginFails = false ∧ io.queryFails = false ∧ io.deleteFails = false

instance (io : DrainIo) : Decidable (Executes io) := inferInstanceAs (Decidable (_ ∧ _))

/-- The transaction of a `DrainQueue` commits. -/
def Commits (io : DrainIo) : Prop := Executes io ∧ io.commit = .done

instance (io : DrainIo) : Decidable (Commits io) := inferInstanceAs (Decidable (_ ∧ _))

/-- The commit of a `DrainQueue` fails and its transaction stays open. -/
def LeavesOpen (io : DrainIo) : Prop := Executes io ∧ io.commit = .leftOpen

instance (io : DrainIo) : Decidable (LeavesOpen io) := inferInstanceAs (Decidable (_ ∧ _))

/-- `DrainQueue` takes all rows of the user and gives those it read, takes them and gives nothing, or changes nothing. -/
theorem drainQueue_eq (s : Store) (r : Bytes) (io : DrainIo) :
    s.drainQueue P r io =
      if Commits io then
        ((persistLocked P { s with table := s.table.delete fun row => row.recipientID = r } io.persist).1,
          (drainedRows P s r io).map Prod.snd)
      else if LeavesOpen io then ({ s with table := s.table.delete fun row => row.recipientID = r }, [])
      else (s, []) := by
  obtain ⟨beginFails, queryFails, now, scanFails, rowLimit, deleteFails, commit, persist⟩ := io
  cases beginFails <;> cases queryFails <;> cases deleteFails <;> cases commit <;>
    simp [drainQueue, Commits, LeavesOpen, Executes]

/-- Every row of the user can be read in the iteration of this `DrainQueue`. -/
def ReadsAll (t : Table QueueRow) (r : Bytes) (io : DrainIo) : Prop :=
  (∀ i < (t.select fun row => row.recipientID = r).length, io.scanFails i = false) ∧ io.rowLimit = none

instance (t : Table QueueRow) (r : Bytes) (io : DrainIo) : Decidable (ReadsAll t r io) :=
  inferInstanceAs (Decidable (_ ∧ _))

/-- The iteration of this `DrainQueue` reads the row at position `i`. -/
def Reads (io : DrainIo) (i : Nat) : Prop := io.scanFails i = false ∧ ∀ k, io.rowLimit = some k → i < k

theorem ReadsAll.reads {t : Table QueueRow} {r : Bytes} {io : DrainIo} (all : ReadsAll t r io) {i : Nat}
    (bound : i < (t.select fun row => row.recipientID = r).length) : Reads io i := by
  refine ⟨all.1 i bound, fun k limit => ?_⟩
  rw [all.2] at limit
  cases limit

theorem mem_readRows_iff {key : Block 32} {now : Time} {scanFails : Nat → Bool} {rows : List (Nat × QueueRow)} {n : Nat}
    {m : QueuedMessage} : (n, m) ∈ readRows P key now scanFails rows ↔
      ∃ i row, rows[i]? = some (n, row) ∧ scanFails i = false ∧ expired now row = false ∧
        readPayload P key row.payload = some m := by
  simp only [readRows, List.mem_filterMap, Prod.exists, List.mem_zipIdx_iff_getElem?]
  constructor
  · rintro ⟨n', row, i, selected, read⟩
    split at read
    · cases read
    rename_i scanned
    split at read
    · cases read
    rename_i live
    obtain ⟨m', decoded, same⟩ := Option.map_eq_some_iff.1 read
    cases same
    exact ⟨i, row, selected, by simpa using scanned, by simpa using live, decoded⟩
  · rintro ⟨i, row, selected, scanned, live, decoded⟩
    exact ⟨n, row, i, selected, by simp [scanned, live, decoded]⟩

/-- **What a drain gives**: the live rows of the user that decode and that its iteration reads. -/
theorem mem_drainedRows_iff {s : Store} {r : Bytes} {io : DrainIo} {n : Nat} {m : QueuedMessage} :
    (n, m) ∈ drainedRows P s r io ↔ ∃ i row, (s.table.select fun row => row.recipientID = r)[i]? = some (n, row) ∧
      Reads io i ∧ expired io.now row = false ∧ readPayload P s.key row.payload = some m := by
  cases limit : io.rowLimit with
  | none =>
    simp only [drainedRows, limit, mem_readRows_iff, Reads, reduceCtorEq, false_imp_iff, implies_true, and_true]
  | some k =>
    simp only [drainedRows, limit, mem_readRows_iff, Reads, Option.some.injEq, forall_eq']
    constructor
    · rintro ⟨i, row, selected, scanned, rest⟩
      have inside : i < k := by
        by_contra outside
        rw [List.getElem?_take, if_neg outside] at selected
        cases selected
      rw [List.getElem?_take, if_pos inside] at selected
      exact ⟨i, row, selected, ⟨scanned, inside⟩, rest⟩
    · rintro ⟨i, row, selected, ⟨scanned, inside⟩, rest⟩
      exact ⟨i, row, by rw [List.getElem?_take, if_pos inside, selected], scanned, rest⟩

/-- What a drain gives comes from live rows of the user that decode. -/
theorem mem_drainedRows {s : Store} {r : Bytes} {io : DrainIo} {n : Nat} {m : QueuedMessage}
    (inside : (n, m) ∈ drainedRows P s r io) :
    ∃ row, (n, row) ∈ s.table.rows ∧ row.recipientID = r ∧ expired io.now row = false ∧
      readPayload P s.key row.payload = some m := by
  obtain ⟨i, row, selected, -, live, decoded⟩ := mem_drainedRows_iff.1 inside
  obtain ⟨stored, mine⟩ := List.mem_filter.1 (List.mem_of_getElem? selected)
  exact ⟨row, stored, of_decide_eq_true mine, live, decoded⟩

/-- A drain that reads every row gives every live row that decodes. -/
theorem mem_drainedRows_of_row {s : Store} {r : Bytes} {io : DrainIo} (all : ReadsAll s.table r io) {n : Nat}
    {row : QueueRow} {m : QueuedMessage} (stored : (n, row) ∈ s.table.rows) (mine : row.recipientID = r)
    (live : expired io.now row = false) (decoded : readPayload P s.key row.payload = some m) :
    (n, m) ∈ drainedRows P s r io := by
  have selected : (n, row) ∈ s.table.select fun row => row.recipientID = r :=
    List.mem_filter.2 ⟨stored, decide_eq_true mine⟩
  obtain ⟨i, bound, found⟩ := List.getElem_of_mem selected
  rw [mem_drainedRows_iff]
  exact ⟨i, row, by rw [List.getElem?_eq_getElem bound, found], all.reads bound, live, decoded⟩

/-! ## Calls that are cut off -/

section Faults

variable (s : Store) (r : Bytes) (m : QueuedMessage) (nonce : Block 12) (point : PersistStep)

theorem Enqueued.fault_disk {s s' : Store} {r : Bytes} {m : QueuedMessage} {io : EnqueueIo} {point : PersistStep}
    (done : Enqueued P s r m io s') (fault : io.persist.fault = some point) : s'.disk = s.disk := by
  cases done with
  | inserted inserts => simp only [persistLocked, replaceFile, fault]
  | purged not => rfl
  | failed not => rfl

theorem enqueue_fault_disk (io : EnqueueIo) :
    (s.enqueue P r m { io with persist := ⟨nonce, some point⟩ }).disk = s.disk :=
  (enqueue_cases s r m _).fault_disk rfl

theorem drainQueue_fault_disk (io : DrainIo) :
    (s.drainQueue P r { io with persist := ⟨nonce, some point⟩ }).1.disk = s.disk := by
  rw [drainQueue_eq]
  split
  · rfl
  · split <;> rfl

theorem purgeExpired_fault_disk (now : Time) (fails : Bool) :
    (s.purgeExpired P now fails ⟨nonce, some point⟩).disk = s.disk := by
  unfold purgeExpired
  split <;> rfl

end Faults

/-! ## The image -/

/-- The queue file holds the table `t`, under the key in the key file. -/
structure Image (P : Platform) (s : Store) (t : Table QueueRow) : Prop where
  keyFile : s.disk.keyFile = some s.key.bytes
  dataFile : ∃ nonce, s.disk.dataFile = some (P.aead.encrypt s.key nonce (P.sqlite.serialize t))

/-- Replacing the file, or failing to: it holds the table in memory, or what it held before. -/
theorem Image.persist {s : Store} {t : Table QueueRow} (image : Image P s t) (table : Table QueueRow) (io : PersistIo) :
    Image P (persistLocked P { s with table } io).1 (if io.fault = none then table else t) := by
  obtain ⟨nonce, fault⟩ := io
  cases fault with
  | none => exact ⟨image.keyFile, nonce, rfl⟩
  | some point => exact ⟨image.keyFile, image.dataFile⟩

/-- A persist in which no call fails writes the table in memory. -/
theorem persistLocked_image {s : Store} {io : PersistIo} (keyFile : s.disk.keyFile = some s.key.bytes)
    (clean : io.fault = none) : Image P (persistLocked P s io).1 s.table := by
  refine ⟨keyFile, io.nonce, ?_⟩
  simp only [persistLocked, replaceFile, clean]

theorem Image.of_disk {s s' : Store} {t : Table QueueRow} (image : Image P s t) (disk : s'.disk = s.disk)
    (key : s'.key = s.key) : Image P s' t := by
  obtain ⟨keyFile, dataFile⟩ := image
  exact ⟨by rw [disk, key]; exact keyFile, by rw [disk, key]; exact dataFile⟩

/-- Reading a file that holds an image gives its table. -/
theorem loadFromDisk_image {s : Store} {nonce : Block 12} {t : Table QueueRow}
    (file : s.disk.dataFile = some (P.aead.encrypt s.key nonce (P.sqlite.serialize t))) (io : StartIo) :
    loadFromDisk P s io = (s.disk, if io.readFails then .error systemError else .ok { s with table := t }) := by
  have long : ¬ (P.aead.encrypt s.key nonce (P.sqlite.serialize t)).length < 12 := by
    simp only [Aead.encrypt, List.length_append, nonce.size]
    omega
  unfold loadFromDisk
  split
  · rfl
  · rw [file]
    split
    · rename_i missing
      cases missing
    · rename_i empty
      exact absurd (Option.some.inj empty) (Aead.encrypt_ne_nil _ _ _)
    · rename_i data _ found
      cases found
      simp only [long, if_false, Aead.decrypt_encrypt, P.sqlite.deserialize_serialize]

/-- **Restart.** A start that succeeds on the files of a store has the table of the image and the same key. -/
theorem Image.newStore {s s' : Store} {t : Table QueueRow} (image : Image P s t) {ttlSeconds : Int64} {io : StartIo}
    (started : (newStore P s.disk ttlSeconds io).2 = .ok s') :
    s' = { clients := ∅, table := t, disk := s.disk, key := s.key, ttl := ttlSeconds * 1000000000 } := by
  obtain ⟨keyFile, nonce, dataFile⟩ := image
  have same : ({ s.disk with keyFile := some s.key.bytes } : Disk) = s.disk := by rw [← keyFile]
  unfold Store.newStore at started
  rw [keyFile] at started
  split at started
  · cases started
  · cases reads : io.key.readFails with
    | true => simp [loadOrCreateKey, reads] at started
    | false =>
      rw [loadOrCreateKey_some s.key reads] at started
      dsimp only at started
      rw [same] at started
      split at started
      · cases started
      · have loaded := loadFromDisk_image (P := P) (s := ⟨∅, .empty, s.disk, s.key, ttlSeconds * 1000000000⟩) dataFile io
        rw [loaded] at started
        dsimp only at started
        split at started
        · cases started
        · cases started
          rfl

/-! ## Properties of all rows -/

/-- Every row in memory and every row in the file meets `Q`; the numbers in the file are used up. -/
structure AllRows (P : Platform) (Q : Nat × QueueRow → Prop) (s : Store) : Prop where
  memory : ∀ row ∈ s.table.rows, Q row
  image : ∃ t, Image P s t ∧ t.next ≤ s.table.next ∧ ∀ row ∈ t.rows, Q row

namespace AllRows

variable {Q : Nat × QueueRow → Prop} {s : Store}

/-- It is enough to look at numbers that were given. -/
theorem mono {Q' : Nat × QueueRow → Prop} (h : AllRows P Q s) (keep : ∀ row, row.1 < s.table.next → Q row → Q' row) :
    AllRows P Q' s := by
  obtain ⟨t, image, next, inside⟩ := h.image
  refine ⟨fun row listed => keep row (s.table.below row listed) (h.memory row listed), t, image, next, ?_⟩
  intro row listed
  have below := t.below row listed
  exact keep row (by omega) (inside row listed)

/-- Rows are dropped from memory only. -/
theorem trim (h : AllRows P Q s) (gone : QueueRow → Bool) : AllRows P Q { s with table := s.table.delete gone } := by
  obtain ⟨t, image, next, inside⟩ := h.image
  exact ⟨fun row listed => h.memory row (List.mem_filter.1 listed).1, t, image.of_disk rfl rfl, next, inside⟩

/-- A table is put in place of the one in memory and written out, or the writing fails. -/
theorem persist (h : AllRows P Q s) {table : Table QueueRow} (rows : ∀ row ∈ table.rows, Q row)
    (next : s.table.next ≤ table.next) (io : PersistIo) : AllRows P Q (persistLocked P { s with table } io).1 := by
  obtain ⟨t, image, below, inside⟩ := h.image
  refine ⟨rows, _, image.persist table io, ?_, ?_⟩
  · show (if io.fault = none then table else t).next ≤ table.next
    split <;> omega
  · split
    · exact rows
    · exact inside

theorem delete (h : AllRows P Q s) (gone : QueueRow → Bool) (io : PersistIo) :
    AllRows P Q (persistLocked P { s with table := s.table.delete gone } io).1 := by
  apply h.persist
  · exact fun row listed => h.memory row (List.mem_filter.1 listed).1
  · exact Nat.le_refl _

theorem enqueued (h : AllRows P Q s) {r : Bytes} {m : QueuedMessage} {io : EnqueueIo} {s' : Store}
    (done : Enqueued P s r m io s') (new : Inserts s.table r io → ∀ nonce, Q (s.table.next, rowFor P s r m io.now nonce)) :
    AllRows P Q s' := by
  cases done with
  | @inserted nonce inserts =>
    refine h.persist (fun row listed => ?_) (Nat.le_succ _) io.persist
    rcases List.mem_append.1 listed with old | added
    · exact h.memory row (List.mem_filter.1 old).1
    · rw [List.mem_singleton.1 added]
      exact new inserts nonce
  | purged not => exact h.trim _
  | failed not => exact h

theorem drainQueue (h : AllRows P Q s) (r : Bytes) (io : DrainIo) : AllRows P Q (s.drainQueue P r io).1 := by
  rw [drainQueue_eq]
  split
  · exact h.delete _ _
  · split
    · exact h.trim _
    · exact h

theorem purgeExpired (h : AllRows P Q s) (now : Time) (fails : Bool) (io : PersistIo) :
    AllRows P Q (s.purgeExpired P now fails io) := by
  unfold Store.purgeExpired
  split
  · exact h
  · exact h.delete _ _

/-- A restart brings back the rows of the file and no others. -/
theorem newStore (h : AllRows P Q s) {ttlSeconds : Int64} {io : StartIo} {s' : Store}
    (started : (Store.newStore P s.disk ttlSeconds io).2 = .ok s') : AllRows P Q s' := by
  obtain ⟨t, image, _, inside⟩ := h.image
  rw [image.newStore started]
  exact ⟨inside, t, image.of_disk rfl rfl, Nat.le_refl _, inside⟩

/-- A first start has no rows. -/
theorem first {ttlSeconds : Int64} {fresh : Block 32} {fileNonce : Block 12} {s : Store}
    (started : (Store.newStore P .empty ttlSeconds (.clean fresh fileNonce)).2 = .ok s) (Q : Nat × QueueRow → Prop) :
    AllRows P Q s := by
  cases started
  exact ⟨fun _ inside => absurd inside List.not_mem_nil, .empty, ⟨rfl, fileNonce, rfl⟩, Nat.le_refl _,
    fun _ inside => absurd inside List.not_mem_nil⟩

end AllRows

/-- A new table is there when its image was written. -/
theorem initSchema_made {s s' : Store} {io : StartIo} (made : (initSchema P s io).2 = .ok s') :
    io.persist.fault = none ∧ s' = (persistLocked P { s with table := .empty } io.persist).1 ∧
      s'.disk = (initSchema P s io).1 := by
  unfold initSchema at made ⊢
  split at made
  · cases made
  · rename_i created
    rw [if_neg created]
    cases fault : io.persist.fault with
    | none =>
      simp only [persistLocked, replaceFile, fault, if_true] at made ⊢
      cases made
      exact ⟨trivial, rfl, rfl⟩
    | some point =>
      simp only [persistLocked, replaceFile, fault, Bool.false_eq_true, if_false] at made
      cases made

theorem initSchema_ttl {s s' : Store} {io : StartIo} (made : (initSchema P s io).2 = .ok s') : s'.ttl = s.ttl := by
  obtain ⟨-, rfl, -⟩ := initSchema_made made
  rfl

theorem loadFromDisk_ttl {s s' : Store} {io : StartIo} (loaded : (loadFromDisk P s io).2 = .ok s') : s'.ttl = s.ttl := by
  unfold loadFromDisk at loaded
  split at loaded
  · cases loaded
  · split at loaded
    · exact initSchema_ttl loaded
    · exact initSchema_ttl loaded
    · split at loaded
      · cases loaded
      · split at loaded
        · cases loaded
        · split at loaded
          · cases loaded
          · cases loaded
            rfl

/-- A start sets the time to live in nanoseconds, modulo `2^64`. -/
theorem newStore_ttl {disk : Disk} {ttlSeconds : Int64} {io : StartIo} {s : Store}
    (started : (newStore P disk ttlSeconds io).2 = .ok s) : s.ttl = ttlSeconds * 1000000000 := by
  unfold newStore at started
  split at started
  · cases started
  · dsimp only at started
    split at started
    · cases started
    · split at started
      · cases started
      · exact loadFromDisk_ttl started

section General

variable (s : Store) (r : Bytes) (m : QueuedMessage)

theorem Enqueued.key {s s' : Store} {r : Bytes} {m : QueuedMessage} {io : EnqueueIo} (done : Enqueued P s r m io s') :
    s'.key = s.key := by
  cases done <;> rfl

theorem Enqueued.ttl {s s' : Store} {r : Bytes} {m : QueuedMessage} {io : EnqueueIo} (done : Enqueued P s r m io s') :
    s'.ttl = s.ttl := by
  cases done <;> rfl

theorem Enqueued.clients {s s' : Store} {r : Bytes} {m : QueuedMessage} {io : EnqueueIo} (done : Enqueued P s r m io s') :
    s'.clients = s.clients := by
  cases done <;> rfl

@[simp] theorem enqueue_key_any (io : EnqueueIo) : (s.enqueue P r m io).key = s.key := (enqueue_cases s r m io).key

@[simp] theorem enqueue_ttl_any (io : EnqueueIo) : (s.enqueue P r m io).ttl = s.ttl := (enqueue_cases s r m io).ttl

@[simp] theorem enqueue_clients_any (io : EnqueueIo) : (s.enqueue P r m io).clients = s.clients :=
  (enqueue_cases s r m io).clients

/-- A drain touches the table and the files only. -/
theorem drainQueue_rest (io : DrainIo) : ∃ table disk, (s.drainQueue P r io).1 = { s with table, disk } := by
  rw [drainQueue_eq]
  split
  · exact ⟨_, _, rfl⟩
  · split
    · exact ⟨_, s.disk, rfl⟩
    · exact ⟨s.table, s.disk, rfl⟩

@[simp] theorem drainQueue_key_any (io : DrainIo) : (s.drainQueue P r io).1.key = s.key := by
  obtain ⟨table, disk, same⟩ := drainQueue_rest (P := P) s r io
  rw [same]

@[simp] theorem drainQueue_ttl_any (io : DrainIo) : (s.drainQueue P r io).1.ttl = s.ttl := by
  obtain ⟨table, disk, same⟩ := drainQueue_rest (P := P) s r io
  rw [same]

@[simp] theorem drainQueue_clients_any (io : DrainIo) : (s.drainQueue P r io).1.clients = s.clients := by
  obtain ⟨table, disk, same⟩ := drainQueue_rest (P := P) s r io
  rw [same]

@[simp] theorem purgeExpired_key_any (now : Time) (fails : Bool) (io : PersistIo) :
    (s.purgeExpired P now fails io).key = s.key := by
  unfold purgeExpired
  split <;> rfl

@[simp] theorem purgeExpired_ttl_any (now : Time) (fails : Bool) (io : PersistIo) :
    (s.purgeExpired P now fails io).ttl = s.ttl := by
  unfold purgeExpired
  split <;> rfl

@[simp] theorem purgeExpired_clients_any (now : Time) (fails : Bool) (io : PersistIo) :
    (s.purgeExpired P now fails io).clients = s.clients := by
  unfold purgeExpired
  split <;> rfl

end General

end SpectreRelay.Server.Store
