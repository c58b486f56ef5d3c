import SpectreRelay.Server.Conservation
import SpectreRelay.Server.QueueSteps
import SpectreRelay.Server.Restarts

/-!
# At most once, whatever crashes

The machine of `Delivery` with the process free to end at any time: between two
critical sections, or inside the file replacement of one, and a new process
then starts on the files. `DrainQueue` takes a user's rows out of the file
before it returns them, and a message is put back only after its write failed.
So a message that was written is nowhere else, neither in memory nor in the
file, and no restart brings it back (`written_once`).

A message may be in the file and discarded at once: a full queue is purged of
expired rows in memory only. Discarded messages are not counted here.
-/

namespace SpectreRelay.Server.Delivery
set_option autoImplicit false
open Lib Model

/-- A step of the process, or its end and a new start. -/
inductive Incident where
  | step (l : Label)
  /-- The process ends between two steps. -/
  | restart (io : Store.StartIo)
  /-- The process ends inside the file replacement of a step. -/
  | crash (l : Label) (point : PersistStep) (io : Store.StartIo)

namespace State

variable (P : Platform) (ttlSeconds : Int64)

/-- What a step leaves on disk whose file replacement is cut off at `point`. -/
def cutDisk (s : State) (l : Label) (point : PersistStep) : Disk :=
  match l with
  | .enqueue i t =>
    match pick s.calls i with
    | some (⟨_, r, m, .enqueue⟩, _) =>
      (s.store.enqueue P r m { t.io with persist := ⟨t.fileNonce, some point⟩ }).disk
    | _ => s.store.disk
  | .drain j now fileNonce =>
    match pick s.sessions j with
    | some (⟨_, userID, .registered⟩, _) =>
      (s.store.drainQueue P userID { Store.DrainIo.clean now fileNonce with persist := ⟨fileNonce, some point⟩ }).1.disk
    | _ => s.store.disk
  | .requeue j t =>
    match pick s.sessions j with
    | some (⟨_, userID, .requeueing ((_, m) :: _)⟩, _) =>
      (s.store.enqueue P userID m { t.io with persist := ⟨t.fileNonce, some point⟩ }).disk
    | _ => s.store.disk
  | .purge now fileNonce => (s.store.purgeExpired P now false ⟨fileNonce, some point⟩).disk
  | _ => s.store.disk

/-- A new process on these files. -/
def revive (s : State) (disk : Disk) (io : Store.StartIo) : Option State :=
  match (Store.newStore P disk ttlSeconds io).2 with
  | .ok store => some (s.restarted store)
  | .error _ => none

def survive (s : State) : Incident → Option State
  | .step l => s.step P l
  | .restart io => s.revive P ttlSeconds s.store.disk io
  | .crash l point io => s.revive P ttlSeconds (s.cutDisk P l point) io

variable {P ttlSeconds}

/-- The file is replaced as a whole or not at all. -/
theorem cutDisk_eq (s : State) (l : Label) (point : PersistStep) : s.cutDisk P l point = s.store.disk := by
  cases l with
  | enqueue i t =>
    simp only [cutDisk]
    split
    · exact Store.enqueue_fault_disk ..
    · rfl
  | drain j now fileNonce =>
    simp only [cutDisk]
    split
    · exact Store.drainQueue_fault_disk ..
    · rfl
  | requeue j t =>
    simp only [cutDisk]
    split
    · exact Store.enqueue_fault_disk ..
    · rfl
  | purge now fileNonce => exact Store.purgeExpired_fault_disk ..
  | _ => rfl

theorem revive_some {s s' : State} {io : Store.StartIo} (h : s.revive P ttlSeconds s.store.disk io = some s') :
    ∃ store, (Store.newStore P s.store.disk ttlSeconds io).2 = .ok store ∧ s' = s.restarted store := by
  simp only [revive] at h
  split at h
  · rename_i store started
    cases h
    exact ⟨store, started, rfl⟩
  · cases h

/-- Whenever the process ends, the next one starts on the files of the last finished step. -/
theorem survive_cases {s s' : State} {e : Incident} (h : s.survive P ttlSeconds e = some s') :
    (∃ l, s.step P l = some s') ∨
      ∃ io store, (Store.newStore P s.store.disk ttlSeconds io).2 = .ok store ∧ s' = s.restarted store := by
  cases e with
  | step l => exact .inl ⟨l, h⟩
  | restart io => exact .inr ⟨io, revive_some h⟩
  | crash l point io =>
    simp only [survive, cutDisk_eq] at h
    exact .inr ⟨io, revive_some h⟩

/-! ## Counting -/

/-- In how many calls and flushes a message is, and how often it was written. -/
def others (s : State) (id : Nat) : Nat := s.callIds.count id + s.pendingIds.count id + s.writtenIds.count id

theorem held_eq (s : State) (id : Nat) : s.held id = s.rowIds.count id + s.others id + s.discardedIds.count id := by
  simp only [held, others]
  omega

/-- Only messages that came in are anywhere. -/
theorem others_eq_zero {s : State} (inv : Inv P s) {id : Nat} (new : s.handed.length ≤ id) : s.others id = 0 := by
  have known {r : Bytes} {m : QueuedMessage} {k : Nat} (tracked : Tracked s.handed k r m) : k ≠ id := by
    obtain ⟨h, found, -⟩ := tracked
    have bound := (List.getElem?_eq_some_iff.1 found).1
    omega
  have calls : s.callIds.count id = 0 := by
    refine List.count_eq_zero.2 fun inside => ?_
    obtain ⟨c, listed, same⟩ := List.mem_map.1 inside
    exact known (inv.calls c listed) same
  have pending : s.pendingIds.count id = 0 := by
    refine List.count_eq_zero.2 fun inside => ?_
    obtain ⟨ss, listed, waits⟩ := List.mem_flatMap.1 inside
    obtain ⟨p, waiting, same⟩ := List.mem_map.1 waits
    exact known (inv.pending ss listed p waiting) same
  have written : s.writtenIds.count id = 0 := by
    refine List.count_eq_zero.2 fun inside => ?_
    obtain ⟨w, listed, same⟩ := List.mem_map.1 inside
    obtain ⟨r, m, tracked, -⟩ := inv.written w listed
    exact known tracked same
  simp only [others]
  omega

/-- The same of rows. -/
theorem rows_eq_zero {s : State} {rows : List (Nat × QueueRow)} (queued : ∀ row ∈ rows, Queued P s row) {id : Nat}
    (new : s.handed.length ≤ id) : (rows.map fun row => s.owner row.1).count id = 0 := by
  refine List.count_eq_zero.2 fun inside => ?_
  obtain ⟨row, listed, same⟩ := List.mem_map.1 inside
  obtain ⟨m, -, -, h, found, -⟩ := queued row listed
  have bound := (List.getElem?_eq_some_iff.1 found).1
  omega

/-- What was discarded stays discarded. -/
theorem discarded_grows {s s' : State} {l : Label} (stepped : s.step P l = some s') (id : Nat) :
    s.discardedIds.count id ≤ s'.discardedIds.count id := by
  have grown {more : List (Nat × Discard)} (longer : s'.discarded = s.discarded ++ more) :
      s.discardedIds.count id ≤ s'.discardedIds.count id := by
    simp only [discardedIds, longer, List.map_append, List.count_append]
    omega
  by_cases free : l.Free
  · exact grown ((SameQueue.free free stepped).discarded.trans (List.append_nil _).symm)
  · cases step_cases stepped with
    | enqueue => exact grown (List.append_assoc ..)
    | drain => exact grown rfl
    | requeue => exact grown (List.append_assoc ..)
    | purge => exact grown rfl
    | _ => exact absurd trivial free

end State

/-! ## The invariant -/

/-- The file holds no message that is in a call or a flush or was written, and each of its messages once. -/
def FileOnce (P : Platform) (s : State) : Prop :=
  ∃ t, Store.Image P s.store t ∧ t.next ≤ s.store.table.next ∧ (∀ row ∈ t.rows, Queued P s row) ∧
    ∀ id, (t.rows.map fun row => s.owner row.1).count id + s.others id ≤ 1

/-- A message is in one place at most, in memory and with the file for the rows in memory. -/
structure Once (P : Platform) (s : State) : Prop where
  kept : Kept P s
  memory : ∀ id, s.rowIds.count id + s.others id ≤ 1
  file : FileOnce P s

namespace FileOnce

variable {P : Platform} {s s' : State}

/-- The rows in memory were written out. -/
theorem replaced (h : FileOnce P s) (kept : Kept P s') (memory : ∀ id, s'.rowIds.count id + s'.others id ≤ 1)
    (nonce : Block 12) (key : s'.store.key = s.store.key)
    (disk : s'.store.disk =
      ⟨s.store.disk.keyFile, some (P.aead.encrypt s.store.key nonce (P.sqlite.serialize s'.store.table))⟩) :
    FileOnce P s' := by
  obtain ⟨t, image, -, -, -⟩ := h
  exact ⟨s'.store.table, image.replaced nonce key disk, Nat.le_refl _, kept.rows.memory, memory⟩

/-- A step that does not use the database. -/
theorem free (h : FileOnce P s) (inv : Inv P s) {l : Label} (free : l.Free) (stepped : s.step P l = some s') :
    FileOnce P s' := by
  obtain ⟨t, image, below, queued, once⟩ := h
  have same := SameQueue.free free stepped
  have grows := Grows.step stepped
  refine ⟨t, image.of_disk same.disk same.key, by rw [same.table]; exact below, fun row inside => ?_, fun id => ?_⟩
  · obtain ⟨m, reads, valid, tracked⟩ := queued row inside
    refine ⟨m, ?_, valid, ?_⟩
    · rw [same.key]
      exact reads
    · rw [same.owner]
      exact grows.tracked tracked
  · have moved := State.held_step inv stepped id
    have before := once id
    rw [State.held_eq, State.held_eq] at moved
    simp only [State.rowIds, State.discardedIds, same.table, same.owner, same.discarded] at moved
    rw [same.owner]
    by_cases old : id < s.handed.length
    · obtain ⟨more, longer⟩ := grows.handed
      have still : id < s'.handed.length := by
        rw [longer, List.length_append]
        omega
      rw [if_pos old, if_pos still] at moved
      omega
    · have absent := State.rows_eq_zero queued (Nat.le_of_not_lt old)
      have nowhere := State.others_eq_zero inv (Nat.le_of_not_lt old)
      rw [if_neg old] at moved
      split at moved
      · omega
      · omega

/-- One `Enqueue`: the rows are written out, or the queue was full and the file stays. -/
theorem enqueue (h : FileOnce P s) {id : Nat} {r : Bytes} {m : QueuedMessage} {t : Stamp}
    (kept : Kept P (State.enqueue P s id r m t))
    (memory : ∀ k, (State.enqueue P s id r m t).rowIds.count k + (State.enqueue P s id r m t).others k ≤ 1) :
    FileOnce P (State.enqueue P s id r m t) := by
  by_cases full : Store.Full s.store.table r t.deleteAt
  · obtain ⟨image, held, below, queued, once⟩ := h
    have owner : (State.enqueue P s id r m t).owner = s.owner := by
      simp only [State.enqueue, full, if_true]
    have key : (State.enqueue P s id r m t).store.key = s.store.key := by
      simp only [State.enqueue, Stamp.io, Store.enqueue_key]
    refine ⟨image, held.of_disk ?_ key, ?_, fun row inside => ?_, fun k => ?_⟩
    · simp only [State.enqueue, Stamp.io, Store.enqueue_clean, full, if_true]
    · simp only [State.enqueue, Stamp.io, Store.enqueue_table, full, if_true]
      exact below
    · obtain ⟨m', reads, valid, tracked⟩ := queued row inside
      refine ⟨m', ?_, valid, ?_⟩
      · rw [key]
        exact reads
      · rw [owner]
        exact tracked
    · rw [owner]
      exact once k
  · refine h.replaced kept memory t.fileNonce ?_ ?_
    · simp only [State.enqueue, Stamp.io, Store.enqueue_key]
    · simp only [State.enqueue, Stamp.io, Store.enqueue_clean, full, if_false]
      rfl

/-- A message leaves a call or a flush. -/
theorem fewer (h : FileOnce P s) {calls : List Call} {sessions : List Session}
    (less : ∀ id, State.others { s with calls, sessions } id ≤ s.others id) : FileOnce P { s with calls, sessions } := by
  obtain ⟨t, image, below, queued, once⟩ := h
  refine ⟨t, image, below, queued, fun id => ?_⟩
  have before := once id
  have moved := less id
  simp only at before moved ⊢
  omega

end FileOnce

namespace State

variable {P : Platform} {s : State}

theorem others_finish {i : Nat} {c : Call} {rest : List Call} (picked : pick s.calls i = some (c, rest)) (id : Nat) :
    others { s with calls := rest } id ≤ s.others id := by
  have calls := count_pick picked Call.id id
  simp only [others, callIds, pendingIds, writtenIds] at calls ⊢
  omega

theorem others_requeue {j n : Nat} {conn : Conn} {userID : Bytes} {m : QueuedMessage} {left : List (Nat × QueuedMessage)}
    {rest : List Session} (picked : pick s.sessions j = some (⟨conn, userID, .requeueing ((n, m) :: left)⟩, rest)) (id : Nat) :
    others { s with sessions := ⟨conn, userID, .requeue left⟩ :: rest } id ≤ s.others id := by
  have pending := count_flatMap_pick picked (fun ss => ss.phase.pending.map Prod.fst) id
  simp only [others, callIds, pendingIds, writtenIds, List.flatMap_cons, List.count_append, Phase.pending_requeue,
    Phase.pending_requeueing, List.map_cons, List.count_cons] at pending ⊢
  omega

end State

namespace Once

variable {P : Platform} {ttlSeconds : Int64} {s s' : State}

/-- A first start. -/
theorem init {fresh : Block 32} {fileNonce : Block 12} {store : Store}
    (started : (Store.newStore P .empty ttlSeconds (.clean fresh fileNonce)).2 = .ok store) (router : Router) :
    Once P (State.init store router) where
  kept := .init started router
  memory _ := Nat.zero_le _
  file := by
    cases started
    exact ⟨.empty, ⟨rfl, fileNonce, rfl⟩, Nat.le_refl _, nofun, fun _ => Nat.zero_le _⟩

theorem step_memory (h : Once P s) {l : Label} (stepped : s.step P l = some s') (id : Nat) :
    s'.rowIds.count id + s'.others id ≤ 1 := by
  have moved := State.held_step h.kept.inv stepped id
  have gone := State.discarded_grows stepped id
  have before := h.memory id
  rw [State.held_eq, State.held_eq] at moved
  by_cases old : id < s.handed.length
  · rw [if_pos old] at moved
    split at moved
    · omega
    · omega
  · have absent : s.rowIds.count id = 0 := State.rows_eq_zero h.kept.rows.memory (Nat.le_of_not_lt old)
    have nowhere := State.others_eq_zero h.kept.inv (Nat.le_of_not_lt old)
    rw [if_neg old] at moved
    split at moved
    · omega
    · omega

/-- **One step.** -/
theorem step (h : Once P s) {l : Label} (stepped : s.step P l = some s') : Once P s' := by
  have kept : Kept P s' := h.kept.advance (show State.advance P 0 s (.step l) = some s' from stepped)
  have memory := h.step_memory stepped
  refine ⟨kept, memory, ?_⟩
  by_cases free : l.Free
  · exact h.file.free h.kept.inv free stepped
  · cases State.step_cases stepped with
    | @enqueue i id r m rest t picked =>
      have finished : FileOnce P { s with calls := rest } := h.file.fewer (State.others_finish picked)
      exact finished.enqueue kept memory
    | drain picked => exact h.file.replaced kept memory _ rfl rfl
    | @requeue j id conn userID m left rest t picked =>
      have returned : FileOnce P { s with sessions := ⟨conn, userID, .requeue left⟩ :: rest } :=
        h.file.fewer (State.others_requeue picked)
      exact returned.enqueue kept memory
    | purge => exact h.file.replaced kept memory _ rfl rfl
    | _ => exact absurd trivial free

/-- A new process: what was in calls and flushes is gone, and the rows are those of the file. -/
theorem restart (h : Once P s) {io : Store.StartIo} {store : Store}
    (started : (Store.newStore P s.store.disk ttlSeconds io).2 = .ok store) : Once P (s.restarted store) := by
  have kept := h.kept.restarted started
  obtain ⟨t, image, below, queued, once⟩ := h.file
  have loaded := image.newStore started
  have memory : ∀ id, (s.restarted store).rowIds.count id + (s.restarted store).others id ≤ 1 := by
    intro id
    have before := once id
    simp only [State.rowIds, State.others, State.callIds, State.pendingIds, State.writtenIds, State.restarted, loaded,
      List.map_nil, List.flatMap_nil, List.count_nil] at before ⊢
    omega
  refine ⟨kept, memory, t, ?_, ?_, ?_, ?_⟩
  · rw [loaded]
    exact ⟨image.keyFile, image.dataFile⟩
  · rw [loaded]
    exact Nat.le_refl _
  · have rows := kept.rows.memory
    rw [loaded] at rows ⊢
    exact rows
  · intro id
    have here := memory id
    rw [loaded] at here ⊢
    exact here

end Once

/-- **At most once, whatever crashes.** Over any interleaving of calls, flushes and purges with any failing writes, and
any number of crashes at any point, restarts included: every frame that was written is the text of its message, for a
user of its connection; no message was written twice; and one that was written is in no call, no flush and no row, and
comes back with no start on the files. -/
theorem written_once (P : Platform) (ttlSeconds : Int64) (fresh : Block 32) (fileNonce : Block 12) (store : Store)
    (router : Router) (incidents : List Incident) (s : State)
    (started : (Store.newStore P .empty ttlSeconds (.clean fresh fileNonce)).2 = .ok store)
    (reached : run (State.survive P ttlSeconds) (State.init store router) incidents = some s) :
    s.writtenIds.Nodup ∧
      (∀ w ∈ s.written, ∃ h m, s.handed[w.id]? = some h ∧ (h.recipientID, w.conn) ∈ s.registered ∧
        SameText m h.msg ∧ marshalQueued m = some w.frame) ∧
      ∀ id ∈ s.writtenIds, id ∉ s.callIds ∧ id ∉ s.pendingIds ∧ id ∉ s.rowIds ∧
        ∀ io next, (Store.newStore P s.store.disk ttlSeconds io).2 = .ok next →
          ∀ row ∈ next.table.rows, s.owner row.1 ≠ id := by
  have once : Once P s := by
    refine run_invariant (fun s _ s' h survived => ?_) (Once.init started router) reached
    rcases State.survive_cases survived with ⟨l, stepped⟩ | ⟨io, next, restarted, rfl⟩
    · exact h.step stepped
    · exact h.restart restarted
  refine ⟨List.nodup_iff_count_le_one.2 fun id => ?_, fun w inside => ?_, fun id inside => ?_⟩
  · have bound := once.memory id
    simp only [State.others] at bound
    omega
  · obtain ⟨r, m, ⟨h, found, rfl, -, same⟩, known, text⟩ := once.kept.inv.written w inside
    exact ⟨h, m, found, known, same, text⟩
  · have present := List.count_pos_iff.2 inside
    have bound := once.memory id
    obtain ⟨t, image, -, -, filed⟩ := once.file
    have bound' := filed id
    simp only [State.others] at bound bound'
    refine ⟨List.count_eq_zero.1 (by omega), List.count_eq_zero.1 (by omega), List.count_eq_zero.1 (by omega), ?_⟩
    intro io next restarted row stored same
    rw [image.newStore restarted] at stored
    have listed : id ∈ t.rows.map fun row => s.owner row.1 := List.mem_map.2 ⟨row, stored, same⟩
    have counted := List.count_pos_iff.2 listed
    omega

/-- A message for bob survives a crash in his drain, is written by the next one, and is gone after a restart. -/
def crashes : List Incident :=
  let io : Store.StartIo := .clean (.zeros 32) (.zeros 12)
  [.step (.frame (ascii "ann") (SealedEnvelope.marshal ⟨ascii "bob", [1], 0, [], []⟩) Reference.start),
    .step (.lookup 0), .step (.enqueue 0 .start), .step (.register (ascii "bob") 7),
    .crash (.drain 0 Reference.start (.zeros 12)) .rename io, .step (.register (ascii "bob") 8),
    .step (.drain 0 Reference.start (.zeros 12)), .step (.flushWrite 0 false), .restart io,
    .step (.register (ascii "bob") 9), .step (.drain 0 Reference.start (.zeros 12))]

theorem written_once_crashes :
    ∃ s, run (State.survive Reference.platform 60) (State.init Reference.firstStore (.new 65536 60 (ascii "a")))
        crashes = some s ∧ (s.written.map fun w => (w.id, w.conn)) = [(0, 8)] ∧ s.writtenIds.Nodup ∧ 0 ∉ s.rowIds ∧
      ∀ io next, (Store.newStore Reference.platform s.store.disk 60 io).2 = .ok next →
        ∀ row ∈ next.table.rows, s.owner row.1 ≠ 0 := by
  have found : ((run (State.survive Reference.platform 60) (State.init Reference.firstStore (.new 65536 60 (ascii "a")))
      crashes).map fun s => s.written.map fun w => (w.id, w.conn)) = some [(0, 8)] := by decide +kernel
  obtain ⟨s, reached, written⟩ := Option.map_eq_some_iff.1 found
  have first : (0 : Nat) ∈ s.writtenIds := by
    have ids : s.writtenIds = (s.written.map fun w => (w.id, w.conn)).map Prod.fst := by
      rw [List.map_map]
      rfl
    rw [ids, written]
    exact List.mem_cons_self
  obtain ⟨distinct, -, gone⟩ := written_once Reference.platform 60 (.zeros 32) (.zeros 12) Reference.firstStore
    (.new 65536 60 (ascii "a")) crashes s Reference.firstStore_started reached
  obtain ⟨-, -, unqueued, unfiled⟩ := gone 0 first
  exact ⟨s, reached, written, distinct, unqueued, unfiled⟩

end SpectreRelay.Server.Delivery
