import SpectreRelay.Server.Backlog

/-!
# What a crash leaves of the queue

Every insertion is written out before `Enqueue` returns, so a queued message is
on disk. But `DrainQueue` also writes out its deletion before the first message
is written to the connection: while a flush runs its messages are in memory
only, and a crash loses them (`lost_in_flush`). Putting leftovers back can drop
them too, when the queue has filled up in the meantime, and so can a drain whose
commit fails and leaves the transaction open: the next call writes its deletion
out. `Placed` says where a message is; as long as none of these happens,
everything that is owed is found by the next start (`queue_survives`).
-/

namespace SpectreRelay.Server.Backlog
set_option autoImplicit false
open Lib Model

variable {P : Platform} {ttlSeconds : Int64}

/-- The step's `persistLocked`, if it makes one, succeeds. -/
def Label.Persists : Label → Prop
  | op (.enqueue _ _ io) => io.persist.fault = none
  | op (.drain _ io) => io.persist.fault = none
  | op (.write _ _) => True
  | op (.requeue _ io) => io.persist.fault = none
  | op (.purge _ _ io) => io.fault = none
  | restart _ _ => True
  | crash _ _ _ _ => True

/-- The step starts a new process. -/
def Label.Reloads : Label → Prop
  | op _ => False
  | restart _ _ => True
  | crash _ _ _ _ => True

/-- Every message that a flush holds has expired. -/
def State.Idle (s : State) (now : Time) : Prop :=
  ∀ f ∈ s.flushes, ∀ p ∈ f.pending, p.2.expiresAt.toInt < now.seconds

/-- What the flush at position `j` puts back next, and for whom. -/
def State.leftover (s : State) (j : Nat) : Option (Bytes × QueuedMessage) :=
  match pick s.flushes j with
  | some (⟨userID, true, (_, m) :: _⟩, _) => some (userID, m)
  | _ => none

instance (s : State) (now : Time) : Decidable (s.Idle now) := inferInstanceAs (Decidable (∀ f ∈ s.flushes, _))

/-- No process ends while a flush holds live messages, every live leftover that is put back is inserted, no drain leaves
its transaction open, and one that commits has read the rows it deletes. -/
def Careful (s : State) : Label → Prop
  | .op (.drain userID io) => ¬ Store.LeavesOpen io ∧ (Store.Commits io → Store.ReadsAll s.store.table userID io)
  | .op (.requeue j io) => ∀ back ∈ s.leftover j,
      Store.Inserts s.store.table back.1 io ∨ back.2.expiresAt.toInt < io.now.seconds
  | .op _ => True
  | .restart now _ => s.Idle now
  | .crash _ _ now _ => s.Idle now

instance (l : Label) : Decidable l.Persists :=
  match l with
  | .op (.enqueue _ _ io) | .op (.drain _ io) | .op (.requeue _ io) => inferInstanceAs (Decidable (io.persist.fault = none))
  | .op (.purge _ _ io) => inferInstanceAs (Decidable (io.fault = none))
  | .op (.write ..) | .restart .. | .crash .. => .isTrue trivial

instance (s : State) (l : Label) : Decidable (Careful s l) :=
  match l with
  | .op (.drain userID io) =>
    inferInstanceAs (Decidable (¬ Store.LeavesOpen io ∧ (Store.Commits io → Store.ReadsAll s.store.table userID io)))
  | .op (.requeue j io) => inferInstanceAs (Decidable (∀ back ∈ s.leftover j,
      Store.Inserts s.store.table back.1 io ∨ back.2.expiresAt.toInt < io.now.seconds))
  | .op (.enqueue ..) | .op (.write ..) | .op (.purge ..) => .isTrue trivial
  | .restart now _ | .crash _ _ now _ => inferInstanceAs (Decidable (s.Idle now))

/-- The message is in a row, as it was stored last. -/
def InRow (P : Platform) (s : State) (id : Nat) (rec : Record) : Prop :=
  ∃ row ∈ s.store.table.rows, s.owner row.1 = id ∧ row.2.expiresAt = rec.msg.expiresAt ∧
    Store.readPayload P s.store.key row.2.payload = some rec.msg

/-- The message is held by a flush. -/
def InFlush (s : State) (id : Nat) (rec : Record) : Prop := ∃ f ∈ s.flushes, (id, rec.msg) ∈ f.pending

/-- Where a message is that was inserted. -/
inductive Placed (P : Platform) (s : State) (id : Nat) (rec : Record) : Prop where
  | written (done : id ∈ s.written)
  | expired (passed : rec.msg.expiresAt.toInt < s.clock.seconds)
  | row (queued : InRow P s id rec)
  | flush (held : InFlush s id rec)

/-- Every message that was inserted has a place, and every row in memory is in the file. -/
structure Durable (P : Platform) (s : State) : Prop where
  inv : Inv P s
  placed : ∀ id rec, s.record id = some rec → Placed P s id rec
  synced : ∃ t, Store.Image P s.store t ∧ ∀ row ∈ s.store.table.rows, row ∈ t.rows

namespace Durable

variable {s : State}

theorem init {ttlSeconds : Int64} {fresh : Block 32} {fileNonce : Block 12} {store : Store}
    (started : (Store.newStore P .empty ttlSeconds (.clean fresh fileNonce)).2 = .ok store) (now : Time) :
    Durable P (State.init store now) where
  inv := .init (Store.AllRows.first started) now
  placed := nofun
  synced := by
    cases started
    exact ⟨.empty, ⟨rfl, fileNonce, rfl⟩, fun _ inside => inside⟩

/-- A row that is not deleted stays; one that is deleted has expired. -/
theorem kept {id : Nat} {rec : Record} (queued : InRow P s id rec) {s' : State} (key : s'.store.key = s.store.key)
    (owner : ∀ n < s.store.table.next, s'.owner n = s.owner n)
    (rows : ∀ row ∈ s.store.table.rows,
      row ∈ s'.store.table.rows ∨ row.2.expiresAt.toInt < s'.clock.seconds) : Placed P s' id rec := by
  obtain ⟨row, inside, own, expiry, reads⟩ := queued
  rcases rows row inside with stays | passed
  · refine .row ⟨row, stays, ?_, expiry, ?_⟩
    · rw [owner _ (s.store.table.below row inside)]
      exact own
    · rw [key]
      exact reads
  · exact .expired (by rw [← expiry]; exact passed)

/-- What a call leaves on disk when it succeeds in writing its table out. -/
theorem persisted {t : Table QueueRow} (image : Store.Image P s.store t) (table : Table QueueRow) {io : PersistIo}
    (persists : io.fault = none) :
    ∃ t', Store.Image P (Store.persistLocked P { s.store with table } io).1 t' ∧
      ∀ row ∈ (Store.persistLocked P { s.store with table } io).1.table.rows, row ∈ t'.rows := by
  refine ⟨_, image.persist table io, ?_⟩
  rw [if_pos persists]
  exact fun _ inside => inside

/-- The readings of an `Enqueue` do not pass the clock after it. -/
theorem enqueue_clock (s : State) (id : Nat) (r : Bytes) (m : QueuedMessage) (io : Store.EnqueueIo) :
    s.clock.seconds ≤ (State.enqueue P s id r m io).clock.seconds ∧
      io.deleteAt.seconds ≤ (State.enqueue P s id r m io).clock.seconds ∧
      io.now.seconds ≤ (State.enqueue P s id r m io).clock.seconds := by
  have inner := later_seconds s.clock io.deleteAt
  have outer := later_seconds (later s.clock io.deleteAt) io.now
  refine ⟨?_, ?_, outer.2⟩
  · show s.clock.seconds ≤ (later (later s.clock io.deleteAt) io.now).seconds
    omega
  · show io.deleteAt.seconds ≤ (later (later s.clock io.deleteAt) io.now).seconds
    omega

/-- After an `Enqueue`, a row is there or has expired. -/
theorem enqueue_rows (s : State) (id : Nat) (r : Bytes) (m : QueuedMessage) (io : Store.EnqueueIo) :
    ∀ row ∈ s.store.table.rows, row ∈ (State.enqueue P s id r m io).store.table.rows ∨
      row.2.expiresAt.toInt < (State.enqueue P s id r m io).clock.seconds := by
  intro row inside
  have clock := (enqueue_clock (P := P) s id r m io).2.1
  refine (Store.enqueue_cases s.store r m io).old_row inside |>.imp_right fun dead => ?_
  have passed := Store.expired_iff.1 dead
  omega

/-- One `Enqueue`; the message it is for has a place afterwards if it is not inserted. -/
theorem enqueue (inv : Inv P s) (synced : ∃ t, Store.Image P s.store t ∧ ∀ row ∈ s.store.table.rows, row ∈ t.rows)
    {id : Nat} {r : Bytes} {m : QueuedMessage} {io : Store.EnqueueIo} (mine : s.recipients[id]? = some r)
    (single : m.Single) (persists : io.persist.fault = none)
    (others : ∀ k rec, k ≠ id → s.record k = some rec → Placed P s k rec)
    (own : ∀ rec, s.record id = some rec → Store.Inserts s.store.table r io ∨ Placed P s id rec ∨
      rec.msg.expiresAt.toInt < io.now.seconds) : Durable P (State.enqueue P s id r m io) := by
  obtain ⟨clock, _, now⟩ := enqueue_clock (P := P) s id r m io
  have moved : ∀ k rec, Placed P s k rec → Placed P (State.enqueue P s id r m io) k rec := by
    intro k rec placed
    cases placed with
    | written done => exact .written done
    | expired passed => exact .expired (by omega)
    | row queued =>
      exact kept queued (s.enqueue_key ..) (fun n below => s.enqueue_owner id r m io below)
        (enqueue_rows s id r m io)
    | flush held => exact .flush held
  refine ⟨inv.enqueue mine single io, ?_, ?_⟩
  · intro k rec found
    by_cases same : k = id
    · subst same
      by_cases inserts : Store.Inserts s.store.table r io
      · -- the new row
        obtain ⟨owns, known⟩ := State.enqueue_inserted (P := P) k m inserts
        rw [known] at found
        cases found
        obtain ⟨nonce, added⟩ := (Store.enqueue_cases (P := P) s.store r m io).new_row inserts
        refine .row ⟨_, added, owns, rfl, ?_⟩
        rw [s.enqueue_key]
        exact Store.readPayload_encrypt ..
      · have before : s.record k = some rec := by
          simp only [State.enqueue, inserts, if_false] at found
          exact found
        rcases own rec before with inserted | placed | passed
        · exact absurd inserted inserts
        · exact moved k rec placed
        · exact .expired (by omega)
    · rw [State.enqueue_record_other s id r m io same] at found
      exact moved k rec (others k rec same found)
  · obtain ⟨t, image, inside⟩ := synced
    have done := Store.enqueue_cases (P := P) s.store r m io
    show ∃ t, Store.Image P (s.store.enqueue P r m io) t ∧ ∀ row ∈ (s.store.enqueue P r m io).table.rows, row ∈ t.rows
    generalize s.store.enqueue P r m io = store at done
    cases done with
    | inserted inserts => exact persisted image _ persists
    | purged not => exact ⟨t, image.of_disk rfl rfl, fun row kept => inside row (List.mem_filter.1 kept).1⟩
    | failed not => exact ⟨t, image, inside⟩

/-- The messages of other flushes, and those of this one that it still holds, stay where they are. -/
theorem held_proceed {j id : Nat} {userID : Bytes} {failed : Bool} (next : Bool) {m : QueuedMessage}
    {left : List (Nat × QueuedMessage)} {rest : List Flush}
    (picked : pick s.flushes j = some (⟨userID, failed, (id, m) :: left⟩, rest)) {k : Nat} {rec : Record}
    (held : InFlush s k rec) :
    (k = id ∧ rec.msg = m) ∨ InFlush { s with flushes := ⟨userID, next, left⟩ :: rest } k rec := by
  obtain ⟨f, inside, waiting⟩ := held
  rcases List.mem_cons.1 ((pick_perm picked).mem_iff.2 inside) with rfl | other
  · rcases List.mem_cons.1 waiting with head | later
    · exact .inl ⟨congrArg Prod.fst head, congrArg Prod.snd head⟩
    · exact .inr ⟨_, List.mem_cons_self, later⟩
  · exact .inr ⟨f, List.mem_cons_of_mem _ other, waiting⟩

/-- A drain moves the live rows of a user to its flush. -/
theorem drain (h : Durable P s) {userID : Bytes} {io : Store.DrainIo} (persists : io.persist.fault = none)
    (shut : ¬ Store.LeavesOpen io) (reads : Store.Commits io → Store.ReadsAll s.store.table userID io)
    (inv : Inv P { s with
      store := (s.store.drainQueue P userID io).1
      flushes := ⟨userID, false, s.returned P userID io⟩ :: s.flushes
      clock := later s.clock io.now }) :
    Durable P { s with
      store := (s.store.drainQueue P userID io).1
      flushes := ⟨userID, false, s.returned P userID io⟩ :: s.flushes
      clock := later s.clock io.now } := by
  have clock := later_seconds s.clock io.now
  refine ⟨inv, ?_, ?_⟩
  · intro k rec found
    cases h.placed k rec found with
    | written done => exact .written done
    | expired passed =>
      refine .expired ?_
      show _ < (later s.clock io.now).seconds
      omega
    | flush held =>
      obtain ⟨f, inside, waiting⟩ := held
      exact .flush ⟨f, List.mem_cons_of_mem _ inside, waiting⟩
    | row queued =>
      obtain ⟨⟨n, row⟩, stored, own, expiry, decoded⟩ := queued
      by_cases commits : Store.Commits io
      · by_cases mine : row.recipientID = userID
        · cases live : Store.expired io.now row with
          | true =>
            have passed := Store.expired_iff.1 live
            refine .expired ?_
            show _ < (later s.clock io.now).seconds
            rw [← expiry]
            show row.expiresAt.toInt < _
            omega
          | false =>
            refine .flush ⟨_, List.mem_cons_self, ?_⟩
            simp only [State.returned, commits, if_true]
            have drained := Store.mem_drainedRows_of_row (reads commits) stored mine live decoded
            exact List.mem_map.2 ⟨_, drained, by rw [← own]⟩
        · refine .row ⟨(n, row), ?_, own, expiry, ?_⟩
          · simp only [Store.drainQueue_eq, commits, if_true]
            exact List.mem_filter.2 ⟨stored, by simp [mine]⟩
          · simp only [Store.drainQueue_key_any]
            exact decoded
      · refine .row ⟨(n, row), ?_, own, expiry, ?_⟩
        · simp only [Store.drainQueue_eq, commits, shut, if_false]
          exact stored
        · simp only [Store.drainQueue_key_any]
          exact decoded
  · obtain ⟨t, image, inside⟩ := h.synced
    simp only [Store.drainQueue_eq, shut, if_false]
    split
    · exact persisted image _ persists
    · exact ⟨t, image, inside⟩

/-- A purge takes expired rows out. -/
theorem purge (h : Durable P s) {now : Time} {fails : Bool} {io : PersistIo} (persists : io.fault = none)
    (inv : Inv P { s with store := s.store.purgeExpired P now fails io, clock := later s.clock now }) :
    Durable P { s with store := s.store.purgeExpired P now fails io, clock := later s.clock now } := by
  have clock := later_seconds s.clock now
  refine ⟨inv, ?_, ?_⟩
  · intro k rec found
    cases h.placed k rec found with
    | written done => exact .written done
    | expired passed =>
      refine .expired ?_
      show _ < (later s.clock now).seconds
      omega
    | flush held => exact .flush held
    | row queued =>
      refine kept queued (Store.purgeExpired_key_any ..) (fun _ _ => rfl) fun row inside => ?_
      show row ∈ (s.store.purgeExpired P now fails io).table.rows ∨ _ < (later s.clock now).seconds
      unfold Store.purgeExpired
      split
      · exact .inl inside
      · cases dead : Store.expired now row.2 with
        | true =>
          have passed := Store.expired_iff.1 dead
          exact .inr (by omega)
        | false => exact .inl (List.mem_filter.2 ⟨inside, by simp [dead]⟩)
  · obtain ⟨t, image, inside⟩ := h.synced
    show ∃ t, Store.Image P (s.store.purgeExpired P now fails io) t ∧
      ∀ row ∈ (s.store.purgeExpired P now fails io).table.rows, row ∈ t.rows
    unfold Store.purgeExpired
    split
    · exact ⟨t, image, inside⟩
    · exact persisted image _ persists

/-- A step that only moves the messages of a flush. -/
theorem proceed (h : Durable P s) {flushes : List Flush} {written : List Nat}
    (inv : Inv P { s with flushes, written }) (more : ∀ id ∈ s.written, id ∈ written)
    (moved : ∀ k rec, s.record k = some rec → InFlush s k rec →
      Placed P { s with flushes, written } k rec) : Durable P { s with flushes, written } := by
  refine ⟨inv, ?_, h.synced⟩
  intro k rec found
  cases h.placed k rec found with
  | written done => exact .written (more k done)
  | expired passed => exact .expired passed
  | row queued => exact .row queued
  | flush held => exact moved k rec found held

/-- A new process finds every row, and what flushes held has expired. -/
theorem reload (h : Durable P s) {now : Time} {io : Store.StartIo} {store : Store} (idle : s.Idle now)
    (started : (Store.newStore P s.store.disk ttlSeconds io).2 = .ok store) :
    Durable P { s with store, flushes := [], clock := later s.clock now } := by
  have clock := later_seconds s.clock now
  obtain ⟨t, image, inside⟩ := h.synced
  refine ⟨h.inv.reload started, ?_, ?_⟩
  · intro k rec found
    cases h.placed k rec found with
    | written done => exact .written done
    | expired passed =>
      refine .expired ?_
      show _ < (later s.clock now).seconds
      omega
    | row queued =>
      refine kept queued ?_ (fun _ _ => rfl) fun row listed => ?_
      · show store.key = _
        rw [image.newStore started]
      · refine .inl ?_
        show row ∈ store.table.rows
        rw [image.newStore started]
        exact inside row listed
    | flush held =>
      obtain ⟨f, listed, waiting⟩ := held
      have passed : rec.msg.expiresAt.toInt < now.seconds := idle f listed (k, rec.msg) waiting
      refine .expired ?_
      show _ < (later s.clock now).seconds
      omega
  · have same := image.newStore started
    refine ⟨t, ?_, ?_⟩
    · exact image.of_disk (by rw [same]) (by rw [same])
    · intro row listed
      rw [same] at listed
      exact listed

/-- **A careful step whose writing out succeeds keeps every message.** -/
theorem step (h : Durable P s) {l : Label} {s' : State} (persists : l.Persists) (careful : Careful s l)
    (stepped : State.step P ttlSeconds s l = some s') : Durable P s' := by
  have inv := h.inv.step stepped
  rcases State.step_cases stepped with ⟨o, rfl, acts⟩ | ⟨now, io, how, store, started, rfl⟩
  · cases acts with
    | @enqueue r m io single =>
      have moved : ∀ k rec, Placed P s k rec → Placed P { s with recipients := s.recipients ++ [r] } k rec := by
        intro k rec placed
        cases placed with
        | written done => exact .written done
        | expired passed => exact .expired passed
        | row queued => exact .row queued
        | flush held => exact .flush held
      refine enqueue (h.inv.hand r) h.synced (by simp) single persists ?_ ?_
      · exact fun k rec _ found => moved k rec (h.placed k rec found)
      · intro rec found
        have below := h.inv.recorded _ rec found
        omega
    | drain => exact h.drain persists careful.1 careful.2 inv
    | skipped picked text =>
      -- every message that a flush holds has a frame
      obtain ⟨single, _⟩ := h.inv.pending _ (mem_of_pick picked) _ List.mem_cons_self
      obtain ⟨frame, some⟩ := marshalQueued_single single
      rw [some] at text
      cases text
    | @wrote j id userID m left rest picked =>
      refine h.proceed inv (fun _ done => List.mem_append_left _ done) fun k rec found held => ?_
      rcases held_proceed false picked held with ⟨rfl, _⟩ | stays
      · exact .written (List.mem_append_right _ List.mem_cons_self)
      · exact .flush stays
    | @failed j id userID m left rest picked =>
      refine h.proceed inv (fun _ done => done) fun k rec found held => ?_
      obtain ⟨f, inside, waiting⟩ := held
      rcases List.mem_cons.1 ((pick_perm picked).mem_iff.2 inside) with rfl | other
      · exact .flush ⟨_, List.mem_cons_self, waiting⟩
      · exact .flush ⟨f, List.mem_cons_of_mem _ other, waiting⟩
    | @requeue j id userID m left rest io picked =>
      obtain ⟨single, mine, _⟩ := h.inv.pending _ (mem_of_pick picked) _ List.mem_cons_self
      have moved : ∀ k rec, s.record k = some rec → (k = id ∧ rec.msg = m) ∨
          Placed P { s with flushes := ⟨userID, true, left⟩ :: rest } k rec := by
        intro k rec found
        cases h.placed k rec found with
        | written done => exact .inr (.written done)
        | expired passed => exact .inr (.expired passed)
        | row queued => exact .inr (.row queued)
        | flush held => exact (held_proceed _ picked held).imp_right .flush
      refine enqueue (h.inv.proceed picked fun _ => List.mem_cons_of_mem _) h.synced mine single persists ?_ ?_
      · intro k rec other found
        rcases moved k rec found with ⟨same, _⟩ | placed
        · exact absurd same other
        · exact placed
      · intro rec found
        rcases moved id rec found with ⟨_, same⟩ | placed
        · have back : (userID, m) ∈ s.leftover j := by simp only [State.leftover, picked]; rfl
          rcases careful _ back with inserts | passed
          · exact .inl inserts
          · exact .inr (.inr (by rw [same]; exact passed))
        · exact .inr (.inl placed)
    | purge => exact h.purge persists inv
  · rcases how with rfl | ⟨o, point, rfl⟩
    · exact h.reload careful started
    · exact h.reload careful started

end Durable

/-- **Crash durability.** Take any run in which every `persistLocked` succeeds, no process ends while a flush holds
live messages, every live leftover that is put back is inserted, no drain leaves its transaction open after a failed
commit, and every drain that commits reads the rows it deletes. After a restart or a crash inside a file replacement,
every message that was inserted, was not written and has not expired is in a row of its recipient, as it was stored
last. -/
theorem queue_survives (P : Platform) (ttlSeconds : Int64) (fresh : Block 32) (fileNonce : Block 12) (store : Store)
    (started : (Store.newStore P .empty ttlSeconds (.clean fresh fileNonce)).2 = .ok store) (start : Time)
    (labels : List Label) (s s' : State) (l : Label)
    (under : Always (State.step P ttlSeconds) (fun s l => l.Persists ∧ Careful s l) (State.init store start) labels)
    (reached : run (State.step P ttlSeconds) (State.init store start) labels = some s) (reloads : l.Reloads)
    (careful : Careful s l) (stepped : State.step P ttlSeconds s l = some s') (id : Nat) (rec : Record)
    (inserted : s.record id = some rec) (unwritten : id ∉ s.written)
    (live : s'.clock.seconds ≤ rec.msg.expiresAt.toInt) :
    ∃ row ∈ s'.store.table.rows, s'.owner row.1 = id ∧ s'.recipients[id]? = some row.2.recipientID ∧
      Store.readPayload P s'.store.key row.2.payload = some rec.msg := by
  have held : Durable P s :=
    run_invariant_under (fun _ _ _ before met stepped => before.step met.1 met.2 stepped) (.init started start) under
      reached
  rcases State.step_cases stepped with ⟨o, rfl, _⟩ | ⟨now, io, how, store', again, rfl⟩
  · cases reloads
  · have idle : s.Idle now := by
      rcases how with rfl | ⟨o, point, rfl⟩
      · exact careful
      · exact careful
    have after := held.reload idle again
    cases after.placed id rec inserted with
    | written done => exact absurd done unwritten
    | expired passed => exact absurd passed (by omega)
    | row queued =>
      obtain ⟨row, inside, own, _, reads⟩ := queued
      obtain ⟨_, recipient, _⟩ := after.inv.rows.memory row inside
      rw [own] at recipient
      exact ⟨row, inside, own, recipient, reads⟩
    | flush waiting =>
      obtain ⟨f, inside, _⟩ := waiting
      cases inside

/-- Bob's mail: a message for him at second 1 that his session drains at once. -/
def drained : List Label :=
  [.op (.enqueue (ascii "bob") (.ofSealed ⟨ascii "bob", [1], 0, [], []⟩) (Reference.enqueueAt 1)),
    .op (.drain (ascii "bob") (Reference.drainAt 2))]

/-- A write fails, the message is put back, and the process dies before the rename of a purge. -/
theorem queue_survives_purge :
    ∃ s s' rec, run (State.step Reference.platform 60) (State.init Reference.firstStore Reference.start)
        (drained ++ [.op (.write 0 true), .op (.requeue 0 (Reference.enqueueAt 3))]) = some s ∧
      State.step Reference.platform 60 s (.crash (.purge (Reference.second 4) false (.clean (.zeros 12))) .rename
        (Reference.second 5) (.clean (.zeros 32) (.zeros 12))) = some s' ∧ s.record 0 = some rec ∧ 0 ∉ s.written ∧
      ∃ row ∈ s'.store.table.rows, s'.owner row.1 = 0 ∧ s'.recipients[0]? = some row.2.recipientID ∧
        Store.readPayload Reference.platform s'.store.key row.2.payload = some rec.msg := by
  have found : ((run (State.step Reference.platform 60) (State.init Reference.firstStore Reference.start)
      (drained ++ [.op (.write 0 true), .op (.requeue 0 (Reference.enqueueAt 3))])).bind fun s =>
      (State.step Reference.platform 60 s (.crash (.purge (Reference.second 4) false (.clean (.zeros 12))) .rename
        (Reference.second 5) (.clean (.zeros 32) (.zeros 12)))).bind fun s' =>
        (s.record 0).map fun rec => decide (0 ∉ s.written ∧ s.Idle (Reference.second 5) ∧
          s'.clock.seconds ≤ rec.msg.expiresAt.toInt)) = some true := by decide +kernel
  obtain ⟨s, reached, rest⟩ := Option.bind_eq_some_iff.1 found
  obtain ⟨s', stepped, rest⟩ := Option.bind_eq_some_iff.1 rest
  obtain ⟨rec, inserted, holds⟩ := Option.map_eq_some_iff.1 rest
  obtain ⟨unwritten, idle, live⟩ := of_decide_eq_true holds
  exact ⟨s, s', rec, reached, stepped, inserted, unwritten,
    queue_survives Reference.platform 60 (.zeros 32) (.zeros 12) Reference.firstStore Reference.firstStore_started
      Reference.start _ s s' (.crash _ _ _ _) (by decide +kernel) reached trivial idle stepped 0 rec inserted unwritten
      live⟩

/-- The process ends after the drain and before the first write: the message is nowhere, a minute before it expires. -/
theorem lost_in_flush :
    ∃ s s' rec, run (State.step Reference.platform 60) (State.init Reference.firstStore Reference.start) drained = some s ∧
      (∀ l ∈ drained, l.Persists) ∧
      State.step Reference.platform 60 s (.restart (Reference.second 3) (.clean (.zeros 32) (.zeros 12))) = some s' ∧
      s.record 0 = some rec ∧ 0 ∉ s.written ∧ (Reference.second 3).seconds ≤ rec.msg.expiresAt.toInt ∧
      s'.store.table.rows = [] := by
  have found : ((run (State.step Reference.platform 60) (State.init Reference.firstStore Reference.start) drained).bind
      fun s => (State.step Reference.platform 60 s (.restart (Reference.second 3) (.clean (.zeros 32) (.zeros 12)))).bind
        fun s' => (s.record 0).map fun rec => decide (0 ∉ s.written ∧
          (Reference.second 3).seconds ≤ rec.msg.expiresAt.toInt ∧ s'.store.table.rows = [])) = some true := by
    decide +kernel
  obtain ⟨s, reached, rest⟩ := Option.bind_eq_some_iff.1 found
  obtain ⟨s', stepped, rest⟩ := Option.bind_eq_some_iff.1 rest
  obtain ⟨rec, inserted, holds⟩ := Option.map_eq_some_iff.1 rest
  obtain ⟨unwritten, live, gone⟩ := of_decide_eq_true holds
  exact ⟨s, s', rec, reached, by decide, stepped, inserted, unwritten, live, gone⟩

/-- A drain whose commit fails and leaves its transaction open: the next `Enqueue` writes the deletion out. -/
example : ((run (State.step Reference.platform 60) (State.init Reference.firstStore Reference.start)
    [.op (.enqueue (ascii "bob") (.ofSealed ⟨ascii "bob", [1], 0, [], []⟩) (Reference.enqueueAt 1)),
      .op (.drain (ascii "bob") { Reference.drainAt 2 with commit := .leftOpen }),
      .op (.enqueue (ascii "carol") (.ofSealed ⟨ascii "carol", [2], 0, [], []⟩) (Reference.enqueueAt 3)),
      .restart (Reference.second 4) (.clean (.zeros 32) (.zeros 12))]).map fun s =>
        s.store.table.rows.map fun row => row.2.recipientID) = some [ascii "carol"] := by
  decide +kernel

end SpectreRelay.Server.Backlog
