import SpectreRelay.Server.Sessions
import SpectreRelay.Server.StorageBound
import SpectreRelay.Server.StoreCalls

/-!
# Interrupted flushes

`FlushQueue` takes everything out of the queue before it writes, and when a
write fails it puts the message and all after it back through `Enqueue`, which
drops silently on a full queue. Nothing is dropped: a queue holds at most as
many rows as there is room for, and they were all taken out. So a flush writes
the messages before the failing position and the next drain gives the others,
in their order (`flush_keeps_suffix`); over any number of interrupted flushes
and a complete one every message is written once.

The stores meant are those in which messages with one envelope were queued; in
runs of the relay there are no others (`store_reached`).
-/

namespace SpectreRelay.Server.Store
set_option autoImplicit false
open Lib Delivery

variable {P : Platform}

/-- The envelopes of a message, without the expiry that each `Enqueue` sets anew. -/
def envelopes (m : QueuedMessage) : Option Model.SealedEnvelope × Option Model.OpenEnvelope := (m.sealed, m.opened)

/-- The callers of `Enqueue` pass a message with one envelope. -/
def OneEnvelope (_ : Bytes) (m : QueuedMessage) : Prop := m.Single

/-! ## What a drain reads -/

theorem reading_append (key : Block 32) (now : Time) (rows more : List QueueRow) :
    reading P key now (rows ++ more) = reading P key now rows ++ reading P key now more := List.filterMap_append ..

/-- Rows that were dead before `now` are not read at `now`. -/
theorem reading_purged (key : Block 32) {deleteAt now : Time} (order : deleteAt ≤ now) (u : Bytes) (rows : List QueueRow) :
    reading P key now (rows.filter fun row => !decide (row.recipientID = u ∧ expired deleteAt row = true)) =
      reading P key now rows := by
  simp only [reading, List.filterMap_filter]
  apply List.filterMap_congr
  intro row _
  by_cases doomed : row.recipientID = u ∧ expired deleteAt row = true
  · have dead := expired_mono order doomed.2
    simp [dead]
  · simp [doomed]

/-! ## Rows that can be read -/

/-- The row holds a well-formed message with one envelope. -/
def Readable (P : Platform) (key : Block 32) (row : QueueRow) : Prop :=
  ∃ m, readPayload P key row.payload = some m ∧ m.Single ∧ m.Valid

/-- No queue is above the cap and every row can be read. -/
def Sound (P : Platform) (key : Block 32) (t : Table QueueRow) : Prop :=
  Capped t ∧ ∀ row ∈ t.rows, Readable P key row.2

theorem rowFor_readable {s : Store} {m : QueuedMessage} (single : m.Single) (r : Bytes) (now : Time) (nonce : Block 12) :
    Readable P s.key (rowFor P s r m now nonce) :=
  ⟨(m.stamp (now.addUnix s.ttl)).sanitize, readPayload_encrypt .., single_stored single _, QueuedMessage.valid_sanitize _⟩

theorem sound_closed : Closed P OneEnvelope (Sound P) where
  empty _ := ⟨.empty, fun _ inside => absurd inside List.not_mem_nil⟩
  delete _ _ gone h := ⟨h.1.delete gone, fun row listed => h.2 row (List.mem_filter.1 listed).1⟩
  insert s r m io nonce single inserts h := by
    refine ⟨(h.1.delete _).insert (Nat.lt_of_not_le inserts.2.2.1), fun row listed => ?_⟩
    rcases List.mem_append.1 listed with old | added
    · exact h.2 row (List.mem_filter.1 old).1
    · rw [List.mem_singleton.1 added]
      exact rowFor_readable single r io.now nonce

/-- What can be read in rows of such a table has one envelope and is well-formed. -/
theorem Sound.mem_reading {key : Block 32} {t : Table QueueRow} (h : Sound P key t) {u : Bytes} {now : Time}
    {m : QueuedMessage} (inside : m ∈ reading P key now (rowsOf t u)) : m.Single ∧ m.Valid := by
  obtain ⟨row, listed, read⟩ := List.mem_filterMap.1 inside
  obtain ⟨numbered, selected, rfl⟩ := List.mem_map.1 listed
  obtain ⟨m', decoded, fine⟩ := h.2 numbered (List.mem_filter.1 selected).1
  split at read
  · cases read
  · rw [decoded] at read
    cases read
    exact fine

/-- Whatever fails in a drain, what it gives has one envelope. -/
theorem Sound.drained_single {s : Store} (h : Sound P s.key s.table) {u : Bytes} {io : DrainIo} {m : QueuedMessage}
    (inside : m ∈ (s.drainQueue P u io).2) : m.Single := by
  rw [drainQueue_eq] at inside
  split at inside
  · obtain ⟨⟨n, m'⟩, listed, rfl⟩ := List.mem_map.1 inside
    obtain ⟨row, stored, -, -, decoded⟩ := mem_drainedRows listed
    obtain ⟨m'', decoded', single, -⟩ := h.2 (n, row) stored
    cases decoded.symm.trans decoded'
    exact single
  · split at inside <;> cases inside

/-- One step of the relay queues messages with one envelope. -/
theorem reached_step {s s' : Sessions.State} {relayID : Bytes} (names : s.Names relayID)
    (before : Reached P OneEnvelope s.server.store) {l : Sessions.Label} (stepped : Sessions.State.step P s l = some s') :
    Reached P OneEnvelope s'.server.store := by
  have stored := (Sessions.State.step_store names stepped).1
  generalize s'.server.store = store at stored
  cases stored with
  | same => exact before
  | @connected conn ip answer claimed auth flush attempts authenticated =>
    have registered := before.next (.register (normalizeUser relayID claimed) conn)
    exact registered.flushQueue (fun m inside => (registered.tables sound_closed).memory.drained_single inside) _ _
  | routed call => exact before.deliver (fun _ _ => classify_single call) _ _
  | posted call => exact before.deliver (fun _ _ => federationDeliver_single call) _ _
  | left => exact before.next (.unregister _ _)
  | restarted started => exact before.next (.restart started)

/-- **Every store of a run of the relay** is one of these. -/
theorem store_reached {cfg : Config} {files : Files} (queue : files.queue = .empty) {io : Server.StartIo}
    {first s : Sessions.State} {labels : List Sessions.Label} (started : Sessions.State.start P cfg files io [] = some first)
    (reached : run (Sessions.State.step P) first labels = some s) : Reached P OneEnvelope s.server.store := by
  obtain ⟨store, names⟩ := Sessions.State.start_store started
  rw [queue] at store
  have both : s.Names cfg.relayID ∧ Reached P OneEnvelope s.server.store := by
    apply run_invariant (P := fun s : Sessions.State => s.Names cfg.relayID ∧ Reached P OneEnvelope s.server.store)
      _ ⟨names, .first store⟩ reached
    intro s l s' ⟨names, before⟩ stepped
    exact ⟨(Sessions.State.step_store names stepped).2, reached_step names before stepped⟩
  exact both.2

/-! ## Putting messages back -/

/-- The put-back at these readings comes before `now`, and `now` before its time to live is over. -/
def InTime (t : Stamp) (ttl : Int64) (now : Time) : Prop := t.deleteAt ≤ now ∧ (now.ns : Int) ≤ t.now.ns + ttl.toInt

instance (t : Stamp) (ttl : Int64) (now : Time) : Decidable (InTime t ttl now) := inferInstanceAs (Decidable (_ ∧ _))

/-- With room in the queue, the rows of the user after an `Enqueue`: those not dead, and the new one. -/
theorem rowsOf_enqueue (s : Store) (u : Bytes) (m : QueuedMessage) (t : Stamp)
    (room : (rowsOf s.table u).length < maxQueuePerRecipient) :
    rowsOf (s.enqueue P u m t.io).table u =
      ((rowsOf s.table u).filter fun row => !decide (row.recipientID = u ∧ expired t.deleteAt row = true)) ++
        [rowFor P s u m t.now t.nonce] := by
  have fits : ¬ Full s.table u t.deleteAt := by
    have fewer : (rowsOf (purgeOf s.table u t.deleteAt) u).length ≤ (rowsOf s.table u).length := rowsOf_delete_le ..
    rw [Full, Table.count_key]
    exact Nat.not_le.2 (Nat.lt_of_le_of_lt fewer room)
  have mine : (rowFor P s u m t.now t.nonce).recipientID = u := rfl
  rw [Stamp.io, enqueue_table, if_neg fits, rowsOf, Table.group_insert, if_pos mine, Table.group_delete]

/-- **One put-back** adds the message to what a drain in time reads. -/
theorem reading_enqueue (s : Store) (u : Bytes) {m : QueuedMessage} (valid : m.Valid) {t : Stamp} {now : Time}
    (inTime : InTime t s.ttl now) (room : (rowsOf s.table u).length < maxQueuePerRecipient) :
    reading P s.key now (rowsOf (s.enqueue P u m t.io).table u) =
      reading P s.key now (rowsOf s.table u) ++ [m.stamp (t.now.addUnix s.ttl)] := by
  have live : expired now (rowFor P s u m t.now t.nonce) = false := by
    rw [Bool.eq_false_iff, Ne, expired_iff]
    have bound := inTime.2
    simp only [rowFor, Time.addUnix_toInt, Time.seconds]
    omega
  have stored : readPayload P s.key (rowFor P s u m t.now t.nonce).payload = some (m.stamp (t.now.addUnix s.ttl)) := by
    rw [rowFor, readPayload_encrypt, QueuedMessage.sanitize_stamp, valid.sanitize]
  rw [rowsOf_enqueue s u m t room, reading_append, reading_purged s.key inTime.1]
  simp [reading, live, stored]

/-- **Putting messages back**: a drain in time reads them after what was there, with the same envelopes. -/
theorem reading_requeue {u : Bytes} {messages : List QueuedMessage} (valid : ∀ m ∈ messages, m.Valid) (io : Nat → Stamp)
    {s : Store} {now : Time} (inTime : ∀ j, InTime (io j) s.ttl now) (i : Nat)
    (room : (rowsOf s.table u).length + messages.length ≤ maxQueuePerRecipient) :
    (reading P s.key now (rowsOf (requeue P u (fun j => (io j).io) i messages s).table u)).map envelopes =
      (reading P s.key now (rowsOf s.table u)).map envelopes ++ messages.map envelopes := by
  induction messages generalizing i s with
  | nil => simp [requeue]
  | cons m left ih =>
    rw [List.length_cons] at room
    have free : (rowsOf s.table u).length < maxQueuePerRecipient := by omega
    have grown : (rowsOf (s.enqueue P u m (io i).io).table u).length ≤ (rowsOf s.table u).length + 1 := by
      rw [rowsOf_enqueue s u m (io i) free, List.length_append, List.length_singleton]
      exact Nat.succ_le_succ (List.length_filter_le ..)
    have rest := ih (fun m' inside => valid m' (List.mem_cons_of_mem _ inside)) (s := s.enqueue P u m (io i).io)
      (fun j => by rw [enqueue_ttl_any]; exact inTime j) (i + 1) (by omega)
    rw [enqueue_key_any, reading_enqueue s u (valid m List.mem_cons_self) (inTime i) free] at rest
    rw [requeue, rest, List.map_append, List.append_assoc]
    rfl

theorem rowsOf_requeue_other {u r : Bytes} (other : r ≠ u) (io : Nat → EnqueueIo) (i : Nat) (messages : List QueuedMessage)
    (s : Store) : rowsOf (requeue P u io i messages s).table r = rowsOf s.table r := by
  induction messages generalizing i s with
  | nil => rfl
  | cons m left ih => rw [requeue, ih, rowsOf_enqueue_other s other]

/-! ## One flush -/

/-- The loop writes up to the first failing position and puts the rest back; without one there is no rest. -/
theorem flushLoop_interrupted (u : Bytes) (fails : Nat → Bool) (io : Nat → EnqueueIo) (i : Nat)
    {messages : List QueuedMessage} (single : ∀ m ∈ messages, m.Single) (s : Store) :
    ∃ frames, frames.map some = (messages.take ((List.range' i messages.length).findIdx fails)).map marshalQueued ∧
      flushLoop P u fails io i messages s =
        (requeue P u io (i + (List.range' i messages.length).findIdx fails)
          (messages.drop ((List.range' i messages.length).findIdx fails)) s, frames) := by
  induction messages generalizing i with
  | nil => exact ⟨[], rfl, rfl⟩
  | cons m left ih =>
    obtain ⟨frame, text⟩ := marshalQueued_single (single m List.mem_cons_self)
    simp only [List.length_cons, List.range'_succ, List.findIdx_cons]
    cases broken : fails i with
    | true =>
      refine ⟨[], rfl, ?_⟩
      simp only [flushLoop, text, broken, if_true, cond_true, Nat.add_zero, List.drop_zero]
    | false =>
      obtain ⟨frames, written, rest⟩ := ih (i + 1) fun m' inside => single m' (List.mem_cons_of_mem _ inside)
      refine ⟨frame :: frames, ?_, ?_⟩
      · simp only [List.map_cons, cond_false, List.take_succ_cons, written, text]
      · simp only [flushLoop, text, broken, Bool.false_eq_true, if_false, cond_false, List.drop_succ_cons, rest,
          Nat.add_assoc, Nat.add_comm 1]

/-- One flush without a storage fault: its readings, which writes fail, and the readings of the put-backs. -/
structure Round where
  drainAt : Time
  fileNonce : Block 12
  fails : Nat → Bool
  putBack : Nat → Stamp

namespace Round

variable (P) (s : Store) (u : Bytes) (round : Round)

/-- `FlushQueue` in this round. -/
def flush : Store × List Bytes :=
  flushQueue P s u (.clean round.drainAt round.fileNonce) round.fails fun j => (round.putBack j).io

/-- The messages that it drains. -/
def drained : List QueuedMessage := (s.drainQueue P u (.clean round.drainAt round.fileNonce)).2

/-- The store between the drain and the first write. -/
def emptied : Store := (s.drainQueue P u (.clean round.drainAt round.fileNonce)).1

/-- How many writes succeed: the first failing position, or all. -/
def failing : Nat := (List.range (round.drained P s u).length).findIdx round.fails

variable {P s u}

@[simp] theorem emptied_ttl : (round.emptied P s u).ttl = s.ttl := drainQueue_ttl_any ..

theorem rowsOf_emptied : rowsOf (round.emptied P s u).table u = [] := by
  rw [emptied, drainQueue_table, rowsOf, Table.group_delete_self]

theorem rowsOf_emptied_other {r : Bytes} (other : r ≠ u) : rowsOf (round.emptied P s u).table r = rowsOf s.table r := by
  rw [emptied, drainQueue_table, rowsOf, Table.group_delete_other _ other]

theorem mem_drained (sound : Sound P s.key s.table) {m : QueuedMessage} (inside : m ∈ round.drained P s u) :
    m.Single ∧ m.Valid := by
  rw [drained, drained_reading] at inside
  exact sound.mem_reading inside

/-- What a flush leaves and writes. -/
theorem flush_eq (sound : Sound P s.key s.table) :
    ∃ frames, frames.map some = ((round.drained P s u).take (round.failing P s u)).map marshalQueued ∧
      round.flush P s u =
        (requeue P u (fun j => (round.putBack j).io) (round.failing P s u)
          ((round.drained P s u).drop (round.failing P s u)) (round.emptied P s u), frames) := by
  obtain ⟨frames, written, loop⟩ := flushLoop_interrupted (P := P) u round.fails (fun j => (round.putBack j).io) 0
    (fun m inside => (round.mem_drained sound inside).1) (round.emptied P s u)
  rw [← List.range_eq_range', Nat.zero_add] at loop
  rw [← List.range_eq_range'] at written
  exact ⟨frames, written, loop⟩

theorem flush_ttl (sound : Sound P s.key s.table) : (round.flush P s u).1.ttl = s.ttl := by
  obtain ⟨frames, -, done⟩ := round.flush_eq (u := u) sound
  rw [done, requeue_ttl, emptied_ttl]

theorem flush_written (sound : Sound P s.key s.table) :
    (round.flush P s u).2.map some = ((round.drained P s u).take (round.failing P s u)).map marshalQueued := by
  obtain ⟨frames, written, done⟩ := round.flush_eq (u := u) sound
  rw [done]
  exact written

/-- The queue was empty and the drained messages fit into it, so those put back are all there. -/
theorem flush_kept (sound : Sound P s.key s.table) {now : Time} (inTime : ∀ j, InTime (round.putBack j) s.ttl now)
    (fileNonce : Block 12) :
    ((round.flush P s u).1.drainQueue P u (.clean now fileNonce)).2.map envelopes =
      ((round.drained P s u).drop (round.failing P s u)).map envelopes := by
  obtain ⟨frames, -, done⟩ := round.flush_eq (u := u) sound
  have few : (round.drained P s u).length ≤ maxQueuePerRecipient := by
    rw [drained, drained_reading]
    exact (List.length_filterMap_le ..).trans (sound.1 u)
  have fits : (rowsOf (round.emptied P s u).table u).length + ((round.drained P s u).drop (round.failing P s u)).length ≤
      maxQueuePerRecipient := by
    rw [rowsOf_emptied, List.length_nil, Nat.zero_add, List.length_drop]
    omega
  have valid : ∀ m ∈ (round.drained P s u).drop (round.failing P s u), m.Valid :=
    fun m inside => (round.mem_drained sound (List.mem_of_mem_drop inside)).2
  have back := reading_requeue (P := P) valid round.putBack (s := round.emptied P s u)
    (fun j => by rw [emptied_ttl]; exact inTime j) (round.failing P s u) fits
  rw [done, drained_reading, requeue_key, back, rowsOf_emptied]
  rfl

theorem flush_others (sound : Sound P s.key s.table) {r : Bytes} (other : r ≠ u) :
    rowsOf (round.flush P s u).1.table r = rowsOf s.table r := by
  obtain ⟨frames, -, done⟩ := round.flush_eq (u := u) sound
  rw [done, rowsOf_requeue_other other, rowsOf_emptied_other round other]

theorem flush_reached (reached : Reached P OneEnvelope s) : Reached P OneEnvelope (round.flush P s u).1 :=
  reached.flushQueue (fun _ inside => (round.mem_drained (reached.tables sound_closed).memory inside).1) _ _

end Round

/-! ## Flush after flush -/

/-- Flushes of one user, one after the other: the store after them, and all frames that they write. -/
def flushes (P : Platform) (u : Bytes) : Store → List Round → Store × List Bytes
  | s, [] => (s, [])
  | s, round :: rounds =>
    let one := round.flush P s u
    let rest := flushes P u one.1 rounds
    (rest.1, one.2 ++ rest.2)

/-- Each flush comes before the time to live of what the one before it put back is over, and the last is complete. -/
def Finishes (ttl : Int64) : Round → List Round → Prop
  | round, [] => ∀ j, round.fails j = false
  | round, later :: rounds => (∀ j, InTime (round.putBack j) ttl later.drainAt) ∧ Finishes ttl later rounds

/-- The frame of a message depends on its envelopes only. -/
theorem map_marshalQueued {ms ms' : List QueuedMessage} (same : ms.map envelopes = ms'.map envelopes) :
    ms.map marshalQueued = ms'.map marshalQueued := by
  have through : marshalQueued = (fun e => marshalQueued ⟨e.1, e.2, 0⟩) ∘ envelopes := rfl
  rw [through, ← List.map_map, same, List.map_map]

/-- **Interrupted flushes and a complete one** write what the first of them drained. -/
theorem flushes_written {s : Store} (reached : Reached P OneEnvelope s) (u : Bytes) (round : Round) (rounds : List Round)
    (finishes : Finishes s.ttl round rounds) :
    (flushes P u s (round :: rounds)).2.map some = (round.drained P s u).map marshalQueued := by
  have sound := (reached.tables sound_closed).memory
  induction rounds generalizing s round with
  | nil =>
    have all : round.failing P s u = (round.drained P s u).length := by
      rw [Round.failing, List.findIdx_eq_length.2 fun j _ => finishes j, List.length_range]
    rw [flushes, flushes, List.append_nil, round.flush_written sound, all, List.take_length]
  | cons later rounds ih =>
    obtain ⟨inTime, rest⟩ := finishes
    have after := round.flush_reached (u := u) reached
    have written := ih after later (by rw [round.flush_ttl sound]; exact rest) (after.tables sound_closed).memory
    have kept := map_marshalQueued (round.flush_kept (u := u) sound inTime later.fileNonce)
    rw [flushes, List.map_append, written, round.flush_written sound]
    exact (congrArg _ kept).trans (by rw [← List.map_append, List.take_append_drop])

/-- What a flush of the user's queue does, and what later flushes make of it. -/
structure KeepsSuffix (P : Platform) (s : Store) (u : Bytes) (round : Round) : Prop where
  /-- The messages before the failing position are written, each of them and in their order. -/
  written : (round.flush P s u).2.map some = ((round.drained P s u).take (round.failing P s u)).map marshalQueued
  /-- The next drain gives the others, in their order and with the same envelopes. -/
  kept : ∀ (now : Time) (fileNonce : Block 12), (∀ j, InTime (round.putBack j) s.ttl now) →
    ((round.flush P s u).1.drainQueue P u (.clean now fileNonce)).2.map envelopes =
      ((round.drained P s u).drop (round.failing P s u)).map envelopes
  /-- The queues of other users stay. -/
  others : ∀ r, r ≠ u → rowsOf (round.flush P s u).1.table r = rowsOf s.table r
  /-- With interrupted flushes and a complete one after it, every message is written once, in order. -/
  finished : ∀ rounds, Finishes s.ttl round rounds →
    (flushes P u s (round :: rounds)).2.map some = (round.drained P s u).map marshalQueued

/-- **An interrupted flush keeps exactly the undelivered suffix.** -/
theorem flush_keeps_suffix {s : Store} (reached : Reached P OneEnvelope s) (u : Bytes) (round : Round) :
    KeepsSuffix P s u round := by
  have sound := (reached.tables sound_closed).memory
  constructor
  · exact round.flush_written sound
  · exact fun now fileNonce inTime => round.flush_kept sound inTime fileNonce
  · exact fun r other => round.flush_others sound other
  · exact fun rounds finishes => flushes_written reached u round rounds finishes

/-- A message to bob. -/
def toBob (text : UInt8) : QueuedMessage := .ofSealed ⟨ascii "bob", [text], 0, [], []⟩

/-- Two messages are queued for bob. -/
def bobsQueue : Store :=
  (Reference.firstStore.enqueue Reference.platform (ascii "bob") (toBob 1) Stamp.start.io).enqueue Reference.platform
    (ascii "bob") (toBob 2) Stamp.start.io

theorem bobsQueue_reached : Reached Reference.platform OneEnvelope bobsQueue := by
  have first : Reached Reference.platform OneEnvelope Reference.firstStore :=
    .first (show (newStore Reference.platform ⟨none, none⟩ 60 _).2 = _ from Reference.firstStore_started)
  have single (text : UInt8) : OneEnvelope (ascii "bob") (toBob text) := by rfl
  exact (first.next (.enqueue (single 1) Stamp.start.io)).next (.enqueue (single 2) Stamp.start.io)

/-- A flush in the first second whose writes fail from a position on. -/
def Round.upTo (i : Nat) : Round := ⟨Reference.start, .zeros 12, fun j => i ≤ j, fun _ => .start⟩

theorem flush_keeps_suffix_bob :
    (Round.drained Reference.platform bobsQueue (ascii "bob") (.upTo 1)).length = 2 ∧
      Round.failing Reference.platform bobsQueue (ascii "bob") (.upTo 1) = 1 ∧
      KeepsSuffix Reference.platform bobsQueue (ascii "bob") (.upTo 1) :=
  ⟨by decide +kernel, by decide +kernel, flush_keeps_suffix bobsQueue_reached (ascii "bob") (.upTo 1)⟩

end SpectreRelay.Server.Store
