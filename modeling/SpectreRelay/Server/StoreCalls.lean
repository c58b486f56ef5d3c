import SpectreRelay.Server.Router
import SpectreRelay.Server.StoreImage

/-!
# The stores that calls can reach

A store starts without a queue file and then takes calls in any order, each with
any outcomes of its system calls, and restarts on its own files at any point.
`Reached` keeps apart what the callers of `Enqueue` see to: its arguments meet
`ok`. A property of tables that survives deletions and such insertions holds in
memory and in the file of every store reached (`Reached.tables`); a flush and a
`deliver` are calls, so they stay inside.
-/

namespace SpectreRelay.Server.Store
set_option autoImplicit false
open Lib

/-- One call, or a restart. -/
inductive Call (P : Platform) (ok : Bytes → QueuedMessage → Prop) (s : Store) : Store → Prop where
  | enqueue {r : Bytes} {m : QueuedMessage} (allowed : ok r m) (io : EnqueueIo) : Call P ok s (s.enqueue P r m io)
  | drainQueue (r : Bytes) (io : DrainIo) : Call P ok s (s.drainQueue P r io).1
  | purgeExpired (now : Time) (fails : Bool) (io : PersistIo) : Call P ok s (s.purgeExpired P now fails io)
  | register (userID : Bytes) (c : Conn) : Call P ok s (s.register userID c).1
  | unregister (userID : Bytes) (c : Conn) : Call P ok s (s.unregister userID c)
  | restart {ttlSeconds : Int64} {io : StartIo} {s' : Store} (started : (newStore P s.disk ttlSeconds io).2 = .ok s') :
      Call P ok s s'

/-- A store that calls can reach. The first start finds no queue file; a failed one may have left a key file. -/
inductive Reached (P : Platform) (ok : Bytes → QueuedMessage → Prop) : Store → Prop where
  | first {keyFile : Option Bytes} {ttlSeconds : Int64} {io : StartIo} {s : Store}
      (started : (newStore P ⟨keyFile, none⟩ ttlSeconds io).2 = .ok s) : Reached P ok s
  | next {s s' : Store} (before : Reached P ok s) (call : Call P ok s s') : Reached P ok s'

variable {P : Platform} {ok : Bytes → QueuedMessage → Prop}

/-! ## The first start -/

/-- A start without a queue file has an empty table, in memory and in the file. -/
theorem newStore_fresh {keyFile : Option Bytes} {ttlSeconds : Int64} {io : StartIo} {s : Store}
    (started : (newStore P ⟨keyFile, none⟩ ttlSeconds io).2 = .ok s) :
    s.clients = ∅ ∧ s.table = .empty ∧ Image P s .empty := by
  unfold newStore at started
  split at started
  · cases started
  · dsimp only at started
    split at started
    · cases started
    · rename_i key made
      have kept := loadOrCreateKey_ok made
      split at started
      · cases started
      · simp only [loadFromDisk] at started
        split at started
        · cases started
        · obtain ⟨clean, rfl, -⟩ := initSchema_made started
          exact ⟨rfl, rfl, persistLocked_image kept clean⟩

/-! ## What a flush and a delivery leave alone -/

@[simp] theorem requeue_key (u : Bytes) (io : Nat → EnqueueIo) (i : Nat) (messages : List QueuedMessage) (s : Store) :
    (requeue P u io i messages s).key = s.key := by
  induction messages generalizing i s with
  | nil => rfl
  | cons m left ih => rw [requeue, ih, enqueue_key_any]

@[simp] theorem requeue_ttl (u : Bytes) (io : Nat → EnqueueIo) (i : Nat) (messages : List QueuedMessage) (s : Store) :
    (requeue P u io i messages s).ttl = s.ttl := by
  induction messages generalizing i s with
  | nil => rfl
  | cons m left ih => rw [requeue, ih, enqueue_ttl_any]

@[simp] theorem requeue_clients (u : Bytes) (io : Nat → EnqueueIo) (i : Nat) (messages : List QueuedMessage) (s : Store) :
    (requeue P u io i messages s).clients = s.clients := by
  induction messages generalizing i s with
  | nil => rfl
  | cons m left ih => rw [requeue, ih, enqueue_clients_any]

@[simp] theorem flushLoop_clients (u : Bytes) (fails : Nat → Bool) (io : Nat → EnqueueIo) (i : Nat)
    (messages : List QueuedMessage) (s : Store) : (flushLoop P u fails io i messages s).1.clients = s.clients := by
  induction messages generalizing i with
  | nil => rfl
  | cons m left ih =>
    unfold flushLoop
    split
    · exact ih (i + 1)
    · split
      · exact requeue_clients ..
      · exact ih (i + 1)

@[simp] theorem flushQueue_clients (s : Store) (u : Bytes) (drain : DrainIo) (fails : Nat → Bool) (io : Nat → EnqueueIo) :
    (flushQueue P s u drain fails io).1.clients = s.clients := by
  rw [flushQueue, flushLoop_clients, drainQueue_clients_any]

@[simp] theorem deliver_clients (s : Store) (relayID r : Bytes) (m : QueuedMessage) (writeFails : Bool) (io : EnqueueIo) :
    (deliver P s relayID r m writeFails io).1.clients = s.clients := by
  unfold deliver
  split
  · rfl
  · rfl
  · split
    · split
      · exact enqueue_clients_any ..
      · rfl
    · exact enqueue_clients_any ..

/-! ## Properties of tables -/

/-- The property of tables under a key survives deletions, and the insertions of an `Enqueue` with `ok` arguments. -/
structure Closed (P : Platform) (ok : Bytes → QueuedMessage → Prop) (T : Block 32 → Table QueueRow → Prop) : Prop where
  empty : ∀ key, T key .empty
  delete : ∀ key t gone, T key t → T key (t.delete gone)
  insert : ∀ (s : Store) (r : Bytes) (m : QueuedMessage) (io : EnqueueIo) (nonce : Block 12), ok r m →
    Inserts s.table r io → T s.key s.table →
    T s.key ((purgeOf s.table r io.deleteAt).insert (rowFor P s r m io.now nonce))

/-- The tables in memory and in the file have the property. -/
structure Tables (P : Platform) (T : Block 32 → Table QueueRow → Prop) (s : Store) : Prop where
  memory : T s.key s.table
  file : ∃ t, Image P s t ∧ T s.key t

namespace Tables

variable {T : Block 32 → Table QueueRow → Prop} {s s' : Store}

/-- Another table in memory; the file stays. -/
theorem trim (h : Tables P T s) {table : Table QueueRow} (new : T s.key table) : Tables P T { s with table } := by
  obtain ⟨t, image, inside⟩ := h.file
  exact ⟨new, t, image.of_disk rfl rfl, inside⟩

/-- Another table in memory, written out or not. -/
theorem persist (h : Tables P T s) {table : Table QueueRow} (new : T s.key table) (io : PersistIo) :
    Tables P T (persistLocked P { s with table } io).1 := by
  obtain ⟨t, image, inside⟩ := h.file
  refine ⟨new, _, image.persist table io, ?_⟩
  split
  · exact new
  · exact inside

theorem of_clients (h : Tables P T s) (clients : Map Conn) : Tables P T { s with clients } := by
  obtain ⟨t, image, inside⟩ := h.file
  exact ⟨h.memory, t, image.of_disk rfl rfl, inside⟩

theorem enqueued (closed : Closed P ok T) (h : Tables P T s) {r : Bytes} {m : QueuedMessage} {io : EnqueueIo}
    (allowed : ok r m) (done : Enqueued P s r m io s') : Tables P T s' := by
  cases done with
  | @inserted nonce inserts => exact h.persist (closed.insert s r m io nonce allowed inserts h.memory) io.persist
  | purged not => exact h.trim (closed.delete _ _ _ h.memory)
  | failed not => exact h

/-- One call keeps the property. -/
theorem call (closed : Closed P ok T) (h : Tables P T s) (call : Call P ok s s') : Tables P T s' := by
  cases call with
  | enqueue allowed io => exact h.enqueued closed allowed (enqueue_cases s _ _ io)
  | drainQueue r io =>
    rw [drainQueue_eq]
    split
    · exact h.persist (closed.delete _ _ _ h.memory) io.persist
    · split
      · exact h.trim (closed.delete _ _ _ h.memory)
      · exact h
  | purgeExpired now fails io =>
    unfold Store.purgeExpired
    split
    · exact h
    · exact h.persist (closed.delete _ _ _ h.memory) io
  | register userID c => exact h.of_clients _
  | unregister userID c =>
    unfold Store.unregister
    split
    · exact h.of_clients _
    · exact h
  | restart started =>
    obtain ⟨t, image, inside⟩ := h.file
    rw [image.newStore started]
    exact ⟨inside, t, image.of_disk rfl rfl, inside⟩

end Tables

namespace Reached

variable {s : Store}

/-- **Every store that calls can reach** has the property, in memory and in its file. -/
theorem tables {T : Block 32 → Table QueueRow → Prop} (closed : Closed P ok T) (reached : Reached P ok s) :
    Tables P T s := by
  induction reached with
  | first started =>
    obtain ⟨-, table, image⟩ := newStore_fresh started
    refine ⟨?_, .empty, image, closed.empty _⟩
    rw [table]
    exact closed.empty _
  | next before call ih => exact ih.call closed call

/-! ## Calls that are made of calls -/

theorem requeue (reached : Reached P ok s) {userID : Bytes} {messages : List QueuedMessage}
    (allowed : ∀ m ∈ messages, ok userID m) (io : Nat → EnqueueIo) (i : Nat) :
    Reached P ok (Server.requeue P userID io i messages s) := by
  induction messages generalizing i s with
  | nil => exact reached
  | cons m left ih =>
    have first := reached.next (.enqueue (allowed m List.mem_cons_self) (io i))
    exact ih first (fun m' inside => allowed m' (List.mem_cons_of_mem _ inside)) (i + 1)

theorem flushLoop (reached : Reached P ok s) {userID : Bytes} {messages : List QueuedMessage}
    (allowed : ∀ m ∈ messages, ok userID m) (fails : Nat → Bool) (io : Nat → EnqueueIo) (i : Nat) :
    Reached P ok (Server.flushLoop P userID fails io i messages s).1 := by
  induction messages generalizing i with
  | nil => exact reached
  | cons m left ih =>
    have rest := ih (fun m' inside => allowed m' (List.mem_cons_of_mem _ inside)) (i + 1)
    unfold Server.flushLoop
    split
    · exact rest
    · split
      · exact reached.requeue allowed io i
      · exact rest

/-- A flush that puts allowed messages back. -/
theorem flushQueue (reached : Reached P ok s) {userID : Bytes} {drain : DrainIo}
    (allowed : ∀ m ∈ (s.drainQueue P userID drain).2, ok userID m) (fails : Nat → Bool) (io : Nat → EnqueueIo) :
    Reached P ok (Server.flushQueue P s userID drain fails io).1 :=
  (reached.next (.drainQueue userID drain)).flushLoop allowed fails io 0

/-- A `deliver` whose local recipient and message are allowed. -/
theorem deliver (reached : Reached P ok s) {relayID recipientID : Bytes} {m : QueuedMessage}
    (allowed : ∀ name, target relayID recipientID m = .local name → ok name m) (writeFails : Bool) (io : EnqueueIo) :
    Reached P ok (Server.deliver P s relayID recipientID m writeFails io).1 := by
  unfold Server.deliver
  split
  · exact reached
  · exact reached
  · rename_i name here
    have queued := reached.next (.enqueue (allowed name here) io)
    split
    · split
      · exact queued
      · exact reached
    · exact queued

end Reached

end SpectreRelay.Server.Store
