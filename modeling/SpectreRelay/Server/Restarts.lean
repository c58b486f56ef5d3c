import SpectreRelay.Server.StoreImage
import SpectreRelay.Server.Tracking

/-!
# Delivery over restarts

The machine of `Delivery` with one more step: the process ends, and a new one
starts on the files it left. Unfinished calls and sessions are gone, nobody is
connected, the limiter is empty and the queue is what the file holds. `Grows`
says what one step of a process does to the parts that outlive it; from it the
tracking invariant is kept by restarts too (`Kept.advance`).
-/

namespace SpectreRelay.Server.Delivery
set_option autoImplicit false
open Lib Model

/-- A step of the process, or its end and a new start. -/
inductive Event where
  | step (l : Label)
  | restart (io : Store.StartIo)

namespace State

variable (P : Platform) (ttlSeconds : Int64)

/-- The state of a new process with this store. -/
def restarted (s : State) (store : Store) : State :=
  { s with
    store
    router := .new s.router.maxMessageSize s.router.ratePerMin s.router.relayID
    calls := []
    sessions := [] }

def advance (s : State) : Event → Option State
  | .step l => s.step P l
  | .restart io =>
    match (Store.newStore P s.store.disk ttlSeconds io).2 with
    | .ok store => some (s.restarted store)
    | .error _ => none

variable {P ttlSeconds}

theorem advance_cases {s s' : State} {e : Event} (h : advance P ttlSeconds s e = some s') :
    (∃ l, e = .step l ∧ step P s l = some s') ∨
      ∃ io store, e = .restart io ∧ (Store.newStore P s.store.disk ttlSeconds io).2 = .ok store ∧
        s' = s.restarted store := by
  cases e with
  | step l => exact .inl ⟨l, rfl, h⟩
  | restart io =>
    simp only [advance] at h
    split at h
    · rename_i store started
      cases h
      exact .inr ⟨io, store, rfl, started, rfl⟩
    · cases h

end State

/-! ## What outlives a process -/

/-- What one step does to the store and to the history of a message. -/
structure Grows (P : Platform) (s s' : State) : Prop where
  key : s'.store.key = s.store.key
  next : s.store.table.next ≤ s'.store.table.next
  disk : s'.store.disk = s.store.disk ∨ ∃ nonce, s'.store.disk =
    ⟨s.store.disk.keyFile, some (P.aead.encrypt s.store.key nonce (P.sqlite.serialize s'.store.table))⟩
  handed : ∃ more, s'.handed = s.handed ++ more
  owner : ∀ n < s.store.table.next, s'.owner n = s.owner n

namespace Grows

variable {P : Platform} {s s' : State}

/-- A step that leaves the store, the calls handed in and the owners alone. -/
theorem same (store : s'.store = s.store) (handed : s'.handed = s.handed) (owner : s'.owner = s.owner) :
    Grows P s s' where
  key := by rw [store]
  next := by rw [store]
  disk := .inl (by rw [store])
  handed := ⟨[], by rw [handed, List.append_nil]⟩
  owner n _ := by rw [owner]

/-- What the calls and sessions are does not matter. -/
theorem before {s₁ : State} (h : Grows P s₁ s') (store : s₁.store = s.store) (handed : s₁.handed = s.handed)
    (owner : s₁.owner = s.owner) : Grows P s s' where
  key := by rw [← store]; exact h.key
  next := by rw [← store]; exact h.next
  disk := by rw [← store]; exact h.disk
  handed := by rw [← handed]; exact h.handed
  owner := by rw [← store, ← owner]; exact h.owner

theorem hand (s : State) (call : Option (Bytes × QueuedMessage)) (origin : Origin) : Grows P s (s.hand call origin) := by
  rcases State.hand_cases s call origin with ⟨posts, same⟩ | ⟨r, m, name, _, _, same⟩
  · rw [same]
    exact .same rfl rfl rfl
  · rw [same]
    exact ⟨rfl, Nat.le_refl _, .inl rfl, ⟨_, rfl⟩, fun _ _ => rfl⟩

theorem enqueue (s : State) (id : Nat) (r : Bytes) (m : QueuedMessage) (t : Stamp) :
    Grows P s (State.enqueue P s id r m t) := by
  by_cases full : Store.Full s.store.table r t.deleteAt
  · refine ⟨?_, ?_, ?_, ⟨[], (List.append_nil _).symm⟩, ?_⟩
    · simp only [State.enqueue, Stamp.io, Store.enqueue_key]
    · simp only [State.enqueue, Stamp.io, Store.enqueue_table, full, if_true]
      exact Nat.le_refl _
    · left
      simp only [State.enqueue, Stamp.io, Store.enqueue_clean, full, if_true]
    · intro n _
      simp only [State.enqueue, full, if_true]
  · refine ⟨?_, ?_, ?_, ⟨[], (List.append_nil _).symm⟩, ?_⟩
    · simp only [State.enqueue, Stamp.io, Store.enqueue_key]
    · simp only [State.enqueue, Stamp.io, Store.enqueue_table, full, if_false]
      exact Nat.le_succ _
    · right
      refine ⟨t.fileNonce, ?_⟩
      simp only [State.enqueue, Stamp.io, Store.enqueue_clean, full, if_false]
      rfl
    · intro n below
      simp only [State.enqueue, full, if_false]
      exact Function.update_of_ne (Nat.ne_of_lt below) _ _

/-- **One step.** Numbers of rows and of calls are never given again. -/
theorem step {l : Label} (stepped : State.step P s l = some s') : Grows P s s' := by
  cases State.step_cases stepped with
  | @frame _ _ _ router call kind route => exact (hand { s with router } call _).before rfl rfl rfl
  | control => exact .same rfl rfl rfl
  | post => exact hand s _ _
  | online picked found => exact .same rfl rfl rfl
  | offline picked missing => exact .same rfl rfl rfl
  | wrote picked text => exact .same rfl rfl rfl
  | writeFailed picked reason => exact .same rfl rfl rfl
  | @enqueue i id r m rest t picked => exact (enqueue { s with calls := rest } id r m t).before rfl rfl rfl
  | register fresh => exact ⟨rfl, Nat.le_refl _, .inl rfl, ⟨[], (List.append_nil _).symm⟩, fun _ _ => rfl⟩
  | drain picked => exact ⟨rfl, Nat.le_refl _, .inr ⟨_, rfl⟩, ⟨[], (List.append_nil _).symm⟩, fun _ _ => rfl⟩
  | skipped picked text => exact .same rfl rfl rfl
  | flushed picked text => exact .same rfl rfl rfl
  | flushFailed picked => exact .same rfl rfl rfl
  | @requeue j id conn userID m left rest t picked =>
    exact (enqueue { s with sessions := ⟨conn, userID, .requeue left⟩ :: rest } id userID m t).before rfl rfl rfl
  | @unregister j conn userID rest picked =>
    refine ⟨Store.unregister_key .., ?_, .inl ?_, ⟨[], (List.append_nil _).symm⟩, fun _ _ => rfl⟩
    · simp only [Store.unregister_table]
      exact Nat.le_refl _
    · simp only [Store.unregister]
      split <;> rfl
  | purge => exact ⟨rfl, Nat.le_refl _, .inr ⟨_, rfl⟩, ⟨[], (List.append_nil _).symm⟩, fun _ _ => rfl⟩

/-- A property of the table in the file, when a step shows it of the table in memory. -/
theorem image (h : Grows P s s') {Q : Table QueueRow → Prop} (file : ∃ t, Store.Image P s.store t ∧ Q t)
    (memory : Q s'.store.table) : ∃ t, Store.Image P s'.store t ∧ Q t := by
  obtain ⟨t, image, held⟩ := file
  rcases h.disk with same | ⟨nonce, new⟩
  · exact ⟨t, image.of_disk same h.key, held⟩
  · refine ⟨s'.store.table, ⟨?_, nonce, ?_⟩, memory⟩
    · rw [new, h.key]
      exact image.keyFile
    · rw [new, h.key]

/-- A property of all rows, in memory and in the file, is carried over a step that shows it of the rows in memory. -/
theorem allRows (h : Grows P s s') {Q Q' : Nat × QueueRow → Prop} (rows : Store.AllRows P Q s.store)
    (keep : ∀ row, row.1 < s.store.table.next → Q row → Q' row) (memory : ∀ row ∈ s'.store.table.rows, Q' row) :
    Store.AllRows P Q' s'.store := by
  obtain ⟨t, image, below, inside⟩ := (rows.mono keep).image
  have grown := h.next
  exact ⟨memory, h.image (Q := fun t => t.next ≤ s'.store.table.next ∧ ∀ row ∈ t.rows, Q' row)
    ⟨t, image, by omega, inside⟩ ⟨Nat.le_refl _, memory⟩⟩

theorem tracked (h : Grows P s s') {id : Nat} {r : Bytes} {m : QueuedMessage} (before : Tracked s.handed id r m) :
    Tracked s'.handed id r m := by
  obtain ⟨more, longer⟩ := h.handed
  rw [longer]
  exact before.append more

end Grows

/-! ## Tracking over restarts -/

/-- A row holds a message of the call it came from. -/
def Queued (P : Platform) (s : State) (row : Nat × QueueRow) : Prop :=
  ∃ m, Store.readPayload P s.store.key row.2.payload = some m ∧ m.Valid ∧
    Tracked s.handed (s.owner row.1) row.2.recipientID m

/-- The tracking invariant, of the queue file too. -/
structure Kept (P : Platform) (s : State) : Prop where
  inv : Inv P s
  rows : Store.AllRows P (Queued P s) s.store

namespace Kept

variable {P : Platform} {ttlSeconds : Int64} {s : State}

/-- A first start. -/
theorem init {fresh : Block 32} {fileNonce : Block 12} {store : Store}
    (started : (Store.newStore P .empty ttlSeconds (.clean fresh fileNonce)).2 = .ok store) (router : Router) :
    Kept P (State.init store router) := by
  refine ⟨.init store router, ?_⟩
  cases started
  exact @Store.AllRows.first P ttlSeconds fresh fileNonce _ rfl _

theorem restarted (h : Kept P s) {io : Store.StartIo} {store : Store}
    (started : (Store.newStore P s.store.disk ttlSeconds io).2 = .ok store) : Kept P (s.restarted store) := by
  obtain ⟨t, image, _⟩ := h.rows.image
  have same := image.newStore started
  have rows : Store.AllRows P (Queued P (s.restarted store)) store :=
    (h.rows.newStore started).mono fun row _ ⟨m, reads, rest⟩ => ⟨m, by rw [State.restarted, same]; exact reads, rest⟩
  refine ⟨?_, rows⟩
  refine ⟨?_, ?_, rows.memory, ?_, ?_, ?_, h.inv.written, h.inv.discarded⟩
  · exact fun _ inside => absurd inside List.not_mem_nil
  · exact fun _ inside => absurd inside List.not_mem_nil
  · exact fun _ inside => absurd inside List.not_mem_nil
  · exact fun _ inside => absurd inside List.not_mem_nil
  · intro u c found
    have absent : store.lookupClient u = none := by
      rw [same]
      exact Map.get_empty u
    simp only [State.restarted, absent] at found
    cases found

/-- **Every step and every restart keeps track of the messages.** -/
theorem advance (h : Kept P s) {e : Event} {s' : State} (advanced : State.advance P ttlSeconds s e = some s') :
    Kept P s' := by
  rcases State.advance_cases advanced with ⟨l, rfl, stepped⟩ | ⟨io, store, rfl, started, rfl⟩
  · have grows := Grows.step stepped
    have inv := h.inv.step stepped
    refine ⟨inv, grows.allRows h.rows ?_ inv.rows⟩
    rintro row below ⟨m, reads, valid, tracked⟩
    refine ⟨m, ?_, valid, ?_⟩
    · rw [grows.key]
      exact reads
    · rw [grows.owner _ below]
      exact grows.tracked tracked
  · exact h.restarted started

end Kept

end SpectreRelay.Server.Delivery
