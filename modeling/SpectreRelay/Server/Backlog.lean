import SpectreRelay.Lib.Bag
import SpectreRelay.Lib.Runs
import SpectreRelay.Server.Reference
import SpectreRelay.Server.StoreImage

/-!
# The offline queue over restarts and crashes

The storage calls that `deliver`, `FlushQueue` and the purge make, as steps of
one machine, with every system call inside them free to fail. The process can
end between two steps or inside the file replacement of one, and a new one then
starts on the files. A crash after the rename and before the call returns
leaves what the finished call leaves: it is that call followed by `restart`.

The state keeps history that the relay does not have: which message a row came
from, when each message was first inserted and what was stored last, and which
messages were written. No step depends on it.
-/

namespace SpectreRelay.Server.Backlog
set_option autoImplicit false
open Lib Model

/-- A `FlushQueue`: what it drained and has not written yet, and whether a write failed, so that it puts them back. -/
structure Flush where
  userID : Bytes
  failed : Bool
  pending : List (Nat × QueuedMessage)

/-- A message that was inserted: the reading of its first insertion, and what its last insertion stored. -/
structure Record where
  first : Time
  msg : QueuedMessage

structure State where
  store : Store
  flushes : List Flush
  /-- The latest reading of the clock. -/
  clock : Time
  /-- The recipients of the messages that `deliver` gave to `Enqueue`; a message's number is its position. -/
  recipients : List Bytes
  /-- The message that the row with this number came from. -/
  owner : Nat → Nat
  record : Nat → Option Record
  written : List Nat

/-- The steps of the process. A flush is named by its position. -/
inductive Op where
  | enqueue (recipientID : Bytes) (m : QueuedMessage) (io : Store.EnqueueIo)
  | drain (userID : Bytes) (io : Store.DrainIo)
  | write (j : Nat) (fails : Bool)
  | requeue (j : Nat) (io : Store.EnqueueIo)
  | purge (now : Time) (fails : Bool) (io : PersistIo)

/-- The step with its file replacement cut off at `point`. -/
def Op.dying (point : PersistStep) : Op → Op
  | enqueue r m io => enqueue r m { io with persist := ⟨io.persist.nonce, some point⟩ }
  | drain u io => drain u { io with persist := ⟨io.persist.nonce, some point⟩ }
  | write j fails => write j fails
  | requeue j io => requeue j { io with persist := ⟨io.persist.nonce, some point⟩ }
  | purge now fails io => purge now fails ⟨io.nonce, some point⟩

inductive Label where
  | op (o : Op)
  /-- The process ends between two steps and is started again. -/
  | restart (now : Time) (io : Store.StartIo)
  /-- The process ends inside the file replacement of a step and is started again. -/
  | crash (o : Op) (point : PersistStep) (now : Time) (io : Store.StartIo)

/-- The later of two readings. -/
def later (a b : Time) : Time := if a ≤ b then b else a

theorem later_seconds (a b : Time) : a.seconds ≤ (later a b).seconds ∧ b.seconds ≤ (later a b).seconds := by
  unfold later
  split
  · rename_i order
    exact ⟨Time.seconds_mono order, le_refl _⟩
  · rename_i order
    exact ⟨le_refl _, Time.seconds_mono (Nat.le_of_not_le order)⟩

namespace State

variable (P : Platform) (ttlSeconds : Int64)

/-- The history of a message once `m` is inserted for it at `now`. -/
def recorded (s : State) (id : Nat) (m : QueuedMessage) (now : Time) : Record where
  first := ((s.record id).map Record.first).getD now
  msg := (m.stamp (now.addUnix s.store.ttl)).sanitize

/-- One `Enqueue` of the message with number `id`. -/
def enqueue (s : State) (id : Nat) (r : Bytes) (m : QueuedMessage) (io : Store.EnqueueIo) : State :=
  { s with
    store := s.store.enqueue P r m io
    clock := later (later s.clock io.deleteAt) io.now
    owner := if Store.Inserts s.store.table r io then Function.update s.owner s.store.table.next id else s.owner
    record :=
      if Store.Inserts s.store.table r io then Function.update s.record id (some (s.recorded id m io.now))
      else s.record }

/-- What `DrainQueue` returns, with the numbers of the messages. -/
def returned (s : State) (userID : Bytes) (io : Store.DrainIo) : List (Nat × QueuedMessage) :=
  if Store.Commits io then (s.store.drainedRows P userID io).map fun row => (s.owner row.1, row.2) else []

/-- One step of the process. -/
def act (s : State) : Op → Option State
  | .enqueue r m io =>
    -- `Route` and `handleFederationDeliver` fill exactly one envelope
    if m.Single then some (enqueue P { s with recipients := s.recipients ++ [r] } s.recipients.length r m io) else none
  | .drain userID io =>
    some { s with
      store := (s.store.drainQueue P userID io).1
      flushes := ⟨userID, false, s.returned P userID io⟩ :: s.flushes
      clock := later s.clock io.now }
  | .write j fails =>
    match pick s.flushes j with
    | some (⟨userID, false, (id, m) :: left⟩, rest) =>
      match marshalQueued m, fails with
      | none, _ => some { s with flushes := ⟨userID, false, left⟩ :: rest }
      | some _, false => some { s with flushes := ⟨userID, false, left⟩ :: rest, written := s.written ++ [id] }
      | some _, true => some { s with flushes := ⟨userID, true, (id, m) :: left⟩ :: rest }
    | _ => none
  | .requeue j io =>
    match pick s.flushes j with
    | some (⟨userID, true, (id, m) :: left⟩, rest) =>
      some (enqueue P { s with flushes := ⟨userID, true, left⟩ :: rest } id userID m io)
    | _ => none
  | .purge now fails io =>
    some { s with store := s.store.purgeExpired P now fails io, clock := later s.clock now }

/-- A new process on the files that `disk` left behind. -/
def reload (s : State) (disk : Disk) (now : Time) (io : Store.StartIo) : Option State :=
  match (Store.newStore P disk ttlSeconds io).2 with
  | .ok store => some { s with store, flushes := [], clock := later s.clock now }
  | .error _ => none

def step (s : State) : Label → Option State
  | .op o => s.act P o
  | .restart now io => s.reload P ttlSeconds s.store.disk now io
  | .crash o point now io => (s.act P (o.dying point)).bind fun cut => s.reload P ttlSeconds cut.store.disk now io

/-- A relay that was just started on an empty queue. -/
def init (store : Store) (now : Time) : State where
  store
  flushes := []
  clock := now
  recipients := []
  owner := fun _ => 0
  record := fun _ => none
  written := []

/-! ## What a step can do -/

/-- The steps of the process by their effects. -/
inductive Acts (s : State) : Op → State → Prop where
  | enqueue {r : Bytes} {m : QueuedMessage} {io : Store.EnqueueIo} (single : m.Single) :
      Acts s (.enqueue r m io)
        (State.enqueue P { s with recipients := s.recipients ++ [r] } s.recipients.length r m io)
  | drain {userID : Bytes} {io : Store.DrainIo} :
      Acts s (.drain userID io) { s with
        store := (s.store.drainQueue P userID io).1
        flushes := ⟨userID, false, s.returned P userID io⟩ :: s.flushes
        clock := later s.clock io.now }
  | skipped {j id : Nat} {fails : Bool} {userID : Bytes} {m : QueuedMessage} {left : List (Nat × QueuedMessage)}
      {rest : List Flush} (picked : pick s.flushes j = some (⟨userID, false, (id, m) :: left⟩, rest))
      (text : marshalQueued m = none) :
      Acts s (.write j fails) { s with flushes := ⟨userID, false, left⟩ :: rest }
  | wrote {j id : Nat} {userID : Bytes} {m : QueuedMessage} {left : List (Nat × QueuedMessage)}
      {rest : List Flush} (picked : pick s.flushes j = some (⟨userID, false, (id, m) :: left⟩, rest)) :
      Acts s (.write j false) { s with flushes := ⟨userID, false, left⟩ :: rest, written := s.written ++ [id] }
  | failed {j id : Nat} {userID : Bytes} {m : QueuedMessage} {left : List (Nat × QueuedMessage)}
      {rest : List Flush} (picked : pick s.flushes j = some (⟨userID, false, (id, m) :: left⟩, rest)) :
      Acts s (.write j true) { s with flushes := ⟨userID, true, (id, m) :: left⟩ :: rest }
  | requeue {j id : Nat} {userID : Bytes} {m : QueuedMessage} {left : List (Nat × QueuedMessage)}
      {rest : List Flush} {io : Store.EnqueueIo}
      (picked : pick s.flushes j = some (⟨userID, true, (id, m) :: left⟩, rest)) :
      Acts s (.requeue j io) (State.enqueue P { s with flushes := ⟨userID, true, left⟩ :: rest } id userID m io)
  | purge {now : Time} {fails : Bool} {io : PersistIo} :
      Acts s (.purge now fails io) { s with
        store := s.store.purgeExpired P now fails io
        clock := later s.clock now }

variable {P ttlSeconds}

theorem act_cases {s s' : State} {o : Op} (h : act P s o = some s') : Acts P s o s' := by
  cases o with
  | enqueue r m io =>
    simp only [act] at h
    split at h
    · rename_i single; cases h; exact .enqueue single
    · cases h
  | drain userID io => cases h; exact .drain
  | write j fails =>
    simp only [act] at h
    split at h
    · rename_i picked
      split at h
      · rename_i text; cases h; exact .skipped picked text
      · cases h; exact .wrote picked
      · cases h; exact .failed picked
    · cases h
  | requeue j io =>
    simp only [act] at h
    split at h
    · rename_i picked; cases h; exact .requeue picked
    · cases h
  | purge now fails io => cases h; exact .purge

theorem reload_some {s s' : State} {disk : Disk} {now : Time} {io : Store.StartIo}
    (h : s.reload P ttlSeconds disk now io = some s') :
    ∃ store, (Store.newStore P disk ttlSeconds io).2 = .ok store ∧
      s' = { s with store, flushes := [], clock := later s.clock now } := by
  unfold reload at h
  split at h
  · rename_i store started
    cases h
    exact ⟨store, started, rfl⟩
  · cases h

/-- A step whose file replacement is cut off leaves the files as they were. -/
theorem act_dying_disk {s cut : State} {o : Op} {point : PersistStep} (h : act P s (o.dying point) = some cut) :
    cut.store.disk = s.store.disk := by
  cases o with
  | enqueue r m io =>
    simp only [Op.dying, act] at h
    split at h
    · cases h
      exact Store.enqueue_fault_disk ..
    · cases h
  | drain u io =>
    cases h
    exact Store.drainQueue_fault_disk ..
  | write j fails =>
    cases act_cases h <;> rfl
  | requeue j io =>
    simp only [Op.dying, act] at h
    split at h
    · cases h
      exact Store.enqueue_fault_disk ..
    · cases h
  | purge now fails io =>
    cases h
    exact Store.purgeExpired_fault_disk ..

/-- **Restarts.** However the process ends, the next one starts on the files of the last finished step. -/
theorem step_cases {s s' : State} {l : Label} (h : step P ttlSeconds s l = some s') :
    (∃ o, l = .op o ∧ Acts P s o s') ∨
      ∃ now io, (l = .restart now io ∨ ∃ o point, l = .crash o point now io) ∧
        ∃ store, (Store.newStore P s.store.disk ttlSeconds io).2 = .ok store ∧
          s' = { s with store, flushes := [], clock := later s.clock now } := by
  cases l with
  | op o => exact .inl ⟨o, rfl, act_cases h⟩
  | restart now io => exact .inr ⟨now, io, .inl rfl, reload_some h⟩
  | crash o point now io =>
    obtain ⟨cut, acted, reloaded⟩ := Option.bind_eq_some_iff.1 h
    rw [act_dying_disk acted] at reloaded
    exact .inr ⟨now, io, .inr ⟨o, point, rfl⟩, reload_some reloaded⟩

/-- What a drain returns are the messages of the source's `DrainQueue`. -/
theorem returned_messages (s : State) (userID : Bytes) (io : Store.DrainIo) :
    (s.returned P userID io).map Prod.snd = (s.store.drainQueue P userID io).2 := by
  rw [Store.drainQueue_eq, returned]
  split
  · rw [List.map_map]; rfl
  · split <;> rfl

/-! ## Flushes in one go -/

/-- Putting messages back with nothing in between is the source's loop. -/
theorem requeue_steps (userID : Bytes) (io : Nat → Store.EnqueueIo) (pending : List (Nat × QueuedMessage)) (i : Nat)
    (s : State) {rest : List Flush} (here : s.flushes = ⟨userID, true, pending⟩ :: rest) :
    ∃ ops s', run (act P) s ops = some s' ∧
      s'.store = Server.requeue P userID io i (pending.map Prod.snd) s.store := by
  induction pending generalizing i s with
  | nil => exact ⟨[], s, rfl, rfl⟩
  | cons head left ih =>
    obtain ⟨id, m⟩ := head
    have picked : pick s.flushes 0 = some (⟨userID, true, (id, m) :: left⟩, rest) := by rw [here]; rfl
    obtain ⟨ops, s', reached, same⟩ :=
      ih (i + 1) (enqueue P { s with flushes := ⟨userID, true, left⟩ :: rest } id userID m (io i)) rfl
    refine ⟨.requeue 0 (io i) :: ops, s', ?_, same⟩
    simp only [run, act, picked, Option.bind_some]
    exact reached

/-- Writing what was drained with nothing in between is the source's loop. -/
theorem flush_steps (userID : Bytes) (fails : Nat → Bool) (io : Nat → Store.EnqueueIo)
    (pending : List (Nat × QueuedMessage)) (i : Nat) (s : State) {rest : List Flush}
    (here : s.flushes = ⟨userID, false, pending⟩ :: rest) :
    ∃ ops s', run (act P) s ops = some s' ∧
      s'.store = (flushLoop P userID fails io i (pending.map Prod.snd) s.store).1 := by
  induction pending generalizing i s with
  | nil => exact ⟨[], s, rfl, rfl⟩
  | cons head left ih =>
    obtain ⟨id, m⟩ := head
    have picked : pick s.flushes 0 = some (⟨userID, false, (id, m) :: left⟩, rest) := by rw [here]; rfl
    cases text : marshalQueued m with
    | none =>
      obtain ⟨ops, s', reached, same⟩ := ih (i + 1) { s with flushes := ⟨userID, false, left⟩ :: rest } rfl
      refine ⟨.write 0 false :: ops, s', ?_, ?_⟩
      · simp only [run, act, picked, text, Option.bind_some]
        exact reached
      · simp only [List.map_cons, flushLoop, text]
        exact same
    | some frame =>
      cases broken : fails i with
      | true =>
        obtain ⟨ops, s', reached, same⟩ := requeue_steps (P := P) userID io ((id, m) :: left) i
          { s with flushes := ⟨userID, true, (id, m) :: left⟩ :: rest } rfl
        refine ⟨.write 0 true :: ops, s', ?_, ?_⟩
        · simp only [run, act, picked, text, Option.bind_some]
          exact reached
        · simp only [List.map_cons, flushLoop, text, broken, if_true]
          exact same
      | false =>
        obtain ⟨ops, s', reached, same⟩ :=
          ih (i + 1) { s with flushes := ⟨userID, false, left⟩ :: rest, written := s.written ++ [id] } rfl
        refine ⟨.write 0 false :: ops, s', ?_, ?_⟩
        · simp only [run, act, picked, text, Option.bind_some]
          exact reached
        · simp only [List.map_cons, flushLoop, text, broken, Bool.false_eq_true, if_false]
          exact same

/-- **The steps are `FlushQueue`.** One drain followed by its writes, with nothing in between. -/
theorem flushQueue_steps (s : State) (userID : Bytes) (drain : Store.DrainIo) (fails : Nat → Bool)
    (io : Nat → Store.EnqueueIo) :
    ∃ ops s', run (act P) s ops = some s' ∧ s'.store = (flushQueue P s.store userID drain fails io).1 := by
  obtain ⟨ops, s', reached, same⟩ := flush_steps (P := P) userID fails io (s.returned P userID drain) 0
    { s with
      store := (s.store.drainQueue P userID drain).1
      flushes := ⟨userID, false, s.returned P userID drain⟩ :: s.flushes
      clock := later s.clock drain.now } rfl
  refine ⟨.drain userID drain :: ops, s', reached, ?_⟩
  rw [same, returned_messages]
  rfl

/-! ## One `Enqueue` -/

section Enqueue

variable (s : State) (id : Nat) (r : Bytes) (m : QueuedMessage) (io : Store.EnqueueIo)

/-- Rows keep the message they came from. -/
theorem enqueue_owner {n : Nat} (below : n < s.store.table.next) : (enqueue P s id r m io).owner n = s.owner n := by
  simp only [enqueue]
  split
  · exact Function.update_of_ne (Nat.ne_of_lt below) _ _
  · rfl

theorem enqueue_key : (enqueue P s id r m io).store.key = s.store.key := Store.enqueue_key_any ..

theorem enqueue_record_other {k : Nat} (other : k ≠ id) : (enqueue P s id r m io).record k = s.record k := by
  simp only [enqueue]
  split
  · exact Function.update_of_ne other _ _
  · rfl

/-- The time of the first insertion stays. -/
theorem enqueue_record {k : Nat} {rec : Record} (found : s.record k = some rec) :
    ∃ rec', (enqueue P s id r m io).record k = some rec' ∧ rec'.first = rec.first := by
  by_cases same : k = id
  · subst same
    simp only [enqueue]
    split
    · refine ⟨_, Function.update_self .., ?_⟩
      simp [recorded, found]
    · exact ⟨rec, found, rfl⟩
  · rw [enqueue_record_other s id r m io same]
    exact ⟨rec, found, rfl⟩

variable {s r io}

theorem enqueue_inserted (inserts : Store.Inserts s.store.table r io) :
    (enqueue P s id r m io).owner s.store.table.next = id ∧
      (enqueue P s id r m io).record id = some (s.recorded id m io.now) := by
  simp only [enqueue, inserts, if_true]
  exact ⟨Function.update_self .., Function.update_self ..⟩

end Enqueue

end State

/-! ## What the queue holds -/

/-- A row belongs to a message that was inserted, for its recipient, and decodes to one with one envelope. -/
def Owned (P : Platform) (s : State) (row : Nat × QueueRow) : Prop :=
  (∃ m, Store.readPayload P s.store.key row.2.payload = some m ∧ m.Single) ∧
    s.recipients[s.owner row.1]? = some row.2.recipientID ∧ ∃ rec, s.record (s.owner row.1) = some rec

/-- The rows in memory and on disk and the messages of flushes are messages that were inserted. -/
structure Inv (P : Platform) (s : State) : Prop where
  rows : Store.AllRows P (Owned P s) s.store
  pending : ∀ f ∈ s.flushes, ∀ p ∈ f.pending,
    p.2.Single ∧ s.recipients[p.1]? = some f.userID ∧ ∃ rec, s.record p.1 = some rec
  recorded : ∀ id rec, s.record id = some rec → id < s.recipients.length

namespace Inv

variable {P : Platform} {ttlSeconds : Int64} {s : State}

theorem init {store : Store} (rows : ∀ Q, Store.AllRows P Q store) (now : Time) : Inv P (State.init store now) where
  rows := rows _
  pending := fun _ inside => absurd inside List.not_mem_nil
  recorded := nofun

/-- A new message gets the next number. -/
theorem hand (h : Inv P s) (r : Bytes) : Inv P { s with recipients := s.recipients ++ [r] } where
  rows := h.rows.mono fun _ _ ⟨reads, mine, inserted⟩ => ⟨reads, getElem?_grown mine _, inserted⟩
  pending f inside p waiting := by
    obtain ⟨single, mine, inserted⟩ := h.pending f inside p waiting
    exact ⟨single, getElem?_grown mine _, inserted⟩
  recorded id rec found := by
    have below := h.recorded id rec found
    simp only [List.length_append, List.length_singleton]
    omega

theorem enqueue (h : Inv P s) {id : Nat} {r : Bytes} {m : QueuedMessage} (mine : s.recipients[id]? = some r)
    (single : m.Single) (io : Store.EnqueueIo) : Inv P (State.enqueue P s id r m io) where
  rows := by
    refine Store.AllRows.enqueued (h.rows.mono ?_) (Store.enqueue_cases ..) ?_
    · rintro row below ⟨reads, own, rec, found⟩
      obtain ⟨rec', found', _⟩ := s.enqueue_record (P := P) id r m io found
      unfold Owned
      rw [s.enqueue_owner id r m io below, s.enqueue_key]
      exact ⟨reads, own, rec', found'⟩
    · intro inserts nonce
      obtain ⟨own, found⟩ := State.enqueue_inserted (P := P) id m inserts
      unfold Owned
      rw [own, s.enqueue_key]
      exact ⟨⟨_, Store.readPayload_encrypt .., single_stored single _⟩, mine, _, found⟩
  pending f inside p waiting := by
    obtain ⟨one, own, rec, found⟩ := h.pending f inside p waiting
    obtain ⟨rec', found', _⟩ := s.enqueue_record (P := P) id r m io found
    exact ⟨one, own, rec', found'⟩
  recorded k rec found := by
    by_cases same : k = id
    · rw [same]
      exact (List.getElem?_eq_some_iff.1 mine).1
    · rw [State.enqueue_record_other s id r m io same] at found
      exact h.recorded k rec found

/-- A flush goes on with fewer messages, or starts to put them back. -/
theorem proceed (h : Inv P s) {j : Nat} {userID : Bytes} {failed failed' : Bool} {rest : List Flush}
    {pending left : List (Nat × QueuedMessage)} (picked : pick s.flushes j = some (⟨userID, failed, pending⟩, rest))
    (fewer : ∀ p ∈ left, p ∈ pending) : Inv P { s with flushes := ⟨userID, failed', left⟩ :: rest } := by
  refine ⟨h.rows, ?_, h.recorded⟩
  intro f inside p waiting
  rcases List.mem_cons.1 inside with rfl | old
  · have before := h.pending _ (mem_of_pick picked) p (fewer p waiting)
    exact before
  · exact h.pending f (mem_of_pick_rest picked old) p waiting

/-- What a drain returns comes from rows. -/
theorem returned (h : Inv P s) {userID : Bytes} {io : Store.DrainIo} {p : Nat × QueuedMessage}
    (inside : p ∈ s.returned P userID io) :
    ∃ n row, (n, row) ∈ s.store.table.rows ∧ s.owner n = p.1 ∧ row.recipientID = userID ∧
      Store.expired io.now row = false ∧ Store.readPayload P s.store.key row.payload = some p.2 ∧ p.2.Single := by
  unfold State.returned at inside
  split at inside
  · obtain ⟨⟨n, m⟩, drained, rfl⟩ := List.mem_map.1 inside
    obtain ⟨row, stored, mine, live, decoded⟩ := Store.mem_drainedRows drained
    obtain ⟨m', decoded', single⟩ := (h.rows.memory _ stored).1
    rw [decoded] at decoded'
    cases decoded'
    exact ⟨n, row, stored, rfl, mine, live, decoded, single⟩
  · cases inside

/-- **Every step of the process keeps the invariant.** -/
theorem act (h : Inv P s) {o : Op} {s' : State} (acts : State.Acts P s o s') : Inv P s' := by
  cases acts with
  | enqueue single => exact (h.hand _).enqueue (by simp) single _
  | @drain userID io =>
    refine ⟨?_, ?_, h.recorded⟩
    · refine (h.rows.drainQueue userID io).mono fun row _ ⟨reads, rest⟩ => ⟨?_, rest⟩
      rw [Store.drainQueue_key_any]
      exact reads
    · intro f inside p waiting
      rcases List.mem_cons.1 inside with rfl | old
      · obtain ⟨n, row, stored, own, mine, _, _, single⟩ := h.returned waiting
        obtain ⟨_, recipient, inserted⟩ := h.rows.memory _ stored
        rw [← own, ← mine]
        exact ⟨single, recipient, inserted⟩
      · exact h.pending f old p waiting
  | skipped picked text => exact h.proceed picked fun _ => List.mem_cons_of_mem _
  | @wrote _ _ userID _ left rest picked =>
    have moved : Inv P { s with flushes := ⟨userID, false, left⟩ :: rest } :=
      h.proceed picked fun _ => List.mem_cons_of_mem _
    exact ⟨moved.rows, moved.pending, moved.recorded⟩
  | failed picked => exact h.proceed picked fun _ inside => inside
  | requeue picked =>
    obtain ⟨single, mine, _⟩ := h.pending _ (mem_of_pick picked) _ List.mem_cons_self
    exact (h.proceed picked fun _ => List.mem_cons_of_mem _).enqueue mine single _
  | @purge now fails io =>
    refine ⟨(h.rows.purgeExpired now fails io).mono fun row _ ⟨reads, rest⟩ => ⟨?_, rest⟩, h.pending, h.recorded⟩
    rw [Store.purgeExpired_key_any]
    exact reads

/-- A new process finds the rows of the file. -/
theorem reload (h : Inv P s) {now : Time} {io : Store.StartIo} {store : Store}
    (started : (Store.newStore P s.store.disk ttlSeconds io).2 = .ok store) :
    Inv P { s with store, flushes := [], clock := later s.clock now } := by
  obtain ⟨t, image, _⟩ := h.rows.image
  have key : store.key = s.store.key := by rw [image.newStore started]
  refine ⟨(h.rows.newStore started).mono fun row _ ⟨reads, rest⟩ => ⟨?_, rest⟩, ?_, h.recorded⟩
  · rw [key]
    exact reads
  · exact fun _ inside => absurd inside List.not_mem_nil

theorem step (h : Inv P s) {l : Label} {s' : State} (stepped : State.step P ttlSeconds s l = some s') : Inv P s' := by
  rcases State.step_cases stepped with ⟨o, _, acts⟩ | ⟨now, io, _, store, started, rfl⟩
  · exact h.act acts
  · exact h.reload started

end Inv

/-- A reading of the label does not precede `clock` or an earlier one of the same label. -/
def Label.Follows (clock : Time) : Label → Prop
  | op (.enqueue _ _ io) => clock ≤ io.deleteAt ∧ io.deleteAt ≤ io.now
  | op (.drain _ io) => clock ≤ io.now
  | op (.write _ _) => True
  | op (.requeue _ io) => clock ≤ io.deleteAt ∧ io.deleteAt ≤ io.now
  | op (.purge now _ _) => clock ≤ now
  | restart now _ => clock ≤ now
  | crash _ _ now _ => clock ≤ now

instance (clock : Time) (l : Label) : Decidable (l.Follows clock) := by
  cases l with
  | op o => cases o <;> unfold Label.Follows <;> infer_instance
  | restart now io => unfold Label.Follows; infer_instance
  | crash o point now io => unfold Label.Follows; infer_instance

end SpectreRelay.Server.Backlog
