import SpectreRelay.Server.Tracking

/-!
# No message is lost or delivered twice

`held s id` counts the places where call number `id` is: unfinished calls, rows,
pending parts of flushes, written frames and discarded messages. Every step
moves a message from one place to another, so the count of a call that was made
stays one (`Conserved.step`). With the tracking invariant this says where each
message is (`message_conserved`).
-/

namespace SpectreRelay.Server.Delivery
set_option autoImplicit false
open Lib Model

/-- Where a message can be. -/
inductive Place where
  /-- In an unfinished `deliver` call for this recipient. -/
  | call (recipientID : Bytes)
  /-- In a row of this recipient's queue. -/
  | row (recipientID : Bytes)
  /-- In the undelivered part of the flush of this session. -/
  | flush (userID : Bytes) (conn : Conn)
  /-- Written to this connection. -/
  | written (conn : Conn)
  | discarded (reason : Discard)

namespace State

/-- Every message of the state, with its place. -/
def tokens (s : State) : List (Nat × Place) :=
  s.calls.map (fun c => (c.id, .call c.recipientID)) ++
  (s.store.table.rows.map (fun row => (s.owner row.1, .row row.2.recipientID)) ++
  (s.sessions.flatMap (fun ss => ss.phase.pending.map fun p => (p.1, .flush ss.userID ss.conn)) ++
  (s.written.map (fun w => (w.id, .written w.conn)) ++
  s.discarded.map fun d => (d.1, .discarded d.2))))

/-- The places of one message. -/
def places (s : State) (id : Nat) : List Place :=
  (s.tokens.filter fun token => token.1 = id).map Prod.snd

def callIds (s : State) : List Nat := s.calls.map Call.id

def rowIds (s : State) : List Nat := s.store.table.rows.map fun row => s.owner row.1

def pendingIds (s : State) : List Nat := s.sessions.flatMap fun ss => ss.phase.pending.map Prod.fst

def writtenIds (s : State) : List Nat := s.written.map Written.id

def discardedIds (s : State) : List Nat := s.discarded.map Prod.fst

/-- In how many places a message is. -/
def held (s : State) (id : Nat) : Nat :=
  s.callIds.count id + s.rowIds.count id + s.pendingIds.count id + s.writtenIds.count id + s.discardedIds.count id

theorem tokens_ids (s : State) : s.tokens.map Prod.fst =
    s.callIds ++ (s.rowIds ++ (s.pendingIds ++ (s.writtenIds ++ s.discardedIds))) := by
  simp [tokens, callIds, rowIds, pendingIds, writtenIds, discardedIds, List.map_flatMap, Function.comp_def]

theorem places_length (s : State) (id : Nat) : (s.places id).length = s.held id := by
  have count : (s.places id).length = (s.tokens.map Prod.fst).count id := by
    rw [places, List.length_map, List.count, List.countP_map, List.countP_eq_length_filter]
    congr 1
  rw [count, tokens_ids]
  simp only [List.count_append, held]
  omega

end State

/-- Each call that was made is in one place, and nothing else is anywhere. -/
def Conserved (s : State) : Prop := ∀ id, s.held id = if id < s.handed.length then 1 else 0

namespace State

variable {P : Platform} {s : State}

/-- A row that is deleted as expired is recorded. -/
theorem rowIds_delete (s : State) (p : QueueRow → Bool) (now : Time) (id : Nat) :
    s.rowIds.count id = ((s.expiries p now).map Prod.fst).count id +
      ((s.store.table.delete p).rows.map fun row => s.owner row.1).count id := by
  have parts := count_map_filter s.store.table.rows (fun row => p row.2) (fun row => s.owner row.1) id
  simpa [rowIds, expiries, Table.select, Table.delete, Function.comp_def] using parts

/-- An `Enqueue` puts its message in one more place and moves others. -/
theorem held_enqueue (s : State) (id : Nat) (r : Bytes) (m : QueuedMessage) (t : Stamp) (other : Nat) :
    (State.enqueue P s id r m t).held other = s.held other + [id].count other := by
  have purged : s.rowIds.count other = ((s.expiries (fun row => row.recipientID = r ∧
      Store.expired t.deleteAt row) t.deleteAt).map Prod.fst).count other +
      ((Store.purgeOf s.store.table r t.deleteAt).rows.map fun row => s.owner row.1).count other :=
    s.rowIds_delete _ _ _
  by_cases full : Store.Full s.store.table r t.deleteAt
  · simp only [held, callIds, pendingIds, writtenIds, discardedIds, rowIds, State.enqueue, Stamp.io,
      Store.enqueue_table, full, if_true, List.map_append, List.count_append, List.map_cons, List.map_nil] at purged ⊢
    omega
  · have old : ((Store.purgeOf s.store.table r t.deleteAt).rows.map fun row =>
        Function.update s.owner s.store.table.next id row.1) =
        (Store.purgeOf s.store.table r t.deleteAt).rows.map fun row => s.owner row.1 := by
      apply List.map_congr_left
      intro row inside
      have below := s.store.table.below row (List.mem_filter.1 inside).1
      exact Function.update_of_ne (Nat.ne_of_lt below) _ _
    have new : Function.update s.owner s.store.table.next id (Store.purgeOf s.store.table r t.deleteAt).next = id :=
      Function.update_self ..
    simp only [held, callIds, pendingIds, writtenIds, discardedIds, rowIds, State.enqueue, Stamp.io,
      Store.enqueue_table, full, if_false, List.map_append, List.count_append, List.append_nil, Table.insert,
      List.map_cons, List.map_nil, old, new] at purged ⊢
    omega

/-- A call that goes on is still one call. -/
theorem held_advance {i n : Nat} {r : Bytes} {m : QueuedMessage} {stage next : Stage} {rest : List Call}
    (picked : pick s.calls i = some (⟨n, r, m, stage⟩, rest)) (id : Nat) :
    held { s with calls := ⟨n, r, m, next⟩ :: rest } id = s.held id := by
  have calls := count_pick picked Call.id id
  simp only [held, callIds, List.map_cons, List.count_cons, List.count_nil] at calls ⊢
  rw [calls]
  simp only [rowIds, pendingIds, writtenIds, discardedIds]
  omega

theorem held_finish {i : Nat} {c : Call} {rest : List Call} (picked : pick s.calls i = some (c, rest)) (id : Nat) :
    held { s with calls := rest } id + [c.id].count id = s.held id := by
  have calls := count_pick picked Call.id id
  simp only [held, callIds, rowIds, pendingIds, writtenIds, discardedIds] at calls ⊢
  omega

theorem held_write (s : State) (n : Nat) (conn : Conn) (frame : Bytes) (id : Nat) :
    held { s with written := s.written ++ [⟨n, conn, frame⟩] } id = s.held id + [n].count id := by
  simp only [held, callIds, rowIds, pendingIds, writtenIds, discardedIds, List.map_append, List.count_append,
    List.map_cons, List.map_nil]
  omega

/-- A session that goes on trades what its flush held for what it holds now. -/
theorem held_proceed {j : Nat} {conn : Conn} {userID : Bytes} {phase : Phase} {rest : List Session}
    (picked : pick s.sessions j = some (⟨conn, userID, phase⟩, rest)) (next : Phase) (id : Nat) :
    held { s with sessions := ⟨conn, userID, next⟩ :: rest } id + (phase.pending.map Prod.fst).count id =
      s.held id + (next.pending.map Prod.fst).count id := by
  have pending := count_flatMap_pick picked (fun ss => ss.phase.pending.map Prod.fst) id
  simp only [held, callIds, rowIds, pendingIds, writtenIds, discardedIds, List.flatMap_cons, List.count_append]
    at pending ⊢
  omega

/-- A drain takes the live rows of a user out and records the others as expired. -/
theorem held_drain (h : Inv P s) (userID : Bytes) (now : Time) (fileNonce : Block 12) (id : Nat) :
    held { s with
      store := (s.store.drainQueue P userID (.clean now fileNonce)).1
      discarded := s.discarded ++ s.expiries (fun row => row.recipientID = userID ∧ Store.expired now row) now } id +
      ((s.store.drainedRows P userID (.clean now fileNonce)).map fun row => s.owner row.1).count id = s.held id := by
  have decodes : ∀ row ∈ s.store.table.rows, ∃ m, Store.readPayload P s.store.key row.2.payload = some m :=
    fun row inside => (h.rows row inside).imp fun _ both => both.1
  let mine := s.store.table.select fun row => row.recipientID = userID
  have numbers := congrArg (List.map s.owner) (Store.drainedRows_numbers decodes userID now fileNonce)
  rw [List.map_map, List.map_map] at numbers
  have dead : (s.expiries (fun row => row.recipientID = userID ∧ Store.expired now row) now).map Prod.fst =
      (mine.filter fun row => Store.expired now row.2).map fun row => s.owner row.1 := by
    simp only [expiries, mine, Table.select, List.filter_filter, List.map_map]
    congr 1
    apply List.filter_congr
    intro row _
    simp [Bool.and_comm]
  -- the rows are those of other users, and the live and the dead ones of this user
  have others := count_map_filter s.store.table.rows (fun row => decide (row.2.recipientID = userID))
    (fun row => s.owner row.1) id
  have parts := count_map_filter mine (fun row => Store.expired now row.2) (fun row => s.owner row.1) id
  have live : ((s.store.drainedRows P userID (.clean now fileNonce)).map fun row => s.owner row.1).count id =
      ((mine.filter fun row => !Store.expired now row.2).map fun row => s.owner row.1).count id :=
    congrArg (List.count id) numbers
  simp only [held, callIds, rowIds, pendingIds, writtenIds, discardedIds, Store.drainQueue_table, Table.delete,
    List.map_append, List.count_append, dead, live]
  simp only [mine, Table.select] at parts ⊢
  omega

theorem held_hand (s : State) (call : Option (Bytes × QueuedMessage)) (origin : Origin) (id : Nat) :
    (s.hand call origin).held id + (if id < s.handed.length then 1 else 0) =
      s.held id + if id < (s.hand call origin).handed.length then 1 else 0 := by
  rcases hand_cases s call origin with ⟨posts, same⟩ | ⟨r, m, name, _, _, same⟩
  · rw [same]
    rfl
  · rw [same]
    simp only [held, callIds, rowIds, pendingIds, writtenIds, discardedIds, List.map_cons, List.count_cons,
      List.length_append, List.length_singleton, beq_iff_eq]
    split <;> split <;> split <;> omega

/-- What one step adds to the count of a message is its being handed in. -/
theorem held_step (h : Inv P s) {l : Label} {s' : State} (stepped : State.step P s l = some s') (id : Nat) :
    s'.held id + (if id < s.handed.length then 1 else 0) = s.held id + if id < s'.handed.length then 1 else 0 := by
  cases State.step_cases stepped with
  | frame kind route => exact held_hand _ _ _ id
  | control => rfl
  | post => exact held_hand _ _ _ id
  | online picked found => exact congrArg (· + _) (held_advance picked id)
  | offline picked missing => exact congrArg (· + _) (held_advance picked id)
  | @wrote i n r frame m rest conn picked text =>
    have moved := held_write { s with calls := rest } n conn frame id
    exact congrArg (· + _) (moved.trans (held_finish picked id))
  | writeFailed picked reason => exact congrArg (· + _) (held_advance picked id)
  | @enqueue i n r m rest t picked =>
    have moved := held_enqueue (P := P) { s with calls := rest } n r m t id
    exact congrArg (· + _) (moved.trans (held_finish picked id))
  | register fresh => rfl
  | @drain j now fileNonce conn userID rest picked =>
    refine congrArg (· + _) ?_
    have flushing := held_proceed picked (.flush ((s.store.drainedRows P userID (.clean now fileNonce)).map
      fun row => (s.owner row.1, row.2))) id
    have proceeded : Inv P { s with sessions := ⟨conn, userID, .flush ((s.store.drainedRows P userID
        (.clean now fileNonce)).map fun row => (s.owner row.1, row.2))⟩ :: rest } := h.flushDrained picked
    have moved := held_drain proceeded userID now fileNonce id
    simp only [Phase.pending_flush, Phase.pending_registered, List.map_map, Function.comp_def, List.map_nil,
      List.count_nil] at flushing
    exact Nat.add_right_cancel (moved.trans flushing)
  | skipped picked text =>
    obtain ⟨frame, some⟩ := marshalQueued_single (h.pending _ (mem_of_pick picked) _ List.mem_cons_self).single
    rw [some] at text
    cases text
  | @flushed j n conn userID frame m left rest picked text =>
    have moved := held_write { s with sessions := ⟨conn, userID, .flush left⟩ :: rest } n conn frame id
    have before := held_proceed picked (.flush left) id
    simp only [Phase.pending_flush, Phase.pending_flushing, List.map_cons] at before
    rw [List.count_cons] at before
    refine congrArg (· + _) (moved.trans ?_)
    rw [List.count_singleton]
    omega
  | flushFailed picked =>
    exact congrArg (· + _) (Nat.add_right_cancel (held_proceed picked (.requeueing _) id))
  | @requeue j n conn userID m left rest t picked =>
    have moved := held_enqueue (P := P) { s with sessions := ⟨conn, userID, .requeue left⟩ :: rest } n userID m t id
    have before := held_proceed picked (.requeue left) id
    simp only [Phase.pending_requeue, Phase.pending_requeueing, List.map_cons] at before
    rw [List.count_cons] at before
    refine congrArg (· + _) (moved.trans ?_)
    rw [List.count_singleton]
    omega
  | unregister picked =>
    have pending := count_flatMap_pick picked (fun ss => ss.phase.pending.map Prod.fst) id
    refine congrArg (· + _) ?_
    simp only [held, callIds, rowIds, pendingIds, writtenIds, discardedIds, Store.unregister_table, pending,
      Phase.pending_serving, List.map_nil, List.count_nil, Nat.zero_add]
  | @purge now fileNonce =>
    have moved := s.rowIds_delete (Store.expired now) now id
    refine congrArg (· + _) ?_
    simp only [held, callIds, pendingIds, writtenIds, discardedIds, List.map_append, List.count_append, moved]
    simp only [rowIds, Store.purgeExpired_table]
    omega

end State

theorem Conserved.init (store : Store) (router : Router) : Conserved (State.init store router) := fun _ => rfl

theorem Conserved.step {P : Platform} {s s' : State} {l : Label} (h : Conserved s) (inv : Inv P s)
    (stepped : State.step P s l = some s') : Conserved s' := by
  intro id
  have moved := State.held_step inv stepped id
  have before := h id
  omega

/-- The place belongs to the call: the queue, flush or connection is its recipient's, and a discard has a reason. -/
def Place.Fits (s : State) (h : Handed) : Place → Prop
  | call r => r = h.recipientID
  | row r => r = h.recipientID
  | flush userID _ => userID = h.recipientID
  | written conn => (h.recipientID, conn) ∈ s.registered
  | discarded reason => reason.Justified

theorem Tracked.recipient {handed : List Handed} {id : Nat} {r : Bytes} {m : QueuedMessage} {h : Handed}
    (tracked : Tracked handed id r m) (found : handed[id]? = some h) : r = h.recipientID := by
  obtain ⟨h', found', mine, _⟩ := tracked
  rw [found] at found'
  cases found'
  exact mine.symm

/-- Wherever a message is, that place belongs to its call. -/
theorem Inv.fits {P : Platform} {s : State} (inv : Inv P s) {id : Nat} {place : Place} {h : Handed}
    (inside : (id, place) ∈ s.tokens) (found : s.handed[id]? = some h) : place.Fits s h := by
  simp only [State.tokens, List.mem_append, List.mem_map, List.mem_flatMap, Prod.mk.injEq] at inside
  rcases inside with ⟨c, listed, rfl, rfl⟩ | ⟨row, listed, rfl, rfl⟩ | ⟨ss, listed, p, waiting, rfl, rfl⟩ |
    ⟨w, listed, rfl, rfl⟩ | ⟨d, listed, rfl, rfl⟩
  · exact (inv.calls c listed).recipient found
  · obtain ⟨m, _, _, tracked⟩ := inv.rows row listed
    exact tracked.recipient found
  · exact (inv.pending ss listed p waiting).recipient found
  · obtain ⟨r, m, tracked, known, _⟩ := inv.written w listed
    rw [tracked.recipient found] at known
    exact known
  · exact inv.discarded d listed

/-- A message that is held once has one place, which belongs to it. -/
theorem Inv.only_place {P : Platform} {s : State} (inv : Inv P s) {id : Nat} {h : Handed} (handed : s.handed[id]? = some h)
    (once : s.held id = 1) : ∃ place, s.places id = [place] ∧ (id, place) ∈ s.tokens ∧ place.Fits s h := by
  rw [← s.places_length] at once
  obtain ⟨place, only⟩ := List.length_eq_one_iff.1 once
  have listed : place ∈ s.places id := by
    rw [only]
    exact List.mem_singleton_self _
  simp only [State.places, List.mem_map, List.mem_filter, decide_eq_true_eq] at listed
  obtain ⟨⟨_, _⟩, ⟨inside, rfl⟩, rfl⟩ := listed
  exact ⟨_, only, inside, inv.fits inside handed⟩

/-- A call that was made has one place. -/
theorem Inv.place {P : Platform} {s : State} (inv : Inv P s) (conserved : Conserved s) {id : Nat} {h : Handed}
    (handed : s.handed[id]? = some h) : ∃ place, s.places id = [place] ∧ (id, place) ∈ s.tokens ∧ place.Fits s h := by
  apply inv.only_place handed
  rw [conserved id, if_pos (List.getElem?_eq_some_iff.1 handed).1]

/-- **Message conservation.** In every reachable state, every message that was handed to `deliver` for a local user is
in exactly one place, and that place is one of its recipient's. -/
theorem message_conserved (P : Platform) (store : Store) (router : Router) (labels : List Label) (s : State)
    (reached : run (State.step P) (State.init store router) labels = some s) (id : Nat) (h : Handed)
    (handed : s.handed[id]? = some h) : ∃ place, s.places id = [place] ∧ place.Fits s h := by
  have both : Inv P s ∧ Conserved s :=
    run_invariant (P := fun s => Inv P s ∧ Conserved s)
      (fun _ _ _ before stepped => ⟨before.1.step stepped, before.2.step before.1 stepped⟩)
      ⟨.init store router, .init store router⟩ reached
  obtain ⟨place, only, -, fits⟩ := both.1.place both.2 handed
  exact ⟨place, only, fits⟩

/-- A message for an absent user: queued, then flushed to the connection the user opens. -/
theorem message_conserved_flushed :
    ∃ s h, run (State.step Reference.platform) (State.init Reference.store (.new 65536 60 (ascii "a")))
      [.frame (ascii "ann") (SealedEnvelope.marshal ⟨ascii "bob", [1], 0, [], []⟩) Reference.start, .lookup 0,
        .enqueue 0 .start, .register (ascii "bob") 7, .drain 0 Reference.start (.zeros 12), .flushWrite 0 false] = some s ∧
      s.handed[0]? = some h ∧ ∃ place, s.places 0 = [place] ∧ place.Fits s h := by
  have one : ((run (State.step Reference.platform) (State.init Reference.store (.new 65536 60 (ascii "a")))
      [.frame (ascii "ann") (SealedEnvelope.marshal ⟨ascii "bob", [1], 0, [], []⟩) Reference.start, .lookup 0,
        .enqueue 0 .start, .register (ascii "bob") 7, .drain 0 Reference.start (.zeros 12), .flushWrite 0 false]).map
      fun s => s.handed.length) = some 1 := by decide +kernel
  obtain ⟨s, reached, length⟩ := Option.map_eq_some_iff.1 one
  have handed : s.handed[0]? = some s.handed[0] := List.getElem?_eq_getElem (by omega)
  exact ⟨s, _, reached, handed, message_conserved _ _ _ _ s reached 0 _ handed⟩

end SpectreRelay.Server.Delivery
