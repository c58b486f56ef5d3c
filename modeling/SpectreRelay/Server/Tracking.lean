import SpectreRelay.Server.Delivery

/-!
# What the machine knows of each message

Whatever is in flight, queued, pending or written belongs to one `deliver` call
for a local user: it is for that call's recipient and its envelope is the one
handed in, up to the repair of malformed strings that storing it as JSON makes.
`Inv` says this of every part of the state, and every step keeps it.
-/

namespace SpectreRelay.Server.Delivery
set_option autoImplicit false
open Lib Model

/-- The same envelope, up to malformed strings. -/
def SameText (m m' : QueuedMessage) : Prop :=
  m.sanitize.sealed = m'.sanitize.sealed ∧ m.sanitize.opened = m'.sanitize.opened

theorem SameText.refl (m : QueuedMessage) : SameText m m := ⟨rfl, rfl⟩

/-- Storing a message under a new expiry keeps its envelope. -/
theorem SameText.stored {m m' : QueuedMessage} (h : SameText m m') (x : Int64) :
    SameText (m.stamp x).sanitize m' := by
  have twice : (m.stamp x).sanitize.sanitize = (m.stamp x).sanitize := (QueuedMessage.valid_sanitize _).sanitize
  unfold SameText
  rw [twice]
  exact h

/-- `m` is the message of call number `id`, for the recipient `r`. -/
def Tracked (handed : List Handed) (id : Nat) (r : Bytes) (m : QueuedMessage) : Prop :=
  ∃ h, handed[id]? = some h ∧ h.recipientID = r ∧ m.Single ∧ SameText m h.msg

namespace Tracked

variable {handed : List Handed} {id : Nat} {r : Bytes} {m : QueuedMessage}

theorem append (h : Tracked handed id r m) (more : List Handed) : Tracked (handed ++ more) id r m := by
  obtain ⟨call, found, rest⟩ := h
  exact ⟨call, getElem?_grown found more, rest⟩

theorem stored (h : Tracked handed id r m) (x : Int64) : Tracked handed id r (m.stamp x).sanitize := by
  obtain ⟨call, found, mine, single, same⟩ := h
  exact ⟨call, found, mine, single_stored single x, same.stored x⟩

theorem single (h : Tracked handed id r m) : m.Single := by
  obtain ⟨_, _, _, single, _⟩ := h
  exact single

end Tracked

/-- A discarded message was over the cap, or its expiry had passed. -/
def Discard.Justified : Discard → Prop
  | full rows => maxQueuePerRecipient ≤ rows
  | expired expiresAt now => expiresAt.toInt < now.seconds

/-- Every part of the state holds messages of `deliver` calls. -/
structure Inv (P : Platform) (s : State) : Prop where
  calls : ∀ c ∈ s.calls, Tracked s.handed c.id c.recipientID c.msg
  targets : ∀ c ∈ s.calls, ∀ conn, c.stage = .write conn → (c.recipientID, conn) ∈ s.registered
  rows : ∀ row ∈ s.store.table.rows, ∃ m, Store.readPayload P s.store.key row.2.payload = some m ∧ m.Valid ∧
    Tracked s.handed (s.owner row.1) row.2.recipientID m
  sessions : ∀ ss ∈ s.sessions, (ss.userID, ss.conn) ∈ s.registered
  pending : ∀ ss ∈ s.sessions, ∀ p ∈ ss.phase.pending, Tracked s.handed p.1 ss.userID p.2
  clients : ∀ u c, s.store.lookupClient u = some c → (u, c) ∈ s.registered
  written : ∀ w ∈ s.written, ∃ r m, Tracked s.handed w.id r m ∧ (r, w.conn) ∈ s.registered ∧
    marshalQueued m = some w.frame
  discarded : ∀ d ∈ s.discarded, d.2.Justified

namespace Inv

variable {P : Platform} {s : State}

theorem init (store : Store) (router : Router) : Inv P (State.init store router) where
  calls := nofun
  targets := nofun
  rows := nofun
  sessions := nofun
  pending := nofun
  clients u c found := by
    have absent : (State.init store router).store.lookupClient u = none := Map.get_empty u
    rw [absent] at found
    cases found
  written := nofun
  discarded := nofun

/-- A `deliver` call for a local user gets the next number. -/
theorem hand (h : Inv P s) {call : Option (Bytes × QueuedMessage)} (single : ∀ r m, call = some (r, m) → m.Single)
    (origin : Origin) : Inv P (s.hand call origin) := by
  rcases State.hand_cases s call origin with ⟨posts, same⟩ | ⟨_, m, name, made, _, same⟩
  · rw [same]
    exact ⟨h.calls, h.targets, h.rows, h.sessions, h.pending, h.clients, h.written, h.discarded⟩
  · rw [same]
    refine ⟨?_, ?_, ?_, h.sessions, ?_, h.clients, ?_, h.discarded⟩
    · intro c inside
      rcases List.mem_cons.1 inside with rfl | old
      · exact ⟨⟨name, m, origin⟩, by simp, rfl, single _ m made, .refl m⟩
      · exact (h.calls c old).append _
    · intro c inside conn writing
      rcases List.mem_cons.1 inside with rfl | old
      · cases writing
      · exact h.targets c old conn writing
    · intro row inside
      obtain ⟨m', read, valid, tracked⟩ := h.rows row inside
      exact ⟨m', read, valid, tracked.append _⟩
    · intro ss inside p waiting
      exact (h.pending ss inside p waiting).append _
    · intro w inside
      obtain ⟨r, m', tracked, rest⟩ := h.written w inside
      exact ⟨r, m', tracked.append _, rest⟩

/-- A call that goes on with another stage. -/
theorem advance (h : Inv P s) {i id : Nat} {r : Bytes} {m : QueuedMessage} {stage next : Stage} {rest : List Call}
    (picked : pick s.calls i = some (⟨id, r, m, stage⟩, rest))
    (target : ∀ conn, next = .write conn → (r, conn) ∈ s.registered) :
    Inv P { s with calls := ⟨id, r, m, next⟩ :: rest } := by
  refine ⟨?_, ?_, h.rows, h.sessions, h.pending, h.clients, h.written, h.discarded⟩
  · intro c inside
    rcases List.mem_cons.1 inside with rfl | old
    · have before := h.calls _ (mem_of_pick picked)
      exact before
    · exact h.calls c (mem_of_pick_rest picked old)
  · intro c inside conn writing
    rcases List.mem_cons.1 inside with rfl | old
    · exact target conn writing
    · exact h.targets c (mem_of_pick_rest picked old) conn writing

/-- A call that ends. -/
theorem finish (h : Inv P s) {i : Nat} {c : Call} {rest : List Call} (picked : pick s.calls i = some (c, rest)) :
    Inv P { s with calls := rest } :=
  ⟨fun c inside => h.calls c (mem_of_pick_rest picked inside),
    fun c inside => h.targets c (mem_of_pick_rest picked inside), h.rows, h.sessions, h.pending, h.clients, h.written,
    h.discarded⟩

/-- A frame that was written. -/
theorem write (h : Inv P s) {id : Nat} {r frame : Bytes} {m : QueuedMessage} {conn : Conn}
    (tracked : Tracked s.handed id r m) (known : (r, conn) ∈ s.registered) (text : marshalQueued m = some frame) :
    Inv P { s with written := s.written ++ [⟨id, conn, frame⟩] } := by
  refine ⟨h.calls, h.targets, h.rows, h.sessions, h.pending, h.clients, ?_, h.discarded⟩
  intro w inside
  rcases List.mem_append.1 inside with old | new
  · exact h.written w old
  · rw [List.mem_singleton.1 new]
    exact ⟨r, m, tracked, known, text⟩

/-- A session that goes on with another phase. -/
theorem proceed (h : Inv P s) {j : Nat} {conn : Conn} {userID : Bytes} {phase next : Phase} {rest : List Session}
    (picked : pick s.sessions j = some (⟨conn, userID, phase⟩, rest))
    (waiting : ∀ p ∈ next.pending, Tracked s.handed p.1 userID p.2) :
    Inv P { s with sessions := ⟨conn, userID, next⟩ :: rest } := by
  refine ⟨h.calls, h.targets, h.rows, ?_, ?_, h.clients, h.written, h.discarded⟩
  · intro ss inside
    rcases List.mem_cons.1 inside with rfl | old
    · have before := h.sessions _ (mem_of_pick picked)
      exact before
    · exact h.sessions ss (mem_of_pick_rest picked old)
  · intro ss inside
    rcases List.mem_cons.1 inside with rfl | old
    · exact waiting
    · exact h.pending ss (mem_of_pick_rest picked old)

/-- Rows that are deleted, some of them as expired at `now`. -/
theorem delete (h : Inv P s) {store : Store} {p gone : QueueRow → Bool} {now : Time}
    (table : store.table = s.store.table.delete gone) (key : store.key = s.store.key)
    (clients : store.clients = s.store.clients) (dead : ∀ row, p row = true → Store.expired now row = true) :
    Inv P { s with store, discarded := s.discarded ++ s.expiries p now } := by
  refine ⟨h.calls, h.targets, ?_, h.sessions, h.pending, ?_, h.written, ?_⟩
  · intro row inside
    simp only [table, key] at inside ⊢
    exact h.rows row (List.mem_filter.1 inside).1
  · intro u c found
    simp only [Store.lookupClient, clients] at found
    exact h.clients u c found
  · intro d inside
    rcases List.mem_append.1 inside with old | new
    · exact h.discarded d old
    · obtain ⟨row, selected, rfl⟩ := List.mem_map.1 new
      exact Store.expired_iff.1 (dead row.2 (List.mem_filter.1 selected).2)

/-- What a drain reads is tracked. -/
theorem drained (h : Inv P s) {userID : Bytes} {now : Time} {fileNonce : Block 12} {row : Nat × QueuedMessage}
    (inside : row ∈ s.store.drainedRows P userID (.clean now fileNonce)) :
    Tracked s.handed (s.owner row.1) userID row.2 := by
  simp only [Store.drainedRows, Store.DrainIo.clean, Store.readRows_clean, List.mem_filterMap] at inside
  obtain ⟨stored, selected, read⟩ := inside
  obtain ⟨listed, mine⟩ := List.mem_filter.1 selected
  split at read
  · cases read
  · obtain ⟨m, decoded, rfl⟩ := Option.map_eq_some_iff.1 read
    obtain ⟨m', decoded', _, tracked⟩ := h.rows stored listed
    rw [decoded] at decoded'
    cases decoded'
    rw [of_decide_eq_true mine] at tracked
    exact tracked

/-- A session that starts to flush what it drained. -/
theorem flushDrained (h : Inv P s) {j : Nat} {conn : Conn} {userID : Bytes} {phase : Phase} {rest : List Session}
    {now : Time} {fileNonce : Block 12} (picked : pick s.sessions j = some (⟨conn, userID, phase⟩, rest)) :
    Inv P { s with sessions := ⟨conn, userID, .flush ((s.store.drainedRows P userID
      (.clean now fileNonce)).map fun row => (s.owner row.1, row.2))⟩ :: rest } := by
  refine h.proceed picked fun p waiting => ?_
  rw [Phase.pending_flush] at waiting
  obtain ⟨drained, inside, rfl⟩ := List.mem_map.1 waiting
  exact h.drained inside

/-- One `Enqueue` of a tracked message. -/
theorem enqueue (h : Inv P s) {id : Nat} {r : Bytes} {m : QueuedMessage} (tracked : Tracked s.handed id r m)
    (t : Stamp) : Inv P (State.enqueue P s id r m t) := by
  have purged : ∀ row ∈ (Store.purgeOf s.store.table r t.deleteAt).rows, row ∈ s.store.table.rows :=
    fun row inside => (List.mem_filter.1 inside).1
  refine ⟨h.calls, h.targets, ?_, h.sessions, h.pending, ?_, h.written, ?_⟩
  · intro row inside
    simp only [State.enqueue, Stamp.io, Store.enqueue_table, Store.enqueue_key] at inside ⊢
    by_cases full : Store.Full s.store.table r t.deleteAt
    · simp only [full, if_true] at inside ⊢
      exact h.rows row (purged row inside)
    · simp only [full, if_false] at inside ⊢
      rcases List.mem_append.1 inside with old | new
      · -- an old row has a smaller number than the new one
        have other : row.1 ≠ s.store.table.next := Nat.ne_of_lt (s.store.table.below row (purged row old))
        rw [Function.update_of_ne other]
        exact h.rows row (purged row old)
      · rw [List.mem_singleton.1 new]
        refine ⟨_, Store.readPayload_encrypt _ _ _, QueuedMessage.valid_sanitize _, ?_⟩
        have mine : Function.update s.owner s.store.table.next id s.store.table.next = id := Function.update_self ..
        have next : (Store.purgeOf s.store.table r t.deleteAt).next = s.store.table.next := rfl
        rw [next, mine]
        exact tracked.stored _
  · intro u c found
    simp only [State.enqueue, Stamp.io, Store.lookupClient, Store.enqueue_clients] at found
    exact h.clients u c found
  · intro d inside
    simp only [State.enqueue, List.append_assoc] at inside
    rcases List.mem_append.1 inside with old | new
    · exact h.discarded d old
    · rcases List.mem_append.1 new with dead | capped
      · obtain ⟨row, selected, rfl⟩ := List.mem_map.1 dead
        exact Store.expired_iff.1 (of_decide_eq_true (List.mem_filter.1 selected).2).2
      · split at capped
        · rename_i full
          rw [List.mem_singleton.1 capped]
          exact full
        · cases capped

/-- **Every step keeps the invariant.** -/
theorem step (h : Inv P s) {l : Label} {s' : State} (stepped : State.step P s l = some s') : Inv P s' := by
  cases State.step_cases stepped with
  | @frame _ _ _ router _ kind route =>
    have routed : Inv P { s with router } :=
      ⟨h.calls, h.targets, h.rows, h.sessions, h.pending, h.clients, h.written, h.discarded⟩
    refine routed.hand ?_ _
    rintro r m rfl
    exact classify_single (route_classify route)
  | control => exact h
  | post => exact h.hand (fun r m made => federationDeliver_single made) _
  | online picked found =>
    refine h.advance picked fun conn same => ?_
    cases same
    exact h.clients _ _ found
  | offline picked missing => exact h.advance picked nofun
  | wrote picked text =>
    exact (h.finish picked).write (h.calls _ (mem_of_pick picked)) (h.targets _ (mem_of_pick picked) _ rfl) text
  | writeFailed picked reason => exact h.advance picked nofun
  | enqueue picked => exact (h.finish picked).enqueue (h.calls _ (mem_of_pick picked)) _
  | register fresh =>
    refine ⟨h.calls, ?_, h.rows, ?_, ?_, ?_, ?_, h.discarded⟩
    · intro c inside conn writing
      exact List.mem_append_left _ (h.targets c inside conn writing)
    · intro ss inside
      rcases List.mem_cons.1 inside with rfl | old
      · exact List.mem_append_right _ List.mem_cons_self
      · exact List.mem_append_left _ (h.sessions ss old)
    · intro ss inside
      rcases List.mem_cons.1 inside with rfl | old
      · exact nofun
      · exact h.pending ss old
    · intro u c found
      rw [Store.register_lookup] at found
      split at found
      · rename_i same
        cases found
        rw [← same]
        exact List.mem_append_right _ List.mem_cons_self
      · exact List.mem_append_left _ (h.clients u c found)
    · intro w inside
      obtain ⟨r, m, tracked, known, text⟩ := h.written w inside
      exact ⟨r, m, tracked, List.mem_append_left _ known, text⟩
  | @drain j now fileNonce conn userID rest picked =>
    exact (h.flushDrained picked).delete (Store.drainQueue_table ..) rfl rfl fun row doomed => (of_decide_eq_true doomed).2
  | skipped picked text =>
    refine h.proceed picked fun p waiting => ?_
    rw [Phase.pending_flush] at waiting
    exact h.pending _ (mem_of_pick picked) p (List.mem_cons_of_mem _ waiting)
  | @flushed j id conn userID frame m left rest picked text =>
    have head := h.pending _ (mem_of_pick picked) (id, m) List.mem_cons_self
    have known := h.sessions _ (mem_of_pick picked)
    refine Inv.write (h.proceed picked fun p waiting => ?_) head known text
    rw [Phase.pending_flush] at waiting
    exact h.pending _ (mem_of_pick picked) p (List.mem_cons_of_mem _ waiting)
  | flushFailed picked => exact h.proceed picked (h.pending _ (mem_of_pick picked))
  | @requeue j id conn userID m left rest t picked =>
    have head := h.pending _ (mem_of_pick picked) (id, m) List.mem_cons_self
    refine Inv.enqueue (h.proceed picked fun p waiting => ?_) head _
    rw [Phase.pending_requeue] at waiting
    exact h.pending _ (mem_of_pick picked) p (List.mem_cons_of_mem _ waiting)
  | unregister picked =>
    refine ⟨h.calls, h.targets, ?_, ?_, ?_, ?_, h.written, h.discarded⟩
    · intro row inside
      rw [Store.unregister_table] at inside
      rw [Store.unregister_key]
      exact h.rows row inside
    · exact fun ss inside => h.sessions ss (mem_of_pick_rest picked inside)
    · exact fun ss inside => h.pending ss (mem_of_pick_rest picked inside)
    · exact fun u c found => h.clients u c (Store.unregister_lookup _ _ found)
  | purge => exact h.delete rfl rfl rfl fun _ dead => dead

end Inv

end SpectreRelay.Server.Delivery
