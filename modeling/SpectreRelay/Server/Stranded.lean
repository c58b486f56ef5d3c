import SpectreRelay.Server.QueueRefinement
import SpectreRelay.Server.Tracking

/-!
# Messages left in the queue of a connected user

`deliver` looks the recipient up and enqueues in two critical sections, and a
session registers and drains in two others. A user who registers and drains
between the two halves of a `deliver` call is left with a message in the queue
that nothing will flush while the connection lasts: `stranded_by_lookup` is
such a run. The queue of a user whose sessions and calls have all settled is
empty when no `Enqueue` for that user falls after the drain of the registered
connection (`settled_queue_empty`).
-/

namespace SpectreRelay.Server.Delivery
set_option autoImplicit false
open Lib Model

/-- Whether a session is past its `DrainQueue`. -/
def Phase.drained : Phase → Bool
  | registered => false
  | _ => true

namespace State

variable {P : Platform}

/-- The user's registered connection belongs to a session that is past its drain. -/
def OnlineDrained (s : State) (u : Bytes) : Prop :=
  ∃ ss ∈ s.sessions, ss.userID = u ∧ s.store.lookupClient u = some ss.conn ∧ ss.phase.drained = true

instance (s : State) (u : Bytes) : Decidable (s.OnlineDrained u) := inferInstanceAs (Decidable (∃ _ ∈ s.sessions, _))

/-- The user has a registered connection whose flush has finished, and no `deliver` call or flush for the user is
under way. -/
def Settled (s : State) (u : Bytes) : Prop :=
  (∃ ss ∈ s.sessions, ss.userID = u ∧ s.store.lookupClient u = some ss.conn) ∧
    (∀ ss ∈ s.sessions, ss.userID = u → ss.phase = .serving) ∧ ∀ c ∈ s.calls, c.recipientID ≠ u

instance (s : State) (u : Bytes) : Decidable (s.Settled u) := inferInstanceAs (Decidable (_ ∧ _ ∧ _))

/-- The user's queue holds a message that has not expired at `now`. -/
def Stranded (s : State) (u : Bytes) (now : Time) : Prop :=
  ∃ row ∈ s.store.table.rows, row.2.recipientID = u ∧ Store.expired now row.2 = false

instance (s : State) (u : Bytes) (now : Time) : Decidable (s.Stranded u now) :=
  inferInstanceAs (Decidable (∃ _ ∈ s.store.table.rows, _))

/-- The step is no failing write on the connection registered for the user. -/
def WritesSucceed (u : Bytes) (s : State) : Label → Prop
  | .write i true => ∀ call ∈ pick s.calls i, ∀ conn, s.store.lookupClient u = some conn → call.1.stage ≠ .write conn
  | .flushWrite j true => ∀ session ∈ pick s.sessions j, s.store.lookupClient u ≠ some session.1.conn
  | _ => True

/-- The user for whom the step is an `Enqueue`, by `deliver` or after a failed flush. -/
def enqueuesFor (s : State) : Label → Option Bytes
  | .enqueue i _ => (pick s.calls i).map fun call => call.1.recipientID
  | .requeue j _ => (pick s.sessions j).map fun session => session.1.userID
  | _ => none

/-- The step is no `Enqueue` for a user whose registered connection is past its drain. -/
def BeforeDrain (u : Bytes) (s : State) (l : Label) : Prop := s.enqueuesFor l = some u → ¬ s.OnlineDrained u

instance (u : Bytes) (s : State) (l : Label) : Decidable (BeforeDrain u s l) := inferInstanceAs (Decidable (_ → _))

/-- A call from ann to bob finds bob absent; bob connects and drains; then the call enqueues. -/
def strandingRun : List Label :=
  [.frame (ascii "ann") (SealedEnvelope.marshal ⟨ascii "bob", [1], 0, [], []⟩) Reference.start, .lookup 0,
    .register (ascii "bob") 7, .drain 0 Reference.start (.zeros 12), .enqueue 0 .start]

/-- A user who registers and drains between the lookup and the `Enqueue` of a call keeps the message in the queue. -/
theorem stranded_by_lookup :
    ∃ s, run (step Reference.platform) (init Reference.store (.new 65536 60 (ascii "a"))) strandingRun = some s ∧
      Always (step Reference.platform) (WritesSucceed (ascii "bob")) (init Reference.store (.new 65536 60 (ascii "a")))
        strandingRun ∧
      s.Settled (ascii "bob") ∧ s.Stranded (ascii "bob") Reference.start := by
  have result : ((run (step Reference.platform) (init Reference.store (.new 65536 60 (ascii "a"))) strandingRun).map
      fun s => decide (s.Settled (ascii "bob") ∧ s.Stranded (ascii "bob") Reference.start)) = some true := by
    decide +kernel
  obtain ⟨s, reached, both⟩ := Option.map_eq_some_iff.1 result
  refine ⟨s, reached, ?_, of_decide_eq_true both⟩
  simp [strandingRun, Always, WritesSucceed]

/-! ## Enqueues before the drain -/

variable {s : State} {u : Bytes}

/-- A session that was past its drain goes on with another phase. -/
theorem OnlineDrained.of_proceed {j : Nat} {conn : Conn} {userID : Bytes} {phase next : Phase} {rest : List Session}
    (picked : pick s.sessions j = some (⟨conn, userID, phase⟩, rest)) (past : phase.drained = true)
    (h : OnlineDrained { s with sessions := ⟨conn, userID, next⟩ :: rest } u) : s.OnlineDrained u := by
  obtain ⟨ss, inside, mine, found, drained⟩ := h
  rcases List.mem_cons.1 inside with rfl | old
  · exact ⟨_, mem_of_pick picked, mine, found, past⟩
  · exact ⟨ss, mem_of_pick_rest picked old, mine, found, drained⟩

theorem rowsOf_delete {t : Table QueueRow} (none : Store.rowsOf t u = []) (p : QueueRow → Bool) :
    Store.rowsOf (t.delete p) u = [] := by
  have filtered : Store.rowsOf (t.delete p) u = (Store.rowsOf t u).filter fun row => !p row := t.group_delete p u
  rw [filtered, none]
  rfl

/-- An `Enqueue` for another user adds no row. -/
theorem rowsOf_enqueue {r : Bytes} (other : r ≠ u) (none : Store.rowsOf s.store.table u = []) (id : Nat)
    (m : QueuedMessage) (t : Stamp) : Store.rowsOf (State.enqueue P s id r m t).store.table u = [] :=
  (Store.rowsOf_enqueue_other s.store (Ne.symm other) m t.io).trans none

/-- A user whose registered connection has been drained has no rows. -/
def EmptyOnceDrained (s : State) (u : Bytes) : Prop := s.OnlineDrained u → Store.rowsOf s.store.table u = []

/-- One `Enqueue` before the drain. -/
theorem EmptyOnceDrained.enqueue (h : s.EmptyOnceDrained u) {r : Bytes} (early : r = u → ¬ s.OnlineDrained u) (id : Nat)
    (m : QueuedMessage) (t : Stamp) : (State.enqueue P s id r m t).EmptyOnceDrained u := by
  rintro ⟨ss, inside, mine, found, drained⟩
  simp only [State.enqueue, Stamp.io, Store.lookupClient, Store.enqueue_clients] at inside found
  have before : s.OnlineDrained u := ⟨ss, inside, mine, found, drained⟩
  have other : r ≠ u := fun same => early same before
  exact rowsOf_enqueue other (h before) id m t

/-- **Every step before the drain keeps the queues of drained users empty.** -/
theorem EmptyOnceDrained.step (h : s.EmptyOnceDrained u) (inv : Inv P s) {l : Label} {s' : State}
    (early : BeforeDrain u s l) (stepped : State.step P s l = some s') : s'.EmptyOnceDrained u := by
  cases State.step_cases stepped with
  | @frame _ _ _ router call kind route =>
    rcases hand_cases { s with router } call (.client _) with ⟨posts, same⟩ | ⟨_, m, name, _, _, same⟩ <;>
    · rw [same]; exact h
  | control => exact h
  | @post header body =>
    rcases hand_cases s (federationDeliver s.router.relayID header body) (.federation header) with
      ⟨posts, same⟩ | ⟨_, m, name, _, _, same⟩ <;>
    · rw [same]; exact h
  | online picked found => exact h
  | offline picked missing => exact h
  | wrote picked text => exact h
  | writeFailed picked reason => exact h
  | @enqueue i id r m rest t picked =>
    have quiet : EmptyOnceDrained { s with calls := rest } u := h
    refine quiet.enqueue (fun same => ?_) id m t
    have target : s.enqueuesFor (.enqueue i t) = some u := by simp [enqueuesFor, picked, same]
    exact early target
  | @register userID conn fresh =>
    rintro ⟨ss, inside, mine, found, drained⟩
    rcases List.mem_cons.1 inside with rfl | old
    · cases drained
    · rw [Store.register_lookup] at found
      split at found
      · -- the old session's connection cannot be the new one
        cases found
        exact absurd rfl (fresh _ (inv.sessions ss old))
      · exact h ⟨ss, old, mine, found, drained⟩
  | @drain j now fileNonce conn userID rest picked =>
    rintro ⟨ss, inside, mine, found, drained⟩
    by_cases same : u = userID
    · subst same
      exact Table.group_delete_self s.store.table u
    · refine (Table.group_delete_other s.store.table same).trans (h ?_)
      rcases List.mem_cons.1 inside with rfl | old
      · exact absurd mine.symm same
      · exact ⟨ss, mem_of_pick_rest picked old, mine, found, drained⟩
  | skipped picked text => exact fun online => h (online.of_proceed picked rfl)
  | flushed picked text => exact fun online => h (OnlineDrained.of_proceed picked rfl online)
  | flushFailed picked => exact fun online => h (online.of_proceed picked rfl)
  | @requeue j id conn userID m left rest t picked =>
    have quiet : EmptyOnceDrained { s with sessions := ⟨conn, userID, .requeue left⟩ :: rest } u :=
      fun online => h (online.of_proceed picked rfl)
    refine quiet.enqueue (fun same online => ?_) id m t
    have target : s.enqueuesFor (.requeue j t) = some u := by simp [enqueuesFor, picked, same]
    exact early target (online.of_proceed picked rfl)
  | unregister picked =>
    rintro ⟨ss, inside, mine, found, drained⟩
    rw [Store.unregister_table]
    exact h ⟨ss, mem_of_pick_rest picked inside, mine, Store.unregister_lookup _ _ found, drained⟩
  | purge => exact fun online => rowsOf_delete (h online) _

/-- A settled user is online and drained. -/
theorem Settled.drained (h : s.Settled u) : s.OnlineDrained u := by
  obtain ⟨⟨ss, inside, mine, found⟩, flushed, _⟩ := h
  exact ⟨ss, inside, mine, found, by rw [flushed ss inside mine]; rfl⟩

/-- **Settled queues are empty.** If no `Enqueue` for a user falls after the drain of the connection registered for that
user, then in every state reached in which the user is online and everything has settled, no message waits. -/
theorem settled_queue_empty (P : Platform) (store : Store) (router : Router) (u : Bytes) (labels : List Label) (s : State)
    (reached : run (State.step P) (init store router) labels = some s)
    (early : Always (State.step P) (BeforeDrain u) (init store router) labels) (settled : s.Settled u) (now : Time) :
    ¬ s.Stranded u now := by
  have both : Inv P s ∧ s.EmptyOnceDrained u :=
    run_invariant_under (P := fun s => Inv P s ∧ s.EmptyOnceDrained u)
      (fun _ _ _ before quiet stepped => ⟨before.1.step stepped, before.2.step before.1 quiet stepped⟩)
      ⟨.init store router, fun _ => rfl⟩ early reached
  rintro ⟨row, inside, mine, _⟩
  have listed : row.2 ∈ Store.rowsOf s.store.table u :=
    List.mem_map.2 ⟨row, List.mem_filter.2 ⟨inside, decide_eq_true mine⟩, rfl⟩
  rw [both.2 settled.drained] at listed
  cases listed

/-- A call from ann to bob finds bob absent and enqueues; bob connects, drains and is served. -/
def settlingRun : List Label :=
  [.frame (ascii "ann") (SealedEnvelope.marshal ⟨ascii "bob", [1], 0, [], []⟩) Reference.start, .lookup 0,
    .enqueue 0 .start, .register (ascii "bob") 7, .drain 0 Reference.start (.zeros 12), .flushWrite 0 false]

theorem settled_queue_empty_flushed :
    ∃ s, run (State.step Reference.platform) (init Reference.store (.new 65536 60 (ascii "a"))) settlingRun = some s ∧
      s.Settled (ascii "bob") ∧ ¬ s.Stranded (ascii "bob") Reference.start := by
  have result : ((run (State.step Reference.platform) (init Reference.store (.new 65536 60 (ascii "a"))) settlingRun).map
      fun s => decide (s.Settled (ascii "bob"))) = some true := by decide +kernel
  obtain ⟨s, reached, settled⟩ := Option.map_eq_some_iff.1 result
  have settled := of_decide_eq_true settled
  exact ⟨s, reached, settled,
    settled_queue_empty _ _ _ _ _ s reached (by decide +kernel) settled Reference.start⟩

end State

end SpectreRelay.Server.Delivery
