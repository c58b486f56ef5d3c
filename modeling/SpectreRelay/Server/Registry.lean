import SpectreRelay.Lib.Bag
import SpectreRelay.Lib.Runs
import SpectreRelay.Lib.Slots
import SpectreRelay.Server.Reference
import SpectreRelay.Server.StoreImage

/-!
# The client registry across reconnects

Each session of `serveConn` has a connection of its own. It calls `Register`
once and, deferred to its end, `Unregister` once; a session whose connection was
replaced runs that call at any time after. The machine below takes these calls of
any number of sessions in any order, with the queue operations of the store
between them, and keeps the log of the calls.

The registry is the slots of `Lib.Slots` with user ids as slots and connections
as values: what `clients` holds is read off the log (`Tracked`).
-/

namespace SpectreRelay.Server.Registry
set_option autoImplicit false
open Lib Lib.Slots

structure State where
  store : Store
  /-- The sessions between `Register` and `Unregister`. -/
  sessions : List (Bytes × Conn)
  /-- The calls of `Register`, with what they returned, and of `Unregister`, the newest first. -/
  log : List (Entry Bytes Conn)

inductive Label where
  | register (userID : Bytes) (c : Conn)
  | unregister (j : Nat)
  | enqueue (recipientID : Bytes) (m : QueuedMessage) (io : Store.EnqueueIo)
  | drain (userID : Bytes) (io : Store.DrainIo)
  | purge (now : Time) (fails : Bool) (io : PersistIo)

namespace State

def init (store : Store) : State where
  store
  sessions := []
  log := []

variable (P : Platform)

def step (s : State) : Label → Option State
  | .register userID c =>
    -- a connection is accepted once, and registered by the session that serves it
    if c ∈ (bindings s.log).map Prod.snd then none
    else
      let (store, prev) := s.store.register userID c
      some { store, sessions := (userID, c) :: s.sessions, log := .bound userID c prev :: s.log }
  | .unregister j =>
    match pick s.sessions j with
    | some ((userID, c), rest) =>
      some { store := s.store.unregister userID c, sessions := rest, log := .freed userID c :: s.log }
    | none => none
  | .enqueue recipientID m io => some { s with store := s.store.enqueue P recipientID m io }
  | .drain userID io => some { s with store := (s.store.drainQueue P userID io).1 }
  | .purge now fails io => some { s with store := s.store.purgeExpired P now fails io }

/-- What a step can do. -/
inductive Step (s : State) : State → Prop where
  | register {userID : Bytes} {c : Conn} (fresh : c ∉ (bindings s.log).map Prod.snd) :
      Step s ⟨(s.store.register userID c).1, (userID, c) :: s.sessions, .bound userID c (s.store.register userID c).2 :: s.log⟩
  | unregister {j : Nat} {userID : Bytes} {c : Conn} {rest : List (Bytes × Conn)}
      (found : pick s.sessions j = some ((userID, c), rest)) :
      Step s ⟨s.store.unregister userID c, rest, .freed userID c :: s.log⟩
  | queue {store : Store} (clients : store.clients = s.store.clients) : Step s { s with store }

theorem step_cases {s s' : State} {l : Label} (next : s.step P l = some s') : Step s s' := by
  cases l with
  | register userID c =>
    simp only [step] at next
    split at next
    · cases next
    · rename_i fresh
      cases next
      exact .register fresh
  | unregister j =>
    simp only [step] at next
    split at next
    · rename_i found
      cases next
      exact .unregister found
    · cases next
  | enqueue recipientID m io =>
    cases next
    exact .queue (Store.enqueue_clients_any ..)
  | drain userID io =>
    cases next
    exact .queue (Store.drainQueue_clients_any ..)
  | purge now fails io =>
    cases next
    exact .queue (Store.purgeExpired_clients_any ..)

end State

/-- The registry is what the log says. -/
structure Tracked (s : State) : Prop where
  history : History s.log
  clients : ∀ u, s.store.lookupClient u = holder u s.log
  distinct : (s.sessions.map Prod.snd).Nodup
  sessions : ∀ session, session ∈ s.sessions ↔ session ∈ bindings s.log ∧ isFreed session.2 s.log = false

namespace Tracked

variable {s s' : State}

theorem init {store : Store} (empty : store.clients = ∅) : Tracked (State.init store) where
  history := .start
  clients u := by rw [Store.lookupClient, State.init, empty, Map.get_empty]; rfl
  distinct := List.nodup_nil
  sessions session := by simp [State.init, bindings]

theorem register (h : Tracked s) {userID : Bytes} {c : Conn} (fresh : c ∉ (bindings s.log).map Prod.snd) :
    Tracked ⟨(s.store.register userID c).1, (userID, c) :: s.sessions,
      .bound userID c (s.store.register userID c).2 :: s.log⟩ where
  history := by
    have prev : (s.store.register userID c).2 = holder userID s.log := h.clients userID
    rw [prev]
    exact h.history.bind userID fresh
  clients u := by
    rw [h.history.holder_bind fresh, ← h.clients u]
    exact Store.register_lookup ..
  distinct := by
    refine List.nodup_cons.2 ⟨fun inside => fresh ?_, h.distinct⟩
    obtain ⟨session, here, same⟩ := List.mem_map.1 inside
    exact List.mem_map.2 ⟨session, ((h.sessions session).1 here).1, same⟩
  sessions session := by
    have unfreed : isFreed c s.log = false := Bool.eq_false_iff.2 fun freed => fresh (h.history.bound_of_freed freed)
    rw [List.mem_cons, h.sessions, bindings_bound, List.mem_cons, isFreed]
    constructor
    · rintro (rfl | here)
      · exact ⟨.inl rfl, unfreed⟩
      · exact ⟨.inr here.1, here.2⟩
    · rintro ⟨rfl | inside, live⟩
      · exact .inl rfl
      · exact .inr ⟨inside, live⟩

theorem unregister (h : Tracked s) {j : Nat} {userID : Bytes} {c : Conn} {rest : List (Bytes × Conn)}
    (found : pick s.sessions j = some ((userID, c), rest)) :
    Tracked ⟨s.store.unregister userID c, rest, .freed userID c :: s.log⟩ := by
  obtain ⟨bound, live⟩ := (h.sessions (userID, c)).1 (mem_of_pick found)
  have same := pick_perm found
  have apart : c ∉ rest.map Prod.snd ∧ (rest.map Prod.snd).Nodup :=
    List.nodup_cons.1 (((same.map Prod.snd).nodup_iff).2 h.distinct)
  refine ⟨h.history.free bound live, fun u => ?_, apart.2, fun session => ?_⟩
  · rw [h.history.holder_free bound, ← h.clients u, ← h.clients userID]
    exact Store.lookupClient_unregister ..
  · have before := h.sessions session
    rw [← same.mem_iff, List.mem_cons] at before
    simp only [bindings_freed, isFreed, Bool.or_eq_false_iff, decide_eq_false_iff_not]
    constructor
    · intro here
      obtain ⟨inside, unfreed⟩ := before.1 (.inr here)
      refine ⟨inside, ?_, unfreed⟩
      rintro rfl
      exact apart.1 (List.mem_map_of_mem here)
    · rintro ⟨inside, other, unfreed⟩
      refine (before.2 ⟨inside, unfreed⟩).resolve_left ?_
      rintro rfl
      exact other rfl

theorem step {P : Platform} {l : Label} (h : Tracked s) (next : s.step P l = some s') : Tracked s' := by
  cases State.step_cases P next with
  | register fresh => exact h.register fresh
  | unregister found => exact h.unregister found
  | queue clients =>
    refine ⟨h.history, fun u => ?_, h.distinct, h.sessions⟩
    rw [← h.clients u, Store.lookupClient, Store.lookupClient, clients]

/-- Every registered connection belongs to a session that has not ended. -/
theorem connectedClients_le (h : Tracked s) : s.store.connectedClients ≤ s.sessions.length := by
  have apart : s.store.clients.toList.Nodup :=
    Std.ExtTreeMap.distinct_keys_toList.imp fun {a b} differ same => differ (by rw [same]; exact Std.ReflCmp.compare_self)
  have inside : s.store.clients.toList ⊆ s.sessions := by
    intro ⟨u, c⟩ listed
    have held : holder u s.log = some c :=
      (h.clients u).symm.trans (Std.ExtTreeMap.mem_toList_iff_getElem?_eq_some.1 listed)
    obtain ⟨last, unfreed⟩ := holder_eq_some.1 held
    exact (h.sessions (u, c)).2 ⟨mem_of_latest last, unfreed⟩
  rw [Store.connectedClients, ← Std.ExtTreeMap.length_toList]
  exact (List.subperm_of_subset apart inside).length_le

end Tracked

/-- What the registry holds, against the log of the calls. -/
structure Consistent (s : State) : Prop where
  /-- A user is bound to the connection last registered, until its session unregisters. -/
  current : ∀ u c, s.store.lookupClient u = some c ↔ latest u s.log = some c ∧ isFreed c s.log = false
  alone : ∀ u v c, s.store.lookupClient u = some c → s.store.lookupClient v = some c → u = v
  /-- A connection `c` replaced by a later registration of its user was returned by that call and by no other, or,
  if its session had unregistered before, by none. -/
  superseded : ∀ newer u c' prev older c, s.log = newer ++ .bound u c' prev :: older → latest u older = some c →
    prev = (if isFreed c older then none else some c) ∧
      s.log.countP (returns c) = if isFreed c older then 0 else 1
  counted : s.store.connectedClients ≤ s.sessions.length

theorem Tracked.consistent {s : State} (h : Tracked s) : Consistent s where
  current u c := by rw [h.clients, holder_eq_some]
  alone u v c first second := h.history.holder_inj ((h.clients u).symm.trans first) ((h.clients v).symm.trans second)
  superseded _ _ _ _ _ _ parts last := h.history.replaced parts last
  counted := h.connectedClients_le

/-- **The registry across reconnects.** Whatever the order in which any number of sessions register and
unregister their connections, in every state the registry is consistent with the calls so far. -/
theorem registry_consistent (P : Platform) {store : Store} (empty : store.clients = ∅) {labels : List Label} {s : State}
    (reached : run (State.step P) (State.init store) labels = some s) : Consistent s :=
  (run_invariant (fun _ _ _ h next => Tracked.step h next) (Tracked.init empty) reached).consistent

/-- Bob connects three times; his second session unregisters before the third registers, his first one after. -/
def reconnects : List Label :=
  [.register (ascii "bob") 1, .register (ascii "ann") 2, .register (ascii "bob") 3, .unregister 0,
    .register (ascii "bob") 4, .unregister 2]

theorem registry_consistent_reconnects :
    ∃ s, run (State.step Reference.platform) (State.init Reference.firstStore) reconnects = some s ∧
      s.store.lookupClient (ascii "bob") = some 4 ∧ s.log.countP (returns 1) = 1 ∧ s.log.countP (returns 3) = 0 ∧
      Consistent s := by
  have found : ((run (State.step Reference.platform) (State.init Reference.firstStore) reconnects).map fun s =>
      (s.store.lookupClient (ascii "bob"), s.log.countP (returns 1), s.log.countP (returns 3))) =
        some (some 4, 1, 0) := by decide +kernel
  obtain ⟨s, reached, seen⟩ := Option.map_eq_some_iff.1 found
  simp only [Prod.mk.injEq] at seen
  exact ⟨s, reached, seen.1, seen.2.1, seen.2.2, registry_consistent Reference.platform rfl reached⟩

end SpectreRelay.Server.Registry
