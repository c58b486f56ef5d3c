import SpectreRelay.Lib.Bag
import SpectreRelay.Lib.Runs
import SpectreRelay.Server.Reference

/-!
# One session per user

`serveConn` from `Register` to its end, with the connections it closes. A
session that replaces another is told the connection it replaced and closes it
before it goes on; a session whose connection is closed reads nothing more and
ends with `Unregister`. A peer can close a connection at any time, and `Close`
takes its time: until it returns, the replaced session can still read frames.

A session that can read frames is the registered one of its user, or is being
closed by the one that replaced it (`Inv.placed`). So a user has one session at
most beyond those replacements that are under way.
-/

namespace SpectreRelay.Server.SingleSession
set_option autoImplicit false
open Lib

/-- Where a session is: closing the connection it replaced, or beyond that. -/
inductive Phase where
  | closing (prev : Conn)
  | serving
deriving DecidableEq

def Phase.prev : Phase → Option Conn
  | closing prev => some prev
  | serving => none

structure Session where
  conn : Conn
  userID : Bytes
  phase : Phase
deriving DecidableEq

structure State where
  store : Store
  /-- The sessions between `Register` and `Unregister`. -/
  sessions : List Session
  /-- The connections that are closed, by either side. -/
  closed : List Conn
  /-- Every connection that was registered so far. -/
  registered : List Conn

inductive Label where
  | register (userID : Bytes) (c : Conn)
  /-- `prev.Close` returns. -/
  | close (j : Nat)
  /-- `c.Read` returns a frame. -/
  | read (j : Nat)
  /-- The peer or the network closes a connection. -/
  | drop (c : Conn)
  /-- `c.Read` fails, or a handler panics, and the deferred calls run. -/
  | leave (j : Nat)

namespace State

def init (store : Store) : State := ⟨store, [], [], []⟩

/-- One step, or none when it cannot be taken. -/
def step (s : State) : Label → Option State
  | .register userID c =>
    if c ∈ s.registered then none
    else
      let (store, prev) := s.store.register userID c
      let phase := match prev with
        | some prev => Phase.closing prev
        | none => .serving
      some { s with store, sessions := ⟨c, userID, phase⟩ :: s.sessions, registered := c :: s.registered }
  | .close j =>
    match pick s.sessions j with
    | some (⟨c, userID, .closing prev⟩, rest) =>
      some { s with sessions := ⟨c, userID, .serving⟩ :: rest, closed := prev :: s.closed }
    | _ => none
  | .read j =>
    match pick s.sessions j with
    | some (⟨c, _, .serving⟩, _) => if c ∈ s.closed then none else some s
    | _ => none
  | .drop c => some { s with closed := c :: s.closed }
  | .leave j =>
    match pick s.sessions j with
    | some (⟨c, userID, .serving⟩, rest) =>
      some { s with store := s.store.unregister userID c, sessions := rest, closed := c :: s.closed }
    | _ => none

/-- What a step can do. -/
inductive Step (s : State) : State → Prop where
  | first {userID : Bytes} {c : Conn} (fresh : c ∉ s.registered) (none : s.store.lookupClient userID = none) :
      Step s { s with
        store := (s.store.register userID c).1
        sessions := ⟨c, userID, .serving⟩ :: s.sessions
        registered := c :: s.registered }
  | replaces {userID : Bytes} {c prev : Conn} (fresh : c ∉ s.registered)
      (held : s.store.lookupClient userID = some prev) :
      Step s { s with
        store := (s.store.register userID c).1
        sessions := ⟨c, userID, .closing prev⟩ :: s.sessions
        registered := c :: s.registered }
  | closes {j : Nat} {c prev : Conn} {userID : Bytes} {rest : List Session}
      (picked : pick s.sessions j = some (⟨c, userID, .closing prev⟩, rest)) :
      Step s { s with sessions := ⟨c, userID, .serving⟩ :: rest, closed := prev :: s.closed }
  | same : Step s s
  | dropped {c : Conn} : Step s { s with closed := c :: s.closed }
  | left {j : Nat} {c : Conn} {userID : Bytes} {rest : List Session}
      (picked : pick s.sessions j = some (⟨c, userID, .serving⟩, rest)) :
      Step s { s with store := s.store.unregister userID c, sessions := rest, closed := c :: s.closed }

theorem step_cases {s s' : State} {l : Label} (h : s.step l = some s') : Step s s' := by
  cases l with
  | register userID c =>
    simp only [step, Store.register] at h
    split at h
    · cases h
    · rename_i fresh
      cases h
      cases held : s.store.lookupClient userID with
      | none =>
        have absent : s.store.clients[userID]? = none := held
        rw [absent]
        exact .first fresh held
      | some prev =>
        have present : s.store.clients[userID]? = some prev := held
        rw [present]
        exact .replaces fresh held
  | close j =>
    simp only [step] at h
    split at h
    · rename_i picked
      cases h
      exact .closes picked
    · cases h
  | read j =>
    simp only [step] at h
    split at h
    · split at h
      · cases h
      · cases h
        exact .same
    · cases h
  | drop c =>
    cases h
    exact .dropped
  | leave j =>
    simp only [step] at h
    split at h
    · rename_i picked
      cases h
      exact .left picked
    · cases h

end State

/-! ## The invariant -/

/-- The session can read no frame, is the registered one of its user, or is being closed by one that replaced it. -/
def Placed (s : State) (ss : Session) : Prop :=
  ss.conn ∈ s.closed ∨ s.store.lookupClient ss.userID = some ss.conn ∨
    ∃ newer ∈ s.sessions, newer.userID = ss.userID ∧ newer.phase = .closing ss.conn

structure Inv (s : State) : Prop where
  distinct : (s.sessions.map Session.conn).Nodup
  known : ∀ ss ∈ s.sessions, ss.conn ∈ s.registered
  clients : ∀ u c, s.store.lookupClient u = some c → ∃ ss ∈ s.sessions, ss.userID = u ∧ ss.conn = c
  placed : ∀ ss ∈ s.sessions, Placed s ss

namespace Inv

variable {s s' : State}

theorem init {store : Store} (empty : store.clients = ∅) : Inv (State.init store) where
  distinct := List.nodup_nil
  known := nofun
  clients u c found := by
    have absent : (State.init store).store.lookupClient u = none := by
      rw [Store.lookupClient, State.init, empty]
      exact Map.get_empty u
    rw [absent] at found
    cases found
  placed := nofun

/-- A session registers; if another was registered for its user, it closes that one. -/
theorem register (h : Inv s) {userID : Bytes} {c : Conn} {phase : Phase} (fresh : c ∉ s.registered)
    (closes : ∀ prev, s.store.lookupClient userID = some prev → phase = .closing prev) :
    Inv { s with
      store := (s.store.register userID c).1
      sessions := ⟨c, userID, phase⟩ :: s.sessions
      registered := c :: s.registered } := by
  refine ⟨?_, ?_, ?_, ?_⟩
  · refine List.nodup_cons.2 ⟨fun inside => fresh ?_, h.distinct⟩
    obtain ⟨ss, listed, same⟩ := List.mem_map.1 inside
    have known := h.known ss listed
    rw [same] at known
    exact known
  · intro ss inside
    rcases List.mem_cons.1 inside with rfl | old
    · exact List.mem_cons_self
    · exact List.mem_cons_of_mem _ (h.known ss old)
  · intro u d found
    rw [Store.register_lookup] at found
    split at found
    · rename_i same
      cases found
      exact ⟨_, List.mem_cons_self, same, rfl⟩
    · obtain ⟨ss, listed, mine⟩ := h.clients u d found
      exact ⟨ss, List.mem_cons_of_mem _ listed, mine⟩
  · intro ss inside
    rcases List.mem_cons.1 inside with rfl | old
    · exact .inr (.inl (by rw [Store.register_lookup, if_pos rfl]))
    · rcases h.placed ss old with shut | held | ⟨newer, listed, mine⟩
      · exact .inl shut
      · by_cases same : userID = ss.userID
        · rw [← same] at held
          exact .inr (.inr ⟨_, List.mem_cons_self, same, closes _ held⟩)
        · exact .inr (.inl (by rw [Store.register_lookup, if_neg same]; exact held))
      · exact .inr (.inr ⟨newer, List.mem_cons_of_mem _ listed, mine⟩)

/-- A session has closed the connection it replaced. -/
theorem close (h : Inv s) {j : Nat} {c prev : Conn} {userID : Bytes} {rest : List Session}
    (picked : pick s.sessions j = some (⟨c, userID, .closing prev⟩, rest)) :
    Inv { s with sessions := ⟨c, userID, .serving⟩ :: rest, closed := prev :: s.closed } := by
  have before := pick_perm picked
  -- who was being closed by this session is closed now, and the other replacements go on
  have still {ss : Session} (placed : Placed s ss) :
      Placed { s with sessions := ⟨c, userID, .serving⟩ :: rest, closed := prev :: s.closed } ss := by
    rcases placed with shut | held | ⟨newer, listed, mine, closing⟩
    · exact .inl (List.mem_cons_of_mem _ shut)
    · exact .inr (.inl held)
    · rcases List.mem_cons.1 (before.mem_iff.2 listed) with rfl | other
      · cases closing
        exact .inl List.mem_cons_self
      · exact .inr (.inr ⟨newer, List.mem_cons_of_mem _ other, mine, closing⟩)
  refine ⟨?_, ?_, ?_, ?_⟩
  · exact ((before.map Session.conn).nodup_iff).2 h.distinct
  · intro ss inside
    rcases List.mem_cons.1 inside with rfl | other
    · exact h.known ⟨c, userID, .closing prev⟩ (mem_of_pick picked)
    · exact h.known ss (mem_of_pick_rest picked other)
  · intro u d found
    obtain ⟨ss, listed, mine⟩ := h.clients u d found
    rcases List.mem_cons.1 (before.mem_iff.2 listed) with rfl | other
    · exact ⟨_, List.mem_cons_self, mine⟩
    · exact ⟨ss, List.mem_cons_of_mem _ other, mine⟩
  · intro ss inside
    rcases List.mem_cons.1 inside with rfl | other
    · exact still (h.placed ⟨c, userID, .closing prev⟩ (mem_of_pick picked))
    · exact still (h.placed ss (mem_of_pick_rest picked other))

/-- A session ends; one that replaces another does not before it has closed it. -/
theorem leave (h : Inv s) {j : Nat} {c : Conn} {userID : Bytes} {rest : List Session}
    (picked : pick s.sessions j = some (⟨c, userID, .serving⟩, rest)) :
    Inv { s with store := s.store.unregister userID c, sessions := rest, closed := c :: s.closed } := by
  have before := pick_perm picked
  obtain ⟨apart, distinct⟩ := List.nodup_cons.1 (((before.map Session.conn).nodup_iff).2 h.distinct)
  refine ⟨distinct, fun ss inside => h.known ss (mem_of_pick_rest picked inside), ?_, ?_⟩
  · intro u d found
    rw [Store.lookupClient_unregister] at found
    split at found
    · cases found
    · rename_i other
      obtain ⟨ss, listed, mine, same⟩ := h.clients u d found
      rcases List.mem_cons.1 (before.mem_iff.2 listed) with rfl | remains
      · refine absurd ⟨mine, ?_⟩ other
        rw [← same, ← mine] at found
        exact found
      · exact ⟨ss, remains, mine, same⟩
  · intro ss inside
    have differs : ss.conn ≠ c := fun same => apart (List.mem_map.2 ⟨ss, inside, same⟩)
    rcases h.placed ss (mem_of_pick_rest picked inside) with shut | held | ⟨newer, listed, mine, closing⟩
    · exact .inl (List.mem_cons_of_mem _ shut)
    · refine .inr (.inl ?_)
      rw [Store.lookupClient_unregister, if_neg]
      · exact held
      · rintro ⟨same, mine⟩
        rw [← same, mine] at held
        exact differs (Option.some.inj held).symm
    · rcases List.mem_cons.1 (before.mem_iff.2 listed) with rfl | remains
      · cases closing
      · exact .inr (.inr ⟨newer, remains, mine, closing⟩)

/-- **One step.** -/
theorem step {l : Label} (h : Inv s) (stepped : s.step l = some s') : Inv s' := by
  cases State.step_cases stepped with
  | first fresh none =>
    refine h.register fresh fun prev held => ?_
    rw [none] at held
    cases held
  | replaces fresh held =>
    refine h.register fresh fun prev held' => ?_
    rw [held] at held'
    cases held'
    rfl
  | closes picked => exact h.close picked
  | same => exact h
  | dropped =>
    exact ⟨h.distinct, h.known, h.clients, fun ss inside => (h.placed ss inside).imp_left (List.mem_cons_of_mem _)⟩
  | left picked => exact h.leave picked

end Inv

/-! ## Counting -/

/-- The connections on which a frame of the user can still be read. -/
def readers (s : State) (u : Bytes) : List Conn :=
  (s.sessions.filter fun ss => ss.userID = u ∧ ss.conn ∉ s.closed).map Session.conn

/-- The replaced connections of the user that are being closed. -/
def closing (s : State) (u : Bytes) : List Conn :=
  (s.sessions.filter fun ss => ss.userID = u).filterMap fun ss => ss.phase.prev

/-- Who can read is registered or is being closed. -/
theorem Inv.readers_subset {s : State} (h : Inv s) (u : Bytes) :
    readers s u ⊆ (s.store.lookupClient u).toList ++ closing s u := by
  intro c inside
  obtain ⟨ss, listed, rfl⟩ := List.mem_map.1 inside
  obtain ⟨live, condition⟩ := List.mem_filter.1 listed
  obtain ⟨rfl, reads⟩ := of_decide_eq_true condition
  rcases h.placed ss live with shut | held | ⟨newer, here, mine, phase⟩
  · exact absurd shut reads
  · refine List.mem_append_left _ ?_
    rw [held]
    exact List.mem_cons_self
  · refine List.mem_append_right _ (List.mem_filterMap.2 ⟨newer, List.mem_filter.2 ⟨here, decide_eq_true mine⟩, ?_⟩)
    rw [phase]
    rfl

/-- **One session per user.** Whatever the order of connects, closes, reads and ends of any number of sessions: a
connection on which a user's frames can be read is the registered one or one that a newer session is just closing, so
there are no more of them than replacements under way and one; and when none is under way, the user's frames are read
from the registered connection alone. -/
theorem one_session_per_user (store : Store) (labels : List Label) (s : State) (empty : store.clients = ∅)
    (reached : run State.step (State.init store) labels = some s) (u : Bytes) :
    (∀ c ∈ readers s u, s.store.lookupClient u = some c ∨ c ∈ closing s u) ∧
      (readers s u).length ≤ (closing s u).length + 1 ∧
      (closing s u = [] → ∀ c ∈ readers s u, readers s u = [c] ∧ s.store.lookupClient u = some c) := by
  have inv : Inv s := run_invariant (fun _ _ _ h stepped => h.step stepped) (Inv.init empty) reached
  have inside := inv.readers_subset u
  have distinct : (readers s u).Nodup := inv.distinct.sublist (List.filter_sublist.map _)
  have short : (s.store.lookupClient u).toList.length ≤ 1 := by
    cases s.store.lookupClient u with
    | none => exact Nat.zero_le _
    | some c => exact Nat.le_refl _
  have count : (readers s u).length ≤ (closing s u).length + 1 := by
    have fits := (List.subperm_of_subset distinct inside).length_le
    rw [List.length_append] at fits
    omega
  have found : ∀ c ∈ readers s u, s.store.lookupClient u = some c ∨ c ∈ closing s u := fun c reads =>
    (List.mem_append.1 (inside reads)).imp_left Option.mem_toList.1
  refine ⟨found, count, fun idle c reads => ?_⟩
  have registered : s.store.lookupClient u = some c := by
    refine (found c reads).resolve_right ?_
    rw [idle]
    exact List.not_mem_nil
  refine ⟨?_, registered⟩
  rw [idle, List.length_nil] at count
  obtain ⟨only, same⟩ := List.length_eq_one_iff.1 (Nat.le_antisymm count (List.length_pos_of_mem reads))
  rw [same] at reads
  rw [same, List.mem_singleton.1 reads]

/-- Bob connects three times; the third session has closed the second, which is still closing the first. -/
def reconnects : List Label :=
  [.register (ascii "bob") 1, .read 0, .register (ascii "bob") 2, .read 1, .register (ascii "bob") 3, .close 0]

theorem one_session_per_user_bob :
    ∃ s, run State.step (State.init Reference.store) reconnects = some s ∧ readers s (ascii "bob") = [3, 1] ∧
      closing s (ascii "bob") = [1] ∧ s.store.lookupClient (ascii "bob") = some 3 ∧
      (readers s (ascii "bob")).length ≤ (closing s (ascii "bob")).length + 1 := by
  have found : ((run State.step (State.init Reference.store) reconnects).map fun s =>
      (readers s (ascii "bob"), closing s (ascii "bob"), s.store.lookupClient (ascii "bob"))) =
        some ([3, 1], [1], some 3) := by decide +kernel
  obtain ⟨s, reached, seen⟩ := Option.map_eq_some_iff.1 found
  simp only [Prod.mk.injEq] at seen
  obtain ⟨-, count, -⟩ := one_session_per_user Reference.store reconnects s rfl reached (ascii "bob")
  exact ⟨s, reached, seen.1, seen.2.1, seen.2.2, count⟩

end SpectreRelay.Server.SingleSession
