import SpectreRelay.Server.Conservation
import SpectreRelay.Server.QueueSteps
import SpectreRelay.Server.Restarts

/-!
# Shutting down

`Run` ends with `Store.Stop`, which closes the database under the sessions:
connections that were upgraded are not waited for, and their goroutines go on
until the process exits. From then on every database call fails. An `Enqueue`
drops its message, a drain returns nothing and a purge removes nothing, while
the registry and the connections still work. The queue stays as it was at the
stop, in memory and in the file, and every message that came in is accounted
for, as one that was lost only if its `Enqueue` came after the stop.
-/

namespace SpectreRelay.Server
set_option autoImplicit false
open Lib Model

namespace Store

variable {P : Platform}

/-- An `Enqueue` on a closed database: the first statement fails. -/
def EnqueueIo.closed (io : EnqueueIo) : EnqueueIo := { io with deleteFails := true }

/-- A `DrainQueue` on a closed database: the transaction does not begin. -/
def DrainIo.closed (io : DrainIo) : DrainIo := { io with beginFails := true }

theorem enqueue_closed (s : Store) (r : Bytes) (m : QueuedMessage) (io : EnqueueIo) : s.enqueue P r m io.closed = s := by
  simp only [enqueue, EnqueueIo.closed, if_true]

theorem drainQueue_closed (s : Store) (r : Bytes) (io : DrainIo) : s.drainQueue P r io.closed = (s, []) := by
  simp only [drainQueue, DrainIo.closed, if_true]

theorem purgeExpired_closed (s : Store) (now : Time) (io : PersistIo) : s.purgeExpired P now true io = s := by
  simp only [purgeExpired, if_true]

end Store

namespace Shutdown

open Delivery

/-- A relay that is serving or has been stopped. -/
structure Process where
  relay : State
  stopped : Bool
  /-- The messages that were dropped because the database was closed. -/
  lost : List Nat

inductive Action where
  | step (l : Label)
  | stop

namespace Process

variable (P : Platform)

/-- A step on a closed database. -/
def close (p : Process) : Label → Option Process
  | .enqueue i t =>
    match pick p.relay.calls i with
    | some (⟨id, r, m, .enqueue⟩, rest) =>
      some { p with
        relay := { p.relay with calls := rest, store := p.relay.store.enqueue P r m t.io.closed }
        lost := p.lost ++ [id] }
    | _ => none
  | .drain j now fileNonce =>
    match pick p.relay.sessions j with
    | some (⟨conn, userID, .registered⟩, rest) =>
      let drained := p.relay.store.drainQueue P userID (Store.DrainIo.clean now fileNonce).closed
      -- nothing was returned, so the flush is over
      some { p with relay := { p.relay with store := drained.1, sessions := ⟨conn, userID, .flush []⟩ :: rest } }
    | _ => none
  | .requeue j t =>
    match pick p.relay.sessions j with
    | some (⟨conn, userID, .requeueing ((id, m) :: left)⟩, rest) =>
      some { p with
        relay := { p.relay with
          sessions := ⟨conn, userID, .requeue left⟩ :: rest
          store := p.relay.store.enqueue P userID m t.io.closed }
        lost := p.lost ++ [id] }
    | _ => none
  | .purge now fileNonce =>
    some { p with relay := { p.relay with store := p.relay.store.purgeExpired P now true (.clean fileNonce) } }
  | l => (p.relay.step P l).map fun relay => { p with relay }

/-- One step, or none when it cannot be taken. A second `Stop` changes nothing. -/
def step (p : Process) : Action → Option Process
  | .step l => if p.stopped then p.close P l else (p.relay.step P l).map fun relay => { p with relay }
  | .stop => some { p with stopped := true }

/-- A relay after its first start. -/
def init (store : Store) (router : Router) : Process := ⟨State.init store router, false, []⟩

/-! ## What a step can do -/

/-- The steps by their effects. -/
inductive Step (p : Process) : Action → Process → Prop where
  | stop : Step p .stop { p with stopped := true }
  | serving {l : Label} {relay : State} (running : p.stopped = false) (stepped : p.relay.step P l = some relay) :
      Step p (.step l) { p with relay }
  | free {l : Label} {relay : State} (stopped : p.stopped = true) (free : l.Free) (stepped : p.relay.step P l = some relay) :
      Step p (.step l) { p with relay }
  | dropped {i id : Nat} {r : Bytes} {m : QueuedMessage} {rest : List Call} {t : Stamp} (stopped : p.stopped = true)
      (picked : pick p.relay.calls i = some (⟨id, r, m, .enqueue⟩, rest)) :
      Step p (.step (.enqueue i t)) { p with relay := { p.relay with calls := rest }, lost := p.lost ++ [id] }
  | undrained {j : Nat} {now : Time} {fileNonce : Block 12} {conn : Conn} {userID : Bytes} {rest : List Session}
      (stopped : p.stopped = true) (picked : pick p.relay.sessions j = some (⟨conn, userID, .registered⟩, rest)) :
      Step p (.step (.drain j now fileNonce))
        { p with relay := { p.relay with sessions := ⟨conn, userID, .flush []⟩ :: rest } }
  | unreturned {j id : Nat} {conn : Conn} {userID : Bytes} {m : QueuedMessage} {left : List (Nat × QueuedMessage)}
      {rest : List Session} {t : Stamp} (stopped : p.stopped = true)
      (picked : pick p.relay.sessions j = some (⟨conn, userID, .requeueing ((id, m) :: left)⟩, rest)) :
      Step p (.step (.requeue j t)) { p with
        relay := { p.relay with sessions := ⟨conn, userID, .requeue left⟩ :: rest }
        lost := p.lost ++ [id] }
  | unpurged {now : Time} {fileNonce : Block 12} (stopped : p.stopped = true) : Step p (.step (.purge now fileNonce)) p

variable {P}

theorem close_cases {p q : Process} {l : Label} (stopped : p.stopped = true) (h : p.close P l = some q) :
    Step P p (.step l) q := by
  cases l with
  | enqueue i t =>
    simp only [close] at h
    split at h
    · rename_i picked
      cases h
      rw [Store.enqueue_closed]
      exact .dropped stopped picked
    · cases h
  | drain j now fileNonce =>
    simp only [close] at h
    split at h
    · rename_i picked
      cases h
      rw [Store.drainQueue_closed]
      exact .undrained stopped picked
    · cases h
  | requeue j t =>
    simp only [close] at h
    split at h
    · rename_i picked
      cases h
      rw [Store.enqueue_closed]
      exact .unreturned stopped picked
    · cases h
  | purge now fileNonce =>
    cases h
    rw [Store.purgeExpired_closed]
    exact .unpurged stopped
  | _ =>
    simp only [close, Option.map_eq_some_iff] at h
    obtain ⟨relay, stepped, rfl⟩ := h
    exact .free stopped trivial stepped

/-- Every step is one of these. -/
theorem step_cases {p q : Process} {a : Action} (h : p.step P a = some q) : Step P p a q := by
  cases a with
  | stop =>
    cases h
    exact .stop
  | step l =>
    simp only [step] at h
    split at h
    · rename_i stopped
      exact close_cases stopped h
    · rename_i running
      obtain ⟨relay, stepped, rfl⟩ := Option.map_eq_some_iff.1 h
      exact .serving (Bool.eq_false_iff.2 running) stepped

end Process

/-! ## The queue and its file -/

/-- The file holds the rows in memory, and others only that were discarded as expired. -/
def Synced (P : Platform) (s : State) : Prop :=
  ∃ t, Store.Image P s.store t ∧ (∀ row ∈ s.store.table.rows, row ∈ t.rows) ∧
    ∀ row ∈ t.rows, row ∈ s.store.table.rows ∨ ∃ now, (s.owner row.1, .expired row.2.expiresAt now) ∈ s.discarded

namespace Synced

variable {P : Platform} {s s' : State}

theorem of_same (h : Synced P s) (same : SameQueue s s') : Synced P s' := by
  obtain ⟨t, image, kept, dead⟩ := h
  refine ⟨t, image.of_disk same.disk same.key, ?_, ?_⟩
  · rw [same.table]
    exact kept
  · rw [same.table, same.owner, same.discarded]
    exact dead

/-- The file was replaced by an image of the table in memory. -/
theorem replaced (h : Synced P s) (nonce : Block 12) (key : s'.store.key = s.store.key)
    (disk : s'.store.disk =
      ⟨s.store.disk.keyFile, some (P.aead.encrypt s.store.key nonce (P.sqlite.serialize s'.store.table))⟩) :
    Synced P s' := by
  obtain ⟨t, image, -, -⟩ := h
  exact ⟨s'.store.table, image.replaced nonce key disk, fun row inside => inside, fun row inside => .inl inside⟩

/-- A full queue is purged in memory only. -/
theorem enqueue (h : Synced P s) (id : Nat) (r : Bytes) (m : QueuedMessage) (t : Stamp) :
    Synced P (State.enqueue P s id r m t) := by
  by_cases full : Store.Full s.store.table r t.deleteAt
  · obtain ⟨image, held, kept, dead⟩ := h
    have table : (State.enqueue P s id r m t).store.table = Store.purgeOf s.store.table r t.deleteAt := by
      simp only [State.enqueue, Stamp.io, Store.enqueue_table, full, if_true]
    have owner : (State.enqueue P s id r m t).owner = s.owner := by
      simp only [State.enqueue, full, if_true]
    refine ⟨image, held.of_disk ?_ ?_, ?_, ?_⟩
    · simp only [State.enqueue, Stamp.io, Store.enqueue_clean, full, if_true]
    · simp only [State.enqueue, Stamp.io, Store.enqueue_key]
    · rw [table]
      exact fun row inside => kept row (List.mem_filter.1 inside).1
    · intro row inside
      rw [table, owner]
      rcases dead row inside with stored | ⟨now, gone⟩
      · by_cases doomed : row.2.recipientID = r ∧ Store.expired t.deleteAt row.2 = true
        · refine .inr ⟨t.deleteAt, ?_⟩
          have listed : (s.owner row.1, Discard.expired row.2.expiresAt t.deleteAt) ∈
              s.expiries (fun row => row.recipientID = r ∧ Store.expired t.deleteAt row) t.deleteAt :=
            List.mem_map.2 ⟨row, List.mem_filter.2 ⟨stored, decide_eq_true doomed⟩, rfl⟩
          exact List.mem_append_left _ (List.mem_append_right _ listed)
        · refine .inl (List.mem_filter.2 ⟨stored, ?_⟩)
          simpa [or_iff_not_imp_left] using doomed
      · exact .inr ⟨now, List.mem_append_left _ (List.mem_append_left _ gone)⟩
  · refine h.replaced t.fileNonce ?_ ?_
    · simp only [State.enqueue, Stamp.io, Store.enqueue_key]
    · simp only [State.enqueue, Stamp.io, Store.enqueue_clean, full, if_false]
      rfl

theorem step {l : Label} (h : Synced P s) (stepped : s.step P l = some s') : Synced P s' := by
  by_cases free : l.Free
  · exact h.of_same (.free free stepped)
  · cases State.step_cases stepped with
    | @enqueue i id r m rest t picked =>
      have finished : Synced P { s with calls := rest } := h.of_same ⟨rfl, rfl, rfl, rfl, rfl⟩
      exact finished.enqueue id r m t
    | drain picked => exact h.replaced _ rfl rfl
    | @requeue j id conn userID m left rest t picked =>
      have returned : Synced P { s with sessions := ⟨conn, userID, .requeue left⟩ :: rest } :=
        h.of_same ⟨rfl, rfl, rfl, rfl, rfl⟩
      exact returned.enqueue id userID m t
    | purge => exact h.replaced _ rfl rfl
    | _ => exact absurd trivial free

end Synced

/-! ## Accounting -/

/-- Each message that came in is in one place or was lost, and none is lost before the stop. -/
structure Inv (P : Platform) (p : Process) : Prop where
  tracked : Delivery.Inv P p.relay
  counted : ∀ id, p.relay.held id + p.lost.count id = if id < p.relay.handed.length then 1 else 0
  synced : Synced P p.relay
  early : p.stopped = false → p.lost = []

namespace Inv

variable {P : Platform} {p q : Process}

/-- A first start. -/
theorem init {ttlSeconds : Int64} {fresh : Block 32} {fileNonce : Block 12} {store : Store}
    (started : (Store.newStore P .empty ttlSeconds (.clean fresh fileNonce)).2 = .ok store) (router : Router) :
    Inv P (.init store router) where
  tracked := .init store router
  counted := Conserved.init store router
  synced := by
    cases started
    exact ⟨.empty, ⟨rfl, fileNonce, rfl⟩, fun row inside => inside, fun row inside => .inl inside⟩
  early _ := rfl

/-- A step of the relay that loses nothing. -/
theorem relay {l : Label} {relay : State} (h : Inv P p) (stepped : p.relay.step P l = some relay) :
    Inv P { p with relay } where
  tracked := h.tracked.step stepped
  counted id := by
    have moved := State.held_step h.tracked stepped id
    have before := h.counted id
    simp only at before ⊢
    omega
  synced := h.synced.step stepped
  early := h.early

/-- **One step.** -/
theorem step {a : Action} (h : Inv P p) (stepped : p.step P a = some q) : Inv P q := by
  cases Process.step_cases stepped with
  | stop => exact ⟨h.tracked, h.counted, h.synced, nofun⟩
  | serving running taken => exact h.relay taken
  | free stopped free taken => exact h.relay taken
  | @dropped i id r m rest t stopped picked =>
    refine ⟨h.tracked.finish picked, fun other => ?_, h.synced.of_same ⟨rfl, rfl, rfl, rfl, rfl⟩, fun running => ?_⟩
    · have taken := State.held_finish picked other
      have before := h.counted other
      rw [List.count_append]
      simp only at before taken ⊢
      omega
    · rw [stopped] at running
      cases running
  | @undrained j now fileNonce conn userID rest stopped picked =>
    refine ⟨h.tracked.proceed picked nofun, fun other => ?_, h.synced.of_same ⟨rfl, rfl, rfl, rfl, rfl⟩, h.early⟩
    have moved := State.held_proceed picked (.flush []) other
    have before := h.counted other
    simp only [Phase.pending_flush, Phase.pending_registered, List.map_nil, List.count_nil] at moved
    simp only at before ⊢
    omega
  | @unreturned j id conn userID m left rest t stopped picked =>
    refine ⟨h.tracked.proceed picked fun message waiting => ?_, fun other => ?_,
      h.synced.of_same ⟨rfl, rfl, rfl, rfl, rfl⟩, fun running => ?_⟩
    · rw [Phase.pending_requeue] at waiting
      exact h.tracked.pending _ (mem_of_pick picked) message (List.mem_cons_of_mem _ waiting)
    · have moved := State.held_proceed picked (.requeue left) other
      have before := h.counted other
      simp only [Phase.pending_requeue, Phase.pending_requeueing, List.map_cons] at moved
      rw [List.count_cons] at moved
      rw [List.count_append, List.count_singleton]
      simp only at before ⊢
      omega
    · rw [stopped] at running
      cases running
  | unpurged => exact h

/-- Where a message is, or that it was lost. -/
theorem account (h : Inv P p) {id : Nat} {call : Handed} (handed : p.relay.handed[id]? = some call) :
    (∃ place, p.relay.places id = [place] ∧ place.Fits p.relay call ∧ id ∉ p.lost) ∨
      (p.relay.places id = [] ∧ p.lost.count id = 1 ∧ p.stopped = true) := by
  have once := h.counted id
  rw [if_pos (List.getElem?_eq_some_iff.1 handed).1] at once
  by_cases lost : id ∈ p.lost
  · have counted := List.count_pos_iff.2 lost
    have nowhere := p.relay.places_length id
    refine .inr ⟨List.length_eq_zero_iff.1 (by omega), by omega, ?_⟩
    by_contra running
    rw [h.early (Bool.eq_false_iff.2 running)] at lost
    cases lost
  · have kept := List.count_eq_zero.2 lost
    obtain ⟨place, only, -, fits⟩ := h.tracked.only_place handed (by omega)
    exact .inl ⟨place, only, fits, lost⟩

end Inv

/-- After the stop the queue stays as it is. -/
theorem stopped_step {P : Platform} {p q : Process} {a : Action} (stopped : p.stopped = true) (stepped : p.step P a = some q) :
    q.stopped = true ∧ SameQueue p.relay q.relay := by
  cases Process.step_cases stepped with
  | stop => exact ⟨rfl, .refl _⟩
  | serving running =>
    rw [stopped] at running
    cases running
  | free _ free taken => exact ⟨stopped, .free free taken⟩
  | dropped => exact ⟨stopped, rfl, rfl, rfl, rfl, rfl⟩
  | undrained => exact ⟨stopped, rfl, rfl, rfl, rfl, rfl⟩
  | unreturned => exact ⟨stopped, rfl, rfl, rfl, rfl, rfl⟩
  | unpurged => exact ⟨stopped, .refl _⟩

/-- What a start on the files finds: the queue at the stop, and besides it only what had expired before. -/
def Resumes (P : Platform) (ttlSeconds : Int64) (stop : State) (disk : Disk) : Prop :=
  ∀ io next, (Store.newStore P disk ttlSeconds io).2 = .ok next →
    (∀ row ∈ stop.store.table.rows, row ∈ next.table.rows) ∧
      ∀ row ∈ next.table.rows, row ∈ stop.store.table.rows ∨
        ∃ now, (stop.owner row.1, .expired row.2.expiresAt now) ∈ stop.discarded

theorem Synced.resumes {P : Platform} {s : State} (h : Synced P s) (ttlSeconds : Int64) :
    Resumes P ttlSeconds s s.store.disk := by
  intro io next started
  obtain ⟨t, image, kept, dead⟩ := h
  rw [image.newStore started]
  exact ⟨kept, dead⟩

/-- **Shutdown.** Stop a relay in any state it can reach and let the sessions go on in any way: every message that came
in, before or after, is in one place that belongs to it or was lost to the closed database; the queue and its file are
those of the stop; and whenever the process ends, the next start finds the queue of the stop. -/
theorem shutdown_accounted (P : Platform) (ttlSeconds : Int64) (fresh : Block 32) (fileNonce : Block 12) (store : Store)
    (router : Router) (before after : List Action) (p q : Process)
    (started : (Store.newStore P .empty ttlSeconds (.clean fresh fileNonce)).2 = .ok store)
    (reached : run (Process.step P) (.init store router) before = some p)
    (later : run (Process.step P) { p with stopped := true } after = some q) :
    (∀ id call, q.relay.handed[id]? = some call →
        (∃ place, q.relay.places id = [place] ∧ place.Fits q.relay call ∧ id ∉ q.lost) ∨
          (q.relay.places id = [] ∧ q.lost.count id = 1 ∧ q.stopped = true)) ∧
      (p.stopped = false → p.lost = []) ∧ SameQueue p.relay q.relay ∧
      Resumes P ttlSeconds p.relay q.relay.store.disk := by
  have served : Inv P p := run_invariant (fun _ _ _ inv stepped => inv.step stepped) (.init started router) reached
  have stop : Inv P { p with stopped := true } := served.step (a := .stop) rfl
  have inv : Inv P q := run_invariant (fun _ _ _ inv stepped => inv.step stepped) stop later
  have same : q.stopped = true ∧ SameQueue p.relay q.relay :=
    run_invariant (P := fun q => q.stopped = true ∧ SameQueue p.relay q.relay)
      (fun _ _ _ held stepped => (stopped_step held.1 stepped).imp_right held.2.trans) ⟨rfl, .refl _⟩ later
  refine ⟨fun id call handed => inv.account handed, served.early, same.2, ?_⟩
  rw [same.2.disk]
  exact served.synced.resumes ttlSeconds

/-- A message of ann to bob, who is away, up to its `Enqueue`. -/
def toBob (ciphertext : Bytes) : List Action :=
  [.step (.frame (ascii "ann") (SealedEnvelope.marshal ⟨ascii "bob", ciphertext, 0, [], []⟩) Reference.start),
    .step (.lookup 0), .step (.enqueue 0 .start)]

/-- The message before the stop is in the queue of the next start, the one after it is lost. -/
theorem shutdown_accounted_late :
    ∃ p q, run (Process.step Reference.platform) (.init Reference.firstStore (.new 65536 60 (ascii "a"))) (toBob [1]) =
        some p ∧
      run (Process.step Reference.platform) { p with stopped := true } (toBob [2]) = some q ∧
      q.relay.handed.length = 2 ∧ q.relay.rowIds = [0] ∧ q.lost = [1] ∧ SameQueue p.relay q.relay ∧
      Resumes Reference.platform 60 p.relay q.relay.store.disk := by
  have found : ((run (Process.step Reference.platform) (.init Reference.firstStore (.new 65536 60 (ascii "a")))
      (toBob [1])).bind fun p => (run (Process.step Reference.platform) { p with stopped := true } (toBob [2])).map
        fun q => (q.relay.handed.length, q.relay.rowIds, q.lost)) = some (2, [0], [1]) := by decide +kernel
  obtain ⟨p, reached, rest⟩ := Option.bind_eq_some_iff.1 found
  obtain ⟨q, later, ends⟩ := Option.map_eq_some_iff.1 rest
  obtain ⟨handed, rows, lost⟩ : q.relay.handed.length = 2 ∧ q.relay.rowIds = [0] ∧ q.lost = [1] := by
    simpa only [Prod.mk.injEq] using ends
  obtain ⟨-, -, same, resumes⟩ := shutdown_accounted Reference.platform 60 (.zeros 32) (.zeros 12) Reference.firstStore
    (.new 65536 60 (ascii "a")) (toBob [1]) (toBob [2]) p q Reference.firstStore_started reached later
  exact ⟨p, q, reached, later, handed, rows, lost, same, resumes⟩

end Shutdown

end SpectreRelay.Server
