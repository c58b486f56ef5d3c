import SpectreRelay.Server.Backlog

/-!
# How long a message can stay in the queue

`Enqueue` sets the expiry of a message from the time of the call, and
`FlushQueue` calls it again for what a failed write left over: the message gets
a new life of full length. `outlived` shows a message that `DrainQueue` returns
long after its time to live. As long as leftovers are put back in the second in
which they first came, no call returns an older message (`returned_within_ttl`).
-/

namespace SpectreRelay.Server.Backlog
set_option autoImplicit false
open Lib Model

variable {P : Platform} {ttlSeconds : Int64}

/-- The stored expiry is at most the reading plus the time to live, in seconds, also when the product overflows. -/
theorem addUnix_ttl_le (positive : 0 < ttlSeconds.toInt) (now : Time) :
    (now.addUnix (ttlSeconds * 1000000000)).toInt ≤ now.seconds + ttlSeconds.toInt := by
  have wrapped : (ttlSeconds * 1000000000).toInt ≤ ttlSeconds.toInt * 10 ^ 9 := by
    have unit : (1000000000 : Int64).toInt = 10 ^ 9 := by decide
    rw [Int64.toInt_mul, unit, Int.bmod_def]
    split <;> omega
  rw [Time.addUnix_toInt, Time.seconds]
  omega

/-- A row expires within the time to live of its message's first insertion. -/
def Timely (ttlSeconds : Int64) (s : State) (row : Nat × QueueRow) : Prop :=
  ∃ rec, s.record (s.owner row.1) = some rec ∧ row.2.expiresAt.toInt ≤ rec.first.seconds + ttlSeconds.toInt

/-- The history of the message that the flush at position `j` puts back next. -/
def State.putsBack (s : State) (j : Nat) : Option Record :=
  match pick s.flushes j with
  | some (⟨_, true, (id, _) :: _⟩, _) => s.record id
  | _ => none

/-- A message that is put back was first inserted in the same second. -/
def Prompt (s : State) : Label → Prop
  | .op (.requeue j io) => ∀ rec ∈ s.putsBack j, io.now.seconds ≤ rec.first.seconds
  | _ => True

instance (s : State) (l : Label) : Decidable (Prompt s l) := by
  unfold Prompt
  split <;> infer_instance

/-- All rows are timely, and the store keeps its time to live. -/
structure Expires (P : Platform) (ttlSeconds : Int64) (s : State) : Prop where
  inv : Inv P s
  rows : Store.AllRows P (Timely ttlSeconds s) s.store
  ttl : s.store.ttl = ttlSeconds * 1000000000

namespace Expires

variable {s : State}

theorem init {store : Store} (rows : ∀ Q, Store.AllRows P Q store) (ttl : store.ttl = ttlSeconds * 1000000000)
    (now : Time) : Expires P ttlSeconds (State.init store now) := ⟨.init rows now, rows _, ttl⟩

/-- One `Enqueue` of a message that is new or was first inserted in this second. -/
theorem enqueue (h : Expires P ttlSeconds s) (positive : 0 < ttlSeconds.toInt) {id : Nat} {r : Bytes} {m : QueuedMessage}
    {io : Store.EnqueueIo} (mine : s.recipients[id]? = some r) (single : m.Single)
    (prompt : ∀ rec, s.record id = some rec → io.now.seconds ≤ rec.first.seconds) :
    Expires P ttlSeconds (State.enqueue P s id r m io) where
  inv := h.inv.enqueue mine single io
  rows := by
    refine Store.AllRows.enqueued (h.rows.mono ?_) (Store.enqueue_cases ..) ?_
    · rintro row below ⟨rec, found, timely⟩
      obtain ⟨rec', found', same⟩ := s.enqueue_record (P := P) id r m io found
      unfold Timely
      rw [s.enqueue_owner id r m io below]
      exact ⟨rec', found', by rw [same]; exact timely⟩
    · intro inserts nonce
      obtain ⟨own, found⟩ := State.enqueue_inserted (P := P) id m inserts
      unfold Timely
      rw [own]
      refine ⟨_, found, ?_⟩
      have life : (io.now.addUnix s.store.ttl).toInt ≤ io.now.seconds + ttlSeconds.toInt := by
        rw [h.ttl]
        exact addUnix_ttl_le positive io.now
      have first : io.now.seconds ≤ (s.recorded id m io.now).first.seconds := by
        unfold State.recorded
        cases known : s.record id with
        | none => exact le_refl _
        | some rec => exact prompt rec known
      show (io.now.addUnix s.store.ttl).toInt ≤ _
      omega
  ttl := (Store.enqueue_ttl_any ..).trans h.ttl

/-- **A prompt step keeps every row timely.** -/
theorem step (h : Expires P ttlSeconds s) (positive : 0 < ttlSeconds.toInt) {l : Label} {s' : State}
    (prompt : Prompt s l) (stepped : State.step P ttlSeconds s l = some s') : Expires P ttlSeconds s' := by
  have inv := h.inv.step stepped
  rcases State.step_cases stepped with ⟨o, rfl, acts⟩ | ⟨now, io, _, store, started, rfl⟩
  · cases acts with
    | @enqueue r m io single =>
      have handed : Expires P ttlSeconds { s with recipients := s.recipients ++ [r] } :=
        ⟨h.inv.hand r, h.rows, h.ttl⟩
      refine handed.enqueue positive (by simp) single fun rec known => ?_
      have below := h.inv.recorded _ rec known
      omega
    | @drain userID io => exact ⟨inv, h.rows.drainQueue userID io, (Store.drainQueue_ttl_any ..).trans h.ttl⟩
    | skipped picked text => exact ⟨inv, h.rows, h.ttl⟩
    | wrote picked => exact ⟨inv, h.rows, h.ttl⟩
    | failed picked => exact ⟨inv, h.rows, h.ttl⟩
    | @requeue j id userID m left rest io picked =>
      obtain ⟨single, mine, _⟩ := h.inv.pending _ (mem_of_pick picked) _ List.mem_cons_self
      have moved : Expires P ttlSeconds { s with flushes := ⟨userID, true, left⟩ :: rest } :=
        ⟨h.inv.proceed picked fun _ => List.mem_cons_of_mem _, h.rows, h.ttl⟩
      refine moved.enqueue positive mine single fun rec known => prompt rec ?_
      simp only [State.putsBack, picked]
      exact known
    | @purge now fails io => exact ⟨inv, h.rows.purgeExpired now fails io, (Store.purgeExpired_ttl_any ..).trans h.ttl⟩
  · obtain ⟨t, image, _⟩ := h.rows.image
    refine ⟨inv, h.rows.newStore started, ?_⟩
    rw [image.newStore started]

end Expires

/-- **Time to live.** When every leftover is put back in the second in which its message was first inserted, then in
every reachable state no `DrainQueue` returns a message whose first insertion is further back than the time to live. The
time to live is positive in every configuration that `Load` accepts (`Server.new_positive`). -/
theorem returned_within_ttl (P : Platform) (ttlSeconds : Int64) (positive : 0 < ttlSeconds.toInt) (fresh : Block 32)
    (fileNonce : Block 12) (store : Store)
    (started : (Store.newStore P .empty ttlSeconds (.clean fresh fileNonce)).2 = .ok store) (start : Time)
    (labels : List Label) (s : State)
    (prompt : Always (State.step P ttlSeconds) Prompt (State.init store start) labels)
    (reached : run (State.step P ttlSeconds) (State.init store start) labels = some s) (userID : Bytes)
    (io : Store.DrainIo) (p : Nat × QueuedMessage) (inside : p ∈ s.returned P userID io) :
    ∃ rec, s.record p.1 = some rec ∧ io.now.seconds ≤ rec.first.seconds + ttlSeconds.toInt := by
  have held : Expires P ttlSeconds s :=
    run_invariant_under (fun _ _ _ before met stepped => before.step positive met stepped)
      (.init (Store.AllRows.first started) (Store.newStore_ttl started) start) prompt reached
  obtain ⟨n, row, stored, own, _, live, _⟩ := held.inv.returned inside
  obtain ⟨rec, found, timely⟩ := held.rows.memory _ stored
  rw [← own]
  refine ⟨rec, found, ?_⟩
  have notExpired : ¬ row.expiresAt.toInt < io.now.seconds := fun passed => by
    rw [Store.expired_iff.2 passed] at live
    cases live
  show io.now.seconds ≤ _
  have bound : row.expiresAt.toInt ≤ rec.first.seconds + ttlSeconds.toInt := timely
  omega

/-- The steps of bob's mail: a message at second `m`, and a drain at second `n` whose write fails and puts it back. -/
def putBackAt (m n : Fin 1000) : List Label :=
  [.op (.enqueue (ascii "bob") (.ofSealed ⟨ascii "bob", [1], 0, [], []⟩) (Reference.enqueueAt m)),
    .op (.drain (ascii "bob") (Reference.drainAt n)), .op (.write 0 true), .op (.requeue 0 (Reference.enqueueAt n))]

/-- A message put back at once and found after a restart, at the end of its minute. -/
theorem returned_within_ttl_bob :
    ∃ s p rec, run (State.step Reference.platform 60) (State.init Reference.firstStore Reference.start)
        (putBackAt 1 1 ++ [.restart (Reference.second 30) (.clean (.zeros 32) (.zeros 12))]) = some s ∧
      p ∈ s.returned Reference.platform (ascii "bob") (Reference.drainAt 61) ∧ s.record p.1 = some rec ∧
      (Reference.second 61).seconds ≤ rec.first.seconds + 60 := by
  have found : ((run (State.step Reference.platform 60) (State.init Reference.firstStore Reference.start)
      (putBackAt 1 1 ++ [.restart (Reference.second 30) (.clean (.zeros 32) (.zeros 12))])).map fun s =>
      (s.returned Reference.platform (ascii "bob") (Reference.drainAt 61)).head?.isSome) = some true := by decide +kernel
  obtain ⟨s, reached, some⟩ := Option.map_eq_some_iff.1 found
  obtain ⟨p, first⟩ := Option.isSome_iff_exists.1 some
  have inside := List.mem_of_mem_head? first
  obtain ⟨rec, known, bound⟩ := returned_within_ttl Reference.platform 60 (by decide) (.zeros 32) (.zeros 12)
    Reference.firstStore Reference.firstStore_started Reference.start _ s (by decide +kernel) reached _ _ p inside
  exact ⟨s, p, rec, reached, inside, known, bound⟩

/-- A message of second 1 is put back at second 50 and returned at second 100, forty seconds after its minute. The
readings never go back. -/
theorem outlived :
    ∃ s, run (State.step Reference.platform 60) (State.init Reference.firstStore Reference.start) (putBackAt 1 50) = some s ∧
      Always (State.step Reference.platform 60) (fun s l => l.Follows s.clock)
        (State.init Reference.firstStore Reference.start) (putBackAt 1 50) ∧
      s.clock ≤ Reference.second 100 ∧
      ∃ p ∈ s.returned Reference.platform (ascii "bob") (Reference.drainAt 100), ∃ rec, s.record p.1 = some rec ∧
        rec.first.seconds < (Reference.second 100).seconds - 60 := by
  have found : ((run (State.step Reference.platform 60) (State.init Reference.firstStore Reference.start)
      (putBackAt 1 50)).map fun s => (decide (s.clock ≤ Reference.second 100),
        (s.returned Reference.platform (ascii "bob") (Reference.drainAt 100)).map fun p =>
          (s.record p.1).map fun rec => decide (rec.first.seconds < (Reference.second 100).seconds - 60))) =
      some (true, [some true]) := by decide +kernel
  obtain ⟨s, reached, same⟩ := Option.map_eq_some_iff.1 found
  obtain ⟨clock, answers⟩ := Prod.mk.inj same
  obtain ⟨p, inside, told⟩ := List.mem_map.1 (answers ▸ List.mem_singleton_self (some true))
  obtain ⟨rec, known, old⟩ := Option.map_eq_some_iff.1 told
  exact ⟨s, reached, by decide +kernel, of_decide_eq_true clock, p, inside, rec, known, of_decide_eq_true old⟩

end SpectreRelay.Server.Backlog
