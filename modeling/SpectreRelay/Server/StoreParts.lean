import SpectreRelay.Server.FlushSuffix

/-!
# The part of a store that concerns some users

A set of user ids sees of the offline store its own registered connections and
its own rows, up to their numbers. `Alike` compares two stores on that part. A
call for an id of the set does the same to both and gives the same, and a call
for another id changes nothing of it, whatever its system calls answer.
-/

namespace SpectreRelay.Server
set_option autoImplicit false
open Lib Lib.Json Model

/-- The functions agree on the keys of the set. -/
def AgreeOn {β : Type} (mine : Bytes → Bool) (f g : Bytes → β) : Prop := ∀ u, mine u = true → f u = g u

theorem AgreeOn.symm {β : Type} {mine : Bytes → Bool} {f g : Bytes → β} (h : AgreeOn mine f g) : AgreeOn mine g f :=
  fun u own => (h u own).symm

theorem AgreeOn.trans {β : Type} {mine : Bytes → Bool} {f g k : Bytes → β} (h : AgreeOn mine f g)
    (h' : AgreeOn mine g k) : AgreeOn mine f k := fun u own => (h u own).trans (h' u own)

section Limiters

variable {mine : Bytes → Bool} {a b : Attempts} {key : Bytes}

/-- A call for a key of the set is answered alike, and the lists agree afterwards. -/
theorem AgreeOn.allowAt (h : AgreeOn mine a b) (own : mine key = true) (limit : Int) (now : Time) :
    (Server.allowAt limit a key now).2 = (Server.allowAt limit b key now).2 ∧
      AgreeOn mine (Server.allowAt limit a key now).1 (Server.allowAt limit b key now).1 := by
  constructor
  · simp only [Server.allowAt, h key own]
  · intro u inside
    by_cases same : u = key
    · rw [same, allowAt_self, allowAt_self, h key own]
    · rw [allowAt_other _ _ _ same, allowAt_other _ _ _ same, h u inside]

/-- A call for another key changes no list of the set. -/
theorem allowAt_elsewhere (other : mine key = false) (limit : Int) (a : Attempts) (now : Time) :
    AgreeOn mine (allowAt limit a key now).1 a := by
  intro u own
  apply allowAt_other
  rintro rfl
  rw [own] at other
  cases other

end Limiters

/-! ## The offline store -/

namespace Store

variable {P : Platform} {mine : Bytes → Bool} {s t s' : Store} {r : Bytes}

/-- The stores have the same connections and the same rows, up to their numbers, for the ids of the set. -/
structure Alike (mine : Bytes → Bool) (s t : Store) : Prop where
  key : s.key = t.key
  ttl : s.ttl = t.ttl
  clients : AgreeOn mine s.lookupClient t.lookupClient
  rows : AgreeOn mine (rowsOf s.table) (rowsOf t.table)

theorem Alike.refl (s : Store) : Alike mine s s := ⟨rfl, rfl, fun _ _ => rfl, fun _ _ => rfl⟩

theorem Alike.symm (h : Alike mine s t) : Alike mine t s := ⟨h.key.symm, h.ttl.symm, h.clients.symm, h.rows.symm⟩

theorem Alike.trans (h : Alike mine s t) (h' : Alike mine t s') : Alike mine s s' :=
  ⟨h.key.trans h'.key, h.ttl.trans h'.ttl, h.clients.trans h'.clients, h.rows.trans h'.rows⟩

theorem rowsOf_purgeOf (t : Table QueueRow) (r : Bytes) (now : Time) :
    rowsOf (purgeOf t r now) r = (rowsOf t r).filter fun row => !decide (row.recipientID = r ∧ expired now row = true) :=
  t.group_delete _ r

/-- The rows of the recipient after an `Enqueue` depend on its rows before. -/
theorem rowsOf_enqueue_congr (key : s.key = t.key) (ttl : s.ttl = t.ttl) (rows : rowsOf s.table r = rowsOf t.table r)
    (m : QueuedMessage) (io : EnqueueIo) :
    rowsOf (s.enqueue P r m io).table r = rowsOf (t.enqueue P r m io).table r := by
  have purged : rowsOf (purgeOf s.table r io.deleteAt) r = rowsOf (purgeOf t.table r io.deleteAt) r := by
    rw [rowsOf_purgeOf, rowsOf_purgeOf, rows]
  have count : ((purgeOf s.table r io.deleteAt).count fun row => row.recipientID = r) =
      (purgeOf t.table r io.deleteAt).count fun row => row.recipientID = r := by
    rw [Table.count_key, Table.count_key]
    exact congrArg List.length purged
  unfold enqueue
  by_cases deleteFails : io.deleteFails = true
  · rw [if_pos deleteFails, if_pos deleteFails, rows]
  rw [if_neg deleteFails, if_neg deleteFails]
  dsimp only
  by_cases countFails : io.countFails = true
  · rw [if_pos countFails, if_pos countFails]
    exact purged
  rw [if_neg countFails, if_neg countFails, count, key, ttl]
  split
  · exact purged
  cases io.nonce with
  | none => exact purged
  | some nonce =>
    dsimp only
    by_cases insertFails : io.insertFails = true
    · rw [if_pos insertFails, if_pos insertFails]
      exact purged
    · rw [if_neg insertFails, if_neg insertFails]
      simp only [persistLocked, rowsOf, Table.group_insert, if_true]
      exact congrArg (· ++ _) purged

theorem Alike.enqueue (h : Alike mine s t) (r : Bytes) (m : QueuedMessage) (io : EnqueueIo) :
    Alike mine (s.enqueue P r m io) (t.enqueue P r m io) where
  key := by rw [enqueue_key_any, enqueue_key_any, h.key]
  ttl := by rw [enqueue_ttl_any, enqueue_ttl_any, h.ttl]
  clients := by
    intro u own
    rw [lookupClient, lookupClient, enqueue_clients_any, enqueue_clients_any]
    exact h.clients u own
  rows := by
    intro u own
    by_cases same : u = r
    · subst same
      exact rowsOf_enqueue_congr h.key h.ttl (h.rows u own) m io
    · rw [rowsOf_enqueue_other s same, rowsOf_enqueue_other t same, h.rows u own]

/-- An `Enqueue` for another user is not noticed. -/
theorem enqueue_elsewhere (other : mine r = false) (s : Store) (m : QueuedMessage) (io : EnqueueIo) :
    Alike mine (s.enqueue P r m io) s where
  key := enqueue_key_any ..
  ttl := enqueue_ttl_any ..
  clients u _ := by rw [lookupClient, enqueue_clients_any, lookupClient]
  rows u own := by
    apply rowsOf_enqueue_other
    rintro rfl
    rw [own] at other
    cases other

/-- The messages that are read from rows, whatever their numbers. -/
theorem readRows_messages (key : Block 32) (now : Time) (scanFails : Nat → Bool) (rows : List (Nat × QueueRow)) :
    (readRows P key now scanFails rows).map Prod.snd = (rows.map Prod.snd).zipIdx.filterMap fun (row, i) =>
      if scanFails i then none else if expired now row then none else readPayload P key row.payload := by
  simp only [readRows, List.map_filterMap, List.zipIdx_map, List.filterMap_map]
  congr 1
  funext entry
  obtain ⟨⟨number, row⟩, i⟩ := entry
  simp only [Function.comp_apply, Prod.map_apply, id_eq]
  split
  · rfl
  · split
    · rfl
    · cases readPayload P key row.payload <;> rfl

theorem drained_congr (key : s.key = t.key) (rows : rowsOf s.table r = rowsOf t.table r) (io : DrainIo) :
    (drainedRows P s r io).map Prod.snd = (drainedRows P t r io).map Prod.snd := by
  have same : (s.table.select fun row => row.recipientID = r).map Prod.snd =
      (t.table.select fun row => row.recipientID = r).map Prod.snd := rows
  simp only [drainedRows, key]
  rw [readRows_messages, readRows_messages]
  cases io.rowLimit with
  | none => simp only [same]
  | some n => simp only [List.map_take, same]

/-- A drain of an id of the set gives the same messages. -/
theorem Alike.drainQueue (h : Alike mine s t) (own : mine r = true) (io : DrainIo) :
    (s.drainQueue P r io).2 = (t.drainQueue P r io).2 ∧
      Alike mine (s.drainQueue P r io).1 (t.drainQueue P r io).1 := by
  have deleted : ∀ u, mine u = true → rowsOf (s.table.delete fun row => row.recipientID = r) u =
      rowsOf (t.table.delete fun row => row.recipientID = r) u := by
    intro u inside
    have before := h.rows u inside
    simp only [rowsOf, Table.group_delete] at before ⊢
    rw [before]
  rw [drainQueue_eq, drainQueue_eq]
  split
  · exact ⟨drained_congr h.key (h.rows r own) io, h.key, h.ttl, h.clients, deleted⟩
  · split
    · exact ⟨rfl, h.key, h.ttl, h.clients, deleted⟩
    · exact ⟨rfl, h⟩

/-- A drain of another user is not noticed. -/
theorem drainQueue_elsewhere (other : mine r = false) (s : Store) (io : DrainIo) :
    Alike mine (s.drainQueue P r io).1 s := by
  have deleted : ∀ u, mine u = true → rowsOf (s.table.delete fun row => row.recipientID = r) u = rowsOf s.table u := by
    intro u own
    apply Table.group_delete_other
    rintro rfl
    rw [own] at other
    cases other
  rw [drainQueue_eq]
  split
  · exact ⟨rfl, rfl, fun _ _ => rfl, deleted⟩
  · split
    · exact ⟨rfl, rfl, fun _ _ => rfl, deleted⟩
    · exact Alike.refl s

theorem Alike.requeue (h : Alike mine s t) (r : Bytes) (io : Nat → EnqueueIo) (i : Nat) (messages : List QueuedMessage) :
    Alike mine (requeue P r io i messages s) (requeue P r io i messages t) := by
  induction messages generalizing i s t with
  | nil => exact h
  | cons m left ih => exact ih (h.enqueue r m (io i)) (i + 1)

theorem requeue_elsewhere (other : mine r = false) (io : Nat → EnqueueIo) (i : Nat) (messages : List QueuedMessage)
    (s : Store) : Alike mine (Server.requeue P r io i messages s) s := by
  induction messages generalizing i s with
  | nil => exact Alike.refl s
  | cons m left ih => exact (ih (i + 1) _).trans (enqueue_elsewhere other s m (io i))

theorem Alike.flushLoop (h : Alike mine s t) (r : Bytes) (fails : Nat → Bool) (io : Nat → EnqueueIo) (i : Nat)
    (messages : List QueuedMessage) :
    (Server.flushLoop P r fails io i messages s).2 = (Server.flushLoop P r fails io i messages t).2 ∧
      Alike mine (Server.flushLoop P r fails io i messages s).1 (Server.flushLoop P r fails io i messages t).1 := by
  induction messages generalizing i with
  | nil => exact ⟨rfl, h⟩
  | cons m left ih =>
    obtain ⟨written, rest⟩ := ih (i + 1)
    simp only [Server.flushLoop]
    split
    · exact ⟨written, rest⟩
    · split
      · exact ⟨rfl, h.requeue r io i (m :: left)⟩
      · exact ⟨congrArg (List.cons _) written, rest⟩

theorem flushLoop_elsewhere (other : mine r = false) (fails : Nat → Bool) (io : Nat → EnqueueIo) (i : Nat)
    (messages : List QueuedMessage) (s : Store) :
    Alike mine (Server.flushLoop P r fails io i messages s).1 s := by
  induction messages generalizing i with
  | nil => exact Alike.refl s
  | cons m left ih =>
    simp only [Server.flushLoop]
    split
    · exact ih (i + 1)
    · split
      · exact requeue_elsewhere other io i (m :: left) s
      · exact ih (i + 1)

/-- A flush of an id of the set writes the same frames. -/
theorem Alike.flushQueue (h : Alike mine s t) (own : mine r = true) (drain : DrainIo) (fails : Nat → Bool)
    (io : Nat → EnqueueIo) :
    (Server.flushQueue P s r drain fails io).2 = (Server.flushQueue P t r drain fails io).2 ∧
      Alike mine (Server.flushQueue P s r drain fails io).1 (Server.flushQueue P t r drain fails io).1 := by
  obtain ⟨messages, drained⟩ := h.drainQueue (P := P) own drain
  simp only [Server.flushQueue, messages]
  exact drained.flushLoop r fails io 0 _

theorem flushQueue_elsewhere (other : mine r = false) (s : Store) (drain : DrainIo) (fails : Nat → Bool)
    (io : Nat → EnqueueIo) : Alike mine (Server.flushQueue P s r drain fails io).1 s :=
  (flushLoop_elsewhere other fails io 0 _ _).trans (drainQueue_elsewhere other s drain)

theorem Alike.register (h : Alike mine s t) (r : Bytes) (c : Conn) :
    Alike mine (s.register r c).1 (t.register r c).1 where
  key := h.key
  ttl := h.ttl
  clients u own := by rw [register_lookup, register_lookup, h.clients u own]
  rows := h.rows

theorem register_elsewhere (other : mine r = false) (s : Store) (c : Conn) : Alike mine (s.register r c).1 s where
  key := rfl
  ttl := rfl
  clients u own := by
    rw [register_lookup, if_neg]
    rintro rfl
    rw [own] at other
    cases other
  rows _ _ := rfl

theorem Alike.unregister (h : Alike mine s t) (own : mine r = true) (c : Conn) :
    Alike mine (s.unregister r c) (t.unregister r c) where
  key := by rw [unregister_key, unregister_key, h.key]
  ttl := by rw [unregister_ttl, unregister_ttl, h.ttl]
  clients u inside := by rw [lookupClient_unregister, lookupClient_unregister, h.clients r own, h.clients u inside]
  rows := by
    rw [unregister_table, unregister_table]
    exact h.rows

theorem unregister_elsewhere (other : mine r = false) (s : Store) (c : Conn) : Alike mine (s.unregister r c) s where
  key := unregister_key ..
  ttl := unregister_ttl ..
  clients u own := by
    rw [lookupClient_unregister, if_neg]
    rintro ⟨rfl, -⟩
    rw [own] at other
    cases other
  rows := by
    rw [unregister_table]
    exact fun _ _ => rfl

end Store

/-- Nobody is connected after a start. -/
theorem Store.newStore_clients {P : Platform} {disk : Disk} {ttlSeconds : Int64} {io : Store.StartIo} {s : Store}
    (started : (Store.newStore P disk ttlSeconds io).2 = .ok s) : s.clients = ∅ := by
  unfold Store.newStore at started
  split at started
  · cases started
  · dsimp only at started
    split at started
    · cases started
    · split at started
      · cases started
      · unfold Store.loadFromDisk at started
        split at started
        · cases started
        · split at started
          · obtain ⟨-, rfl, -⟩ := Store.initSchema_made started
            rfl
          · obtain ⟨-, rfl, -⟩ := Store.initSchema_made started
            rfl
          · split at started
            · cases started
            · split at started
              · cases started
              · split at started
                · cases started
                · cases started
                  rfl

end SpectreRelay.Server
