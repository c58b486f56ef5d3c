import SpectreRelay.Server.Reference
import SpectreRelay.Server.StoreImage

/-!
# Draining when the database fails

`DrainQueue` reads the rows of a user one by one, skips a row that cannot be
scanned, stops when the iteration ends, and then deletes all rows of the user
with one statement. The deletion is not tied to what was read. So a failing
begin, query or delete loses nothing, and what a committed drain loses is
exactly what its iteration did not read. A failed commit loses nothing if the
driver rolls back; if it leaves the transaction open, all rows of the user are
lost to the calls that follow.
-/

namespace SpectreRelay.Server.Store
set_option autoImplicit false
open Lib

/-- The rows whose messages a `DrainQueue` returns, by their numbers. -/
def returnedRows (P : Platform) (s : Store) (r : Bytes) (io : DrainIo) : List (Nat × QueuedMessage) :=
  if Commits io then drainedRows P s r io else []

/-- The row is one of `r`'s, unexpired when the drain looks, and holds the message `m`. -/
structure Drainable (P : Platform) (s : Store) (r : Bytes) (now : Time) (n : Nat) (row : QueueRow) (m : QueuedMessage) :
    Prop where
  stored : (n, row) ∈ s.table.rows
  mine : row.recipientID = r
  live : expired now row = false
  decodes : readPayload P s.key row.payload = some m

/-- A drain loses nothing: each drainable row is returned or still in the queue and not both, and the rows of other users
are as they were. -/
structure Conserves (P : Platform) (s : Store) (r : Bytes) (io : DrainIo) : Prop where
  returned : (s.drainQueue P r io).2 = (returnedRows P s r io).map Prod.snd
  rows : ∀ n row m, Drainable P s r io.now n row m →
    Xor ((n, m) ∈ returnedRows P s r io) ((n, row) ∈ (s.drainQueue P r io).1.table.rows)
  others : ((s.drainQueue P r io).1.table.select fun row => row.recipientID ≠ r) =
    s.table.select fun row => row.recipientID ≠ r

variable {P : Platform} {s : Store} {r : Bytes} {io : DrainIo}

theorem drainQueue_returned : (s.drainQueue P r io).2 = (returnedRows P s r io).map Prod.snd := by
  rw [drainQueue_eq, returnedRows]
  split
  · rfl
  · split <;> rfl

/-- The deletion of a drain takes effect: it is committed, or its transaction stays open. -/
def Deletes (io : DrainIo) : Prop := Commits io ∨ LeavesOpen io

instance (io : DrainIo) : Decidable (Deletes io) := inferInstanceAs (Decidable (_ ∨ _))

theorem drainQueue_table_any : (s.drainQueue P r io).1.table =
    if Deletes io then s.table.delete fun row => row.recipientID = r else s.table := by
  rw [drainQueue_eq]
  by_cases commits : Commits io
  · rw [if_pos commits, if_pos (show Deletes io from .inl commits)]
    rfl
  · by_cases stays : LeavesOpen io
    · rw [if_neg commits, if_pos stays, if_pos (show Deletes io from .inr stays)]
    · rw [if_neg commits, if_neg stays, if_neg (show ¬ Deletes io from not_or.2 ⟨commits, stays⟩)]

/-- After a deletion no row of the user is left. -/
theorem drainQueue_rows (deletes : Deletes io) {n : Nat} {row : QueueRow} :
    (n, row) ∈ (s.drainQueue P r io).1.table.rows ↔ (n, row) ∈ s.table.rows ∧ row.recipientID ≠ r := by
  rw [drainQueue_table_any, if_pos deletes]
  simp [Table.delete]

theorem drainQueue_others :
    ((s.drainQueue P r io).1.table.select fun row => row.recipientID ≠ r) = s.table.select fun row => row.recipientID ≠ r := by
  rw [drainQueue_table_any]
  split
  · simp only [Table.select, Table.delete, List.filter_filter]
    apply List.filter_congr
    intro row _
    by_cases mine : row.2.recipientID = r
    · simp [mine]
    · simp [mine]
  · rfl

/-- **What a drain loses.** A drain loses nothing, whatever fails, exactly when its deletion does not take effect, or the
transaction commits and its iteration reads every unexpired row of the user that decodes. -/
theorem drain_conserves_iff (P : Platform) (s : Store) (r : Bytes) (io : DrainIo) :
    Conserves P s r io ↔ (Deletes io → ∀ i n row m, (s.table.select fun row => row.recipientID = r)[i]? = some (n, row) →
      expired io.now row = false → readPayload P s.key row.payload = some m → Commits io ∧ Reads io i) := by
  constructor
  · intro conserves deletes i n row m selected live decodes
    obtain ⟨stored, mine⟩ := List.mem_filter.1 (List.mem_of_getElem? selected)
    have mine : row.recipientID = r := of_decide_eq_true mine
    rcases conserves.rows n row m ⟨stored, mine, live, decodes⟩ with ⟨given, -⟩ | ⟨left, -⟩
    · unfold returnedRows at given
      split at given
      · rename_i commits
        obtain ⟨j, row', selected', reads, -⟩ := mem_drainedRows_iff.1 given
        rw [Table.select_unique selected selected']
        exact ⟨commits, reads⟩
      · cases given
    · exact absurd mine ((drainQueue_rows deletes).1 left).2
  · intro reads
    refine ⟨drainQueue_returned, ?_, drainQueue_others⟩
    intro n row m ⟨stored, mine, live, decodes⟩
    by_cases deletes : Deletes io
    · left
      have selected : (n, row) ∈ s.table.select fun row => row.recipientID = r :=
        List.mem_filter.2 ⟨stored, decide_eq_true mine⟩
      obtain ⟨i, found⟩ := List.getElem?_of_mem selected
      obtain ⟨commits, read⟩ := reads deletes i n row m found live decodes
      constructor
      · rw [returnedRows, if_pos commits, mem_drainedRows_iff]
        exact ⟨i, row, found, read, live, decodes⟩
      · intro left
        exact ((drainQueue_rows deletes).1 left).2 mine
    · right
      rw [returnedRows, if_neg fun commits => deletes (.inl commits), drainQueue_table_any, if_neg deletes]
      exact ⟨stored, List.not_mem_nil⟩

namespace Scene

/-- Two messages wait for bob. -/
def twoWaiting : Store :=
  let io := EnqueueIo.clean Reference.start Reference.start (.zeros 12) (.zeros 12)
  (Reference.store.enqueue Reference.platform (ascii "bob") (.ofSealed ⟨ascii "bob", [1], 0, ascii "m1", []⟩) io).enqueue
    Reference.platform (ascii "bob") (.ofSealed ⟨ascii "bob", [2], 0, ascii "m2", []⟩) io

/-- A drain in which only the scan of the first row fails. -/
def scanFault : DrainIo := { DrainIo.clean Reference.start (.zeros 12) with scanFails := fun i => i = 0 }

/-- A drain whose iteration ends with an error after the first row. -/
def shortIteration : DrainIo := { DrainIo.clean Reference.start (.zeros 12) with rowLimit := some 1 }

end Scene

/-- After a failed scan the first message is neither returned nor queued, and after an iteration that ends early the
second. -/
theorem drain_loses :
    let lost (io : DrainIo) := ((Scene.twoWaiting.drainQueue Reference.platform (ascii "bob") io).2.map fun m =>
      m.sealed.map fun e => e.id, (Scene.twoWaiting.drainQueue Reference.platform (ascii "bob") io).1.table.rows)
    lost (.clean Reference.start (.zeros 12)) = ([some (ascii "m1"), some (ascii "m2")], []) ∧
      lost Scene.scanFault = ([some (ascii "m2")], []) ∧ lost Scene.shortIteration = ([some (ascii "m1")], []) := by
  decide +kernel

end SpectreRelay.Server.Store
