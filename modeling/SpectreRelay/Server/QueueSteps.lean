import SpectreRelay.Server.Delivery
import SpectreRelay.Server.StoreImage

/-!
# Steps and the queue file

Of the steps of `Delivery`, an `Enqueue`, a put-back, a drain and a purge use the
database. All others leave the rows, the file and what is known of both as they
are (`SameQueue.free`). One that uses it writes the rows in memory out
(`Store.Image.replaced`), except an `Enqueue` that finds the queue full.
-/

namespace SpectreRelay.Server
set_option autoImplicit false
open Lib Model

/-- The file was replaced by an image of the table in memory. -/
theorem Store.Image.replaced {P : Platform} {s s' : Store} {t : Table QueueRow} (image : Store.Image P s t)
    (nonce : Block 12) (key : s'.key = s.key)
    (disk : s'.disk = ⟨s.disk.keyFile, some (P.aead.encrypt s.key nonce (P.sqlite.serialize s'.table))⟩) :
    Store.Image P s' s'.table := by
  refine ⟨?_, nonce, ?_⟩
  · rw [disk, key]
    exact image.keyFile
  · rw [disk, key]

namespace Delivery

/-- The step does not use the database. -/
def Label.Free : Label → Prop
  | .enqueue .. | .drain .. | .requeue .. | .purge .. => False
  | _ => True

/-- The parts of the state that belong to the queue are the same. -/
structure SameQueue (s s' : State) : Prop where
  table : s'.store.table = s.store.table
  disk : s'.store.disk = s.store.disk
  key : s'.store.key = s.store.key
  owner : s'.owner = s.owner
  discarded : s'.discarded = s.discarded

namespace SameQueue

theorem refl (s : State) : SameQueue s s := ⟨rfl, rfl, rfl, rfl, rfl⟩

theorem trans {s m s' : State} (first : SameQueue s m) (second : SameQueue m s') : SameQueue s s' where
  table := second.table.trans first.table
  disk := second.disk.trans first.disk
  key := second.key.trans first.key
  owner := second.owner.trans first.owner
  discarded := second.discarded.trans first.discarded

theorem hand (s : State) (call : Option (Bytes × QueuedMessage)) (origin : Origin) : SameQueue s (s.hand call origin) := by
  rcases State.hand_cases s call origin with ⟨posts, same⟩ | ⟨r, m, name, _, _, same⟩
  · rw [same]
    exact ⟨rfl, rfl, rfl, rfl, rfl⟩
  · rw [same]
    exact ⟨rfl, rfl, rfl, rfl, rfl⟩

/-- **A step that does not use the database.** -/
theorem free {P : Platform} {s s' : State} {l : Label} (free : l.Free) (stepped : s.step P l = some s') :
    SameQueue s s' := by
  cases State.step_cases stepped with
  | @frame _ _ _ router call kind route =>
    have routed : SameQueue s { s with router } := ⟨rfl, rfl, rfl, rfl, rfl⟩
    exact routed.trans (.hand _ call _)
  | control => exact .refl s
  | post => exact .hand s _ _
  | online => exact ⟨rfl, rfl, rfl, rfl, rfl⟩
  | offline => exact ⟨rfl, rfl, rfl, rfl, rfl⟩
  | wrote => exact ⟨rfl, rfl, rfl, rfl, rfl⟩
  | writeFailed => exact ⟨rfl, rfl, rfl, rfl, rfl⟩
  | enqueue => cases free
  | register => exact ⟨rfl, rfl, rfl, rfl, rfl⟩
  | drain => cases free
  | skipped => exact ⟨rfl, rfl, rfl, rfl, rfl⟩
  | flushed => exact ⟨rfl, rfl, rfl, rfl, rfl⟩
  | flushFailed => exact ⟨rfl, rfl, rfl, rfl, rfl⟩
  | requeue => cases free
  | unregister =>
    refine ⟨Store.unregister_table .., ?_, Store.unregister_key .., rfl, rfl⟩
    simp only [Store.unregister]
    split
    · rfl
    · rfl
  | purge => cases free

end SameQueue

end Delivery

end SpectreRelay.Server
