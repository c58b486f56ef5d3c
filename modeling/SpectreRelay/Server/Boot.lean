import SpectreRelay.Lib.Runs
import SpectreRelay.Server.Reference
import SpectreRelay.Server.StartFiles

/-!
# Starts after crashes

The process of a relay is started, takes calls that write its files, and ends at any
point: between calls, inside a `persistLocked`, or inside a start, which then leaves
what a start leaves that fails at that call. The operator may move the signing key
away. Only the plain write of a new key can be cut into a part that is kept
(`bricked`). In every run in which that does not happen, the next start finds the
queue and the prekeys as they were before the last call or as they are after it
(`crash_recovers`).
-/

namespace SpectreRelay.Server.Boot
set_option autoImplicit false
open Lib

/-! ## The machine -/

/-- A user id as an authenticated session has it. -/
structure UserID where
  bytes : Bytes
  text : Utf8.Valid bytes

/-- A call that may write a file. -/
inductive Op where
  | enqueue (recipientID : Bytes) (msg : QueuedMessage) (io : Store.EnqueueIo)
  | drainQueue (recipientID : Bytes) (io : Store.DrainIo)
  | purgeExpired (now : Time) (fails : Bool) (io : PersistIo)
  | registerBundle (userID : UserID) (bundle : PrekeyBundle) (io : PersistIo)
  | getBundleWithOTPK (userID : Bytes) (consumeOTPK : Bool) (io : PersistIo)
  | consumeOneTimePrekey (userID : Bytes) (io : PersistIo)

namespace Op

/-- The call's `persistLocked`. -/
def persist : Op → PersistIo
  | enqueue _ _ io => io.persist
  | drainQueue _ io => io.persist
  | purgeExpired _ _ io | registerBundle _ _ io | getBundleWithOTPK _ _ io | consumeOneTimePrekey _ io => io

/-- The call with its `persistLocked` cut off at a point. -/
def cut (point : PersistStep) : Op → Op
  | enqueue r m io => enqueue r m { io with persist := { io.persist with fault := some point } }
  | drainQueue r io => drainQueue r { io with persist := { io.persist with fault := some point } }
  | purgeExpired now fails io => purgeExpired now fails { io with fault := some point }
  | registerBundle u b io => registerBundle u b { io with fault := some point }
  | getBundleWithOTPK u consume io => getBundleWithOTPK u consume { io with fault := some point }
  | consumeOneTimePrekey u io => consumeOneTimePrekey u { io with fault := some point }

/-- The call is a drain whose commit fails and whose transaction stays open. -/
def LeavesOpen : Op → Prop
  | drainQueue _ io => Store.LeavesOpen io
  | _ => False

instance LeavesOpen.decide (op : Op) : Decidable op.LeavesOpen :=
  match op with
  | drainQueue _ io => inferInstanceAs (Decidable (Store.LeavesOpen io))
  | enqueue .. | purgeExpired .. | registerBundle .. | getBundleWithOTPK .. | consumeOneTimePrekey .. => .isFalse id

/-- The reading at which an `Enqueue` deletes the expired rows of its recipient. -/
def purges : Op → List Time
  | enqueue _ _ io => [io.deleteAt]
  | _ => []

def perform (P : Platform) (s : Server) : Op → Server
  | enqueue r m io => { s with store := s.store.enqueue P r m io }
  | drainQueue r io => { s with store := (s.store.drainQueue P r io).1 }
  | purgeExpired now fails io => { s with store := s.store.purgeExpired P now fails io }
  | registerBundle u b io => { s with prekeys := (s.prekeys.registerBundle P.aead u.bytes b io).1 }
  | getBundleWithOTPK u consume io => { s with prekeys := (s.prekeys.getBundleWithOTPK P.aead u consume io).1 }
  | consumeOneTimePrekey u io => { s with prekeys := (s.prekeys.consumeOneTimePrekey P.aead u io).1 }

end Op

inductive Process where
  | down (files : Files)
  | up (server : Server) (sealedCA prevSealedCA : Option Bytes)

/-- The files, as the end of the process leaves them. -/
def Process.files : Process → Files
  | down files => files
  | up server sealedCA prevSealedCA => ⟨server.store.disk, server.prekeys.disk, sealedCA, prevSealedCA⟩

structure State where
  process : Process
  /-- The readings at which expired rows were deleted before an insertion. -/
  purges : List Time

inductive Label where
  | start (cfg : Config) (io : Server.StartIo)
  | call (op : Op)
  /-- The process ends inside the `persistLocked` of a call. -/
  | crash (op : Op) (point : PersistStep)
  | stop
  /-- The operator moves the signing key to `<path>.prev`. -/
  | rotate

namespace State

variable (P : Platform)

/-- No file was written yet. -/
def init : State := ⟨.down .empty, []⟩

def step (s : State) : Label → Option State
  | .start cfg io =>
    match s.process with
    | .up .. => none
    | .down files =>
      match Server.new P cfg files io with
      | (files, .error _) => some { s with process := .down files }
      | (files, .ok server) => some { s with process := .up server files.sealedCA files.prevSealedCA }
  | .call op =>
    match s.process with
    | .down _ => none
    | .up server ca prev => some ⟨.up (op.perform P server) ca prev, op.purges ++ s.purges⟩
  | .crash op point =>
    match s.process with
    | .down _ => none
    | .up server ca prev => some { s with process := .down (Process.up ((op.cut point).perform P server) ca prev).files }
  | .stop =>
    match s.process with
    | .down _ => none
    | .up .. => some { s with process := .down s.process.files }
  | .rotate =>
    match s.process with
    | .down files => files.sealedCA.map fun data =>
        { s with process := .down { files with sealedCA := none, prevSealedCA := some data } }
    | .up server ca _ => ca.map fun data => { s with process := .up server none (some data) }

end State

/-- No start writes a part of a key. -/
def Whole (s : State) : Label → Prop
  | .start _ io => io.Whole s.process.files
  | _ => True

instance Whole.decide (s : State) (l : Label) : Decidable (Whole s l) :=
  match l with
  | .start _ io => inferInstanceAs (Decidable (io.Whole s.process.files))
  | .call _ | .crash .. | .stop | .rotate => .isTrue trivial

/-- No call's `persistLocked` fails and no drain leaves its transaction open while the process lives on. -/
def Label.Steady : Label → Prop
  | call op => op.persist.fault = none ∧ ¬ op.LeavesOpen
  | _ => True

instance Label.Steady.decide (l : Label) : Decidable l.Steady :=
  match l with
  | call op => inferInstanceAs (Decidable (op.persist.fault = none ∧ ¬ op.LeavesOpen))
  | start .. | crash .. | stop | rotate => .isTrue trivial

/-! ## Calls on the queue -/

/-- The rows that have not expired. -/
def liveRows (now : Time) (t : Table QueueRow) : List (Nat × QueueRow) := t.rows.filter fun row => !Store.expired now row.2

/-- After all these readings the two tables have the same live rows. -/
def SameLive (purges : List Time) (t table : Table QueueRow) : Prop :=
  ∀ now, (∀ reading ∈ purges, reading ≤ now) → liveRows now t = liveRows now table

theorem SameLive.more {purges : List Time} {t table : Table QueueRow} (h : SameLive purges t table) (new : List Time) :
    SameLive (new ++ purges) t table :=
  fun now after => h now fun reading old => after reading (List.mem_append_right _ old)

/-- Deleting rows that had expired at one of the readings. -/
theorem SameLive.delete {purges : List Time} {t table : Table QueueRow} (h : SameLive purges t table) {reading : Time}
    (inside : reading ∈ purges) {gone : QueueRow → Bool} (dead : ∀ row, gone row = true → Store.expired reading row = true) :
    SameLive purges t (table.delete gone) := by
  intro now after
  rw [h now after]
  unfold liveRows Table.delete
  rw [List.filter_filter]
  apply List.filter_congr
  intro row _
  cases doomed : gone row.2 with
  | false => rw [Bool.not_false, Bool.and_true]
  | true => rw [Store.expired_mono (after reading inside) (dead row.2 doomed)]; rfl

/-- What a call makes of a queue with the table `t` on file: the store afterwards and the table on file then. The call
is one that leaves a transaction open if `opens`. -/
inductive QueueCall (P : Platform) (s : Store) (t : Table QueueRow) (fault : Option PersistStep) (opens : Prop)
    (purges : List Time) : Store → Table QueueRow → Prop where
  | written {s' : Store} (image : Store.Image P s' s'.table) (clean : fault = none) :
      QueueCall P s t fault opens purges s' s'.table
  | same : QueueCall P s t fault opens purges s t
  /-- Expired rows are deleted in memory only. -/
  | trimmed {gone : QueueRow → Bool} {reading : Time} (inside : reading ∈ purges)
      (dead : ∀ row, gone row = true → Store.expired reading row = true) :
      QueueCall P s t fault opens purges { s with table := s.table.delete gone } t
  | opened {gone : QueueRow → Bool} (stays : opens) :
      QueueCall P s t fault opens purges { s with table := s.table.delete gone } t
  | lost {s' : Store} (image : Store.Image P s' t) (disk : s'.disk = s.disk) (failed : fault ≠ none) :
      QueueCall P s t fault opens purges s' t

namespace QueueCall

variable {P : Platform} {s s' : Store} {t t' : Table QueueRow} {fault : Option PersistStep} {opens : Prop}
  {purges : List Time}

/-- A `persistLocked` of a new table. -/
theorem persist (image : Store.Image P s t) (table : Table QueueRow) (io : PersistIo) (opens : Prop) (purges : List Time) :
    ∃ t', QueueCall P s t io.fault opens purges (Store.persistLocked P { s with table } io).1 t' := by
  have kept := image.persist table io
  obtain ⟨nonce, fault⟩ := io
  cases fault with
  | none => exact ⟨_, .written kept rfl⟩
  | some point => exact ⟨t, .lost kept rfl (Option.some_ne_none _)⟩

theorem enqueue (image : Store.Image P s t) (r : Bytes) (m : QueuedMessage) (io : Store.EnqueueIo) :
    ∃ t', QueueCall P s t io.persist.fault False [io.deleteAt] (s.enqueue P r m io) t' := by
  have done := Store.enqueue_cases (P := P) s r m io
  generalize s.enqueue P r m io = s' at done
  cases done with
  | inserted _ => exact persist image _ io.persist _ _
  | purged _ =>
    refine ⟨t, .trimmed (List.mem_singleton_self _) fun row doomed => ?_⟩
    exact (of_decide_eq_true doomed).2
  | failed _ => exact ⟨t, .same⟩

theorem drainQueue (image : Store.Image P s t) (r : Bytes) (io : Store.DrainIo) :
    ∃ t', QueueCall P s t io.persist.fault (Store.LeavesOpen io) [] (s.drainQueue P r io).1 t' := by
  rw [Store.drainQueue_eq]
  split
  · exact persist image _ io.persist _ _
  · split
    · rename_i stays
      exact ⟨t, .opened stays⟩
    · exact ⟨t, .same⟩

theorem purgeExpired (image : Store.Image P s t) (now : Time) (fails : Bool) (io : PersistIo) :
    ∃ t', QueueCall P s t io.fault False [] (s.purgeExpired P now fails io) t' := by
  unfold Store.purgeExpired
  split
  · exact ⟨t, .same⟩
  · exact persist image _ io _ _

theorem image (h : QueueCall P s t fault opens purges s' t') (before : Store.Image P s t) : Store.Image P s' t' := by
  cases h with
  | written image _ => exact image
  | same => exact before
  | trimmed _ _ => exact before.of_disk rfl rfl
  | opened _ => exact before.of_disk rfl rfl
  | lost image _ _ => exact image

/-- The file holds the table from before the call or the one after it. -/
theorem file (h : QueueCall P s t fault opens purges s' t') : t' = t ∨ t' = s'.table := by
  cases h with
  | written _ _ => exact .inr rfl
  | same => exact .inl rfl
  | trimmed _ _ => exact .inl rfl
  | opened _ => exact .inl rfl
  | lost _ _ _ => exact .inl rfl

/-- A call whose `persistLocked` does not fail and that leaves no transaction open keeps the file in step. -/
theorem live (h : QueueCall P s t fault opens purges s' t') (clean : fault = none) (shut : ¬ opens) {old : List Time}
    (before : SameLive old t s.table) : SameLive (purges ++ old) t' s'.table := by
  cases h with
  | written _ _ => exact fun _ _ => rfl
  | same => exact before.more purges
  | trimmed inside dead => exact (before.more purges).delete (List.mem_append_left _ inside) dead
  | opened stays => exact absurd stays shut
  | lost _ _ failed => exact absurd clean failed

/-- A call that is cut off before its rename leaves the files alone. -/
theorem cut (h : QueueCall P s t fault opens purges s' t') (failed : fault ≠ none) : s'.disk = s.disk := by
  cases h with
  | written _ clean => exact absurd clean failed
  | same => rfl
  | trimmed _ _ => rfl
  | opened _ => rfl
  | lost _ disk _ => exact disk

end QueueCall

/-! ## Calls on the prekeys -/

/-- What a call makes of a prekey store with the map `m` on file: the store afterwards and the map on file then. -/
inductive PrekeyCall (A : Aead) (ps : PrekeyStore) (m : Map PrekeyBundle) (fault : Option PersistStep) :
    PrekeyStore → Map PrekeyBundle → Prop where
  | written {ps' : PrekeyStore} (backed : PrekeyStore.Backed A ps' ps'.bundles) (clean : fault = none) :
      PrekeyCall A ps m fault ps' ps'.bundles
  | same : PrekeyCall A ps m fault ps m
  | lost {ps' : PrekeyStore} (backed : PrekeyStore.Backed A ps' m) (disk : ps'.disk = ps.disk) (failed : fault ≠ none) :
      PrekeyCall A ps m fault ps' m

namespace PrekeyCall

variable {A : Aead} {ps ps' : PrekeyStore} {m m' : Map PrekeyBundle} {fault : Option PersistStep}

/-- A `persistLocked` of a new map. -/
theorem persist (backed : PrekeyStore.Backed A ps m) {new : Map PrekeyBundle} (sound : PrekeyStore.Sound new)
    (io : PersistIo) : ∃ m', PrekeyCall A ps m io.fault (PrekeyStore.persistLocked A { ps with bundles := new } io).1 m' := by
  have kept := backed.persist sound io
  obtain ⟨nonce, fault⟩ := io
  cases fault with
  | none => exact ⟨_, .written kept rfl⟩
  | some point => exact ⟨m, .lost kept rfl (Option.some_ne_none _)⟩

theorem registerBundle (backed : PrekeyStore.Backed A ps m) (u : UserID) (b : PrekeyBundle) (io : PersistIo) :
    ∃ m', PrekeyCall A ps m io.fault (ps.registerBundle A u.bytes b io).1 m' := by
  have done := PrekeyStore.registerBundle_cases A ps u.bytes b io
  generalize ps.registerBundle A u.bytes b io = out at done
  cases done with
  | refused _ => exact ⟨m, .same⟩
  | stored named accepted => exact persist backed (backed.sound.insert named u.text accepted) io

theorem served (backed : PrekeyStore.Backed A ps m) {u : Bytes} {io : PersistIo}
    (done : PrekeyStore.Served A ps u io ps') : ∃ m', PrekeyCall A ps m io.fault ps' m' := by
  cases done with
  | same => exact ⟨m, .same⟩
  | popped found pool => exact persist backed (backed.sound.pop found pool) io

theorem backed (h : PrekeyCall A ps m fault ps' m') (before : PrekeyStore.Backed A ps m) : PrekeyStore.Backed A ps' m' := by
  cases h with
  | written backed _ => exact backed
  | same => exact before
  | lost backed _ _ => exact backed

/-- The file holds the map from before the call or the one after it. -/
theorem file (h : PrekeyCall A ps m fault ps' m') : m' = m ∨ m' = ps'.bundles := by
  cases h with
  | written _ _ => exact .inr rfl
  | same => exact .inl rfl
  | lost _ _ _ => exact .inl rfl

/-- A call whose `persistLocked` does not fail keeps the file in step. -/
theorem inStep (h : PrekeyCall A ps m fault ps' m') (clean : fault = none) (before : m = ps.bundles) : m' = ps'.bundles := by
  cases h with
  | written _ _ => rfl
  | same => exact before
  | lost _ _ failed => exact absurd clean failed

theorem cut (h : PrekeyCall A ps m fault ps' m') (failed : fault ≠ none) : ps'.disk = ps.disk := by
  cases h with
  | written _ clean => exact absurd clean failed
  | same => rfl
  | lost _ disk _ => exact disk

end PrekeyCall

/-! ## Steps -/

/-- The files hold the queue `t` and the prekeys `m`, and a running relay goes on writing them with the same keys. -/
inductive Keeps (P : Platform) : Process → Table QueueRow → Map PrekeyBundle → Prop where
  | down {files : Files} {t : Table QueueRow} {m : Map PrekeyBundle} (h : files.Restorable P t m) : Keeps P (.down files) t m
  | up {server : Server} {ca prev : Option Bytes} {t : Table QueueRow} {m : Map PrekeyBundle}
      (image : Store.Image P server.store t) (backed : PrekeyStore.Backed P.aead server.prekeys m)
      (signingKey : WholeKey 64 ca) : Keeps P (.up server ca prev) t m

/-- What a step may make of the contents of the files: a call replaces them by what it leaves in memory, or not. -/
inductive Changes (P : Platform) (s : State) (t : Table QueueRow) (m : Map PrekeyBundle) :
    Label → Table QueueRow → Map PrekeyBundle → Prop where
  | kept {l : Label} : Changes P s t m l t m
  | called {op : Op} {server : Server} {ca prev : Option Bytes} {t' : Table QueueRow} {m' : Map PrekeyBundle}
      (up : s.process = .up server ca prev) (queue : t' = t ∨ t' = (op.perform P server).store.table)
      (prekeys : m' = m ∨ m' = (op.perform P server).prekeys.bundles) : Changes P s t m (.call op) t' m'

/-- A running relay has the contents of the files in memory, up to rows that have expired. -/
def InMemory (s : State) (t : Table QueueRow) (m : Map PrekeyBundle) : Prop :=
  ∀ server ca prev, s.process = .up server ca prev →
    m = server.prekeys.bundles ∧ SameLive s.purges t server.store.table

variable {P : Platform} {s s' : State} {t : Table QueueRow} {m : Map PrekeyBundle}

theorem InMemory.down {files : Files} (down : s.process = .down files) : InMemory s t m := by
  intro server ca prev up
  rw [down] at up
  cases up

theorem Op.calls {server : Server} (image : Store.Image P server.store t)
    (backed : PrekeyStore.Backed P.aead server.prekeys m) (op : Op) :
    ∃ t' m', QueueCall P server.store t op.persist.fault op.LeavesOpen op.purges (op.perform P server).store t' ∧
      PrekeyCall P.aead server.prekeys m op.persist.fault (op.perform P server).prekeys m' := by
  cases op with
  | enqueue r msg io =>
    obtain ⟨t', queue⟩ := QueueCall.enqueue image r msg io
    exact ⟨t', m, queue, .same⟩
  | drainQueue r io =>
    obtain ⟨t', queue⟩ := QueueCall.drainQueue image r io
    exact ⟨t', m, queue, .same⟩
  | purgeExpired now fails io =>
    obtain ⟨t', queue⟩ := QueueCall.purgeExpired image now fails io
    exact ⟨t', m, queue, .same⟩
  | registerBundle u b io =>
    obtain ⟨m', prekeys⟩ := PrekeyCall.registerBundle backed u b io
    exact ⟨t, m', .same, prekeys⟩
  | getBundleWithOTPK u consume io =>
    obtain ⟨m', prekeys⟩ := PrekeyCall.served backed (PrekeyStore.getBundleWithOTPK_served server.prekeys u consume io)
    exact ⟨t, m', .same, prekeys⟩
  | consumeOneTimePrekey u io =>
    obtain ⟨m', prekeys⟩ := PrekeyCall.served backed (PrekeyStore.consumeOneTimePrekey_served server.prekeys u io)
    exact ⟨t, m', .same, prekeys⟩

theorem Op.cut_fault (op : Op) (point : PersistStep) : (op.cut point).persist.fault ≠ none := by
  cases op <;> exact Option.some_ne_none _

namespace Keeps

theorem restorable {p : Process} (h : Keeps P p t m) : p.files.Restorable P t m := by
  cases h with
  | down h => exact h
  | up image backed signingKey => exact ⟨image.holding, backed.stored.holding, backed.file, signingKey⟩

/-- A start changes nothing, wherever it breaks off. -/
theorem start (h : Keeps P s.process t m) {cfg : Config} {io : Server.StartIo} (whole : Whole s (.start cfg io))
    (next : s.step P (.start cfg io) = some s') : Keeps P s'.process t m ∧ InMemory s' t m := by
  have before := h.restorable
  cases running : s.process with
  | up server ca prev =>
    simp only [State.step, running] at next
    cases next
  | down files =>
    simp only [Whole] at whole
    rw [running] at before whole
    obtain ⟨after, serves⟩ := before.new cfg whole
    simp only [State.step, running] at next
    change (files.Restorable P t m) at before
    cases made : Server.new P cfg files io with
    | mk files' result =>
      simp only [Process.files, made] at next after serves
      cases result with
      | error e =>
        cases next
        exact ⟨.down after, .down rfl⟩
      | ok server =>
        cases next
        have served := serves server rfl
        refine ⟨.up served.image served.backed after.sealedCA, fun server' ca prev up => ?_⟩
        cases up
        exact ⟨served.bundles.symm, fun now _ => by rw [served.table]⟩

/-- A call writes the files as it should, or leaves them. -/
theorem call (h : Keeps P s.process t m) {op : Op} (next : s.step P (.call op) = some s') :
    ∃ t' m', Keeps P s'.process t' m' ∧ Changes P s t m (.call op) t' m' ∧
      (op.persist.fault = none ∧ ¬ op.LeavesOpen → InMemory s t m → InMemory s' t' m') := by
  cases running : s.process with
  | down files =>
    simp only [State.step, running] at next
    cases next
  | up server ca prev =>
    rw [running] at h
    cases h with
    | up image backed signingKey =>
      simp only [State.step, running] at next
      cases next
      obtain ⟨t', m', queue, prekeys⟩ := op.calls image backed
      refine ⟨t', m', .up (queue.image image) (prekeys.backed backed) signingKey,
        .called running queue.file prekeys.file, fun ⟨clean, shut⟩ before => ?_⟩
      obtain ⟨bundles, live⟩ := before server ca prev running
      intro server' ca' prev' up
      cases up
      exact ⟨prekeys.inStep clean bundles, queue.live clean shut live⟩

/-- A call that is cut off leaves the files as they are. -/
theorem crash (h : Keeps P s.process t m) {op : Op} {point : PersistStep} (next : s.step P (.crash op point) = some s') :
    Keeps P s'.process t m ∧ InMemory s' t m := by
  cases running : s.process with
  | down files =>
    simp only [State.step, running] at next
    cases next
  | up server ca prev =>
    rw [running] at h
    have before := h.restorable
    cases h with
    | up image backed signingKey =>
      simp only [State.step, running] at next
      cases next
      obtain ⟨t', m', queue, prekeys⟩ := (op.cut point).calls image backed
      have failed := op.cut_fault point
      refine ⟨.down ?_, .down rfl⟩
      simp only [Process.files, queue.cut failed, prekeys.cut failed]
      exact before

theorem stop (h : Keeps P s.process t m) (next : s.step P .stop = some s') : Keeps P s'.process t m ∧ InMemory s' t m := by
  have before := h.restorable
  cases running : s.process with
  | down files =>
    simp only [State.step, running] at next
    cases next
  | up server ca prev =>
    rw [running] at before
    simp only [State.step, running] at next
    cases next
    exact ⟨.down before, .down rfl⟩

/-- The operator touches the signing key only. -/
theorem rotate (h : Keeps P s.process t m) (next : s.step P .rotate = some s') :
    Keeps P s'.process t m ∧ (InMemory s t m → InMemory s' t m) := by
  cases running : s.process with
  | down files =>
    rw [running] at h
    cases h with
    | down h =>
      simp only [State.step, running] at next
      obtain ⟨data, -, rfl⟩ := Option.map_eq_some_iff.1 next
      exact ⟨.down ⟨h.queue, h.prekeys, h.sound, .absent 64⟩, fun _ => .down rfl⟩
  | up server ca prev =>
    rw [running] at h
    cases h with
    | up image backed signingKey =>
      simp only [State.step, running] at next
      obtain ⟨data, -, rfl⟩ := Option.map_eq_some_iff.1 next
      refine ⟨.up image backed (.absent 64), fun before server' ca' prev' up => ?_⟩
      cases up
      exact before server ca prev running

/-- **One step.** The files can be started from afterwards, and hold what they held or what the call has left in
memory. -/
theorem step (h : Keeps P s.process t m) {l : Label} (whole : Whole s l) (next : s.step P l = some s') :
    ∃ t' m', Keeps P s'.process t' m' ∧ Changes P s t m l t' m' ∧
      (l.Steady → InMemory s t m → InMemory s' t' m') := by
  cases l with
  | start cfg io =>
    obtain ⟨keeps, memory⟩ := h.start whole next
    exact ⟨t, m, keeps, .kept, fun _ _ => memory⟩
  | call op => exact h.call next
  | crash op point =>
    obtain ⟨keeps, memory⟩ := h.crash next
    exact ⟨t, m, keeps, .kept, fun _ _ => memory⟩
  | stop =>
    obtain ⟨keeps, memory⟩ := h.stop next
    exact ⟨t, m, keeps, .kept, fun _ _ => memory⟩
  | rotate =>
    obtain ⟨keeps, memory⟩ := h.rotate next
    exact ⟨t, m, keeps, .kept, fun _ => memory⟩

theorem init (P : Platform) : Keeps P State.init.process .empty ∅ := .down (.empty P)

end Keeps

/-! ## Runs -/

/-- What the files of a reached state hold. -/
theorem Keeps.run {labels : List Label} (h : Keeps P s.process t m) (whole : Always (State.step P) Whole s labels)
    (reached : Lib.run (State.step P) s labels = some s') :
    ∃ t' m', Keeps P s'.process t' m' ∧ ((∀ l ∈ labels, l.Steady) → InMemory s t m → InMemory s' t' m') := by
  induction labels generalizing s t m with
  | nil =>
    cases reached
    exact ⟨t, m, h, fun _ before => before⟩
  | cons l labels ih =>
    obtain ⟨mid, next, rest⟩ := run_cons.1 reached
    obtain ⟨t₁, m₁, after, -, first⟩ := h.step whole.1 next
    obtain ⟨t', m', keeps, memory⟩ := ih after (whole.2 mid next) rest
    refine ⟨t', m', keeps, fun steady before => ?_⟩
    have later : ∀ l' ∈ labels, l'.Steady := fun l' inside => steady l' (List.mem_cons_of_mem _ inside)
    exact memory later (first (steady l List.mem_cons_self) before)

/-- **A crash never bricks the relay**, if no start writes a part of a key. In every run of starts, calls, crashes and
rotations of which that holds, a start in which nothing fails succeeds on the files of every state reached. It loads
what the files held before the last step or what the call of that step has left in memory; and that is what the relay
had in memory before, up to expired rows, if no `persistLocked` had failed and no transaction was left open. A start that
ends after `n` bytes of a new key can be followed by another if and only if these are all bytes of the key. -/
theorem crash_recovers (P : Platform) {labels : List Label} {s : State}
    (whole : Always (State.step P) Whole State.init labels)
    (reached : run (State.step P) State.init labels = some s) :
    ∃ t m, s.process.files.Loads P t m ∧ ((∀ l ∈ labels, l.Steady) → InMemory s t m) ∧
      (∀ l s', Whole s l → s.step P l = some s' →
        ∃ t' m', s'.process.files.Loads P t' m' ∧ Changes P s t m l t' m') ∧
      ∀ (cfg : Config) (queueKey prekeyKey seed : Block 32) (fileNonce : Block 12) (w : KeyWrite) (n : Nat),
        w.file s.process.files = none → ((∃ t' m', (Server.new P cfg s.process.files
          (w.cut (.clean queueKey prekeyKey seed fileNonce) n)).1.Loads P t' m') ↔ w.size ≤ n) := by
  obtain ⟨t, m, keeps, memory⟩ := (Keeps.init P).run whole reached
  refine ⟨t, m, keeps.restorable.loads, fun steady => memory steady (InMemory.down rfl), fun l s' whole next => ?_, ?_⟩
  · obtain ⟨t', m', after, changes, -⟩ := keeps.step whole next
    exact ⟨t', m', after.restorable.loads, changes⟩
  · intro cfg queueKey prekeyKey seed fileNonce w n absent
    exact KeyWrite.cut_loads keeps.restorable absent n cfg queueKey prekeyKey seed fileNonce

theorem valid_ann : Utf8.Valid (ascii "ann") := by decide

/-- Crashes after the write of the queue's key, and inside the persist of a registration; the operator rotates the
signing key, and the registration is repeated. -/
def twoCrashes : List Label :=
  let register := Op.registerBundle ⟨ascii "ann", valid_ann⟩ Reference.bundle (.clean (.zeros 12))
  [.start Reference.cfg (KeyWrite.queue.cut Reference.startIo 32), .start Reference.cfg Reference.startIo,
    .call (.enqueue (ascii "bob") ⟨none, some ⟨ascii "ann", ascii "bob", [1], 0, []⟩, 0⟩
      (.clean Reference.start Reference.start (.zeros 12) (.zeros 12))),
    .crash register .rename, .rotate, .start Reference.cfg Reference.startIo, .call register]

theorem crash_recovers_twoCrashes :
    ∃ s t m, run (State.step Reference.platform) State.init twoCrashes = some s ∧
      s.process.files.Loads Reference.platform t m ∧ InMemory s t m := by
  have found : ((run (State.step Reference.platform) State.init twoCrashes).map fun s => s.purges.length) = some 1 := by
    decide +kernel
  obtain ⟨s, reached, -⟩ := Option.map_eq_some_iff.1 found
  obtain ⟨t, m, loads, memory, -⟩ := crash_recovers Reference.platform (by decide +kernel) reached
  exact ⟨s, t, m, reached, loads, memory (by decide)⟩

/-- The error of a start on the files, if it fails. -/
def State.refusal (P : Platform) (s : State) (cfg : Config) (io : Server.StartIo) : Option String :=
  match (Server.new P cfg s.process.files io).2 with
  | .error e => some e
  | .ok _ => none

/-- The first start ends after 16 bytes of a key, whichever of the three; the next start, in which nothing fails, is
refused. -/
theorem bricked :
    ([KeyWrite.queue, .prekeys, .sealedCA].map fun w =>
      (run (State.step Reference.platform) State.init [.start Reference.cfg (w.cut Reference.startIo 16)]).bind fun s =>
        s.refusal Reference.platform Reference.cfg Reference.startIo) =
      [some "invalid key file length", some "invalid key file length", some "invalid sealed-ca key length"] := by
  decide +kernel

end SpectreRelay.Server.Boot
