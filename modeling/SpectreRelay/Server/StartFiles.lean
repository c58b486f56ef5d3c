import SpectreRelay.Server.Server
import SpectreRelay.Server.StoreCalls

/-!
# What a start needs to find, and what it leaves

The two stores keep their data the same way: a key of 32 bytes in one file, and in
another the encrypted image of what they hold. `Held` says which contents a start finds
there, and a start leaves that as it is wherever it breaks off, as long as it does not
break off inside the plain write of a new key. A key file that was written in part is
refused by every later start (`Files.Torn.new`).
-/

namespace SpectreRelay.Server
set_option autoImplicit false
set_option linter.dupNamespace false
open Lib

/-! ## Key files -/

/-- The write of a new key, if it is made, leaves the whole key behind. -/
def KeyIo.Whole (io : KeyIo) : Prop := ∀ n ∈ io.writeFails, 32 ≤ n

instance (io : KeyIo) : Decidable io.Whole := inferInstanceAs (Decidable (∀ n ∈ io.writeFails, _))

theorem KeyIo.clean_whole (fresh : Block 32) : (KeyIo.clean fresh).Whole := by
  intro n cut
  cases cut

/-- The key file is absent or has a key of this length. -/
def WholeKey (size : Nat) (file : Option Bytes) : Prop := ∀ data ∈ file, data.length = size

instance (size : Nat) (file : Option Bytes) : Decidable (WholeKey size file) :=
  inferInstanceAs (Decidable (∀ data ∈ file, _))

theorem WholeKey.absent (size : Nat) : WholeKey size none := by
  intro data found
  cases found

theorem not_wholeKey {size : Nat} {file : Option Bytes} (torn : ¬ WholeKey size file) :
    ∃ data, file = some data ∧ data.length ≠ size := by
  unfold WholeKey at torn
  push Not at torn
  exact torn

/-- A key file that is there stays as it is. -/
theorem loadOrCreateKey_present (data : Bytes) (io : KeyIo) : (loadOrCreateKey (some data) io).1 = some data := by
  unfold loadOrCreateKey
  split
  · rfl
  · dsimp only
    split
    · rfl
    · rfl

/-- A start creates a whole key file or none. -/
theorem loadOrCreateKey_absent {io : KeyIo} (whole : io.Whole) : WholeKey 32 (loadOrCreateKey none io).1 := by
  intro data written
  unfold loadOrCreateKey at written
  split at written
  · cases written
  · dsimp only at written
    split at written
    · cases written
    · rename_i key drawn
      split at written
      · cases written
      · split at written
        · rename_i n cut
          cases written
          rw [List.length_take, key.size]
          exact Nat.min_eq_right (whole n cut)
        · cases written
          exact key.size

theorem WholeKey.loadOrCreateKey {file : Option Bytes} {io : KeyIo} (h : WholeKey 32 file)
    (whole : file = none → io.Whole) : WholeKey 32 (loadOrCreateKey file io).1 := by
  cases file with
  | none => exact loadOrCreateKey_absent (whole rfl)
  | some data =>
    rw [loadOrCreateKey_present]
    exact h

/-- A start in which nothing fails has a key. -/
theorem WholeKey.clean {file : Option Bytes} (h : WholeKey 32 file) (fresh : Block 32) :
    ∃ key, (Server.loadOrCreateKey file (.clean fresh)).2 = .ok key := by
  cases file with
  | none => exact ⟨fresh, rfl⟩
  | some data =>
    have size := h data rfl
    refine ⟨⟨data, size⟩, ?_⟩
    rw [loadOrCreateKey_some ⟨data, size⟩ rfl]

/-- A key file of another length fails every start. -/
theorem loadOrCreateKey_torn {data : Bytes} (torn : data.length ≠ 32) (io : KeyIo) (key : Block 32) :
    (loadOrCreateKey (some data) io).2 ≠ .ok key := by
  unfold loadOrCreateKey
  split
  · intro loaded
    cases loaded
  · dsimp only
    rw [dif_neg torn]
    intro loaded
    cases loaded

/-! ## Contents -/

/-- The files hold `x`: a whole key or none, and the image of `x` under that key, or no image of the empty contents. -/
structure Held {α : Type} (A : Aead) (encode : α → Bytes) (empty : α) (disk : Disk) (x : α) : Prop where
  key : WholeKey 32 disk.keyFile
  data : (disk.dataFile = none ∧ x = empty) ∨ ∃ (key : Block 32) (nonce : Block 12),
    disk.keyFile = some key.bytes ∧ disk.dataFile = some (A.encrypt key nonce (encode x))

namespace Held

variable {α : Type} {A : Aead} {encode : α → Bytes} {empty x : α} {disk : Disk}

theorem nothing (A : Aead) (encode : α → Bytes) (empty : α) : Held A encode empty .empty empty where
  key := .absent 32
  data := .inl ⟨rfl, rfl⟩

theorem written {key : Block 32} (keyFile : disk.keyFile = some key.bytes)
    (data : (disk.dataFile = none ∧ x = empty) ∨ ∃ nonce, disk.dataFile = some (A.encrypt key nonce (encode x))) :
    Held A encode empty disk x where
  key data found := by
    rw [keyFile] at found
    cases found
    exact key.size
  data := data.imp id fun ⟨nonce, file⟩ => ⟨key, nonce, keyFile, file⟩

/-- Loading the key, or creating one, changes nothing else. -/
theorem loadOrCreateKey (h : Held A encode empty disk x) {io : KeyIo} (whole : disk.keyFile = none → io.Whole) :
    Held A encode empty { disk with keyFile := (Server.loadOrCreateKey disk.keyFile io).1 } x where
  key := h.key.loadOrCreateKey whole
  data := by
    rcases h.data with none | ⟨key, nonce, keyFile, file⟩
    · exact .inl none
    · refine .inr ⟨key, nonce, ?_, file⟩
      dsimp only
      rw [keyFile, loadOrCreateKey_present]

/-- The key that was loaded is the one of the image. -/
theorem opened (h : Held A encode empty disk x) {io : KeyIo} {key : Block 32}
    (made : (Server.loadOrCreateKey disk.keyFile io).2 = .ok key) :
    (disk.dataFile = none ∧ x = empty) ∨ ∃ nonce, disk.dataFile = some (A.encrypt key nonce (encode x)) := by
  rcases h.data with none | ⟨key', nonce, keyFile, file⟩
  · exact .inl none
  · have kept := loadOrCreateKey_ok made
    rw [keyFile, loadOrCreateKey_present] at kept
    obtain rfl := Block.eq_of_bytes (Option.some.inj kept)
    exact .inr ⟨nonce, file⟩

end Held

/-! ## The queue -/

namespace Store

variable {P : Platform} {disk : Disk} {t : Table QueueRow} (ttlSeconds : Int64)

/-- The queue's files hold a table. -/
abbrev Holding (P : Platform) (disk : Disk) (t : Table QueueRow) : Prop := Held P.aead P.sqlite.serialize .empty disk t

theorem Image.holding {s : Store} (image : Image P s t) : Holding P s.disk t := .written image.keyFile (.inr image.dataFile)

/-- What a start has to leave behind, by the files and the store it ends with. -/
def Leaves (P : Platform) (t : Table QueueRow) (out : Disk × Except String Store) : Prop :=
  Holding P out.1 t ∧ ∀ s, out.2 = .ok s → s.disk = out.1 ∧ s.table = t ∧ Image P s t

theorem Leaves.failed {e : String} (h : Holding P disk t) : Leaves P t (disk, .error e) := ⟨h, fun _ made => by cases made⟩

/-- A new table is written whole or not at all. -/
theorem initSchema_leaves {s : Store} (keyFile : s.disk.keyFile = some s.key.bytes) (absent : s.disk.dataFile = none)
    (io : StartIo) : Leaves P .empty (initSchema P s io) := by
  have before : Holding P s.disk .empty := .written keyFile (.inl ⟨absent, rfl⟩)
  constructor
  · unfold initSchema
    split
    · exact before
    · dsimp only
      cases fault : io.persist.fault with
      | none => exact (persistLocked_image (s := { s with table := .empty }) keyFile fault).holding
      | some point =>
        simp only [persistLocked, replaceFile, fault]
        exact before
  · intro s' made
    obtain ⟨clean, rfl, disk⟩ := initSchema_made made
    exact ⟨disk, rfl, persistLocked_image keyFile clean⟩

theorem loadFromDisk_leaves {s : Store} (keyFile : s.disk.keyFile = some s.key.bytes)
    (data : (s.disk.dataFile = none ∧ t = .empty) ∨
      ∃ nonce, s.disk.dataFile = some (P.aead.encrypt s.key nonce (P.sqlite.serialize t)))
    (io : StartIo) : Leaves P t (loadFromDisk P s io) := by
  have before : Holding P s.disk t := .written keyFile data
  rcases data with ⟨absent, rfl⟩ | ⟨nonce, file⟩
  · unfold loadFromDisk
    split
    · exact .failed before
    · rw [absent]
      exact initSchema_leaves keyFile absent io
  · rw [loadFromDisk_image file]
    refine ⟨before, fun s' made => ?_⟩
    dsimp only at made
    split at made
    · cases made
    · cases made
      exact ⟨rfl, rfl, keyFile, nonce, file⟩

/-- A start leaves the table on file, wherever it breaks off, and has it in memory when it does not. -/
theorem newStore_leaves (h : Holding P disk t) {io : StartIo} (whole : disk.keyFile = none → io.key.Whole) :
    Leaves P t (newStore P disk ttlSeconds io) := by
  have kept := h.loadOrCreateKey whole
  unfold newStore
  split
  · exact .failed h
  · dsimp only
    split
    · exact .failed kept
    · rename_i key made
      split
      · exact .failed kept
      · exact loadFromDisk_leaves (loadOrCreateKey_ok made) (h.opened made) io

/-- **A start in which nothing fails has the table that the files hold.** -/
theorem newStore_restored (h : Holding P disk t) (fresh : Block 32) (fileNonce : Block 12) :
    ∃ s, (newStore P disk ttlSeconds (.clean fresh fileNonce)).2 = .ok s ∧ s.table = t := by
  have started : ∃ s, (newStore P disk ttlSeconds (.clean fresh fileNonce)).2 = .ok s := by
    obtain ⟨key, made⟩ := h.key.clean fresh
    simp only [newStore, StartIo.clean, made, Bool.false_eq_true, if_false]
    rcases h.opened made with ⟨absent, -⟩ | ⟨nonce, file⟩
    · simp only [loadFromDisk, absent]
      exact ⟨_, rfl⟩
    · rw [loadFromDisk_image file]
      exact ⟨_, rfl⟩
  obtain ⟨s, made⟩ := started
  exact ⟨s, made, ((newStore_leaves ttlSeconds h fun _ => KeyIo.clean_whole fresh).2 s made).2.1⟩

/-- A key file that was written in part fails every start. -/
theorem newStore_torn {data : Bytes} (keyFile : disk.keyFile = some data) (torn : data.length ≠ 32) (io : StartIo)
    (s : Store) : (newStore P disk ttlSeconds io).2 ≠ .ok s := by
  unfold newStore
  split
  · intro loaded
    cases loaded
  · dsimp only
    rw [keyFile]
    split
    · intro loaded
      cases loaded
    · rename_i key made
      exact absurd made (loadOrCreateKey_torn torn io.key key)

end Store

/-! ## The prekeys -/

namespace PrekeyStore

variable {A : Aead} {disk : Disk} {m : Map PrekeyBundle}

/-- The prekey store's files hold a map. -/
abbrev Holding (A : Aead) (disk : Disk) (m : Map PrekeyBundle) : Prop := Held A encodeBundles ∅ disk m

theorem Stored.holding {key : Block 32} (h : Stored A disk key m) : Holding A disk m := .written h.keyFile h.dataFile

/-- The files with the key that was loaded or created. -/
theorem stored_of_key (h : Holding A disk m) {io : KeyIo} {key : Block 32}
    (made : (loadOrCreateKey disk.keyFile io).2 = .ok key) :
    Stored A { disk with keyFile := (loadOrCreateKey disk.keyFile io).1 } key m :=
  ⟨loadOrCreateKey_ok made, h.opened made⟩

/-- A start leaves the map on file, wherever it breaks off, and has it in memory when it does not. -/
theorem newPrekeyStore_leaves (h : Holding A disk m) (sound : Sound m) {io : StartIo}
    (whole : disk.keyFile = none → io.key.Whole) :
    Holding A (newPrekeyStore A disk io).1 m ∧ ∀ ps, (newPrekeyStore A disk io).2 = .ok ps →
      ps.disk = (newPrekeyStore A disk io).1 ∧ ps.bundles = m ∧ Backed A ps m := by
  have kept := h.loadOrCreateKey whole
  unfold newPrekeyStore
  split
  · exact ⟨h, fun _ made => by cases made⟩
  · dsimp only
    split
    · exact ⟨kept, fun _ made => by cases made⟩
    · rename_i key made
      refine ⟨kept, fun ps loaded => ?_⟩
      have stored := stored_of_key h made
      dsimp only at loaded
      rw [loadFromDisk_stored stored sound] at loaded
      split at loaded
      · cases loaded
      · cases loaded
        exact ⟨rfl, rfl, sound, sound, stored⟩

/-- **A start in which nothing fails has the map that the files hold.** -/
theorem newPrekeyStore_restored (h : Holding A disk m) (sound : Sound m) (fresh : Block 32) :
    ∃ ps, (newPrekeyStore A disk (.clean fresh)).2 = .ok ps ∧ ps.bundles = m := by
  obtain ⟨key, made⟩ := h.key.clean fresh
  have stored := stored_of_key h made
  simp only [newPrekeyStore, StartIo.clean, made, Bool.false_eq_true, if_false, loadFromDisk_stored stored sound]
  exact ⟨_, rfl, rfl⟩

theorem newPrekeyStore_torn {data : Bytes} (keyFile : disk.keyFile = some data) (torn : data.length ≠ 32) (io : StartIo)
    (ps : PrekeyStore) : (newPrekeyStore A disk io).2 ≠ .ok ps := by
  unfold newPrekeyStore
  split
  · intro loaded
    cases loaded
  · dsimp only
    rw [keyFile]
    split
    · intro loaded
      cases loaded
    · rename_i key made
      exact absurd made (loadOrCreateKey_torn torn io.key key)

end PrekeyStore

/-! ## The signing key -/

namespace SealedCA

variable {E : Ed25519} {file : Option Bytes} (prev : Option Bytes)

/-- The write of a new signing key, if it is made, leaves the whole key behind. -/
def StartIo.Whole (io : StartIo) : Prop := ∀ n ∈ io.writeFails, 64 ≤ n

instance (io : StartIo) : Decidable io.Whole := inferInstanceAs (Decidable (∀ n ∈ io.writeFails, _))

theorem clean_whole (seed : Block 32) : (StartIo.clean seed).Whole := by
  intro n written
  cases written

theorem newSealedCA_whole (h : WholeKey 64 file) {io : StartIo} (whole : file = none → io.Whole) :
    WholeKey 64 (newSealedCA E file prev io).1 := by
  unfold newSealedCA
  split
  · exact h
  · split
    · split
      · exact h
      · exact h
    · split
      · exact .absent 64
      · rename_i seed drawn
        split
        · exact .absent 64
        · split
          · rename_i n cut
            intro data written
            cases written
            rw [List.length_take, (E.privateKey seed).size]
            exact Nat.min_eq_right (whole rfl n cut)
          · intro data written
            cases written
            exact (E.privateKey seed).size

/-- A start in which nothing fails has an authority. -/
theorem newSealedCA_restored (h : WholeKey 64 file) (seed : Block 32) :
    ∃ ca, (newSealedCA E file prev (.clean seed)).2 = .ok ca := by
  cases file with
  | none => exact ⟨_, rfl⟩
  | some data =>
    have size := h data rfl
    simp only [newSealedCA, StartIo.clean, size, Bool.false_eq_true, if_false, dite_true]
    exact ⟨_, rfl⟩

theorem newSealedCA_torn {data : Bytes} (torn : data.length ≠ 64) (io : StartIo) (ca : SealedCA) :
    (newSealedCA E (some data) prev io).2 ≠ .ok ca := by
  unfold newSealedCA
  split
  · intro loaded
    cases loaded
  · dsimp only
    rw [dif_neg torn]
    intro loaded
    cases loaded

end SealedCA

/-! ## The relay -/

/-- No key file that is absent is written in part. -/
def Server.StartIo.Whole (io : Server.StartIo) (files : Files) : Prop :=
  (files.queue.keyFile = none → io.store.key.Whole) ∧ (files.prekeys.keyFile = none → io.prekeys.key.Whole) ∧
    (files.sealedCA = none → io.sealedCA.Whole)

instance (io : Server.StartIo) (files : Files) : Decidable (io.Whole files) :=
  inferInstanceAs (Decidable ((_ → _) ∧ (_ → _) ∧ (_ → _)))

namespace Files

variable {P : Platform} {files : Files} {t : Table QueueRow} {m : Map PrekeyBundle}

/-- The files hold a queue and prekeys, and a signing key or none. -/
structure Restorable (P : Platform) (files : Files) (t : Table QueueRow) (m : Map PrekeyBundle) : Prop where
  queue : Store.Holding P files.queue t
  prekeys : PrekeyStore.Holding P.aead files.prekeys m
  sound : PrekeyStore.Sound m
  sealedCA : WholeKey 64 files.sealedCA

/-- Every start in which nothing fails succeeds, and has this queue and these prekeys. -/
def Loads (P : Platform) (files : Files) (t : Table QueueRow) (m : Map PrekeyBundle) : Prop :=
  ∀ (cfg : Config) (queueKey prekeyKey seed : Block 32) (fileNonce : Block 12), ∃ server,
    (Server.new P cfg files (.clean queueKey prekeyKey seed fileNonce)).2 = .ok server ∧ server.store.table = t ∧
      server.prekeys.bundles = m

/-- A key file has another length than its key. -/
def Torn (files : Files) : Prop :=
  ¬ WholeKey 32 files.queue.keyFile ∨ ¬ WholeKey 32 files.prekeys.keyFile ∨ ¬ WholeKey 64 files.sealedCA

instance (files : Files) : Decidable files.Torn := inferInstanceAs (Decidable (_ ∨ _ ∨ _))

theorem Restorable.empty (P : Platform) : Restorable P .empty .empty ∅ where
  queue := .nothing ..
  prekeys := .nothing ..
  sound := PrekeyStore.sound_empty
  sealedCA := .absent 64

/-- What a relay has that started on files with this queue and these prekeys. -/
structure Serves (P : Platform) (files : Files) (t : Table QueueRow) (m : Map PrekeyBundle) (server : Server) : Prop where
  queue : server.store.disk = files.queue
  table : server.store.table = t
  image : Store.Image P server.store t
  prekeys : server.prekeys.disk = files.prekeys
  bundles : server.prekeys.bundles = m
  backed : PrekeyStore.Backed P.aead server.prekeys m

/-- **A start keeps what the files hold**, wherever it breaks off, and has it in memory when it does not. -/
theorem Restorable.new (h : Restorable P files t m) (cfg : Config) {io : Server.StartIo} (whole : io.Whole files) :
    Restorable P (Server.new P cfg files io).1 t m ∧ ∀ server, (Server.new P cfg files io).2 = .ok server →
      Serves P (Server.new P cfg files io).1 t m server := by
  obtain ⟨queueKey, prekeyKey, signingKey⟩ := whole
  obtain ⟨queue, store⟩ := Store.newStore_leaves cfg.messageTTLSeconds h.queue queueKey
  obtain ⟨prekeys, prekeyStore⟩ := PrekeyStore.newPrekeyStore_leaves h.prekeys h.sound prekeyKey
  have sealedCA := SealedCA.newSealedCA_whole (E := P.ed25519) files.prevSealedCA h.sealedCA signingKey
  unfold Server.new
  dsimp only
  split
  · exact ⟨⟨queue, h.prekeys, h.sound, h.sealedCA⟩, fun _ made => by cases made⟩
  · rename_i s madeStore
    split
    · exact ⟨⟨queue, prekeys, h.sound, h.sealedCA⟩, fun _ made => by cases made⟩
    · rename_i ps madePrekeys
      split
      · exact ⟨⟨queue, prekeys, h.sound, sealedCA⟩, fun _ made => by cases made⟩
      · refine ⟨⟨queue, prekeys, h.sound, sealedCA⟩, fun server made => ?_⟩
        cases made
        obtain ⟨queueDisk, table, image⟩ := store s madeStore
        obtain ⟨prekeyDisk, bundles, backed⟩ := prekeyStore ps madePrekeys
        exact ⟨queueDisk, table, image, prekeyDisk, bundles, backed⟩

/-- **A start in which nothing fails has what the files hold.** -/
theorem Restorable.loads (h : Restorable P files t m) : Loads P files t m := by
  intro cfg queueKey prekeyKey seed fileNonce
  obtain ⟨s, madeStore, table⟩ := Store.newStore_restored cfg.messageTTLSeconds h.queue queueKey fileNonce
  obtain ⟨ps, madePrekeys, bundles⟩ := PrekeyStore.newPrekeyStore_restored h.prekeys h.sound prekeyKey
  obtain ⟨ca, madeCA⟩ := SealedCA.newSealedCA_restored (E := P.ed25519) files.prevSealedCA h.sealedCA seed
  simp only [Server.new, Server.StartIo.clean, madeStore, madePrekeys, madeCA]
  exact ⟨_, rfl, table, bundles⟩

/-- **No start succeeds on a key file that was written in part.** -/
theorem Torn.new (torn : files.Torn) (cfg : Config) (io : Server.StartIo) (server : Server) :
    (Server.new P cfg files io).2 ≠ .ok server := by
  intro made
  have whole : Server.new P cfg files io = ((Server.new P cfg files io).1, .ok server) := Prod.ext rfl made
  have parts := Server.new_ok whole
  rcases torn with queue | prekeys | signingKey
  · obtain ⟨data, keyFile, size⟩ := not_wholeKey queue
    exact Store.newStore_torn _ keyFile size io.store _ (Server.new_store whole).1
  · obtain ⟨data, keyFile, size⟩ := not_wholeKey prekeys
    exact PrekeyStore.newPrekeyStore_torn keyFile size io.prekeys _ (congrArg Prod.snd parts.prekeys)
  · obtain ⟨data, keyFile, size⟩ := not_wholeKey signingKey
    have loaded := congrArg Prod.snd parts.sealedCA
    rw [keyFile] at loaded
    exact SealedCA.newSealedCA_torn _ size io.sealedCA _ loaded

end Files

/-! ## A start that ends inside the write of a key -/

/-- The three key files that a start may create. -/
inductive KeyWrite where
  | queue | prekeys | sealedCA
deriving DecidableEq

namespace KeyWrite

/-- The length of the key. -/
def size : KeyWrite → Nat
  | queue | prekeys => 32
  | sealedCA => 64

def file (files : Files) : KeyWrite → Option Bytes
  | queue => files.queue.keyFile
  | prekeys => files.prekeys.keyFile
  | sealedCA => files.sealedCA

/-- The start ends when `n` bytes of the key are written; no call before that fails. -/
def cut (io : Server.StartIo) (n : Nat) : KeyWrite → Server.StartIo
  | queue => { io with store := { io.store with key := { io.store.key with writeFails := some n } } }
  | prekeys => { io with prekeys := { io.prekeys with key := { io.prekeys.key with writeFails := some n } } }
  | sealedCA => { io with sealedCA := { io.sealedCA with writeFails := some n } }

variable {P : Platform} {files : Files} {t : Table QueueRow} {m : Map PrekeyBundle}

theorem cut_whole {w : KeyWrite} {n : Nat} (enough : w.size ≤ n) (queueKey prekeyKey seed : Block 32)
    (fileNonce : Block 12) (files : Files) : (w.cut (.clean queueKey prekeyKey seed fileNonce) n).Whole files := by
  cases w with
  | queue =>
    refine ⟨fun _ k written => ?_, fun _ => KeyIo.clean_whole prekeyKey, fun _ => SealedCA.clean_whole seed⟩
    cases written
    exact enough
  | prekeys =>
    refine ⟨fun _ => KeyIo.clean_whole queueKey, fun _ k written => ?_, fun _ => SealedCA.clean_whole seed⟩
    cases written
    exact enough
  | sealedCA =>
    refine ⟨fun _ => KeyIo.clean_whole queueKey, fun _ => KeyIo.clean_whole prekeyKey, fun _ k written => ?_⟩
    cases written
    exact enough

/-- A part of a block is no key. -/
theorem not_whole_take {size n : Nat} (key : Block size) (short : n < size) : ¬ WholeKey size (some (key.bytes.take n)) := by
  intro whole
  have length := whole _ rfl
  rw [List.length_take, key.size] at length
  omega

/-- The start leaves the part of the key behind. -/
theorem cut_torn (h : files.Restorable P t m) {w : KeyWrite} {n : Nat} (short : n < w.size) (absent : w.file files = none)
    (cfg : Config) (queueKey prekeyKey seed : Block 32) (fileNonce : Block 12) :
    (Server.new P cfg files (w.cut (.clean queueKey prekeyKey seed fileNonce) n)).1.Torn := by
  cases w with
  | queue =>
    have keyFile : files.queue.keyFile = none := absent
    refine .inl ?_
    simp only [Server.new, cut, Server.StartIo.clean, Store.newStore, Store.StartIo.clean, keyFile, loadOrCreateKey,
      KeyIo.clean, Bool.false_eq_true, if_false]
    exact not_whole_take queueKey short
  | prekeys =>
    have keyFile : files.prekeys.keyFile = none := absent
    obtain ⟨s, madeStore, -⟩ := Store.newStore_restored cfg.messageTTLSeconds h.queue queueKey fileNonce
    refine .inr (.inl ?_)
    simp only [Server.new, cut, Server.StartIo.clean, madeStore, PrekeyStore.newPrekeyStore, PrekeyStore.StartIo.clean,
      keyFile, loadOrCreateKey, KeyIo.clean, Bool.false_eq_true, if_false]
    exact not_whole_take prekeyKey short
  | sealedCA =>
    have keyFile : files.sealedCA = none := absent
    obtain ⟨s, madeStore, -⟩ := Store.newStore_restored cfg.messageTTLSeconds h.queue queueKey fileNonce
    obtain ⟨ps, madePrekeys, -⟩ := PrekeyStore.newPrekeyStore_restored h.prekeys h.sound prekeyKey
    refine .inr (.inr ?_)
    simp only [Server.new, cut, Server.StartIo.clean, madeStore, madePrekeys, SealedCA.newSealedCA,
      SealedCA.StartIo.clean, keyFile, Bool.false_eq_true, if_false]
    exact not_whole_take (P.ed25519.privateKey seed) short

/-- **A start that ends inside the write of a key can be repeated exactly when the whole key was written.** -/
theorem cut_loads (h : files.Restorable P t m) {w : KeyWrite} (absent : w.file files = none) (n : Nat) (cfg : Config)
    (queueKey prekeyKey seed : Block 32) (fileNonce : Block 12) :
    (∃ t' m', (Server.new P cfg files (w.cut (.clean queueKey prekeyKey seed fileNonce) n)).1.Loads P t' m') ↔
      w.size ≤ n := by
  constructor
  · rintro ⟨t', m', loads⟩
    by_contra short
    have torn := cut_torn h (not_le.1 short) absent cfg queueKey prekeyKey seed fileNonce
    obtain ⟨server, made, -, -⟩ := loads cfg queueKey prekeyKey seed fileNonce
    exact torn.new cfg _ server made
  · intro enough
    exact ⟨t, m, (h.new cfg (cut_whole enough queueKey prekeyKey seed fileNonce files)).1.loads⟩

end KeyWrite

end SpectreRelay.Server
