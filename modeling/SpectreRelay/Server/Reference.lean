import SpectreRelay.Server.Server

/-!
# A platform to run the relay on

The laws of `Platform` have a model in which every function computes: sealing
that hides nothing, a database image in JSON, and a keyless signature. It
stands for no real primitive; it lets the relay's functions be evaluated on
concrete inputs.
-/

namespace SpectreRelay.Server.Reference
set_option autoImplicit false
open Lib Lib.Json

def rowJson (row : Nat × QueueRow) : Json :=
  .arr [.int row.1, .str (Base64.encode row.2.recipientID), .str (Base64.encode row.2.payload),
    .int row.2.expiresAt.toInt]

def imageJson (t : Table QueueRow) : Json := .arr [.int t.next, .arr (t.rows.map rowJson)]

def readRow : Json → Option (Nat × QueueRow)
  | .arr [.num n, .str r, .str p, .num x] =>
    match parseInt n, (parseInt x).bind int64Of with
    | some n, some x => some (n.toNat, ⟨(Base64.decode r).1, (Base64.decode p).1, x⟩)
    | _, _ => none
  | _ => none

def readRows : List Json → Option (List (Nat × QueueRow))
  | [] => some []
  | j :: js =>
    match readRow j, readRows js with
    | some row, some rows => some (row :: rows)
    | _, _ => none

def readImage : Json → Option (Table QueueRow)
  | .arr [.num n, .arr rows] =>
    match parseInt n, readRows rows with
    | some n, some rows =>
      if ok : rows.Pairwise (fun a b => a.1 < b.1) ∧ ∀ r ∈ rows, r.1 < n.toNat then some ⟨rows, n.toNat, ok.1, ok.2⟩
      else none
    | _, _ => none
  | _ => none

theorem readRow_rowJson (row : Nat × QueueRow) : readRow (rowJson row) = some row := by
  simp only [rowJson, int, readRow, parseInt_format, Option.bind_some, int64Of_toInt, Base64.decode_encode,
    Int.toNat_natCast]

theorem readRows_map (rows : List (Nat × QueueRow)) : readRows (rows.map rowJson) = some rows := by
  induction rows with
  | nil => rfl
  | cons row rows ih => simp only [List.map_cons, readRows, readRow_rowJson, ih]

theorem readImage_imageJson (t : Table QueueRow) : readImage (imageJson t) = some t := by
  simp only [imageJson, int, readImage, parseInt_format, readRows_map, Int.toNat_natCast]
  exact dif_pos ⟨t.sorted, t.below⟩

theorem clean_rowJson (row : Nat × QueueRow) : clean (rowJson row) = rowJson row := by
  simp only [rowJson, clean, cleanElems, clean_int, sanitize_base64]

theorem clean_imageJson (t : Table QueueRow) : clean (imageJson t) = imageJson t := by
  have rows : cleanElems (t.rows.map rowJson) = t.rows.map rowJson := by
    induction t.rows with
    | nil => rfl
    | cons row rows ih => simp only [List.map_cons, cleanElems, clean_rowJson, ih]
  simp only [imageJson, clean, cleanElems, clean_int, rows]

theorem imageJson_printable (t : Table QueueRow) : Printable maxNesting (imageJson t) := by
  have row : ∀ r d, Printable (d + 1) (rowJson r) := by
    intro r d
    apply Printable.arr
    simp [Printable.int, Printable.str]
  apply Printable.arr
  intro j inside
  simp only [List.mem_cons, List.not_mem_nil, or_false] at inside
  rcases inside with rfl | rfl
  · exact .int _
  · apply Printable.arr
    intro j inside
    obtain ⟨r, _, rfl⟩ := List.mem_map.1 inside
    exact row r _

def sqlite : Sqlite QueueRow where
  serialize t := print (imageJson t)
  deserialize data := (parse data).bind readImage
  deserialize_serialize t := by
    rw [parse_print (imageJson_printable t), clean_imageJson, Option.bind_some, readImage_imageJson]

/-- The first 32 bytes of a message, filled up with zeros. -/
def digest (message : Bytes) : Bytes := (message ++ List.replicate 32 0).take 32

theorem digest_length (message : Bytes) : (digest message).length = 32 := by
  simp only [digest, List.length_take, List.length_append, List.length_replicate]
  omega

/-- A signature that names the public key and the start of the message. -/
def ed25519 : Ed25519 where
  publicOf seed := seed
  signWith priv message := ⟨digest (priv.drop 32) ++ digest message, by simp [digest_length]⟩
  verify pub message sig := sig = digest pub ++ digest message
  verify_sign seed message := by simp [List.drop_left' seed.size]

def platform : Platform := ⟨.clear, sqlite, ed25519⟩

/-- A store with a time to live of a minute, before its first start. -/
def store : Store := ⟨∅, .empty, .empty, .zeros 32, 60000000000⟩

/-- A relay called a, in development, with a time to live of a minute and otherwise the defaults. -/
def cfg : Config where
  listenAddr := ascii ":443"
  tlsCertFile := []
  tlsKeyFile := []
  maxClients := 10000
  messageTTLSeconds := 60
  maxMessageSize := 65536
  rateLimitPerMin := 60
  offlineQueuePath := ascii "/data/offline_queue.enc"
  prekeyStorePath := ascii "/data/prekeys.enc"
  sealedCAPath := ascii "/data/sealed_ca.key"
  devMode := true
  relayID := ascii "a"
  federationAddr := []

/-- A start in which no call fails and every random block is zero. -/
def startIo : Server.StartIo := .clean (.zeros 32) (.zeros 32) (.zeros 32) (.zeros 12)

/-- A bundle of zero keys with three one-time prekeys. -/
def bundle : PrekeyBundle where
  identityKey := Base64.encode (Block.zeros 32).bytes
  signedPrekey := Base64.encode (Block.zeros 32).bytes
  signedPrekeySig := Base64.encode (Block.zeros 64).bytes
  signedPrekeyID := 1
  oneTimePrekeys := [1, 2, 3].map fun id => ⟨id, Base64.encode (Block.zeros 32).bytes⟩

/-- The first second of the epoch. -/
def start : Time := ⟨1000000000, by decide⟩

/-- The reading at this second of the epoch. -/
def second (n : Fin 1000) : Time := ⟨n.val * 10 ^ 9, by omega⟩

/-- An `Enqueue` at this second in which no call fails. -/
def enqueueAt (n : Fin 1000) : Store.EnqueueIo := .clean (second n) (second n) (.zeros 12) (.zeros 12)

/-- A `DrainQueue` at this second in which no call fails. -/
def drainAt (n : Fin 1000) : Store.DrainIo := .clean (second n) (.zeros 12)

/-- The queue of a first start, with a time to live of a minute. -/
def firstStore : Store where
  clients := ∅
  table := .empty
  disk := ⟨some (Block.zeros 32).bytes,
    some (platform.aead.encrypt (.zeros 32) (.zeros 12) (platform.sqlite.serialize .empty))⟩
  key := .zeros 32
  ttl := 60 * 1000000000

theorem firstStore_started : (Store.newStore platform .empty 60 (.clean (.zeros 32) (.zeros 12))).2 = .ok firstStore := rfl

end SpectreRelay.Server.Reference
