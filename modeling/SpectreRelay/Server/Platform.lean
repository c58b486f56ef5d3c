import SpectreRelay.Lib.Bytes
import SpectreRelay.Lib.Table

/-!
# What the relay runs on

Clock readings, blocks of random bytes, authenticated encryption, signatures
and files, as far as the relay's code sees them. A primitive that the relay
only uses is a structure whose fields are its functions together with the law
that the relay relies on, so whatever is proved holds for every implementation
of it. An operation that can fail takes the outcome of each system call it
makes as an argument.
-/

namespace SpectreRelay.Server
set_option autoImplicit false
open Lib

/-! ## Time -/

/-- A clock reading in nanoseconds since the epoch; its milliseconds stay below `2^62`. -/
structure Time where
  ns : Nat
  era : ns < 2 ^ 62 * 10 ^ 6
deriving DecidableEq

namespace Time

instance : LE Time := ⟨fun a b => a.ns ≤ b.ns⟩

instance (a b : Time) : Decidable (a ≤ b) := inferInstanceAs (Decidable (a.ns ≤ b.ns))

theorem le_def {a b : Time} : a ≤ b ↔ a.ns ≤ b.ns := Iff.rfl

/-- Whole seconds. -/
def seconds (t : Time) : Int := t.ns / 10 ^ 9

/-- `t.Unix()`, and what `unixepoch()` answers at `t`. -/
def unix (t : Time) : Int64 := Int64.ofInt t.seconds

/-- `t.Add(d).Unix()` for a duration in nanoseconds. -/
def addUnix (t : Time) (d : Int64) : Int64 := Int64.ofInt ((t.ns + d.toInt) / 10 ^ 9)

/-- Whole milliseconds. -/
def milliseconds (t : Time) : Int := t.ns / 10 ^ 6

/-- `t.Add(d).UnixMilli()` for a duration in nanoseconds. -/
def addUnixMilli (t : Time) (d : Int64) : Int64 := Int64.ofInt ((t.ns + d.toInt) / 10 ^ 6)

theorem seconds_mono {a b : Time} (h : a ≤ b) : a.seconds ≤ b.seconds := by
  have := le_def.1 h
  unfold seconds
  omega

theorem seconds_range (t : Time) : 0 ≤ t.seconds ∧ t.seconds < 2 ^ 53 := by
  have := t.era
  unfold seconds
  omega

theorem toInt_ofInt {n : Int} (low : -2 ^ 63 ≤ n) (high : n < 2 ^ 63) : (Int64.ofInt n).toInt = n := by
  apply Int64.toInt_ofInt_of_le <;> omega

theorem unix_toInt (t : Time) : t.unix.toInt = t.seconds := by
  have := t.seconds_range
  exact toInt_ofInt (by omega) (by omega)

theorem addUnix_toInt (t : Time) (d : Int64) : (t.addUnix d).toInt = (t.ns + d.toInt) / 10 ^ 9 := by
  have low := d.le_toInt
  have high := d.toInt_lt
  have := t.era
  exact toInt_ofInt (by omega) (by omega)

theorem addUnixMilli_toInt (t : Time) (d : Int64) : (t.addUnixMilli d).toInt = (t.ns + d.toInt) / 10 ^ 6 := by
  have low := d.le_toInt
  have high := d.toInt_lt
  have := t.era
  exact toInt_ofInt (by omega) (by omega)

end Time

/-! ## Random blocks -/

/-- A byte string of a fixed length. -/
structure Block (n : Nat) where
  bytes : Bytes
  size : bytes.length = n
deriving DecidableEq

theorem Block.eq_of_bytes {n : Nat} {a b : Block n} (same : a.bytes = b.bytes) : a = b := by
  cases a
  cases b
  cases same
  rfl

/-- A block of zeros. -/
def Block.zeros (n : Nat) : Block n := ⟨List.replicate n 0, List.length_replicate⟩

/-! ## Authenticated encryption -/

/-- AES-GCM: opening what was sealed under the same key and nonce gives the plaintext. -/
structure Aead where
  gcmSeal : Bytes → Bytes → Bytes → Bytes
  gcmOpen : Bytes → Bytes → Bytes → Option Bytes
  open_seal : ∀ key nonce plain, gcmOpen key nonce (gcmSeal key nonce plain) = some plain

namespace Aead

variable (A : Aead)

/-- The nonce followed by the ciphertext. -/
def encrypt (key : Block 32) (nonce : Block 12) (plaintext : Bytes) : Bytes :=
  nonce.bytes ++ A.gcmSeal key.bytes nonce.bytes plaintext

/-- Splits off the nonce and opens the rest. -/
def decrypt (key : Block 32) (ciphertext : Bytes) : Option Bytes :=
  if ciphertext.length < 12 then none
  else A.gcmOpen key.bytes (ciphertext.take 12) (ciphertext.drop 12)

variable {A}

@[simp] theorem decrypt_encrypt (key : Block 32) (nonce : Block 12) (plaintext : Bytes) :
    A.decrypt key (A.encrypt key nonce plaintext) = some plaintext := by
  have long : ¬ (A.encrypt key nonce plaintext).length < 12 := by
    simp only [encrypt, List.length_append, nonce.size]
    omega
  unfold decrypt
  rw [if_neg long, encrypt, List.take_left' nonce.size, List.drop_left' nonce.size, A.open_seal]

theorem encrypt_ne_nil (key : Block 32) (nonce : Block 12) (plaintext : Bytes) : A.encrypt key nonce plaintext ≠ [] := by
  intro empty
  have := congrArg List.length empty
  simp [encrypt, nonce.size] at this

/-- Sealing that hides nothing: enough to run the relay on. -/
def clear : Aead := ⟨fun _ _ plain => plain, fun _ _ sealed => some sealed, fun _ _ _ => rfl⟩

end Aead

/-! ## Signatures -/

/-- Ed25519: a private key is a seed followed by its public key, and a signature made with it verifies. -/
structure Ed25519 where
  publicOf : Block 32 → Block 32
  signWith : Bytes → Bytes → Block 64
  verify : Bytes → Bytes → Bytes → Bool
  verify_sign : ∀ seed message,
    verify (publicOf seed).bytes message (signWith (seed.bytes ++ (publicOf seed).bytes) message).bytes = true

namespace Ed25519

variable (E : Ed25519)

/-- The private key of a seed. -/
def privateKey (seed : Block 32) : Block 64 where
  bytes := seed.bytes ++ (E.publicOf seed).bytes
  size := by rw [List.length_append, seed.size, (E.publicOf seed).size]

/-- The public half of a private key: its last 32 bytes. -/
def publicKey (priv : Block 64) : Block 32 where
  bytes := priv.bytes.drop 32
  size := by rw [List.length_drop, priv.size]

def sign (priv : Block 64) (message : Bytes) : Bytes := (E.signWith priv.bytes message).bytes

theorem publicKey_privateKey (seed : Block 32) : publicKey (E.privateKey seed) = E.publicOf seed := by
  simp only [publicKey, privateKey, List.drop_left' seed.size]

end Ed25519

/-! ## The database -/

/-- SQLite's image of an in-memory database with one table: reading an image back gives the table. -/
structure Sqlite (ρ : Type) where
  serialize : Table ρ → Bytes
  deserialize : Bytes → Option (Table ρ)
  deserialize_serialize : ∀ t, deserialize (serialize t) = some t

/-! ## Files -/

/-- The system calls of an atomic replacement, in order. -/
inductive PersistStep where
  | serialize | nonce | createTemp | write | chmod | close | rename
deriving DecidableEq, Repr

/-- The random nonce of a replacement and the call that fails, if one does. -/
structure PersistIo where
  nonce : Block 12
  fault : Option PersistStep

/-- A replacement in which every call succeeds. -/
def PersistIo.clean (nonce : Block 12) : PersistIo := ⟨nonce, none⟩

/-- Temp file and rename: the path holds the new content, or the old one when a call fails. -/
def replaceFile (old : Option Bytes) (content : Bytes) (io : PersistIo) : Option Bytes × Bool :=
  match io.fault with
  | none => (some content, true)
  | some _ => (old, false)

/-- The key file and the data file of a store. -/
structure Disk where
  keyFile : Option Bytes
  dataFile : Option Bytes
deriving DecidableEq

def Disk.empty : Disk := ⟨none, none⟩

/-- The system calls of `loadOrCreateKey`; a failing write leaves a part of the key behind. -/
structure KeyIo where
  readFails : Bool
  fresh : Option (Block 32)
  mkdirFails : Bool
  writeFails : Option Nat

/-- A start in which every call succeeds. -/
def KeyIo.clean (fresh : Block 32) : KeyIo := ⟨false, some fresh, false, none⟩

/-- The error of a failed system call; the others carry the text of the source. -/
def systemError : String := "io"

/-- Reads the 32-byte key, or generates and writes one when there is no key file. -/
def loadOrCreateKey (file : Option Bytes) (io : KeyIo) : Option Bytes × Except String (Block 32) :=
  if io.readFails then (file, .error systemError)
  else
    match file with
    | some data =>
      if size : data.length = 32 then (file, .ok ⟨data, size⟩) else (file, .error "invalid key file length")
    | none =>
      match io.fresh with
      | none => (none, .error systemError)
      | some key =>
        if io.mkdirFails then (none, .error systemError)
        else
          match io.writeFails with
          | some written => (some (key.bytes.take written), .error systemError)
          | none => (some key.bytes, .ok key)

/-- A key file that was written is read back. -/
theorem loadOrCreateKey_some (key : Block 32) {io : KeyIo} (reads : io.readFails = false) :
    loadOrCreateKey (some key.bytes) io = (some key.bytes, .ok key) := by
  simp [loadOrCreateKey, reads, key.size]

/-- A key that was loaded or created stands in the key file. -/
theorem loadOrCreateKey_ok {file : Option Bytes} {io : KeyIo} {key : Block 32}
    (done : (loadOrCreateKey file io).2 = .ok key) : (loadOrCreateKey file io).1 = some key.bytes := by
  unfold loadOrCreateKey at done ⊢
  by_cases fails : io.readFails = true
  · rw [if_pos fails] at done
    cases done
  · rw [if_neg fails] at done ⊢
    cases file with
    | some data =>
      dsimp only at done ⊢
      split at done
      · rename_i size
        cases done
        rw [dif_pos size]
      · cases done
    | none =>
      dsimp only at done ⊢
      cases fresh : io.fresh with
      | none => simp [fresh] at done
      | some new =>
        simp only [fresh] at done ⊢
        split at done
        · cases done
        · rename_i made
          rw [if_neg made]
          split at done
          · cases done
          · cases done
            rfl

end SpectreRelay.Server
