import SpectreRelay.Lib.Map
import SpectreRelay.Server.Platform

/-!
# The prekey store

`server/prekey_store.go`: the published key bundle of each user, with its pool
of one-time prekeys. The whole map is encrypted and written to disk after every
change. A bundle that passes validation holds only ASCII (`Accepted.valid`), so
a map of accepted bundles under well-formed user ids is read back as it was
written (`decode_encode`).
-/

namespace SpectreRelay.Server
set_option autoImplicit false
open Lib Lib.Json

def prekeyPubKeyLen : Nat := 32
def prekeySigLen : Nat := 64
def maxOneTimePrekeys : Nat := 100

/-- A single-use prekey; its key is base64 text. -/
structure OneTimePrekey where
  id : UInt32
  key : Bytes
deriving DecidableEq

/-- The record that the relay stores for a user. -/
structure PrekeyBundle where
  identityKey : Bytes
  signedPrekey : Bytes
  signedPrekeySig : Bytes
  signedPrekeyID : UInt32
  oneTimePrekeys : List OneTimePrekey
deriving DecidableEq

/-- The served form of a bundle: at most one one-time prekey. -/
structure PrekeyResponse where
  identityKey : Bytes
  signedPrekey : Bytes
  signedPrekeySig : Bytes
  signedPrekeyID : UInt32
  oneTimePrekey : Option OneTimePrekey
deriving DecidableEq

/-! ## JSON -/

namespace OneTimePrekey

def zero : OneTimePrekey := ⟨0, []⟩

def toJson (k : OneTimePrekey) : Json := .obj [(ascii "id", .int k.id.toNat), (ascii "key", .str k.key)]

def fields : List (StructField OneTimePrekey) :=
  [.of "id" id (fun b k => { k with id := b }) (unsigned uint32Of),
   .of "key" key (fun b k => { k with key := b }) string]

def decoder : Decoder OneTimePrekey := record fields

theorem decoder_toJson {k : OneTimePrekey} (ok : Utf8.Valid k.key) : decoder (clean k.toJson) zero = (k, true) := by
  simp only [toJson, decoder, record, clean, cleanMembers, clean_int]
  rw [storeAll_found rfl, storeAll_found rfl]
  simp only [storeAll, StructField.of, string_str, unsigned_int (uint32Of_toNat _), ok.sanitize, zero]
  rfl

end OneTimePrekey

namespace PrekeyBundle

def zero : PrekeyBundle := ⟨[], [], [], 0, []⟩

def toJson (b : PrekeyBundle) : Json :=
  .obj [(ascii "identity_key", .str b.identityKey),
    (ascii "signed_prekey", .str b.signedPrekey),
    (ascii "signed_prekey_sig", .str b.signedPrekeySig),
    (ascii "signed_prekey_id", .int b.signedPrekeyID.toNat),
    (ascii "one_time_prekeys", .arr (b.oneTimePrekeys.map OneTimePrekey.toJson))]

def fields : List (StructField PrekeyBundle) :=
  [.of "identity_key" identityKey (fun v b => { b with identityKey := v }) string,
   .of "signed_prekey" signedPrekey (fun v b => { b with signedPrekey := v }) string,
   .of "signed_prekey_sig" signedPrekeySig (fun v b => { b with signedPrekeySig := v }) string,
   .of "signed_prekey_id" signedPrekeyID (fun v b => { b with signedPrekeyID := v }) (unsigned uint32Of),
   .of "one_time_prekeys" oneTimePrekeys (fun v b => { b with oneTimePrekeys := v })
     (slice OneTimePrekey.decoder OneTimePrekey.zero)]

def decoder : Decoder PrekeyBundle := record fields

/-- Every string of the bundle is well-formed. -/
structure Valid (b : PrekeyBundle) : Prop where
  identityKey : Utf8.Valid b.identityKey
  signedPrekey : Utf8.Valid b.signedPrekey
  signedPrekeySig : Utf8.Valid b.signedPrekeySig
  oneTimePrekeys : ∀ k ∈ b.oneTimePrekeys, Utf8.Valid k.key

theorem toJson_printable (b : PrekeyBundle) (d : Nat) : Printable (d + 3) b.toJson := by
  have pool : Printable (d + 2) (.arr (b.oneTimePrekeys.map OneTimePrekey.toJson)) := by
    apply Printable.arr
    intro j inside
    obtain ⟨k, _, rfl⟩ := List.mem_map.1 inside
    apply Printable.obj
    simp [Printable.int, Printable.str]
  apply Printable.obj
  simp [Printable.int, Printable.str, pool]

theorem elements_oneTimePrekeys (ks : List OneTimePrekey) (ok : ∀ k ∈ ks, Utf8.Valid k.key) :
    elements OneTimePrekey.decoder OneTimePrekey.zero (cleanElems (ks.map OneTimePrekey.toJson)) [] = (ks, true) := by
  induction ks with
  | nil => rfl
  | cons k ks ih =>
    have first := OneTimePrekey.decoder_toJson (ok k List.mem_cons_self)
    have rest := ih fun k' inside => ok k' (List.mem_cons_of_mem _ inside)
    simp only [List.map_cons, cleanElems, elements, List.headD_nil, List.tail_nil, first, rest, Bool.and_self]

/-- **Round trip.** A bundle of well-formed strings is decoded from its JSON. -/
theorem decoder_toJson {b : PrekeyBundle} (ok : b.Valid) : decoder (clean b.toJson) zero = (b, true) := by
  have pool : slice OneTimePrekey.decoder OneTimePrekey.zero (.arr (cleanElems (b.oneTimePrekeys.map
      OneTimePrekey.toJson))) [] = (b.oneTimePrekeys, true) := elements_oneTimePrekeys _ ok.oneTimePrekeys
  simp only [toJson, decoder, record, clean, cleanMembers, clean_int]
  rw [storeAll_found rfl, storeAll_found rfl, storeAll_found rfl, storeAll_found rfl, storeAll_found rfl]
  simp only [storeAll, StructField.of, string_str, unsigned_int (uint32Of_toNat _), ok.identityKey.sanitize,
    ok.signedPrekey.sanitize, ok.signedPrekeySig.sanitize, zero, pool]
  rfl

theorem pointer_toJson {b : PrekeyBundle} (ok : b.Valid) :
    pointer decoder zero (clean b.toJson) none = (some b, true) := by
  have inner := decoder_toJson ok
  simp only [toJson, clean] at inner ⊢
  simp only [pointer, Option.getD_none, inner]

end PrekeyBundle

/-! ## Validation -/

/-- The text decodes as standard base64, to the wanted number of bytes. -/
def checkBase64Len (s : Bytes) (want : Nat) : Bool := (Base64.decode s).2 && (Base64.decode s).1.length == want

/-- The loop over the one-time prekeys: the key first, then the id against those seen. -/
def checkOneTimePrekeys (seen : List UInt32) : List OneTimePrekey → Except String Unit
  | [] => .ok ()
  | k :: ks =>
    if checkBase64Len k.key prekeyPubKeyLen = false then .error "invalid one_time_prekey key"
    else if k.id ∈ seen then .error "duplicate one_time_prekey id"
    else checkOneTimePrekeys (k.id :: seen) ks

def validatePrekeyBundle (b : PrekeyBundle) : Except String Unit :=
  if checkBase64Len b.identityKey prekeyPubKeyLen = false then .error "invalid identity_key"
  else if checkBase64Len b.signedPrekey prekeyPubKeyLen = false then .error "invalid signed_prekey"
  else if checkBase64Len b.signedPrekeySig prekeySigLen = false then .error "invalid signed_prekey_sig"
  else if b.signedPrekeyID = 0 then .error "invalid signed_prekey_id"
  else if maxOneTimePrekeys < b.oneTimePrekeys.length then .error "too many one_time_prekeys"
  else checkOneTimePrekeys [] b.oneTimePrekeys

/-- What validation guarantees of a bundle. -/
structure PrekeyBundle.Accepted (b : PrekeyBundle) : Prop where
  identityKey : checkBase64Len b.identityKey prekeyPubKeyLen = true
  signedPrekey : checkBase64Len b.signedPrekey prekeyPubKeyLen = true
  signedPrekeySig : checkBase64Len b.signedPrekeySig prekeySigLen = true
  signedPrekeyID : b.signedPrekeyID ≠ 0
  few : b.oneTimePrekeys.length ≤ maxOneTimePrekeys
  keys : ∀ k ∈ b.oneTimePrekeys, checkBase64Len k.key prekeyPubKeyLen = true
  distinct : (b.oneTimePrekeys.map OneTimePrekey.id).Nodup

theorem checkOneTimePrekeys_ok {seen : List UInt32} {ks : List OneTimePrekey} :
    checkOneTimePrekeys seen ks = .ok () ↔ (∀ k ∈ ks, checkBase64Len k.key prekeyPubKeyLen = true) ∧
      (ks.map OneTimePrekey.id).Nodup ∧ ∀ k ∈ ks, k.id ∉ seen := by
  induction ks generalizing seen with
  | nil => simp [checkOneTimePrekeys]
  | cons k ks ih =>
    simp only [checkOneTimePrekeys]
    split
    · rename_i bad
      simp [bad]
    · rename_i good
      rw [Bool.not_eq_false] at good
      split
      · rename_i twice
        simp [twice]
      · rename_i fresh
        rw [ih]
        simp only [List.mem_cons, forall_eq_or_imp, good, true_and, List.map_cons, List.nodup_cons, List.mem_map,
          not_exists, not_and, fresh, not_false_eq_true, not_or]
        constructor
        · rintro ⟨keys, distinct, unseen⟩
          exact ⟨keys, ⟨fun k' inside => (unseen k' inside).1, distinct⟩, fun k' inside => (unseen k' inside).2⟩
        · rintro ⟨keys, ⟨apart, distinct⟩, unseen⟩
          exact ⟨keys, distinct, fun k' inside => ⟨apart k' inside, unseen k' inside⟩⟩

/-- **Validation is exact.** -/
theorem validatePrekeyBundle_ok {b : PrekeyBundle} : validatePrekeyBundle b = .ok () ↔ b.Accepted := by
  constructor
  · intro h
    simp only [validatePrekeyBundle] at h
    repeat' split at h
    all_goals first | cases h | skip
    rename_i key prekey sig number few
    obtain ⟨keys, distinct, _⟩ := checkOneTimePrekeys_ok.1 h
    exact ⟨by simpa using key, by simpa using prekey, by simpa using sig, number, by omega, keys, distinct⟩
  · rintro ⟨key, prekey, sig, number, few, keys, distinct⟩
    simp only [validatePrekeyBundle, key, prekey, sig, number, Nat.not_lt.2 few, Bool.true_eq_false, if_false]
    exact checkOneTimePrekeys_ok.2 ⟨keys, distinct, by simp⟩

theorem valid_of_checkBase64Len {s : Bytes} {want : Nat} (ok : checkBase64Len s want = true) : Utf8.Valid s :=
  Utf8.valid_ascii (Base64.decode_ascii (Bool.and_eq_true_iff.1 ok).1)

/-- An accepted bundle holds base64 text only. -/
theorem PrekeyBundle.Accepted.valid {b : PrekeyBundle} (ok : b.Accepted) : b.Valid where
  identityKey := valid_of_checkBase64Len ok.identityKey
  signedPrekey := valid_of_checkBase64Len ok.signedPrekey
  signedPrekeySig := valid_of_checkBase64Len ok.signedPrekeySig
  oneTimePrekeys k inside := valid_of_checkBase64Len (ok.keys k inside)

/-- A bundle stays accepted when prekeys are taken from its pool. -/
theorem PrekeyBundle.Accepted.drop {b : PrekeyBundle} (ok : b.Accepted) (n : Nat) :
    ({ b with oneTimePrekeys := b.oneTimePrekeys.drop n } : PrekeyBundle).Accepted where
  identityKey := ok.identityKey
  signedPrekey := ok.signedPrekey
  signedPrekeySig := ok.signedPrekeySig
  signedPrekeyID := ok.signedPrekeyID
  few := by
    have := ok.few
    rw [List.length_drop]
    omega
  keys k inside := ok.keys k (List.mem_of_mem_drop inside)
  distinct := by
    rw [List.map_drop]
    exact ok.distinct.sublist (List.drop_sublist _ _)

/-! ## The store -/

/-- `json.Marshal` of the bundle map. A bundle without one-time prekeys is written with `[]`; where the source's slice is
nil it writes `null`, which is read back as the same bundle. -/
def encodeBundles (m : Map PrekeyBundle) : Bytes := print (ofMap PrekeyBundle.toJson m)

/-- The map that a text holds, without its null entries; no map on an error. -/
def decodeBundles (text : Bytes) : Option (Map PrekeyBundle) :=
  let decoded := unmarshal (mapOf PrekeyBundle.decoder .zero) ∅ text
  if decoded.2 then some (present decoded.1) else none

/-- **Round trip.** A map of well-formed bundles under well-formed ids is read back. -/
theorem decodeBundles_encodeBundles {m : Map PrekeyBundle}
    (ok : ∀ (u : Bytes) (b : PrekeyBundle), m[u]? = some b → Utf8.Valid u ∧ b.Valid) :
    decodeBundles (encodeBundles m) = some m := by
  have read : present (mapOf PrekeyBundle.decoder .zero (clean (ofMap PrekeyBundle.toJson m)) ∅).1 = m ∧
      (mapOf PrekeyBundle.decoder .zero (clean (ofMap PrekeyBundle.toJson m)) ∅).2 = true :=
    mapOf_toJson (fun u b found => (ok u b found).1) fun u b found => PrekeyBundle.pointer_toJson (ok u b found).2
  have plain : Printable maxNesting (ofMap PrekeyBundle.toJson m) :=
    ofMap_printable fun b => b.toJson_printable 9996
  simp only [decodeBundles, encodeBundles, unmarshal_print _ _ plain, read.2, if_true, read.1]

/-- The bundles in memory, with the files that the store writes. -/
structure PrekeyStore where
  bundles : Map PrekeyBundle
  disk : Disk
  key : Block 32

namespace PrekeyStore

variable (A : Aead)

/-- Encrypts the bundle map and replaces the file; gives whether no call failed. -/
def persistLocked (ps : PrekeyStore) (io : PersistIo) : PrekeyStore × Bool :=
  let written := replaceFile ps.disk.dataFile (A.encrypt ps.key io.nonce (encodeBundles ps.bundles)) io
  ({ ps with disk := { ps.disk with dataFile := written.1 } }, written.2)

/-- Replaces the bundle of a user. A failing persist is reported, with the new bundle already in memory. -/
def registerBundle (ps : PrekeyStore) (userID : Bytes) (bundle : PrekeyBundle) (io : PersistIo) :
    PrekeyStore × Except String Unit :=
  if userID = [] then (ps, .error "empty user id")
  else
    match validatePrekeyBundle bundle with
    | .error e => (ps, .error e)
    | .ok () =>
      let written := persistLocked A { ps with bundles := ps.bundles.insert userID bundle } io
      (written.1, if written.2 then .ok () else .error systemError)

/-- The static part of a bundle. -/
def response (b : PrekeyBundle) : PrekeyResponse :=
  ⟨b.identityKey, b.signedPrekey, b.signedPrekeySig, b.signedPrekeyID, none⟩

/-- A bundle to serve; with `consumeOTPK`, the head of the pool is taken out and persisted at once. -/
def getBundleWithOTPK (ps : PrekeyStore) (userID : Bytes) (consumeOTPK : Bool) (io : PersistIo) :
    PrekeyStore × Option PrekeyResponse :=
  match ps.bundles[userID]? with
  | none => (ps, none)
  | some b =>
    match consumeOTPK, b.oneTimePrekeys with
    | true, consumed :: rest =>
      let ps := { ps with bundles := ps.bundles.insert userID { b with oneTimePrekeys := rest } }
      ((persistLocked A ps io).1, some { response b with oneTimePrekey := some consumed })
    | _, _ => (ps, some (response b))

def getBundle (ps : PrekeyStore) (userID : Bytes) (io : PersistIo) : PrekeyStore × Option PrekeyResponse :=
  getBundleWithOTPK A ps userID true io

/-- The identity key of a registered bundle. -/
def identityKeyOf (ps : PrekeyStore) (userID : Bytes) : Option Bytes := (ps.bundles[userID]?).map PrekeyBundle.identityKey

/-- Takes the head of the pool without serving the rest of the bundle. -/
def consumeOneTimePrekey (ps : PrekeyStore) (userID : Bytes) (io : PersistIo) : PrekeyStore × Option OneTimePrekey :=
  match ps.bundles[userID]? with
  | none => (ps, none)
  | some b =>
    match b.oneTimePrekeys with
    | [] => (ps, none)
    | consumed :: rest =>
      let ps := { ps with bundles := ps.bundles.insert userID { b with oneTimePrekeys := rest } }
      ((persistLocked A ps io).1, some consumed)

/-- The outcomes of the calls of `NewPrekeyStore`. -/
structure StartIo where
  mkdirFails : Bool
  key : KeyIo
  readFails : Bool

def StartIo.clean (fresh : Block 32) : StartIo := ⟨false, .clean fresh, false⟩

/-- Restores the map from the file; no file or an empty one is an empty map. -/
def loadFromDisk (ps : PrekeyStore) (readFails : Bool) : Except String PrekeyStore :=
  if readFails then .error systemError
  else
    match ps.disk.dataFile with
    | none => .ok ps
    | some [] => .ok ps
    | some data =>
      if data.length < 12 then .error "prekey file truncated"
      else
        match A.decrypt ps.key data with
        | none => .error "prekey authentication failed"
        | some plain =>
          match decodeBundles plain with
          | none => .error systemError
          | some bundles => .ok { ps with bundles }

/-- Starts a store on the files at its path: what is on disk afterwards, and the store. -/
def newPrekeyStore (disk : Disk) (io : StartIo) : Disk × Except String PrekeyStore :=
  if io.mkdirFails then (disk, .error systemError)
  else
    let key := loadOrCreateKey disk.keyFile io.key
    let disk := { disk with keyFile := key.1 }
    match key.2 with
    | .error e => (disk, .error e)
    | .ok key => (disk, loadFromDisk A { bundles := ∅, disk, key } io.readFails)

/-! ## What every stored map keeps -/

variable {A}

/-- The store after a call that serves a prekey: the same, or one pool is shorter by its head. -/
inductive Served (A : Aead) (ps : PrekeyStore) (userID : Bytes) (io : PersistIo) : PrekeyStore → Prop where
  | same : Served A ps userID io ps
  | popped {b : PrekeyBundle} {k : OneTimePrekey} {rest : List OneTimePrekey} (found : ps.bundles[userID]? = some b)
      (pool : b.oneTimePrekeys = k :: rest) : Served A ps userID io
        (persistLocked A { ps with bundles := ps.bundles.insert userID { b with oneTimePrekeys := rest } } io).1

theorem getBundleWithOTPK_served (ps : PrekeyStore) (userID : Bytes) (consumeOTPK : Bool) (io : PersistIo) :
    Served A ps userID io (getBundleWithOTPK A ps userID consumeOTPK io).1 := by
  unfold getBundleWithOTPK
  split
  · exact .same
  · rename_i b found
    split
    · rename_i pool
      exact .popped found pool
    · exact .same

theorem consumeOneTimePrekey_served (ps : PrekeyStore) (userID : Bytes) (io : PersistIo) :
    Served A ps userID io (consumeOneTimePrekey A ps userID io).1 := by
  unfold consumeOneTimePrekey
  split
  · exact .same
  · rename_i b found
    split
    · exact .same
    · rename_i pool
      exact .popped found pool

/-- A stored bundle is served, with a prekey or without. -/
theorem getBundleWithOTPK_found {ps : PrekeyStore} {userID : Bytes} {b : PrekeyBundle} (found : ps.bundles[userID]? = some b)
    (consumeOTPK : Bool) (io : PersistIo) :
    ∃ k, (getBundleWithOTPK A ps userID consumeOTPK io).2 = some { response b with oneTimePrekey := k } := by
  simp only [getBundleWithOTPK, found]
  split
  · exact ⟨_, rfl⟩
  · exact ⟨none, rfl⟩

theorem getBundleWithOTPK_missing {ps : PrekeyStore} {userID : Bytes} (missing : ps.bundles[userID]? = none)
    (consumeOTPK : Bool) (io : PersistIo) : getBundleWithOTPK A ps userID consumeOTPK io = (ps, none) := by
  simp only [getBundleWithOTPK, missing]

/-- What a call of `registerBundle` without an error says and does. -/
theorem registerBundle_ok {ps ps' : PrekeyStore} {userID : Bytes} {bundle : PrekeyBundle} {io : PersistIo}
    (h : registerBundle A ps userID bundle io = (ps', .ok ())) :
    userID ≠ [] ∧ bundle.Accepted ∧
      ps' = (persistLocked A { ps with bundles := ps.bundles.insert userID bundle } io).1 := by
  simp only [registerBundle] at h
  split at h
  · cases h
  · rename_i named
    split at h
    · cases h
    · rename_i valid
      exact ⟨named, validatePrekeyBundle_ok.1 valid, (Prod.mk.inj h).1.symm⟩

/-- Every entry of the map has a well-formed, non-empty id and a bundle that passed validation. -/
def Sound (m : Map PrekeyBundle) : Prop :=
  ∀ (u : Bytes) (b : PrekeyBundle), m[u]? = some b → u ≠ [] ∧ Utf8.Valid u ∧ b.Accepted

theorem sound_empty : Sound ∅ := by
  intro u b found
  rw [Map.get_empty] at found
  cases found

theorem Sound.insert {m : Map PrekeyBundle} (h : Sound m) {u : Bytes} {b : PrekeyBundle} (named : u ≠ [])
    (text : Utf8.Valid u) (ok : b.Accepted) : Sound (m.insert u b) := by
  intro u' b' found
  rw [Map.get_insert] at found
  split at found
  · rename_i same
    subst same
    cases found
    exact ⟨named, text, ok⟩
  · exact h u' b' found

/-- Taking the head of a pool keeps the map sound. -/
theorem Sound.pop {m : Map PrekeyBundle} (h : Sound m) {u : Bytes} {b : PrekeyBundle} {k : OneTimePrekey}
    {rest : List OneTimePrekey} (found : m[u]? = some b) (pool : b.oneTimePrekeys = k :: rest) :
    Sound (m.insert u { b with oneTimePrekeys := rest }) := by
  obtain ⟨named, text, ok⟩ := h u b found
  refine h.insert named text ?_
  have shorter := ok.drop 1
  rw [pool] at shorter
  exact shorter

theorem Sound.decode {m : Map PrekeyBundle} (h : Sound m) : decodeBundles (encodeBundles m) = some m :=
  decodeBundles_encodeBundles fun u b found => ⟨(h u b found).2.1, (h u b found).2.2.valid⟩

/-- A file written from a sound map is loaded as that map. -/
theorem loadFromDisk_image {ps : PrekeyStore} {m : Map PrekeyBundle} {nonce : Block 12} (h : Sound m)
    (file : ps.disk.dataFile = some (A.encrypt ps.key nonce (encodeBundles m))) :
    loadFromDisk A ps false = .ok { ps with bundles := m } := by
  have long : ¬ (A.encrypt ps.key nonce (encodeBundles m)).length < 12 := by
    simp only [Aead.encrypt, List.length_append, nonce.size]
    omega
  simp only [loadFromDisk, Bool.false_eq_true, if_false]
  split
  · rename_i missing
    rw [missing] at file
    cases file
  · rename_i empty
    rw [empty] at file
    exact absurd (Option.some.inj file).symm (Aead.encrypt_ne_nil _ _ _)
  · rename_i data _ found
    rw [found] at file
    cases file
    simp only [long, if_false, Aead.decrypt_encrypt, h.decode]

/-- The files hold the key and the map. -/
structure Stored (A : Aead) (disk : Disk) (key : Block 32) (m : Map PrekeyBundle) : Prop where
  keyFile : disk.keyFile = some key.bytes
  dataFile : (disk.dataFile = none ∧ m = ∅) ∨ ∃ nonce, disk.dataFile = some (A.encrypt key nonce (encodeBundles m))

/-- Reading the files of a map gives the map, unless the read fails. -/
theorem loadFromDisk_stored {disk : Disk} {key : Block 32} {m : Map PrekeyBundle} (h : Stored A disk key m) (sound : Sound m) (readFails : Bool) :
    loadFromDisk A ⟨∅, disk, key⟩ readFails = if readFails then .error systemError else .ok ⟨m, disk, key⟩ := by
  cases readFails with
  | true => rfl
  | false =>
    rcases h.dataFile with ⟨absent, rfl⟩ | ⟨nonce, file⟩
    · simp only [loadFromDisk, absent, Bool.false_eq_true, if_false]
    · exact loadFromDisk_image sound file

/-- A start on the files of a sound map gives that map back, unless a call fails. -/
theorem newPrekeyStore_written {disk : Disk} {key : Block 32} {m : Map PrekeyBundle} (h : Stored A disk key m)
    (sound : Sound m) {io : StartIo} (made : io.mkdirFails = false) (keyRead : io.key.readFails = false) :
    newPrekeyStore A disk io = (disk, if io.readFails then .error systemError else .ok ⟨m, disk, key⟩) := by
  have same : ({ disk with keyFile := some key.bytes } : Disk) = disk := by rw [← h.keyFile]
  simp only [newPrekeyStore, made, h.keyFile, loadOrCreateKey_some key keyRead, same, loadFromDisk_stored h sound,
    Bool.false_eq_true, if_false]

/-- **A start on the files of a sound map gives that map back.** -/
theorem newPrekeyStore_stored {disk : Disk} {key : Block 32} {m : Map PrekeyBundle} (h : Stored A disk key m)
    (sound : Sound m) (fresh : Block 32) : newPrekeyStore A disk (.clean fresh) = (disk, .ok ⟨m, disk, key⟩) :=
  newPrekeyStore_written h sound rfl rfl

/-- Any start on the files of a sound map that succeeds gives that map back. -/
theorem Stored.reloaded {disk : Disk} {key : Block 32} {m : Map PrekeyBundle} (h : Stored A disk key m) (sound : Sound m)
    {io : StartIo} {ps : PrekeyStore} (started : (newPrekeyStore A disk io).2 = .ok ps) : ps = ⟨m, disk, key⟩ := by
  cases made : io.mkdirFails with
  | true =>
    simp only [newPrekeyStore, made, if_true] at started
    cases started
  | false =>
    cases keyRead : io.key.readFails with
    | true =>
      simp only [newPrekeyStore, made, loadOrCreateKey, keyRead, Bool.false_eq_true, if_false, if_true] at started
      cases started
    | false =>
      rw [newPrekeyStore_written h sound made keyRead] at started
      dsimp only at started
      split at started
      · cases started
      · cases started
        rfl

/-- A first start has no bundles. -/
theorem newPrekeyStore_empty (fresh : Block 32) :
    newPrekeyStore A .empty (.clean fresh) = (⟨some fresh.bytes, none⟩, .ok ⟨∅, ⟨some fresh.bytes, none⟩, fresh⟩) := rfl

/-- Any start on no files that succeeds has no bundles, and has written a key. -/
theorem newPrekeyStore_first {disk : Disk} {io : StartIo} {ps : PrekeyStore}
    (started : newPrekeyStore A .empty io = (disk, .ok ps)) : ∃ key : Block 32, ps = ⟨∅, ⟨some key.bytes, none⟩, key⟩ := by
  unfold newPrekeyStore at started
  split at started
  · cases started
  cases made : loadOrCreateKey Disk.empty.keyFile io.key with
  | mk keyFile result =>
    rw [made] at started
    cases result with
    | error e => cases started
    | ok key =>
      have file := loadOrCreateKey_ok (congrArg Prod.snd made)
      rw [made] at file
      obtain rfl : keyFile = some key.bytes := file
      simp only [loadFromDisk, Disk.empty] at started
      split at started
      · cases started
      · cases started
        exact ⟨key, rfl⟩

/-! ## Stores that are in step with their files -/

/-- The bundles are sound and the files hold them. -/
structure InStep (A : Aead) (ps : PrekeyStore) : Prop where
  sound : Sound ps.bundles
  stored : Stored A ps.disk ps.key ps.bundles

namespace InStep

variable {ps : PrekeyStore}

theorem fresh (A : Aead) (key : Block 32) : InStep A ⟨∅, ⟨some key.bytes, none⟩, key⟩ :=
  ⟨sound_empty, rfl, .inl ⟨rfl, rfl⟩⟩

/-- A persist without a fault brings the files up to date. -/
theorem persist (h : InStep A ps) {m : Map PrekeyBundle} (sound : Sound m) {io : PersistIo} (clean : io.fault = none) :
    InStep A (persistLocked A { ps with bundles := m } io).1 := by
  refine ⟨sound, h.stored.keyFile, .inr ⟨io.nonce, ?_⟩⟩
  simp only [persistLocked, replaceFile, clean]

/-- A start on the files gives the store back. -/
theorem restart (h : InStep A ps) (fresh : Block 32) : newPrekeyStore A ps.disk (.clean fresh) = (ps.disk, .ok ps) :=
  newPrekeyStore_stored h.stored h.sound fresh

theorem registerBundle (h : InStep A ps) {userID : Bytes} {bundle : PrekeyBundle} {io : PersistIo} {ps' : PrekeyStore}
    (text : Utf8.Valid userID) (clean : io.fault = none)
    (answer : registerBundle A ps userID bundle io = (ps', .ok ())) : InStep A ps' := by
  obtain ⟨named, accepted, rfl⟩ := registerBundle_ok answer
  exact h.persist (h.sound.insert named text accepted) clean

theorem served (h : InStep A ps) {userID : Bytes} {io : PersistIo} (clean : io.fault = none) {ps' : PrekeyStore}
    (done : Served A ps userID io ps') : InStep A ps' := by
  cases done with
  | same => exact h
  | popped found pool => exact h.persist (h.sound.pop found pool) clean

theorem getBundleWithOTPK (h : InStep A ps) (userID : Bytes) (consume : Bool) {io : PersistIo} (clean : io.fault = none) :
    InStep A (ps.getBundleWithOTPK A userID consume io).1 :=
  h.served clean (getBundleWithOTPK_served ..)

/-- Any start on the files that succeeds gives the store back. -/
theorem reloaded (h : InStep A ps) {io : StartIo} {ps' : PrekeyStore}
    (started : (newPrekeyStore A ps.disk io).2 = .ok ps') : ps' = ps := h.stored.reloaded h.sound started

end InStep

/-! ## Stores whose file may lag behind -/

/-- The bundles are sound, and so is the map `m` that the files hold; a failed persist leaves the two apart. -/
structure Backed (A : Aead) (ps : PrekeyStore) (m : Map PrekeyBundle) : Prop where
  sound : Sound ps.bundles
  file : Sound m
  stored : Stored A ps.disk ps.key m

theorem InStep.backed {ps : PrekeyStore} (h : InStep A ps) : Backed A ps ps.bundles := ⟨h.sound, h.sound, h.stored⟩

namespace Backed

variable {ps ps' : PrekeyStore} {m : Map PrekeyBundle}

/-- A persist writes the map in memory, or fails and leaves the file as it was. -/
theorem persist (h : Backed A ps m) {new : Map PrekeyBundle} (sound : Sound new) (io : PersistIo) :
    Backed A (persistLocked A { ps with bundles := new } io).1 (if io.fault = none then new else m) := by
  obtain ⟨nonce, fault⟩ := io
  cases fault with
  | none => exact ⟨sound, sound, h.stored.keyFile, .inr ⟨nonce, rfl⟩⟩
  | some point => exact ⟨sound, h.file, h.stored.keyFile, h.stored.dataFile⟩

theorem reloaded (h : Backed A ps m) {io : StartIo} (started : (newPrekeyStore A ps.disk io).2 = .ok ps') :
    ps' = ⟨m, ps.disk, ps.key⟩ := h.stored.reloaded h.file started

theorem restart (h : Backed A ps m) (fresh : Block 32) :
    newPrekeyStore A ps.disk (.clean fresh) = (ps.disk, .ok ⟨m, ps.disk, ps.key⟩) :=
  newPrekeyStore_stored h.stored h.file fresh

theorem served (h : Backed A ps m) {userID : Bytes} {io : PersistIo} (done : Served A ps userID io ps') :
    Backed A ps' m ∨ Backed A ps' ps'.bundles := by
  cases done with
  | same => exact .inl h
  | popped found pool =>
    have written := h.persist (h.sound.pop found pool) io
    split at written
    · exact .inr written
    · exact .inl written

end Backed

/-- What a call of `registerBundle` does: it refuses and changes nothing, or stores the bundle and reports whether
that was persisted. -/
inductive Registered (A : Aead) (ps : PrekeyStore) (userID : Bytes) (bundle : PrekeyBundle) (io : PersistIo) :
    PrekeyStore × Except String Unit → Prop where
  | refused {e : String} (bad : userID = [] ∨ ¬ bundle.Accepted) : Registered A ps userID bundle io (ps, .error e)
  | stored (named : userID ≠ []) (accepted : bundle.Accepted) : Registered A ps userID bundle io
      ((persistLocked A { ps with bundles := ps.bundles.insert userID bundle } io).1,
        if io.fault = none then .ok () else .error systemError)

theorem registerBundle_cases (A : Aead) (ps : PrekeyStore) (userID : Bytes) (bundle : PrekeyBundle) (io : PersistIo) :
    Registered A ps userID bundle io (registerBundle A ps userID bundle io) := by
  unfold registerBundle
  split
  · rename_i empty
    exact .refused (.inl empty)
  · rename_i named
    cases checked : validatePrekeyBundle bundle with
    | error e =>
      refine .refused (.inr fun accepted => ?_)
      rw [validatePrekeyBundle_ok.2 accepted] at checked
      cases checked
    | ok =>
      have stored : Registered A ps userID bundle io _ := .stored named (validatePrekeyBundle_ok.1 checked)
      obtain ⟨nonce, fault⟩ := io
      cases fault with
      | none => exact stored
      | some point => exact stored

/-- Whatever becomes of a registration, the store stays backed by its file. -/
theorem Backed.registered {ps : PrekeyStore} {m : Map PrekeyBundle} (h : Backed A ps m) {userID : Bytes}
    (text : Utf8.Valid userID) {bundle : PrekeyBundle} {io : PersistIo} {answer : PrekeyStore × Except String Unit}
    (done : Registered A ps userID bundle io answer) : ∃ m', Backed A answer.1 m' := by
  cases done with
  | refused bad => exact ⟨m, h⟩
  | stored named accepted => exact ⟨_, h.persist (h.sound.insert named text accepted) io⟩

/-- A call without a failing persist changes nothing when it is refused. -/
theorem registerBundle_error {ps ps' : PrekeyStore} {userID : Bytes} {bundle : PrekeyBundle} {io : PersistIo} {e : String}
    (clean : io.fault = none) (h : registerBundle A ps userID bundle io = (ps', .error e)) : ps' = ps := by
  simp only [registerBundle] at h
  split at h
  · exact (Prod.mk.inj h).1.symm
  · split at h
    · exact (Prod.mk.inj h).1.symm
    · simp only [persistLocked, replaceFile, clean, if_true] at h
      cases (Prod.mk.inj h).2

/-- Taking a prekey leaves every identity key as it was. -/
theorem Served.identityKeyOf {ps ps' : PrekeyStore} {userID : Bytes} {io : PersistIo} (done : Served A ps userID io ps')
    (u : Bytes) : ps'.identityKeyOf u = ps.identityKeyOf u := by
  cases done with
  | same => rfl
  | popped found pool =>
    by_cases same : userID = u
    · subst same
      simp only [PrekeyStore.identityKeyOf, persistLocked, Map.get_insert_self, found, Option.map_some]
    · simp only [PrekeyStore.identityKeyOf, persistLocked, Map.get_insert_other _ _ (Ne.symm same)]

theorem identityKeyOf_getBundleWithOTPK (ps : PrekeyStore) (userID : Bytes) (consume : Bool) (io : PersistIo) (u : Bytes) :
    (ps.getBundleWithOTPK A userID consume io).1.identityKeyOf u = ps.identityKeyOf u :=
  (getBundleWithOTPK_served ..).identityKeyOf u

end PrekeyStore

end SpectreRelay.Server
