import SpectreRelay.Lib.Runs
import SpectreRelay.Server.Prekeys
import SpectreRelay.Server.Reference

/-!
# The form of stored prekey bundles

Bundles are validated when they are registered and never again: the calls that take
a prekey shorten a pool, and a reload stores whatever the file says. Over every
sequence of calls and reloads the entries keep the form that validation demands,
and what is served is what the owner uploaded last (`Uploaded`).
-/

namespace SpectreRelay.Server.PrekeyForm
set_option autoImplicit false
open Lib PrekeyStore

/-! ## The form -/

/-- The text is standard base64 of `n` bytes. -/
def DecodesTo (s : Bytes) (n : Nat) : Prop := ∃ bytes, Base64.decode s = (bytes, true) ∧ bytes.length = n

/-- The form of a stored bundle. -/
structure WellFormed (b : PrekeyBundle) : Prop where
  identityKey : DecodesTo b.identityKey 32
  signedPrekey : DecodesTo b.signedPrekey 32
  signedPrekeySig : DecodesTo b.signedPrekeySig 64
  signedPrekeyID : b.signedPrekeyID ≠ 0
  few : b.oneTimePrekeys.length ≤ 100
  distinct : b.oneTimePrekeys.Pairwise fun k k' => k.id ≠ k'.id
  keys : ∀ k ∈ b.oneTimePrekeys, DecodesTo k.key 32

theorem decodesTo_iff {s : Bytes} {n : Nat} : DecodesTo s n ↔ checkBase64Len s n = true := by
  rw [checkBase64Len, Bool.and_eq_true, beq_iff_eq]
  constructor
  · rintro ⟨bytes, decoded, size⟩
    rw [decoded]
    exact ⟨rfl, size⟩
  · rintro ⟨ok, size⟩
    exact ⟨_, Prod.ext rfl ok, size⟩

/-- **Validation accepts the well-formed bundles and no others.** -/
theorem wellFormed_iff {b : PrekeyBundle} : WellFormed b ↔ b.Accepted := by
  constructor
  · intro h
    exact ⟨decodesTo_iff.1 h.identityKey, decodesTo_iff.1 h.signedPrekey, decodesTo_iff.1 h.signedPrekeySig,
      h.signedPrekeyID, h.few, fun k inside => decodesTo_iff.1 (h.keys k inside), List.pairwise_map.2 h.distinct⟩
  · intro h
    exact ⟨decodesTo_iff.2 h.identityKey, decodesTo_iff.2 h.signedPrekey, decodesTo_iff.2 h.signedPrekeySig,
      h.signedPrekeyID, h.few, List.pairwise_map.1 h.distinct, fun k inside => decodesTo_iff.2 (h.keys k inside)⟩

/-- A bundle outside the form is refused, and the store is as before. -/
theorem registerBundle_refused (A : Aead) (ps : PrekeyStore) {userID : Bytes} {bundle : PrekeyBundle} (io : PersistIo)
    (bad : userID = [] ∨ ¬ WellFormed bundle) : ∃ e, registerBundle A ps userID bundle io = (ps, .error e) := by
  unfold registerBundle
  split
  · exact ⟨_, rfl⟩
  · rename_i named
    cases checked : validatePrekeyBundle bundle with
    | error e => exact ⟨e, rfl⟩
    | ok =>
      have formed := wellFormed_iff.2 (validatePrekeyBundle_ok.1 checked)
      exact absurd formed (bad.resolve_left named)

/-! ## Calls and reloads -/

structure State where
  store : PrekeyStore
  /-- The last bundle that each user registered. -/
  uploads : Map PrekeyBundle

inductive Label where
  | registerBundle (userID : Bytes) (bundle : PrekeyBundle) (io : PersistIo)
  | getBundleWithOTPK (userID : Bytes) (consumeOTPK : Bool) (io : PersistIo)
  | consumeOneTimePrekey (userID : Bytes) (io : PersistIo)
  | identityKeyOf (userID : Bytes)
  | reload (io : StartIo)

/-- The user id of a registration is well-formed text, and no persist fails. -/
def Label.Plain : Label → Prop
  | registerBundle userID _ io => Utf8.Valid userID ∧ io.fault = none
  | getBundleWithOTPK _ _ io => io.fault = none
  | consumeOneTimePrekey _ io => io.fault = none
  | identityKeyOf _ => True
  | reload _ => True

instance Label.Plain.decide (l : Label) : Decidable l.Plain :=
  match l with
  | registerBundle .. => inferInstanceAs (Decidable (_ ∧ _))
  | getBundleWithOTPK _ _ io | consumeOneTimePrekey _ io => inferInstanceAs (Decidable (io.fault = none))
  | identityKeyOf _ | reload _ => .isTrue trivial

namespace State

variable (A : Aead)

/-- An empty store. -/
def init (key : Block 32) : State := ⟨⟨∅, ⟨some key.bytes, none⟩, key⟩, ∅⟩

def step (s : State) : Label → Option State
  | .registerBundle userID bundle io =>
    match s.store.registerBundle A userID bundle io with
    | (store, .ok ()) => some ⟨store, s.uploads.insert userID bundle⟩
    | (store, .error _) => some { s with store }
  | .getBundleWithOTPK userID consumeOTPK io =>
    some { s with store := (s.store.getBundleWithOTPK A userID consumeOTPK io).1 }
  | .consumeOneTimePrekey userID io => some { s with store := (s.store.consumeOneTimePrekey A userID io).1 }
  | .identityKeyOf _ => some s
  | .reload io =>
    match (newPrekeyStore A s.store.disk io).2 with
    | .ok store => some { s with store }
    | .error _ => none

end State

/-- The bundle is the upload with some of its prekeys taken. -/
def Left (upload b : PrekeyBundle) : Prop :=
  ∃ n, b = { upload with oneTimePrekeys := upload.oneTimePrekeys.drop n }

theorem Left.pop {upload b : PrekeyBundle} {k : OneTimePrekey} {rest : List OneTimePrekey} (h : Left upload b)
    (pool : b.oneTimePrekeys = k :: rest) : Left upload { b with oneTimePrekeys := rest } := by
  obtain ⟨n, rfl⟩ := h
  refine ⟨n + 1, ?_⟩
  rw [← List.drop_drop, show upload.oneTimePrekeys.drop n = k :: rest from pool]
  rfl

theorem Left.mem {upload b : PrekeyBundle} {k : OneTimePrekey} (h : Left upload b) (inside : k ∈ b.oneTimePrekeys) :
    k ∈ upload.oneTimePrekeys := by
  obtain ⟨n, rfl⟩ := h
  exact List.mem_of_mem_drop inside

/-- Each entry of the map is what is left of its owner's last upload. -/
def FromUploads (uploads : Bytes → Option PrekeyBundle) (m : Map PrekeyBundle) : Prop :=
  ∀ (u : Bytes) (b : PrekeyBundle), m[u]? = some b → ∃ upload, uploads u = some upload ∧ Left upload b

namespace FromUploads

variable {uploads uploads' : Bytes → Option PrekeyBundle} {m : Map PrekeyBundle}

theorem empty (uploads : Bytes → Option PrekeyBundle) : FromUploads uploads ∅ := by
  intro u b found
  rw [Map.get_empty] at found
  cases found

theorem pop (h : FromUploads uploads m) {userID : Bytes} {b : PrekeyBundle} {k : OneTimePrekey} {rest : List OneTimePrekey}
    (before : m[userID]? = some b) (pool : b.oneTimePrekeys = k :: rest) :
    FromUploads uploads (m.insert userID { b with oneTimePrekeys := rest }) := by
  intro u b' found
  rw [Map.get_insert] at found
  split at found
  · rename_i here
    subst here
    cases found
    obtain ⟨upload, known, left⟩ := h userID b before
    exact ⟨upload, known, left.pop pool⟩
  · exact h u b' found

/-- A user's new upload is stored. -/
theorem insert (h : FromUploads uploads m) {userID : Bytes} {bundle : PrekeyBundle} (new : uploads' userID = some bundle)
    (old : ∀ u, u ≠ userID → uploads' u = uploads u) : FromUploads uploads' (m.insert userID bundle) := by
  intro u b found
  rw [Map.get_insert] at found
  split at found
  · rename_i here
    subst here
    cases found
    exact ⟨bundle, new, 0, rfl⟩
  · rename_i other
    rw [old u (Ne.symm other)]
    exact h u b found

/-- The uploads as a map. -/
theorem insert_map {known : Map PrekeyBundle} (h : FromUploads (fun u => known[u]?) m) (userID : Bytes)
    (bundle : PrekeyBundle) : FromUploads (fun u => (known.insert userID bundle)[u]?) (m.insert userID bundle) :=
  h.insert (Map.get_insert_self _ _ _) fun _ other => Map.get_insert_other _ _ other

end FromUploads

/-- The store is in step with its files, and each entry is what is left of its owner's last upload. -/
structure Uploaded (A : Aead) (s : State) : Prop where
  inStep : InStep A s.store
  left : ∀ (u : Bytes) (b : PrekeyBundle), s.store.bundles[u]? = some b → ∃ upload, s.uploads[u]? = some upload ∧ Left upload b

namespace Uploaded

variable {A : Aead} {s s' : State} {l : Label}

theorem init (key : Block 32) : Uploaded A (State.init key) where
  inStep := .fresh A key
  left := FromUploads.empty _

theorem served (h : Uploaded A s) {userID : Bytes} {io : PersistIo} (clean : io.fault = none) {ps : PrekeyStore}
    (done : Served A s.store userID io ps) : Uploaded A { s with store := ps } := by
  refine ⟨h.inStep.served clean done, ?_⟩
  cases done with
  | same => exact h.left
  | popped before pool => exact FromUploads.pop h.left before pool

theorem registerBundle (h : Uploaded A s) {userID : Bytes} {bundle : PrekeyBundle} {io : PersistIo}
    (text : Utf8.Valid userID) (clean : io.fault = none) {store : PrekeyStore}
    (answer : s.store.registerBundle A userID bundle io = (store, .ok ())) :
    Uploaded A ⟨store, s.uploads.insert userID bundle⟩ := by
  refine ⟨h.inStep.registerBundle text clean answer, ?_⟩
  obtain ⟨-, -, rfl⟩ := registerBundle_ok answer
  exact FromUploads.insert_map h.left userID bundle

theorem step (h : Uploaded A s) (plain : l.Plain) (next : s.step A l = some s') : Uploaded A s' := by
  cases l with
  | registerBundle userID bundle io =>
    simp only [State.step] at next
    split at next
    · rename_i store answer
      cases next
      exact h.registerBundle plain.1 plain.2 answer
    · rename_i store e answer
      cases next
      rw [registerBundle_error plain.2 answer]
      exact h
  | getBundleWithOTPK userID consumeOTPK io =>
    cases next
    exact h.served plain (getBundleWithOTPK_served ..)
  | consumeOneTimePrekey userID io =>
    cases next
    exact h.served plain (consumeOneTimePrekey_served ..)
  | identityKeyOf userID =>
    cases next
    exact h
  | reload io =>
    simp only [State.step] at next
    split at next
    · rename_i store started
      cases next
      rw [h.inStep.reloaded started]
      exact h
    · cases next

end Uploaded

/-! ## What is stored and served -/

/-- The response has the form of a stored bundle, and its parts are those of the upload. -/
structure Carries (upload : PrekeyBundle) (r : PrekeyResponse) : Prop where
  formed : WellFormed ⟨r.identityKey, r.signedPrekey, r.signedPrekeySig, r.signedPrekeyID, r.oneTimePrekey.toList⟩
  identityKey : r.identityKey = upload.identityKey
  signedPrekey : r.signedPrekey = upload.signedPrekey
  signedPrekeySig : r.signedPrekeySig = upload.signedPrekeySig
  signedPrekeyID : r.signedPrekeyID = upload.signedPrekeyID
  oneTimePrekey : ∀ k, r.oneTimePrekey = some k → k ∈ upload.oneTimePrekeys

/-- What is served from a stored bundle. -/
theorem Left.carries {upload b : PrekeyBundle} (h : Left upload b) (formed : WellFormed b) {k : Option OneTimePrekey}
    (inside : ∀ key, k = some key → key ∈ b.oneTimePrekeys) : Carries upload { response b with oneTimePrekey := k } := by
  have pool : WellFormed { b with oneTimePrekeys := k.toList } := by
    refine ⟨formed.identityKey, formed.signedPrekey, formed.signedPrekeySig, formed.signedPrekeyID, ?_, ?_, ?_⟩
    · cases k with
      | none => exact Nat.zero_le _
      | some key => exact Nat.le_add_left 1 99
    · cases k with
      | none => exact .nil
      | some key => exact List.pairwise_singleton ..
    · intro key listed
      exact formed.keys key (inside key (Option.mem_toList.1 listed))
  have member := fun key found => h.mem (inside key found)
  obtain ⟨n, rfl⟩ := h
  exact ⟨pool, rfl, rfl, rfl, rfl, member⟩

/-- **What the store holds and serves.** -/
structure Represents (A : Aead) (s : State) : Prop where
  entries : ∀ (u : Bytes) (b : PrekeyBundle), s.store.bundles[u]? = some b → u ≠ [] ∧ WellFormed b
  bundles : ∀ u consumeOTPK io r, (s.store.getBundleWithOTPK A u consumeOTPK io).2 = some r →
    ∃ upload, s.uploads[u]? = some upload ∧ Carries upload r
  prekeys : ∀ u io k, (s.store.consumeOneTimePrekey A u io).2 = some k →
    DecodesTo k.key 32 ∧ ∃ upload, s.uploads[u]? = some upload ∧ k ∈ upload.oneTimePrekeys
  identityKeys : ∀ u ik, s.store.identityKeyOf u = some ik →
    DecodesTo ik 32 ∧ ∃ upload, s.uploads[u]? = some upload ∧ ik = upload.identityKey
  refused : ∀ u b io, u = [] ∨ ¬ WellFormed b → ∃ e, s.store.registerBundle A u b io = (s.store, .error e)

theorem represents_of {A : Aead} {s : State} (sound : Sound s.store.bundles)
    (uploaded : FromUploads (fun u => s.uploads[u]?) s.store.bundles) : Represents A s := by
  have formed : ∀ (u : Bytes) (b : PrekeyBundle), s.store.bundles[u]? = some b → u ≠ [] ∧ WellFormed b := fun u b found =>
    have ⟨named, _, accepted⟩ := sound u b found
    ⟨named, wellFormed_iff.2 accepted⟩
  refine ⟨formed, fun u consumeOTPK io r answer => ?_, fun u io k answer => ?_, fun u ik answer => ?_,
    fun u b io bad => registerBundle_refused A s.store io bad⟩
  · unfold PrekeyStore.getBundleWithOTPK at answer
    split at answer
    · cases answer
    · rename_i b found
      obtain ⟨upload, known, left⟩ := uploaded u b found
      refine ⟨upload, known, ?_⟩
      split at answer
      · rename_i consumed rest pool
        cases answer
        refine left.carries (formed u b found).2 fun key same => ?_
        cases same
        rw [pool]
        exact List.mem_cons_self
      · cases answer
        exact left.carries (formed u b found).2 fun key none => by cases none
  · unfold PrekeyStore.consumeOneTimePrekey at answer
    split at answer
    · cases answer
    · rename_i b found
      split at answer
      · cases answer
      · rename_i consumed rest pool
        cases answer
        have inside : k ∈ b.oneTimePrekeys := by rw [pool]; exact List.mem_cons_self
        obtain ⟨upload, known, left⟩ := uploaded u b found
        exact ⟨(formed u b found).2.keys k inside, upload, known, left.mem inside⟩
  · obtain ⟨b, found, rfl⟩ := Option.map_eq_some_iff.1 answer
    obtain ⟨upload, known, n, rfl⟩ := uploaded u b found
    exact ⟨(formed u _ found).2.identityKey, upload, known, rfl⟩

theorem Uploaded.represents {A : Aead} {s : State} (h : Uploaded A s) : Represents A s :=
  represents_of h.inStep.sound h.left

/-- **The representation invariant.** From an empty store, whatever is registered, taken and reloaded: the entries are
well formed, what is served is well formed and from its owner's last upload, and a refused bundle changes nothing. -/
theorem store_represents (A : Aead) (key : Block 32) {labels : List Label} {s : State} (plain : ∀ l ∈ labels, l.Plain)
    (reached : run (State.step A) (State.init key) labels = some s) : Represents A s :=
  (run_invariant_under (fun _ _ _ h plain next => Uploaded.step h plain next) (Uploaded.init key)
    (always_of_forall plain _) reached).represents

/-- Ann registers a bundle and then one without a signed prekey; two prekeys are taken, with a reload between them. -/
def twoTaken : List Label :=
  [.registerBundle (ascii "ann") Reference.bundle (.clean (.zeros 12)),
    .registerBundle (ascii "ann") { Reference.bundle with signedPrekeyID := 0 } (.clean (.zeros 12)),
    .getBundleWithOTPK (ascii "ann") true (.clean (.zeros 12)), .reload (.clean (.zeros 32)),
    .consumeOneTimePrekey (ascii "ann") (.clean (.zeros 12))]

theorem store_represents_twoTaken :
    ∃ s, run (State.step .clear) (State.init (.zeros 32)) twoTaken = some s ∧
      ((s.store.bundles[ascii "ann"]?).map fun b => b.oneTimePrekeys.map OneTimePrekey.id) = some [3] ∧
      Represents .clear s := by
  have found : ((run (State.step .clear) (State.init (.zeros 32)) twoTaken).map fun s =>
      (s.store.bundles[ascii "ann"]?).map fun b => b.oneTimePrekeys.map OneTimePrekey.id) = some (some [3]) := by
    decide +kernel
  obtain ⟨s, reached, left⟩ := Option.map_eq_some_iff.1 found
  exact ⟨s, reached, left, store_represents .clear (.zeros 32) (by decide +kernel) reached⟩

end SpectreRelay.Server.PrekeyForm
