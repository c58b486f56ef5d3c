import SpectreRelay.Lib.Bag
import SpectreRelay.Server.CaRotation
import SpectreRelay.Server.Reference
import SpectreRelay.Server.Server

/-!
# Clients that pin the sealed-sender key

A client holds one of the keys generated so far (`Holds`), and gives it up only for
the next one. A genuine answer takes it from the previous key to the current one;
an answer that anyone made can do so only with a signature of the relay's, and the
relay signs two kinds of texts, the next public key and certificates, which are
longer than a key. So a client that fetches in each generation is never behind.
-/

namespace SpectreRelay.Server.CaRotation
set_option autoImplicit false
open Lib

/-- What `/sealed-ca` answers is what the relay's authority serves. -/
theorem handleSealedCA_served (s : Server) : s.handleSealedCA .get = some (State.served s.sealedCA) := rfl

section Assumptions

variable (E : Ed25519) (s : State)

/-- A generated key is none of the older ones. -/
def Fresh : Label → Prop
  | .start io => s.file = none → ∀ seed ∈ io.seed, ∀ old ∈ s.seeds, E.publicOf seed ≠ E.publicOf old
  | _ => True

/-- A signature that the client is shown and that verifies under a key of the relay was made with that key. -/
def Unforged : Label → Prop
  | .shown served => ∀ seed ∈ s.seeds,
      E.verify (E.publicOf seed).bytes (Base64.decode served.1).1 (Base64.decode served.2.2).1 = true →
        (E.privateKey seed, (Base64.decode served.1).1) ∈ s.signed
  | _ => True

instance Fresh.decide (l : Label) : Decidable (Fresh E s l) :=
  match l with
  | .start io => inferInstanceAs (Decidable (s.file = none → ∀ seed ∈ io.seed, ∀ old ∈ s.seeds, _))
  | .rotate | .certify .. | .fetch | .shown _ => .isTrue trivial

instance Unforged.decide (l : Label) : Decidable (Unforged E s l) :=
  match l with
  | .shown _ => inferInstanceAs (Decidable (∀ seed ∈ s.seeds, _ → _))
  | .start _ | .rotate | .certify .. | .fetch => .isTrue trivial

end Assumptions

variable {E : Ed25519}

/-! ## Answers -/

theorem State.accepts_eq_some {key pub : Bytes} {served : Bytes × Bytes × Bytes}
    (taken : State.accepts E key served = some pub) : pub = (Base64.decode served.1).1 ∧ pub.length = 32 ∧
      (Base64.decode served.2.1).1 = key ∧ E.verify key pub (Base64.decode served.2.2).1 = true := by
  unfold State.accepts at taken
  dsimp only at taken
  split at taken
  · rename_i valid
    cases taken
    exact ⟨rfl, valid.2.2⟩
  · cases taken

/-- The client keeps the key it is served. -/
theorem accepts_same (seed : Block 32) (older : List (Block 32)) :
    State.accepts E (E.publicOf seed).bytes (State.served (authority E seed older)) = none := by
  unfold State.accepts
  simp only [State.served, SealedCA.publicKeyB64, authority_pub, Base64.decode_encode, ne_eq, not_true_eq_false,
    false_and, and_false, if_false]

/-- A client that holds the previous key adopts the one it is served. -/
theorem accepts_next {seed prev : Block 32} (older : List (Block 32)) (fresh : E.publicOf seed ≠ E.publicOf prev) :
    State.accepts E (E.publicOf prev).bytes (State.served (authority E seed (prev :: older))) =
      some (E.publicOf seed).bytes := by
  have differ : (E.publicOf seed).bytes ≠ (E.publicOf prev).bytes := fun same => fresh (Block.eq_of_bytes same)
  have verified : E.verify (E.publicOf prev).bytes (E.publicOf seed).bytes
      (E.sign (E.privateKey prev) (E.publicOf seed).bytes) = true := E.verify_sign prev _
  unfold State.accepts
  simp only [State.served, SealedCA.publicKeyB64, authority_pub, authority_proof, Base64.decode_encode]
  rw [if_pos ⟨⟨trivial, trivial, trivial⟩, differ, (E.publicOf seed).size, trivial, verified⟩]

/-- A client that holds another key than the previous one fails closed. -/
theorem accepts_other {key : Bytes} {seed prev : Block 32} (older : List (Block 32)) (other : key ≠ (E.publicOf prev).bytes) :
    State.accepts E key (State.served (authority E seed (prev :: older))) = none := by
  unfold State.accepts
  simp only [State.served, authority_proof, Base64.decode_encode]
  rw [if_neg fun valid => other valid.2.2.2.1.symm]

/-! ## What the client holds -/

/-- The client holds the key of `seed`, and is at least as far as the generations it has fetched in without a gap. -/
structure Holds (E : Ed25519) (seeds : List (Block 32)) (pin : Pin) (seed : Block 32) (older : List (Block 32)) : Prop where
  place : seed :: older <:+ seeds
  key : pin.key = (E.publicOf seed).bytes
  since : pin.since ≤ older.length + 1
  bound : ∀ g ∈ pin.fetched, g ≤ seeds.length
  reach : ∀ m, (∀ g, pin.since ≤ g → g ≤ m → g ∈ pin.fetched) → m ≤ older.length + 1

namespace Holds

variable {seeds older : List (Block 32)} {pin : Pin} {seed : Block 32}

theorem first (seed : Block 32) (older : List (Block 32)) :
    Holds E (seed :: older) ⟨(E.publicOf seed).bytes, older.length + 1, [older.length + 1]⟩ seed older where
  place := List.suffix_rfl
  key := rfl
  since := Nat.le_refl _
  bound g inside := Nat.le_of_eq (List.mem_singleton.1 inside)
  reach m all := by
    refine Nat.le_of_not_lt fun beyond => ?_
    have := List.mem_singleton.1 (all (older.length + 2) (Nat.le_succ _) beyond)
    omega

theorem minted (h : Holds E seeds pin seed older) (new : Block 32) : Holds E (new :: seeds) pin seed older where
  place := h.place.trans (List.suffix_cons ..)
  key := h.key
  since := h.since
  bound g inside := Nat.le_succ_of_le (h.bound g inside)
  reach := h.reach

/-- The client goes on to the next key. -/
theorem next (h : Holds E seeds pin seed older) {new : Block 32} (place : new :: seed :: older <:+ seeds) :
    Holds E seeds { pin with key := (E.publicOf new).bytes } new (seed :: older) where
  place := place
  key := rfl
  since := Nat.le_succ_of_le h.since
  bound := h.bound
  reach m all := Nat.le_succ_of_le (h.reach m all)

/-- A fetch in the current generation, by a client that then holds its key or was two keys behind. -/
theorem fetch (h : Holds E seeds pin seed older)
    (place : older.length + 1 = seeds.length ∨ older.length + 2 < seeds.length) :
    Holds E seeds { pin with fetched := seeds.length :: pin.fetched } seed older where
  place := h.place
  key := h.key
  since := h.since
  bound g inside := by
    rcases List.mem_cons.1 inside with rfl | before
    · exact Nat.le_refl _
    · exact h.bound g before
  reach m all := by
    refine Nat.le_of_not_lt fun beyond => ?_
    have since := h.since
    rcases place with newest | behind
    · have inside := all (seeds.length + 1) (by show pin.since ≤ _; omega) (by omega)
      rcases List.mem_cons.1 inside with same | before
      · omega
      · have := h.bound _ before
        omega
    · -- the generation after the client's key is not the current one, so it had been fetched in before
      have := h.reach (older.length + 2) fun g from' upTo => by
        rcases List.mem_cons.1 (all g from' (by omega)) with rfl | before
        · omega
        · exact before
      omega

/-- A client that has fetched in every generation holds the newest key. -/
theorem newest (h : Holds E seeds pin seed older)
    (each : ∀ g, pin.since ≤ g → g ≤ seeds.length → g ∈ pin.fetched) : seeds = seed :: older :=
  (h.place.eq_of_length_le (h.reach _ each)).symm

end Holds

/-- The keys are distinct, the client holds one of them, and each key it gave up has signed the one it took. -/
structure Follows (E : Ed25519) (s : State) : Prop where
  distinct : (s.seeds.map E.publicOf).Nodup
  client : ∀ pin, s.client = some pin → ∃ seed older, Holds E s.seeds pin seed older
  adopted : ∀ p ∈ s.adopted, ∃ seed ∈ s.seeds, p.1 = (E.publicOf seed).bytes ∧ (E.privateKey seed, p.2) ∈ s.signed

namespace Follows

variable {s s' : State} {l : Label}

theorem init : Follows E State.init where
  distinct := List.nodup_nil
  client _ known := by cases known
  adopted _ inside := by cases inside

/-- More signatures change nothing for the client. -/
theorem signs (h : Follows E s) {t : State} (seeds : t.seeds = s.seeds) (client : t.client = s.client)
    (adopted : t.adopted = s.adopted) (signed : s.signed ⊆ t.signed) : Follows E t where
  distinct := by rw [seeds]; exact h.distinct
  client := by rw [client, seeds]; exact h.client
  adopted p inside := by
    rw [adopted] at inside
    obtain ⟨seed, known, gave, sig⟩ := h.adopted p inside
    exact ⟨seed, seeds ▸ known, gave, signed sig⟩

/-- The client keeps its key. -/
theorem keeps (h : Follows E s) {pin : Pin} {served : Bytes × Bytes × Bytes} {seed : Block 32} {older : List (Block 32)}
    (refused : State.accepts E pin.key served = none) (holds : Holds E s.seeds pin seed older) :
    Follows E (s.look E pin served) := by
  unfold State.look
  rw [refused]
  refine ⟨h.distinct, fun pin' known => ?_, h.adopted⟩
  cases known
  exact ⟨seed, older, holds⟩

/-- The client takes the key that the one it holds has signed. -/
theorem takes (h : Follows E s) {pin : Pin} {served : Bytes × Bytes × Bytes} {seed new : Block 32} {older : List (Block 32)}
    (taken : State.accepts E pin.key served = some (E.publicOf new).bytes) (key : pin.key = (E.publicOf seed).bytes)
    (next : Holds E s.seeds { pin with key := (E.publicOf new).bytes } new (seed :: older))
    (signed : (E.privateKey seed, (E.publicOf new).bytes) ∈ s.signed) : Follows E (s.look E pin served) := by
  unfold State.look
  rw [taken]
  refine ⟨h.distinct, fun pin' known => ?_, fun p inside => ?_⟩
  · cases known
    exact ⟨new, seed :: older, next⟩
  · rcases List.mem_cons.1 inside with rfl | before
    · exact ⟨seed, next.place.subset (List.mem_cons_of_mem _ List.mem_cons_self), key, signed⟩
    · exact h.adopted p before

/-- An answer that anyone made. -/
theorem shown (h : Follows E s) (kept : Kept E s) {pin : Pin} {served : Bytes × Bytes × Bytes}
    (known : s.client = some pin) (unforged : Unforged E s (.shown served)) : Follows E (s.look E pin served) := by
  obtain ⟨seed, older, holds⟩ := h.client pin known
  cases taken : State.accepts E pin.key served with
  | none => exact h.keeps taken holds
  | some pub =>
    obtain ⟨rfl, size, -, verified⟩ := State.accepts_eq_some taken
    rw [holds.key] at verified
    have signed := unforged seed (holds.place.subset List.mem_cons_self) verified
    -- of what the relay signs only the next key has the length of a key
    obtain ⟨new, prev, rest, part, sig⟩ := kept.signed _ signed size
    obtain ⟨priv, pub⟩ := Prod.mk.inj sig
    have same : E.publicOf seed = E.publicOf prev := by
      rw [← E.publicKey_privateKey seed, priv, E.publicKey_privateKey]
    cases suffix_unique h.distinct holds.place ((List.suffix_cons ..).trans part) same
    rw [pub] at taken signed
    exact h.takes taken holds.key (holds.next part) signed

/-- The answer of the relay. -/
theorem fetched (h : Follows E s) (kept : Kept E s) {ca : SealedCA} {pin : Pin} (up : s.ca = some ca)
    (known : s.client = some pin) :
    Follows E (s.look E { pin with fetched := s.generation :: pin.fetched } (State.served ca)) := by
  obtain ⟨newest, rest, seeds, rfl, endorsed⟩ := kept.running ca up
  obtain ⟨seed, older, holds⟩ := h.client pin known
  have size : rest.length + 1 = s.seeds.length := by rw [seeds, List.length_cons]
  have distinct := h.distinct
  have place := holds.place
  rw [seeds] at distinct place
  rcases List.suffix_cons_iff.1 place with same | before
  · obtain ⟨rfl, rfl⟩ := List.cons.inj same
    have refused : State.accepts E pin.key (State.served (authority E seed older)) = none := by
      rw [holds.key]
      exact accepts_same seed older
    exact h.keeps refused (holds.fetch (.inl size))
  · cases rest with
    | nil => cases List.suffix_nil.1 before
    | cons prev rest =>
      obtain ⟨fresh, distinct⟩ := List.nodup_cons.1 distinct
      rcases List.suffix_cons_iff.1 before with same | behind
      · obtain ⟨rfl, rfl⟩ := List.cons.inj same
        have taken : State.accepts E pin.key (State.served (authority E newest (seed :: older))) =
            some (E.publicOf newest).bytes := by
          rw [holds.key]
          exact accepts_next older fun same => fresh (same ▸ List.mem_cons_self)
        have part : newest :: seed :: older <:+ s.seeds := by rw [seeds]
        have next := (holds.next part).fetch (.inl size)
        exact h.takes taken holds.key next (endorsed List.mem_cons_self)
      · have refused : State.accepts E pin.key (State.served (authority E newest (prev :: rest))) = none := by
          rw [holds.key]
          refine accepts_other rest fun same => (List.nodup_cons.1 distinct).1 ?_
          rw [← Block.eq_of_bytes same]
          exact List.mem_map_of_mem (behind.subset List.mem_cons_self)
        have shorter := behind.length_le
        simp only [List.length_cons] at shorter size
        exact h.keeps refused (holds.fetch (.inr (by omega)))

theorem step (h : Follows E s) (kept : Kept E s) (intact : l.Intact) (fresh : Fresh E s l) (unforged : Unforged E s l)
    (next : s.step E l = some s') : Follows E s' := by
  cases kept.moves intact next with
  | failed => exact h.signs rfl rfl rfl (List.Subset.refl _)
  | @minted io seed absent drawn =>
    refine ⟨List.nodup_cons.2 ⟨fun inside => ?_, h.distinct⟩, fun pin known => ?_, fun p inside => ?_⟩
    · obtain ⟨old, known, same⟩ := List.mem_map.1 inside
      exact fresh absent seed drawn old known same.symm
    · obtain ⟨key, older, holds⟩ := h.client pin known
      exact ⟨key, older, holds.minted seed⟩
    · obtain ⟨key, known, gave, sig⟩ := h.adopted p inside
      exact ⟨key, List.mem_cons_of_mem _ known, gave, List.mem_append_right _ sig⟩
  | again _ _ => exact h.signs rfl rfl rfl (List.subset_append_right ..)
  | rotated _ => exact h.signs rfl rfl rfl (List.Subset.refl _)
  | certified _ _ => exact h.signs rfl rfl rfl (List.subset_cons_self ..)
  | @pinned ca up new =>
    obtain ⟨seed, older, seeds, rfl, -⟩ := kept.running ca up
    refine ⟨h.distinct, fun pin known => ⟨seed, older, ?_⟩, h.adopted⟩
    cases known
    show Holds E s.seeds ⟨(authority E seed older).pub.bytes, s.seeds.length, [s.seeds.length]⟩ seed older
    rw [seeds, authority_pub]
    exact .first seed older
  | fetched up known => exact h.fetched kept up known
  | shown known => exact h.shown kept known unforged

end Follows

/-! ## The chain -/

/-- What the client can rely on. -/
structure Pinning (s : State) : Prop where
  /-- A client that has fetched in each generation since its first holds the key that is published. -/
  current : ∀ pin, s.client = some pin → (∀ g, pin.since ≤ g → g ≤ s.generation → g ∈ pin.fetched) →
    ∃ ca, lastStart s.log = some ca ∧ pin.key = ca.pub.bytes
  /-- A key was adopted only when the private key of the one given up had signed it. -/
  authorised : ∀ key new, (key, new) ∈ s.adopted →
    ∃ priv, (Ed25519.publicKey priv).bytes = key ∧ (priv, new) ∈ s.signed

theorem Follows.pinning {s : State} (h : Follows E s) (kept : Kept E s) : Pinning s where
  current pin known each := by
    obtain ⟨seed, older, holds⟩ := h.client pin known
    have chained := kept.chained
    rw [holds.newest each] at chained
    exact ⟨_, chained.lastStart_newest, by rw [holds.key, authority_pub]⟩
  authorised key new inside := by
    obtain ⟨seed, -, gave, signed⟩ := h.adopted (key, new) inside
    exact ⟨E.privateKey seed, by rw [E.publicKey_privateKey]; exact gave.symm, signed⟩

/-- **The rotation chain.** In every sequence of starts and rotations, each start publishes the key and the proof
that the log of starts and rotations demands. If generated keys are distinct and the relay's signatures are not
forged, a client that follows the proofs holds the current key when it fetches in each generation, and adopts no key
that the one it held has not signed. -/
theorem rotation_chain (E : Ed25519) {labels : List Label} {s : State} (intact : ∀ l ∈ labels, l.Intact)
    (reached : run (State.step E) State.init labels = some s) :
    Published E s.log ∧ (Always (State.step E) (Fresh E) State.init labels →
      Always (State.step E) (Unforged E) State.init labels → Pinning s) := by
  have whole : Always (State.step E) (fun _ l => l.Intact) State.init labels := always_of_forall intact _
  have kept : Kept E s := run_invariant_under (fun _ _ _ h intact next => h.step intact next) Kept.init whole reached
  refine ⟨kept.chained.published, fun fresh unforged => ?_⟩
  have both : Kept E s ∧ Follows E s :=
    run_invariant_under (P := fun s => Kept E s ∧ Follows E s)
      (fun _ _ _ h met next => ⟨h.1.step met.1 next, h.2.step h.1 met.1 met.2.1 met.2.2 next⟩)
      ⟨Kept.init, Follows.init⟩ (whole.and (fresh.and unforged)) reached
  exact both.2.pinning both.1

/-- A block of equal bytes. -/
def filled (n : UInt8) : Block 32 := ⟨List.replicate 32 n, List.length_replicate⟩

/-- Three keys with a restart and a certificate; the client fetches in each generation, and is shown the second key
with a signature that is no proof. -/
def threeKeys : List Label :=
  [.start (.clean (filled 1)), .fetch, .rotate, .start (.clean (filled 2)),
    .start (.clean (filled 9)), .certify (ascii "ann") (ascii "ik") (ascii "a") Reference.start,
    .shown (Base64.encode (filled 2).bytes, Base64.encode (filled 1).bytes, Base64.encode [7]), .fetch, .rotate,
    .start (.clean (filled 3)), .fetch]

theorem rotation_chain_threeKeys :
    ∃ s, run (State.step Reference.ed25519) State.init threeKeys = some s ∧
      s.adopted = [((filled 2).bytes, (filled 3).bytes), ((filled 1).bytes, (filled 2).bytes)] ∧
      Published Reference.ed25519 s.log ∧ Pinning s := by
  have found : ((run (State.step Reference.ed25519) State.init threeKeys).map fun s => s.adopted) =
      some [((filled 2).bytes, (filled 3).bytes), ((filled 1).bytes, (filled 2).bytes)] := by decide +kernel
  obtain ⟨s, reached, adopted⟩ := Option.map_eq_some_iff.1 found
  obtain ⟨published, pinning⟩ := rotation_chain Reference.ed25519 (by decide) reached
  exact ⟨s, reached, adopted, published, pinning (by decide +kernel) (by decide +kernel)⟩

end SpectreRelay.Server.CaRotation
