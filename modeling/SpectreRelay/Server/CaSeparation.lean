import SpectreRelay.Server.CaPinning

/-!
# The two kinds of texts that the sealed-sender key signs

One private key signs certificates, whose text holds strings of a client's choice, and
at a start after a rotation the next public key. Nothing in a text says of which kind it
is, but a certificate is longer than a public key. So no certificate passes for a
rotation, whatever the files, the clients and the operator do, and a client that pinned a
key is moved only to keys that `NewSealedCA` itself has signed.
-/

namespace SpectreRelay.Server.CaRotation
set_option autoImplicit false
open Lib

/-- The relay and its client, with the signatures made so far apart by the call that made them. -/
structure Ledger where
  relay : State
  /-- By `IssueCert`. -/
  certificates : List (Block 64 × Bytes)
  /-- By `NewSealedCA`. -/
  rotations : List (Block 64 × Bytes)

/-- The public keys of the starts of a log. -/
def publishedKeys (log : List Event) : List (Block 32) :=
  log.filterMap fun
    | .started ca => some ca.pub
    | .rotated => none

theorem publishedKeys_started (ca : SealedCA) (log : List Event) :
    publishedKeys (.started ca :: log) = ca.pub :: publishedKeys log := rfl

section Machine

variable (E : Ed25519)

namespace State

/-- What a step signs as a certificate. -/
def certifies (s : State) : Label → List (Block 64 × Bytes)
  | .certify uid identityKeyB64 issuer now =>
    (s.ca.map fun ca => (ca.priv, (ca.issueCert E uid identityKeyB64 issuer now).1)).toList
  | _ => []

/-- What a step signs as a rotation: the public key of the authority that a start makes, with the key at `<path>.prev`. -/
def endorses (s : State) : Label → List (Block 64 × Bytes)
  | .start io =>
    match (SealedCA.newSealedCA E s.file s.prev io).2 with
    | .error _ => []
    | .ok ca => ((SealedCA.readPrevKey s.prev io.prevReadFails).map fun prevPriv => (prevPriv, ca.pub.bytes)).toList
  | _ => []

end State

namespace Ledger

def init : Ledger := ⟨.init, [], []⟩

def step (t : Ledger) (l : Label) : Option Ledger :=
  (t.relay.step E l).map fun s => ⟨s, t.relay.certifies E l ++ t.certificates, t.relay.endorses E l ++ t.rotations⟩

end Ledger

/-- A signature that the client is shown and that verifies under a key the relay has published was made with the
private key of that key. -/
def Genuine (t : Ledger) : Label → Prop
  | .shown served => ∀ key ∈ publishedKeys t.relay.log,
      E.verify key.bytes (Base64.decode served.1).1 (Base64.decode served.2.2).1 = true →
        ∃ p ∈ t.relay.signed, Ed25519.publicKey p.1 = key ∧ p.2 = (Base64.decode served.1).1
  | _ => True

instance Genuine.decide (t : Ledger) (l : Label) : Decidable (Genuine E t l) :=
  match l with
  | .shown _ => inferInstanceAs (Decidable (∀ key ∈ publishedKeys t.relay.log, _ → ∃ p ∈ t.relay.signed, _))
  | .start _ | .rotate | .certify .. | .fetch => .isTrue trivial

end Machine

variable {E : Ed25519}

/-- No certificate is a public key, whatever its strings are. -/
theorem issueCert_ne_key (ca : SealedCA) (uid identityKeyB64 issuer : Bytes) (now : Time) (key : Block 32) :
    (ca.issueCert E uid identityKeyB64 issuer now).1 ≠ key.bytes := by
  intro same
  have long : 32 < (ca.issueCert E uid identityKeyB64 issuer now).1.length := SenderCert.marshal_length _
  rw [same, key.size] at long
  omega

/-! ## The signatures -/

/-- What the signatures made so far are. -/
structure Parted (t : Ledger) : Prop where
  certificate : ∀ p ∈ t.certificates, 32 < p.2.length
  rotation : ∀ p ∈ t.rotations, ∃ key ∈ publishedKeys t.relay.log, p.2 = key.bytes
  signed : ∀ p, p ∈ t.relay.signed ↔ p ∈ t.certificates ∨ p ∈ t.rotations
  /-- The proof that the running relay serves was made by a start. -/
  running : ∀ ca, t.relay.ca = some ca → ca.pub ∈ publishedKeys t.relay.log ∧
    ∀ prev, ca.prevPub = some prev → ∃ priv, Ed25519.publicKey priv = prev ∧ (priv, ca.pub.bytes) ∈ t.rotations

namespace Parted

variable {t : Ledger}

theorem init : Parted Ledger.init where
  certificate _ inside := by cases inside
  rotation _ inside := by cases inside
  signed p := by
    constructor
    · intro inside; cases inside
    · rintro (inside | inside) <;> cases inside
  running _ up := by cases up

/-- A start signs the key of its authority, if anything. -/
theorem started (h : Parted t) {file : Option Bytes} {io : SealedCA.StartIo} {ca : SealedCA} (seeds : List (Block 32))
    (made : (SealedCA.newSealedCA E t.relay.file t.relay.prev io).2 = .ok ca) :
    let signs := ((SealedCA.readPrevKey t.relay.prev io.prevReadFails).map fun prevPriv => (prevPriv, ca.pub.bytes)).toList
    Parted ⟨{ t.relay with file, ca := some ca, seeds, signed := signs ++ t.relay.signed,
                           log := .started ca :: t.relay.log }, t.certificates, signs ++ t.rotations⟩ := by
  obtain ⟨priv, pub, rfl⟩ := SealedCA.newSealedCA_ok made
  refine ⟨h.certificate, fun p inside => ?_, fun p => ?_, fun ca up => ?_⟩
  · simp only [publishedKeys_started]
    rcases List.mem_append.1 inside with new | old
    · obtain ⟨prevPriv, -, rfl⟩ := Option.map_eq_some_iff.1 (Option.mem_toList.1 new)
      exact ⟨_, List.mem_cons_self, rfl⟩
    · obtain ⟨key, known, same⟩ := h.rotation p old
      exact ⟨key, List.mem_cons_of_mem _ known, same⟩
  · simp only [List.mem_append, h.signed p]
    tauto
  · cases up
    refine ⟨List.mem_cons_self, fun prev proof => ?_⟩
    cases read : SealedCA.readPrevKey t.relay.prev io.prevReadFails with
    | none => rw [read] at proof; cases proof
    | some prevPriv =>
      rw [read] at proof
      cases proof
      exact ⟨prevPriv, rfl, List.mem_append_left _ (by simp)⟩

theorem certified (h : Parted t) (priv : Block 64) {cert : Bytes} (long : 32 < cert.length) :
    Parted ⟨{ t.relay with signed := (priv, cert) :: t.relay.signed }, (priv, cert) :: t.certificates, t.rotations⟩ where
  certificate p inside := by
    rcases List.mem_cons.1 inside with rfl | old
    · exact long
    · exact h.certificate p old
  rotation := h.rotation
  signed p := by
    simp only [List.mem_cons, h.signed p]
    tauto
  running := h.running

/-- What the client does leaves the signatures as they are. -/
theorem look (h : Parted t) (pin : Pin) (served : Bytes × Bytes × Bytes) :
    Parted ⟨t.relay.look E pin served, t.certificates, t.rotations⟩ := by
  unfold State.look
  split
  · exact ⟨h.certificate, h.rotation, h.signed, h.running⟩
  · exact ⟨h.certificate, h.rotation, h.signed, h.running⟩

theorem step (h : Parted t) {l : Label} {t' : Ledger} (next : t.step E l = some t') : Parted t' := by
  obtain ⟨s, moved, rfl⟩ := Option.map_eq_some_iff.1 next
  cases l with
  | start io =>
    cases made : SealedCA.newSealedCA E t.relay.file t.relay.prev io with
    | mk file result =>
      cases result with
      | error e =>
        simp only [State.step, made, Option.some.injEq] at moved
        simp only [State.endorses, made]
        subst moved
        exact ⟨h.certificate, h.rotation, h.signed, fun _ up => by cases up⟩
      | ok ca =>
        simp only [State.step, made, Option.some.injEq] at moved
        simp only [State.endorses, made]
        subst moved
        exact h.started _ (by rw [made])
  | rotate =>
    simp only [State.step] at moved
    split at moved
    · cases moved
    · cases moved
      exact ⟨h.certificate, h.rotation, h.signed, h.running⟩
  | certify uid identityKeyB64 issuer now =>
    simp only [State.step] at moved
    split at moved
    · cases moved
    · rename_i ca up
      have signs : t.relay.certifies E (.certify uid identityKeyB64 issuer now) =
          [(ca.priv, (ca.issueCert E uid identityKeyB64 issuer now).1)] := by
        simp only [State.certifies, up, Option.map_some, Option.toList_some]
      rw [signs]
      cases moved
      exact h.certified ca.priv (SenderCert.marshal_length _)
  | fetch =>
    simp only [State.step] at moved
    split at moved
    · cases moved
    · cases moved
      exact ⟨h.certificate, h.rotation, h.signed, h.running⟩
    · cases moved
      exact h.look _ _
  | shown served =>
    obtain ⟨pin, -, rfl⟩ := Option.map_eq_some_iff.1 moved
    exact h.look pin served

/-- A text of the length of a key that was signed was signed as a rotation. -/
theorem rotation_of_length (h : Parted t) {p : Block 64 × Bytes} (signed : p ∈ t.relay.signed) (size : p.2.length = 32) :
    p ∈ t.rotations := by
  rcases (h.signed p).1 signed with certificate | rotation
  · have long := h.certificate p certificate
    omega
  · exact rotation

theorem separate (h : Parted t) {p q : Block 64 × Bytes} (certificate : p ∈ t.certificates) (rotation : q ∈ t.rotations) :
    p.2 ≠ q.2 := by
  obtain ⟨key, -, text⟩ := h.rotation q rotation
  intro same
  have long := h.certificate p certificate
  rw [same, text, key.size] at long
  omega

end Parted

/-! ## The client -/

/-- A client that adopts the key it is served held the previous one. -/
theorem accepts_served {ca : SealedCA} {key pub : Bytes} (taken : State.accepts E key (State.served ca) = some pub)
    (size : key.length = 32) : ∃ prev, ca.prevPub = some prev ∧ prev.bytes = key ∧ pub = ca.pub.bytes := by
  obtain ⟨rfl, -, same, -⟩ := State.accepts_eq_some taken
  have empty : (Base64.decode ([] : Bytes)).1 ≠ key := by
    intro none
    rw [← none] at size
    cases size
  simp only [State.served, SealedCA.rotationProofB64] at same
  cases proof : ca.prevPub with
  | none =>
    simp only [proof] at same
    exact absurd same empty
  | some prev =>
    simp only [proof] at same
    split at same
    · exact absurd same empty
    · rw [Base64.decode_encode] at same
      refine ⟨prev, rfl, same, ?_⟩
      rw [State.served, SealedCA.publicKeyB64, Base64.decode_encode]

/-- The client holds a key that the relay has published, and each key it adopted was signed as a rotation by the one
it gave up. -/
structure Moved (t : Ledger) : Prop where
  client : ∀ pin, t.relay.client = some pin → ∃ key ∈ publishedKeys t.relay.log, pin.key = key.bytes
  adopted : ∀ key new, (key, new) ∈ t.relay.adopted → ∃ priv, (Ed25519.publicKey priv).bytes = key ∧ (priv, new) ∈ t.rotations

namespace Moved

variable {t t' : Ledger}

theorem init : Moved Ledger.init where
  client _ known := by cases known
  adopted _ _ inside := by cases inside

/-- More keys and signatures change nothing for the client. -/
theorem grows (h : Moved t) (client : t'.relay.client = t.relay.client) (adopted : t'.relay.adopted = t.relay.adopted)
    (keys : publishedKeys t.relay.log ⊆ publishedKeys t'.relay.log) (rotations : t.rotations ⊆ t'.rotations) : Moved t' where
  client pin known := by
    rw [client] at known
    obtain ⟨key, listed, same⟩ := h.client pin known
    exact ⟨key, keys listed, same⟩
  adopted key new inside := by
    rw [adopted] at inside
    obtain ⟨priv, gave, signed⟩ := h.adopted key new inside
    exact ⟨priv, gave, rotations signed⟩

/-- The client looks at an answer, and a key that it accepts was signed as a rotation by the one it holds. -/
theorem look (h : Moved t) (parted : Parted t) {pin : Pin} {served : Bytes × Bytes × Bytes}
    (holds : ∃ key ∈ publishedKeys t.relay.log, pin.key = key.bytes)
    (backed : ∀ pub, State.accepts E pin.key served = some pub →
      ∃ priv, (Ed25519.publicKey priv).bytes = pin.key ∧ (priv, pub) ∈ t.rotations) :
    Moved ⟨t.relay.look E pin served, t.certificates, t.rotations⟩ := by
  unfold State.look
  cases taken : State.accepts E pin.key served with
  | none =>
    refine ⟨fun pin' known => ?_, h.adopted⟩
    cases known
    exact holds
  | some pub =>
    obtain ⟨priv, gave, signed⟩ := backed pub taken
    refine ⟨fun pin' known => ?_, fun key new inside => ?_⟩
    · cases known
      exact parted.rotation _ signed
    · rcases List.mem_cons.1 inside with same | before
      · obtain ⟨rfl, rfl⟩ := Prod.mk.inj same
        exact ⟨priv, gave, signed⟩
      · exact h.adopted key new before

/-- The relay's own answer: the proof that it serves was signed at its start. -/
theorem fetched (h : Moved t) (parted : Parted t) {ca : SealedCA} {pin : Pin} (fetched : List Nat)
    (up : t.relay.ca = some ca) (known : t.relay.client = some pin) :
    Moved ⟨t.relay.look E { pin with fetched } (State.served ca), t.certificates, t.rotations⟩ := by
  obtain ⟨key, listed, holds⟩ := h.client pin known
  refine h.look parted ⟨key, listed, holds⟩ fun pub taken => ?_
  obtain ⟨prev, proof, same, rfl⟩ := accepts_served taken (by rw [holds]; exact key.size)
  obtain ⟨priv, pair, signed⟩ := (parted.running ca up).2 prev proof
  exact ⟨priv, by rw [pair, same], signed⟩

/-- An answer that anyone made. -/
theorem shown (h : Moved t) (parted : Parted t) {pin : Pin} {served : Bytes × Bytes × Bytes}
    (known : t.relay.client = some pin) (genuine : Genuine E t (.shown served)) :
    Moved ⟨t.relay.look E pin served, t.certificates, t.rotations⟩ := by
  obtain ⟨key, listed, holds⟩ := h.client pin known
  refine h.look parted ⟨key, listed, holds⟩ fun pub taken => ?_
  obtain ⟨rfl, size, -, verified⟩ := State.accepts_eq_some taken
  rw [holds] at verified
  obtain ⟨p, signed, pair, text⟩ := genuine key listed verified
  -- the text shown has the length of a key, which no certificate has
  have rotation := parted.rotation_of_length signed (by rw [text]; exact size)
  refine ⟨p.1, by rw [pair, holds], ?_⟩
  rw [← text]
  exact rotation

theorem step (h : Moved t) (parted : Parted t) {l : Label} (genuine : Genuine E t l) (next : t.step E l = some t') :
    Moved t' := by
  obtain ⟨s, moved, rfl⟩ := Option.map_eq_some_iff.1 next
  cases l with
  | start io =>
    simp only [State.step] at moved
    split at moved
    · cases moved
      exact h.grows rfl rfl (List.Subset.refl _) (List.subset_append_right ..)
    · cases moved
      exact h.grows rfl rfl (List.subset_cons_self ..) (List.subset_append_right ..)
  | rotate =>
    simp only [State.step] at moved
    split at moved
    · cases moved
    · cases moved
      exact h.grows rfl rfl (List.Subset.refl _) (List.Subset.refl _)
  | certify uid identityKeyB64 issuer now =>
    simp only [State.step] at moved
    split at moved
    · cases moved
    · cases moved
      exact h.grows rfl rfl (List.Subset.refl _) (List.Subset.refl _)
  | fetch =>
    simp only [State.step] at moved
    split at moved
    · cases moved
    · rename_i ca up new
      cases moved
      refine ⟨fun pin known => ?_, h.adopted⟩
      cases known
      exact ⟨ca.pub, (parted.running ca up).1, by rw [SealedCA.publicKeyB64, Base64.decode_encode]⟩
    · rename_i ca pin up known
      cases moved
      exact h.fetched parted _ up known
  | shown served =>
    obtain ⟨pin, known, rfl⟩ := Option.map_eq_some_iff.1 moved
    exact h.shown parted known genuine

end Moved

/-- **Separation.** In every run, whatever strings the certificates hold and whichever of the calls fail: no
certificate is a public key, each signature is that of a certificate or of a rotation, no private key signs a text as
both, and, if the relay's signatures are not forged, a client gives up a key only for one that `NewSealedCA` has signed
with it. -/
theorem signatures_separate (E : Ed25519) {labels : List Label} {t : Ledger}
    (reached : run (Ledger.step E) Ledger.init labels = some t) :
    (∀ (ca : SealedCA) (uid identityKeyB64 issuer : Bytes) (now : Time) (key : Block 32),
      (ca.issueCert E uid identityKeyB64 issuer now).1 ≠ key.bytes) ∧
    (∀ p, p ∈ t.relay.signed ↔ p ∈ t.certificates ∨ p ∈ t.rotations) ∧
    (∀ priv text, (priv, text) ∈ t.certificates → (priv, text) ∉ t.rotations) ∧
    (Always (Ledger.step E) (Genuine E) Ledger.init labels → ∀ key new, (key, new) ∈ t.relay.adopted →
      ∃ priv, (Ed25519.publicKey priv).bytes = key ∧ (priv, new) ∈ t.rotations) := by
  have parted : Parted t := run_invariant (fun _ _ _ h next => h.step next) Parted.init reached
  refine ⟨issueCert_ne_key, parted.signed, ?_, fun genuine => ?_⟩
  · intro priv text certificate rotation
    exact parted.separate certificate rotation rfl
  · have both : Parted t ∧ Moved t :=
      run_invariant_under (P := fun t => Parted t ∧ Moved t)
        (fun _ _ _ h genuine next => ⟨h.1.step next, h.2.step h.1 genuine next⟩) ⟨Parted.init, Moved.init⟩ genuine reached
    exact both.2.adopted

/-- The client is shown a certificate as the next key, with the signature that the relay made for it, and later follows
the rotation. -/
def certificateShown : List Label :=
  let cert := (SealedCA.withRotation Reference.ed25519 (Reference.ed25519.privateKey (filled 1))
    (Reference.ed25519.publicOf (filled 1)) none).issueCert Reference.ed25519 (ascii "ann") (ascii "ik") (ascii "a")
      Reference.start
  [.start (.clean (filled 1)), .fetch, .certify (ascii "ann") (ascii "ik") (ascii "a") Reference.start,
    .shown (Base64.encode cert.1, Base64.encode (filled 1).bytes, Base64.encode cert.2), .rotate,
    .start (.clean (filled 2)), .fetch]

theorem signatures_separate_certificateShown :
    ∃ t, run (Ledger.step Reference.ed25519) Ledger.init certificateShown = some t ∧
      t.relay.adopted = [((filled 1).bytes, (filled 2).bytes)] ∧
      ∃ priv, (Ed25519.publicKey priv).bytes = (filled 1).bytes ∧ (priv, (filled 2).bytes) ∈ t.rotations := by
  have found : ((run (Ledger.step Reference.ed25519) Ledger.init certificateShown).map fun t => t.relay.adopted) =
      some [((filled 1).bytes, (filled 2).bytes)] := by decide +kernel
  obtain ⟨t, reached, adopted⟩ := Option.map_eq_some_iff.1 found
  obtain ⟨-, -, -, moved⟩ := signatures_separate Reference.ed25519 reached
  exact ⟨t, reached, adopted, moved (by decide +kernel) _ _ (by rw [adopted]; exact List.mem_singleton_self _)⟩

end SpectreRelay.Server.CaRotation
