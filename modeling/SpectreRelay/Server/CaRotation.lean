import SpectreRelay.Lib.Runs
import SpectreRelay.Server.SealedCa

/-!
# Rotations of the sealed-sender key

The relay is started and restarted on two files, the key at `<path>` and the one
before it at `<path>.prev`. To rotate the key the operator moves the first over the
second, and the next start generates a new one. A client pins the key that it is
served first and follows a rotation that the pinned key has signed.

This module has the machine of these steps and what the relay publishes
(`Chained.published`): the log of starts and rotations determines the authority of
each start.
-/

namespace SpectreRelay.Server.CaRotation
set_option autoImplicit false
open Lib

inductive Event where
  | started (ca : SealedCA)
  | rotated

/-- A client: the key it trusts, the generation in which it first fetched, and all in which it did. -/
structure Pin where
  key : Bytes
  since : Nat
  fetched : List Nat

structure State where
  /-- The key file. -/
  file : Option Bytes
  /-- The file of the previous key. -/
  prev : Option Bytes
  /-- The authority of the relay that is running. -/
  ca : Option SealedCA
  /-- The seeds of the keys generated so far, the newest first. -/
  seeds : List (Block 32)
  /-- What was signed, with the private key that signed it. -/
  signed : List (Block 64 × Bytes)
  /-- The starts that succeeded and the rotations, the newest first. -/
  log : List Event
  client : Option Pin
  /-- The keys that the client gave up, with those it adopted for them. -/
  adopted : List (Bytes × Bytes)

inductive Label where
  | start (io : SealedCA.StartIo)
  | rotate
  /-- The relay signs a certificate. -/
  | certify (uid identityKeyB64 issuer : Bytes) (now : Time)
  /-- The client fetches `/sealed-ca`. -/
  | fetch
  /-- The client is shown an answer to `/sealed-ca` that anyone may have made. -/
  | shown (served : Bytes × Bytes × Bytes)

/-- No key is written in part, and `<path>.prev` can be read when it is there. -/
def Label.Intact : Label → Prop
  | start io => io.writeFails = none ∧ io.prevReadFails = false
  | _ => True

instance Label.Intact.decide (l : Label) : Decidable l.Intact :=
  match l with
  | start _ => inferInstanceAs (Decidable (_ ∧ _))
  | rotate | certify .. | fetch | shown _ => .isTrue trivial

namespace State

variable (E : Ed25519)

/-- Nothing was started yet. -/
def init : State where
  file := none
  prev := none
  ca := none
  seeds := []
  signed := []
  log := []
  client := none
  adopted := []

/-- The number of the current key. -/
def generation (s : State) : Nat := s.seeds.length

/-- The answer of `handleSealedCA`. -/
def served (ca : SealedCA) : Bytes × Bytes × Bytes := (ca.publicKeyB64, ca.rotationProofB64)

/-- The key that a client adopts in place of its own: one that comes with a valid proof under its own. -/
def accepts (key : Bytes) (served : Bytes × Bytes × Bytes) : Option Bytes :=
  let pub := Base64.decode served.1
  let prev := Base64.decode served.2.1
  let sig := Base64.decode served.2.2
  if (pub.2 ∧ prev.2 ∧ sig.2) ∧ pub.1 ≠ key ∧ pub.1.length = 32 ∧ prev.1 = key ∧ E.verify key pub.1 sig.1 then some pub.1
  else none

/-- The client looks at an answer. -/
def look (s : State) (pin : Pin) (served : Bytes × Bytes × Bytes) : State :=
  match accepts E pin.key served with
  | none => { s with client := some pin }
  | some pub => { s with client := some { pin with key := pub }, adopted := (pin.key, pub) :: s.adopted }

def step (s : State) : Label → Option State
  | .start io =>
    match SealedCA.newSealedCA E s.file s.prev io with
    | (file, .error _) => some { s with file, ca := none }
    | (file, .ok ca) =>
      some { s with
        file
        ca := some ca
        seeds := if s.file = none then io.seed.toList ++ s.seeds else s.seeds
        signed := ((SealedCA.readPrevKey s.prev io.prevReadFails).map fun prevPriv => (prevPriv, ca.pub.bytes)).toList ++
          s.signed
        log := .started ca :: s.log }
  | .rotate =>
    match s.file with
    | none => none
    | some data => some { s with file := none, prev := some data, log := .rotated :: s.log }
  | .certify uid identityKeyB64 issuer now =>
    match s.ca with
    | none => none
    | some ca => some { s with signed := (ca.priv, (ca.issueCert E uid identityKeyB64 issuer now).1) :: s.signed }
  | .fetch =>
    match s.ca, s.client with
    | none, _ => none
    | some ca, none =>
      -- the first key is pinned as it is served
      some { s with client := some ⟨(Base64.decode ca.publicKeyB64).1, s.generation, [s.generation]⟩ }
    | some ca, some pin => some (s.look E { pin with fetched := s.generation :: pin.fetched } (served ca))
  | .shown served => s.client.map fun pin => s.look E pin served

end State

/-! ## What is published -/

section Published

variable (E : Ed25519)

/-- The authority of a key that was generated after the others. -/
def authority (seed : Block 32) (older : List (Block 32)) : SealedCA :=
  .withRotation E (E.privateKey seed) (E.publicOf seed) (older.head?.map E.privateKey)

/-- The logs of starts and rotations, with the keys generated in them and whether the key file is absent. -/
inductive Chained : List (Block 32) → Bool → List Event → Prop where
  | empty : Chained [] true []
  | minted {seeds : List (Block 32)} {log : List Event} (h : Chained seeds true log) (seed : Block 32) :
      Chained (seed :: seeds) false (.started (authority E seed seeds) :: log)
  | again {seed : Block 32} {seeds : List (Block 32)} {log : List Event} (h : Chained (seed :: seeds) false log) :
      Chained (seed :: seeds) false (.started (authority E seed seeds) :: log)
  | rotated {seeds : List (Block 32)} {log : List Event} (h : Chained seeds false log) :
      Chained seeds true (.rotated :: log)

/-- The authority of the last start. -/
def lastStart : List Event → Option SealedCA
  | [] => none
  | .started ca :: _ => some ca
  | .rotated :: log => lastStart log

/-- What is published at each start of the log. -/
structure Published (log : List Event) : Prop where
  /-- A start after another without a rotation between them publishes the same key and the same proof. -/
  stable : ∀ newer ca' between ca older, log = newer ++ .started ca' :: (between ++ .started ca :: older) →
    Event.rotated ∉ between → ca'.publicKeyB64 = ca.publicKeyB64 ∧ ca'.rotationProofB64 = ca.rotationProofB64
  /-- After a rotation, the proof has the key published before it and a signature that verifies under it. -/
  proof : ∀ newer ca recent older, log = newer ++ .started ca :: (recent ++ .rotated :: older) →
    Event.rotated ∉ recent →
    ∃ before sig, lastStart older = some before ∧ ca.rotationProofB64 = (before.publicKeyB64, Base64.encode sig) ∧
      E.verify before.pub.bytes ca.pub.bytes sig = true
  unrotated : ∀ newer ca older, log = newer ++ .started ca :: older → Event.rotated ∉ older →
    ca.rotationProofB64 = ([], [])

variable {E}

@[simp] theorem authority_pub (seed : Block 32) (older : List (Block 32)) :
    (authority E seed older).pub = E.publicOf seed := SealedCA.withRotation_pub ..

theorem authority_first (seed : Block 32) : (authority E seed []).rotationProofB64 = ([], []) := rfl

/-- The proof of a key that replaced another. -/
theorem authority_proof (seed prev : Block 32) (older : List (Block 32)) :
    (authority E seed (prev :: older)).rotationProofB64 =
      (Base64.encode (E.publicOf prev).bytes, Base64.encode (E.sign (E.privateKey prev) (E.publicOf seed).bytes)) := by
  have some_sig : E.sign (E.privateKey prev) (E.publicOf seed).bytes ≠ [] :=
    List.ne_nil_of_length_eq_add_one (E.signWith _ _).size
  show (if E.sign (E.privateKey prev) (E.publicOf seed).bytes = [] then ([], []) else
    (Base64.encode (Ed25519.publicKey (E.privateKey prev)).bytes,
      Base64.encode (E.sign (E.privateKey prev) (E.publicOf seed).bytes))) = _
  rw [if_neg some_sig, E.publicKey_privateKey]

namespace Chained

variable {seeds : List (Block 32)} {absent : Bool} {log : List Event}

/-- A part of a log is a log. -/
theorem older {newer older : List Event} (h : Chained E seeds absent (newer ++ older)) :
    ∃ seeds' absent', Chained E seeds' absent' older := by
  induction newer generalizing seeds absent with
  | nil => exact ⟨seeds, absent, h⟩
  | cons e newer ih =>
    cases h with
    | minted h _ => exact ih h
    | again h => exact ih h
    | rotated h => exact ih h

/-- A key on file was published by the last start. -/
theorem lastStart_eq (h : Chained E seeds false log) :
    ∃ seed older, seeds = seed :: older ∧ lastStart log = some (authority E seed older) := by
  cases h with
  | minted _ seed => exact ⟨seed, _, rfl, rfl⟩
  | again _ => exact ⟨_, _, rfl, rfl⟩

/-- The newest key was published by the last start. -/
theorem lastStart_newest {seed : Block 32} {older : List (Block 32)} (h : Chained E (seed :: older) absent log) :
    lastStart log = some (authority E seed older) := by
  cases h with
  | minted _ _ => rfl
  | again _ => rfl
  | rotated h =>
    obtain ⟨_, _, same, last⟩ := h.lastStart_eq
    cases same
    exact last

/-- Without a rotation since a start, the key of that start is on file. -/
theorem since_start {between older : List Event} {ca : SealedCA}
    (h : Chained E seeds absent (between ++ .started ca :: older)) (still : Event.rotated ∉ between) :
    absent = false ∧ ∃ seed rest, seeds = seed :: rest ∧ ca = authority E seed rest := by
  induction between generalizing seeds absent with
  | nil =>
    cases h with
    | minted _ seed => exact ⟨rfl, seed, _, rfl, rfl⟩
    | again _ => exact ⟨rfl, _, _, rfl, rfl⟩
  | cons e between ih =>
    have rest := fun inside => still (List.mem_cons_of_mem e inside)
    cases h with
    | minted h _ => cases (ih h rest).1
    | again h => exact ih h rest
    | rotated _ => exact absurd List.mem_cons_self still

/-- Without a rotation there is one key at most. -/
theorem unrotated (h : Chained E seeds absent log) (still : Event.rotated ∉ log) :
    if absent then seeds = [] else seeds.length = 1 := by
  induction h with
  | empty => rfl
  | minted _ seed ih =>
    obtain rfl : _ = [] := ih fun inside => still (List.mem_cons_of_mem _ inside)
    rfl
  | again _ ih => exact ih fun inside => still (List.mem_cons_of_mem _ inside)
  | rotated _ _ => exact absurd List.mem_cons_self still

/-- Since the last rotation, the key moved by it is the newest or the one before. -/
theorem since_rotation {recent older : List Event} (h : Chained E seeds absent (recent ++ .rotated :: older))
    (last : Event.rotated ∉ recent) :
    ∃ moved, Chained E moved false older ∧ if absent then seeds = moved else seeds.tail = moved := by
  induction recent generalizing seeds absent with
  | nil =>
    cases h with
    | rotated h => exact ⟨seeds, h, rfl⟩
  | cons e recent ih =>
    have rest := fun inside => last (List.mem_cons_of_mem e inside)
    cases h with
    | minted h _ =>
      obtain ⟨moved, before, newest⟩ := ih h rest
      exact ⟨moved, before, newest⟩
    | again h => exact ih h rest
    | rotated _ => exact absurd List.mem_cons_self last

theorem published (h : Chained E seeds absent log) : Published E log where
  stable newer ca' between ca older parts still := by
    subst parts
    obtain ⟨_, _, later⟩ := h.older
    cases later with
    | minted h _ => cases (h.since_start still).1
    | again h =>
      obtain ⟨-, _, _, same, rfl⟩ := h.since_start still
      cases same
      exact ⟨rfl, rfl⟩
  proof newer ca recent older parts last := by
    subst parts
    obtain ⟨seeds', _, here⟩ := h.older
    have moved : ∃ prev rest, Chained E (prev :: rest) false older ∧ ∃ seed, ca = authority E seed (prev :: rest) := by
      cases here with
      | minted h seed =>
        obtain ⟨moved, before, rfl⟩ := h.since_rotation last
        obtain ⟨prev, rest, rfl, -⟩ := before.lastStart_eq
        exact ⟨prev, rest, before, seed, rfl⟩
      | again h =>
        obtain ⟨moved, before, rfl⟩ := h.since_rotation last
        obtain ⟨prev, rest, tail, -⟩ := before.lastStart_eq
        rw [List.tail_cons] at tail
        subst tail
        exact ⟨prev, rest, before, _, rfl⟩
    obtain ⟨prev, rest, before, seed, rfl⟩ := moved
    obtain ⟨_, _, same, last⟩ := before.lastStart_eq
    cases same
    refine ⟨authority E prev rest, E.sign (E.privateKey prev) (E.publicOf seed).bytes, last, ?_, ?_⟩
    · rw [authority_proof, SealedCA.publicKeyB64, authority_pub]
    · rw [authority_pub, authority_pub]
      exact E.verify_sign prev _
  unrotated newer ca older parts still := by
    subst parts
    obtain ⟨_, _, here⟩ := h.older
    cases here with
    | minted h seed =>
      obtain rfl : _ = [] := h.unrotated still
      exact authority_first seed
    | again h =>
      have one := h.unrotated still
      obtain rfl := List.length_eq_zero_iff.1 (Nat.succ.inj one)
      exact authority_first _

end Chained

end Published

/-! ## One step -/

section Steps

variable (E : Ed25519)

/-- The file of a key. -/
def keyFile (seed : Block 32) : Bytes := (E.privateKey seed).bytes

/-- The signature call that a start makes for the key `seed`. -/
def endorsement (seed : Block 32) (older : List (Block 32)) : List (Block 64 × Bytes) :=
  (older.head?.map fun prev => (E.privateKey prev, (E.publicOf seed).bytes)).toList

/-- The files, the running relay and the signatures are those of the keys generated so far. -/
structure Kept (s : State) : Prop where
  chained : Chained E s.seeds s.file.isNone s.log
  present : ∀ data, s.file = some data → ∃ seed older, s.seeds = seed :: older ∧ data = keyFile E seed ∧
    s.prev = older.head?.map (keyFile E)
  absent : s.file = none → s.prev = s.seeds.head?.map (keyFile E)
  running : ∀ ca, s.ca = some ca → ∃ seed older, s.seeds = seed :: older ∧ ca = authority E seed older ∧
    endorsement E seed older ⊆ s.signed
  /-- A key that was signed is signed by the one before it. -/
  signed : ∀ p ∈ s.signed, p.2.length = 32 → ∃ seed prev older, seed :: prev :: older <:+ s.seeds ∧
    p = (E.privateKey prev, (E.publicOf seed).bytes)

/-- What a step does, in terms of the keys. -/
inductive Moves (s : State) : Label → State → Prop where
  | failed {io : SealedCA.StartIo} : Moves s (.start io) { s with ca := none }
  | minted {io : SealedCA.StartIo} {seed : Block 32} (absent : s.file = none) (drawn : io.seed = some seed) :
      Moves s (.start io) { s with
        file := some (keyFile E seed)
        ca := some (authority E seed s.seeds)
        seeds := seed :: s.seeds
        signed := endorsement E seed s.seeds ++ s.signed
        log := .started (authority E seed s.seeds) :: s.log }
  | again {io : SealedCA.StartIo} {seed : Block 32} {older : List (Block 32)} (present : s.file = some (keyFile E seed))
      (seeds : s.seeds = seed :: older) :
      Moves s (.start io) { s with
        ca := some (authority E seed older)
        signed := endorsement E seed older ++ s.signed
        log := .started (authority E seed older) :: s.log }
  | rotated {data : Bytes} (present : s.file = some data) :
      Moves s .rotate { s with file := none, prev := some data, log := .rotated :: s.log }
  | certified {uid identityKeyB64 issuer cert : Bytes} {now : Time} {ca : SealedCA} (up : s.ca = some ca)
      (long : 32 < cert.length) :
      Moves s (.certify uid identityKeyB64 issuer now) { s with signed := (ca.priv, cert) :: s.signed }
  | pinned {ca : SealedCA} (up : s.ca = some ca) (new : s.client = none) :
      Moves s .fetch { s with client := some ⟨ca.pub.bytes, s.generation, [s.generation]⟩ }
  | fetched {ca : SealedCA} {pin : Pin} (up : s.ca = some ca) (known : s.client = some pin) :
      Moves s .fetch (s.look E { pin with fetched := s.generation :: pin.fetched } (State.served ca))
  | shown {served : Bytes × Bytes × Bytes} {pin : Pin} (known : s.client = some pin) :
      Moves s (.shown served) (s.look E pin served)

variable {E}

theorem readPrevKey_head (seeds : List (Block 32)) :
    SealedCA.readPrevKey (seeds.head?.map (keyFile E)) false = seeds.head?.map E.privateKey := by
  cases seeds with
  | nil => rfl
  | cons seed seeds => exact SealedCA.readPrevKey_written _

theorem endorsement_eq (seed : Block 32) (older : List (Block 32)) :
    ((older.head?.map E.privateKey).map fun prevPriv => (prevPriv, (authority E seed older).pub.bytes)).toList =
      endorsement E seed older := by
  rw [authority_pub, Option.map_map]
  rfl

namespace Kept

variable {s s' : State} {l : Label}

theorem start (h : Kept E s) {io : SealedCA.StartIo} (intact : Label.Intact (.start io))
    (next : s.step E (.start io) = some s') : Moves E s (.start io) s' := by
  obtain ⟨writes, reads⟩ := intact
  cases onFile : s.file with
  | none =>
    have read : SealedCA.readPrevKey s.prev io.prevReadFails = s.seeds.head?.map E.privateKey := by
      rw [reads, h.absent onFile, readPrevKey_head]
    rcases SealedCA.newSealedCA_absent (E := E) s.prev writes with ⟨e, made⟩ | ⟨seed, drawn, made⟩
    · rw [← onFile] at made
      simp only [State.step, made] at next
      cases next
      exact .failed
    · have moved := Moves.minted (E := E) onFile drawn
      rw [← endorsement_eq] at moved
      simp only [State.step, onFile, made, read, drawn, if_true] at next
      cases next
      exact moved
  | some data =>
    obtain ⟨seed, older, seeds, rfl, prev⟩ := h.present data onFile
    have read : SealedCA.readPrevKey s.prev io.prevReadFails = older.head?.map E.privateKey := by
      rw [reads, prev, readPrevKey_head]
    cases fails : io.readFails with
    | true =>
      simp only [State.step, SealedCA.newSealedCA, fails, if_true] at next
      cases next
      exact .failed
    | false =>
      have made : SealedCA.newSealedCA E s.file s.prev io = (s.file, .ok (authority E seed older)) := by
        rw [onFile, authority, ← read]
        exact SealedCA.newSealedCA_written seed s.prev fails
      have moved : Moves E s (.start io) _ := .again onFile seeds
      rw [← endorsement_eq] at moved
      have kept : ¬ s.file = none := by rw [onFile]; exact Option.some_ne_none _
      simp only [State.step, made, read, kept, if_false] at next
      cases next
      exact moved

/-- **One step.** -/
theorem moves (h : Kept E s) (intact : l.Intact) (next : s.step E l = some s') : Moves E s l s' := by
  cases l with
  | start io => exact h.start intact next
  | rotate =>
    simp only [State.step] at next
    split at next
    · cases next
    · rename_i data present
      cases next
      exact .rotated present
  | certify uid identityKeyB64 issuer now =>
    simp only [State.step] at next
    split at next
    · cases next
    · rename_i ca up
      cases next
      exact .certified up (SenderCert.marshal_length _)
  | fetch =>
    simp only [State.step] at next
    split at next
    · cases next
    · rename_i ca up new
      cases next
      rw [SealedCA.publicKeyB64, Base64.decode_encode]
      exact .pinned up new
    · rename_i ca pin up known
      cases next
      exact .fetched up known
  | shown served =>
    obtain ⟨pin, known, rfl⟩ := Option.map_eq_some_iff.1 next
    exact .shown known

theorem init : Kept E State.init where
  chained := .empty
  present _ onFile := by cases onFile
  absent _ := rfl
  running _ up := by cases up
  signed _ inside := by cases inside

/-- What the client does leaves the relay as it is. -/
theorem look (h : Kept E s) (pin : Pin) (served : Bytes × Bytes × Bytes) : Kept E (s.look E pin served) := by
  unfold State.look
  split
  · exact ⟨h.chained, h.present, h.absent, h.running, h.signed⟩
  · exact ⟨h.chained, h.present, h.absent, h.running, h.signed⟩

/-- The signature call of a start is by the key before. -/
theorem endorsed {seed : Block 32} {older : List (Block 32)} {p : Block 64 × Bytes}
    (inside : p ∈ endorsement E seed older) : ∃ prev rest, older = prev :: rest ∧
      p = (E.privateKey prev, (E.publicOf seed).bytes) := by
  cases older with
  | nil => cases inside
  | cons prev rest => exact ⟨prev, rest, rfl, List.mem_singleton.1 inside⟩

theorem minted (h : Kept E s) (absent : s.file = none) (seed : Block 32) :
    Kept E { s with
      file := some (keyFile E seed)
      ca := some (authority E seed s.seeds)
      seeds := seed :: s.seeds
      signed := endorsement E seed s.seeds ++ s.signed
      log := .started (authority E seed s.seeds) :: s.log } where
  chained := by
    have before := h.chained
    rw [absent] at before
    exact before.minted seed
  present data onFile := by
    cases onFile
    exact ⟨seed, s.seeds, rfl, rfl, h.absent absent⟩
  absent none := by cases none
  running ca up := by
    cases up
    exact ⟨seed, s.seeds, rfl, rfl, List.subset_append_left ..⟩
  signed p inside size := by
    rcases List.mem_append.1 inside with new | old
    · obtain ⟨prev, rest, older, rfl⟩ := endorsed new
      exact ⟨seed, prev, rest, by rw [← older], rfl⟩
    · obtain ⟨k, prev, older, part, rfl⟩ := h.signed p old size
      exact ⟨k, prev, older, part.trans (List.suffix_cons ..), rfl⟩

theorem again (h : Kept E s) {seed : Block 32} {older : List (Block 32)} (present : s.file = some (keyFile E seed))
    (seeds : s.seeds = seed :: older) :
    Kept E { s with
      ca := some (authority E seed older)
      signed := endorsement E seed older ++ s.signed
      log := .started (authority E seed older) :: s.log } where
  chained := by
    have before := h.chained
    rw [present, seeds] at before
    show Chained E s.seeds s.file.isNone _
    rw [present, seeds]
    exact before.again
  present := h.present
  absent := h.absent
  running ca up := by
    cases up
    exact ⟨seed, older, seeds, rfl, List.subset_append_left ..⟩
  signed p inside size := by
    rcases List.mem_append.1 inside with new | old
    · obtain ⟨prev, rest, rfl, rfl⟩ := endorsed new
      exact ⟨seed, prev, rest, by rw [← seeds], rfl⟩
    · exact h.signed p old size

theorem rotated (h : Kept E s) {data : Bytes} (present : s.file = some data) :
    Kept E { s with file := none, prev := some data, log := .rotated :: s.log } where
  chained := by
    have before := h.chained
    rw [present] at before
    exact before.rotated
  present data onFile := by cases onFile
  absent _ := by
    obtain ⟨seed, older, seeds, rfl, -⟩ := h.present data present
    show _ = s.seeds.head?.map (keyFile E)
    rw [seeds]
    rfl
  running := h.running
  signed := h.signed

theorem certified (h : Kept E s) {cert : Bytes} (priv : Block 64) (long : 32 < cert.length) :
    Kept E { s with signed := (priv, cert) :: s.signed } where
  chained := h.chained
  present := h.present
  absent := h.absent
  running ca up := by
    obtain ⟨seed, older, seeds, made, inside⟩ := h.running ca up
    exact ⟨seed, older, seeds, made, List.subset_cons_of_subset _ inside⟩
  signed p inside size := by
    rcases List.mem_cons.1 inside with rfl | old
    · exact absurd size (Nat.ne_of_gt long)
    · exact h.signed p old size

theorem step (h : Kept E s) (intact : l.Intact) (next : s.step E l = some s') : Kept E s' := by
  cases h.moves intact next with
  | failed => exact ⟨h.chained, h.present, h.absent, (fun _ up => by cases up), h.signed⟩
  | minted absent _ => exact h.minted absent _
  | again present seeds => exact h.again present seeds
  | rotated present => exact h.rotated present
  | certified _ long => exact h.certified _ long
  | pinned _ _ => exact ⟨h.chained, h.present, h.absent, h.running, h.signed⟩
  | fetched _ _ => exact h.look _ _
  | shown _ => exact h.look _ _

end Kept

end Steps

end SpectreRelay.Server.CaRotation
