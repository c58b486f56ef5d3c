import SpectreRelay.Lib.Bag
import SpectreRelay.Lib.JsonSize
import SpectreRelay.Server.PrekeyFetch

/-!
# What a certificate tells its recipient

The recipient of a sealed message is shown a certificate by its sender, and
checks it against a key that the relay has published. Here is what that is
worth, over runs with any sessions, fetches, restarts and rotations of the
signing key: if the relay's signatures are not forged, the certificate was
issued by this relay to a session of the user it names, at the time its expiry
says, and the key it names was then the identity key of the bundle last accepted
for that user.

The relay's keys sign two kinds of texts. A certificate whose key is one of 32
bytes is longer than the other kind, a public key.
-/

namespace SpectreRelay.Server.CertTrust
set_option autoImplicit false
open Lib Lib.Json Model PrekeyStore Sessions

/-- The relay, with what its keys have signed; the signatures are history. -/
structure Authority where
  relay : Sessions.State
  /-- The public keys of the starts so far. -/
  keys : List (Block 32)
  /-- The texts that were signed, with the private keys. -/
  signed : List (Block 64 × Bytes)

inductive Action where
  | serve (l : Sessions.Label)
  /-- The operator moves the key file to `<path>.prev` and starts the relay. -/
  | rotate (io : Server.StartIo)

/-- What a start signs: with the key at `<path>.prev`, its public key. -/
def startSigns (prev : Option Bytes) (io : SealedCA.StartIo) (ca : SealedCA) : List (Block 64 × Bytes) :=
  ((SealedCA.readPrevKey prev io.prevReadFails).map fun prevPriv => (prevPriv, ca.pub.bytes)).toList

namespace Authority

variable (P : Platform)

/-- What a frame has signed: the certificate that it is answered with. -/
def frameSigns (s : Sessions.State) (conn : Conn) (data : Bytes) (io : Server.FrameIo) : List (Block 64 × Bytes) :=
  match s.sessions.find? fun ss => ss.conn = conn with
  | none => []
  | some ss =>
    match (s.server.handleAuthedFrame P ss.userID data io).2 with
    | .cert (some _) =>
      ((s.server.buildSenderCert P ss.userID io.signAt).map fun cert => (s.server.sealedCA.priv, cert.1)).toList
    | _ => []

/-- The state after a step of the relay. -/
def after (a : Authority) (l : Sessions.Label) (relay : Sessions.State) : Authority :=
  match l with
  | .frame conn data io _ _ => { a with relay, signed := frameSigns P a.relay conn data io ++ a.signed }
  | .restart io =>
    { relay
      keys := relay.server.sealedCA.pub :: a.keys
      signed := startSigns a.relay.prevFile io.sealedCA relay.server.sealedCA ++ a.signed }
  | _ => { a with relay }

/-- The relay with its key file moved. -/
def moved (s : Sessions.State) : Sessions.State := { s with caFile := none, prevFile := s.caFile }

def step (a : Authority) : Action → Option Authority
  | .serve l => (a.relay.step P l).map (a.after P l)
  | .rotate io => ((moved a.relay).step P (.restart io)).map ({ a with relay := moved a.relay }.after P (.restart io))

/-- A relay that was just started. -/
def start (cfg : Config) (files : Files) (io : Server.StartIo) : Option Authority :=
  (Sessions.State.start P cfg files io []).map fun relay =>
    ⟨relay, [relay.server.sealedCA.pub], startSigns files.prevSealedCA io.sealedCA relay.server.sealedCA⟩

end Authority

/-! ## Texts -/

theorem decoder_within (n : Nat) : KeepsOn (fun j => weight j ≤ n) (fun c : SenderCert => plain c.ik ≤ n) SenderCert.decoder := by
  apply record_within
  intro f inside
  simp only [SenderCert.fields, List.mem_cons, List.not_mem_nil, or_false] at inside
  obtain rfl | rfl | rfl | rfl := inside
  · exact fun _ _ _ short => short
  · exact fun _ _ _ short => short
  · exact StructField.of_keepsOn (string_within n) (fun _ short => short) fun _ _ _ short => short
  · exact fun _ _ _ short => short

/-- A text that is read as a certificate of a 32-byte key is longer than a public key. -/
theorem cert_long {text : Bytes} {c : SenderCert} (decoded : unmarshal SenderCert.decoder .zero text = (c, true))
    (whole : (Base64.decode c.ik).1.length = 32) : 32 < text.length := by
  have within : plain (unmarshal SenderCert.decoder .zero text).1.ik ≤ text.length :=
    unmarshal_within (P := fun c : SenderCert => plain c.ik ≤ text.length) (Nat.zero_le _) text (decoder_within _)
  rw [decoded] at within
  have dense := decode_dense c.ik
  simp only at within
  omega

/-! ## What is signed -/

/-- The text is a certificate that the log has, for the bundle last accepted before it. -/
def Issued (relayID : Bytes) (log : List Event) (text : Bytes) : Prop :=
  ∃ i u key frame signAt bundle, log[i]? = some (.cert u key frame signAt) ∧ latest u (log.take i) = some bundle ∧
    Utf8.Valid u ∧ Utf8.Valid bundle.identityKey ∧
    text = SenderCert.marshal ⟨relayID, u, bundle.identityKey, signAt.addUnixMilli defaultCertTTL⟩

theorem Issued.append {relayID text : Bytes} {log : List Event} (h : Issued relayID log text) (more : List Event) :
    Issued relayID (log ++ more) text := by
  obtain ⟨i, u, key, frame, signAt, bundle, found, last, rest⟩ := h
  refine ⟨i, u, key, frame, signAt, bundle, getElem?_grown found more, ?_, rest⟩
  rw [List.take_append_of_le_length (Nat.le_of_lt (List.getElem?_eq_some_iff.1 found).1)]
  exact last

/-- The log only grows. -/
theorem log_grows {P : Platform} {s s' : Sessions.State} {l : Sessions.Label} (stepped : s.step P l = some s') :
    ∃ more, s'.log = s.log ++ more := by
  cases State.step_cases stepped with
  | connected => exact ⟨_, rfl⟩
  | certified => exact ⟨_, rfl⟩
  | accepted => exact ⟨_, rfl⟩
  | _ => exact ⟨[], (List.append_nil _).symm⟩

/-- What holds of the relay `relayID` and all that its keys have signed. -/
structure Inv (P : Platform) (relayID : Bytes) (a : Authority) : Prop where
  directory : ∃ m, FetchInv P relayID a.relay m
  names : State.Names relayID a.relay
  signed : ∀ p ∈ a.signed, p.2.length = 32 ∨ Issued relayID a.relay.log p.2

theorem startSigns_length {prev : Option Bytes} {io : SealedCA.StartIo} {ca : SealedCA} {p : Block 64 × Bytes}
    (inside : p ∈ startSigns prev io ca) : p.2.length = 32 := by
  obtain ⟨prevPriv, -, rfl⟩ := Option.map_eq_some_iff.1 (Option.mem_toList.1 inside)
  exact ca.pub.size

namespace Inv

variable {P : Platform} {relayID : Bytes} {a : Authority}

theorem start {cfg : Config} {files : Files} (prekeys : files.prekeys = .empty) {io : Server.StartIo}
    (started : Authority.start P cfg files io = some a) : Inv P cfg.relayID a := by
  obtain ⟨relay, first, rfl⟩ := Option.map_eq_some_iff.1 started
  exact ⟨⟨∅, FetchInv.start prekeys first⟩, (State.start_store first).2, fun p inside => .inl (startSigns_length inside)⟩

/-- A certificate that a frame is answered with is in the log after it. -/
theorem issued (h : Inv P relayID a) {conn : Conn} {data : Bytes} {io : Server.FrameIo} {fails : Bool}
    {enqueue : Store.EnqueueIo} {s' : Sessions.State} (stepped : a.relay.step P (.frame conn data io fails enqueue) = some s')
    {p : Block 64 × Bytes} (inside : p ∈ Authority.frameSigns P a.relay conn data io) : Issued relayID s'.log p.2 := by
  obtain ⟨m, inv⟩ := h.directory
  simp only [Authority.frameSigns] at inside
  simp only [State.step] at stepped
  cases found : a.relay.sessions.find? fun ss => ss.conn = conn with
  | none =>
    rw [found] at stepped
    cases stepped
  | some ss =>
    rw [found] at stepped inside
    simp only at stepped inside
    have session : ss ∈ a.relay.sessions := List.mem_of_find?_eq_some found
    generalize handled : a.relay.server.handleAuthedFrame P ss.userID data io = out at stepped inside
    obtain ⟨server, effect⟩ := out
    cases effect with
    | routed call => exact absurd inside List.not_mem_nil
    | registered bundle result => exact absurd inside List.not_mem_nil
    | cert answer =>
      cases answer with
      | none => exact absurd inside List.not_mem_nil
      | some frame =>
        cases stepped
        obtain ⟨cert, built, rfl⟩ := Option.map_eq_some_iff.1 (Option.mem_toList.1 inside)
        obtain ⟨ik, key, rfl⟩ := Option.map_eq_some_iff.1 built
        obtain ⟨b, stored, rfl⟩ := Option.map_eq_some_iff.1 key
        obtain ⟨bundle, last, n, rfl⟩ := inv.memory.uploads ss.userID b stored
        obtain ⟨-, text, accepted⟩ := inv.backed.sound ss.userID _ stored
        refine ⟨a.relay.log.length, ss.userID, ss.key, frame, io.signAt, bundle, List.getElem?_concat_length, ?_, text,
          accepted.valid.identityKey, ?_⟩
        · rw [List.take_left]
          exact last
        · rw [h.names.server]
          rfl

/-- A step of the relay. -/
theorem serve (h : Inv P relayID a) {l : Sessions.Label} (persists : l.Persists) {s' : Sessions.State}
    (stepped : a.relay.step P l = some s') : Inv P relayID (a.after P l s') := by
  obtain ⟨m, inv⟩ := h.directory
  have directory := inv.step persists stepped
  have names := (State.step_store h.names stepped).2
  obtain ⟨more, grown⟩ := log_grows stepped
  have old : ∀ p ∈ a.signed, p.2.length = 32 ∨ Issued relayID s'.log p.2 := by
    intro p inside
    rw [grown]
    exact (h.signed p inside).imp_right fun issued => issued.append more
  cases l with
  | frame conn data io fails enqueue =>
    refine ⟨directory, names, fun p inside => ?_⟩
    rcases List.mem_append.1 inside with new | before
    · exact .inr (h.issued stepped new)
    · exact old p before
  | restart io =>
    refine ⟨directory, names, fun p inside => ?_⟩
    rcases List.mem_append.1 inside with new | before
    · exact .inl (startSigns_length new)
    · exact old p before
  | connect => exact ⟨directory, names, old⟩
  | fetch => exact ⟨directory, names, old⟩
  | post => exact ⟨directory, names, old⟩
  | disconnect => exact ⟨directory, names, old⟩

/-- Where the key file is matters to no other part. -/
theorem move (h : Inv P relayID a) : Inv P relayID { a with relay := Authority.moved a.relay } := by
  obtain ⟨m, inv⟩ := h.directory
  exact ⟨⟨m, inv.config, inv.sessions, inv.backed, inv.memory, inv.file⟩, ⟨h.names.cfg, h.names.server, h.names.router⟩,
    h.signed⟩

/-- **One step.** -/
theorem step (h : Inv P relayID a) {x : Action} (persists : ∀ l, x = .serve l → l.Persists) {a' : Authority}
    (stepped : a.step P x = some a') : Inv P relayID a' := by
  cases x with
  | serve l =>
    obtain ⟨relay, served, rfl⟩ := Option.map_eq_some_iff.1 stepped
    exact h.serve (persists l rfl) served
  | rotate io =>
    obtain ⟨relay, served, rfl⟩ := Option.map_eq_some_iff.1 stepped
    exact h.move.serve (l := .restart io) trivial served

end Inv

/-! ## The recipient -/

/-- A signature that verifies under this key was made by the relay, with the private key. -/
def Unforged (E : Ed25519) (a : Authority) (key : Block 32) (text sig : Bytes) : Prop :=
  E.verify key.bytes text sig = true → ∃ p ∈ a.signed, Ed25519.publicKey p.1 = key ∧ p.2 = text

instance (E : Ed25519) (a : Authority) (key : Block 32) (text sig : Bytes) : Decidable (Unforged E a key text sig) :=
  inferInstanceAs (Decidable (_ = true → ∃ p ∈ a.signed, Ed25519.publicKey p.1 = key ∧ p.2 = text))

/-- **Certificates are authentic.** In every run without a failing persist of a registration, with any frames, fetches,
restarts and rotations: a text that verifies under a key the relay has published, unforged, and that is read as a
certificate of a 32-byte key, names this relay; it was issued to a session of the user it names a day before it
expires; and the key it names was then that of the bundle last accepted for this user. -/
theorem certificate_authentic (P : Platform) (cfg : Config) (relay : Utf8.Valid cfg.relayID) (files : Files)
    (prekeys : files.prekeys = .empty) (io : Server.StartIo) (first a : Authority) (actions : List Action)
    (started : Authority.start P cfg files io = some first) (persists : ∀ l, .serve l ∈ actions → l.Persists)
    (reached : run (Authority.step P) first actions = some a) (key : Block 32) (published : key ∈ a.keys)
    (text sig : Bytes) (c : SenderCert) (unforged : ∀ key ∈ a.keys, Unforged P.ed25519 a key text sig)
    (verified : P.ed25519.verify key.bytes text sig = true)
    (decoded : unmarshal SenderCert.decoder .zero text = (c, true)) (whole : (Base64.decode c.ik).1.length = 32) :
    c.iss = cfg.relayID ∧ ∃ i proved frame signAt bundle, a.relay.log[i]? = some (.cert c.uid proved frame signAt) ∧
      latest c.uid (a.relay.log.take i) = some bundle ∧ bundle.identityKey = c.ik ∧
      c.exp.toInt = signAt.milliseconds + 24 * 60 * 60 * 1000 := by
  have inv : Inv P cfg.relayID a := by
    refine run_invariant_under (fun _ _ _ before met stepped => before.step met stepped) (Inv.start prekeys started)
      (always_of_forall (C := fun x => ∀ l, x = .serve l → l.Persists) ?_ first) reached
    rintro x inside l rfl
    exact persists l inside
  obtain ⟨p, listed, -, rfl⟩ := unforged key published verified
  have long := cert_long decoded whole
  rcases inv.signed p listed with short | ⟨i, u, proved, frame, signAt, bundle, found, last, validUid, validKey, same⟩
  · omega
  · have read := SenderCert.unmarshal_marshal
      (c := ⟨cfg.relayID, u, bundle.identityKey, signAt.addUnixMilli defaultCertTTL⟩) relay validUid validKey
    rw [← same, decoded] at read
    cases read
    refine ⟨rfl, i, proved, frame, signAt, bundle, found, last, rfl, ?_⟩
    have day : defaultCertTTL.toInt = 86400000000000 := by decide
    rw [Time.addUnixMilli_toInt, day, Time.milliseconds]
    omega

namespace Scene

open Reference

/-- bob registers and is given a certificate; then the signing key is rotated. -/
def rotation : List Action :=
  Sessions.Scene.bindingRun.map .serve ++ [.rotate (.clean (.zeros 32) (.zeros 32) Sessions.Scene.otherSeed (.zeros 12))]

end Scene

/-- After a rotation, bob's certificate still tells who has pinned the first key what bob had registered. -/
theorem certificate_authentic_bob :
    ∃ first a, Authority.start Reference.platform Reference.cfg .empty Reference.startIo = some first ∧
      run (Authority.step Reference.platform) first Scene.rotation = some a ∧
      a.keys.head? = some (Reference.ed25519.publicOf Sessions.Scene.otherSeed) ∧
      ∃ i proved frame signAt bundle, a.relay.log[i]? = some (.cert (ascii "bob") proved frame signAt) ∧
        latest (ascii "bob") (a.relay.log.take i) = some bundle ∧ bundle.identityKey = Reference.bundle.identityKey := by
  have result : ((Authority.start Reference.platform Reference.cfg .empty Reference.startIo).bind fun first =>
      (run (Authority.step Reference.platform) first Scene.rotation).map fun a =>
        (a.keys, decide (∀ key ∈ a.keys, Unforged Reference.ed25519 a key Sessions.Scene.bobCert.1
          Sessions.Scene.bobCert.2))) =
      some ([Sessions.Scene.otherSeed, .zeros 32, .zeros 32], true) := by decide +kernel
  obtain ⟨first, started, rest⟩ := Option.bind_eq_some_iff.1 result
  obtain ⟨a, reached, seen⟩ := Option.map_eq_some_iff.1 rest
  obtain ⟨keys, unforged⟩ := Prod.mk.inj seen
  have published : Block.zeros 32 ∈ a.keys := by
    rw [keys]
    exact List.mem_cons_of_mem _ List.mem_cons_self
  have persists : ∀ l, .serve l ∈ Scene.rotation → l.Persists := by
    intro l inside
    simp only [Scene.rotation, List.mem_append, List.mem_map, List.mem_singleton, reduceCtorEq, or_false] at inside
    obtain ⟨l', listed, same⟩ := inside
    cases same
    have all : ∀ l ∈ Sessions.Scene.bindingRun, l.Persists := by decide +kernel
    exact all l listed
  have key : Utf8.Valid Reference.bundle.identityKey := by decide +kernel
  obtain ⟨-, i, proved, frame, signAt, bundle, found, last, same, -⟩ := certificate_authentic Reference.platform
    Reference.cfg (by decide) .empty rfl Reference.startIo first a Scene.rotation started persists reached (.zeros 32)
    published Sessions.Scene.bobCert.1 Sessions.Scene.bobCert.2
    ⟨ascii "a", ascii "bob", Reference.bundle.identityKey, Reference.start.addUnixMilli defaultCertTTL⟩
    (of_decide_eq_true unforged) (by decide +kernel) (SenderCert.unmarshal_marshal (by decide) (by decide) key)
    (by decide +kernel)
  refine ⟨first, a, started, reached, ?_, i, proved, frame, signAt, bundle, found, last, same⟩
  rw [keys]
  rfl

end SpectreRelay.Server.CertTrust
