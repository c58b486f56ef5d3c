import SpectreRelay.Lib.Bag
import SpectreRelay.Lib.Nonces
import SpectreRelay.Server.Client
import SpectreRelay.Server.Reference
import SpectreRelay.Server.Sessions

/-!
# The handshake as a protocol

`Authenticate` of `server/auth.go` runs on every connection at the same time.
Here its network calls are steps: a challenge is sent, keys sign, and an answer
is read, in any order over any number of connections, with every frame supplied
by the network. What the relay knows of an accepted session is that the key it
was accepted under has signed the session's own nonce, after the challenge and
at most ten seconds before the acceptance; and no signature serves two sessions.
-/

namespace SpectreRelay.Server.Handshake
set_option autoImplicit false
open Lib Lib.Json Model Sessions

/-- The time a handshake may take, in nanoseconds. -/
def timeout : Nat := 10 * 10 ^ 9

/-- A handshake whose challenge is sent. -/
structure Pending where
  conn : Conn
  nonce : Block 32
  opened : Time
deriving DecidableEq

/-- An accepted session: the handshake, what its client proved, and when. -/
structure Accepted where
  handshake : Pending
  userID : Bytes
  key : Bytes
  time : Time

/-- The holder of a key signs a message. -/
structure Signed where
  key : Bytes
  message : Bytes
  time : Time

/-- The relay's handshakes, with all nonces drawn so far, and the signatures that the holders of keys have made. -/
structure State where
  clock : Time
  attempts : Attempts
  drawn : List (Block 32)
  pending : List Pending
  accepted : List Accepted
  signed : List Signed

inductive Label where
  /-- `Authenticate` is called on a connection; the context with the timeout is made at `opened`. -/
  | challenge (conn : Conn) (ip : Bytes) (now : Time) (nonce : Option (Block 32)) (opened : Time) (challengeFails : Bool)
  /-- Someone signs, whatever the message. -/
  | sign (key message : Bytes) (now : Time)
  /-- The client's answer is read, or the read fails. -/
  | answer (conn : Conn) (frame : Bytes) (now : Time) (readFails responseFails : Bool)

def init (clock : Time) : State := ⟨clock, fun _ => [], [], [], [], []⟩

/-- The handshake of a connection, and the others. -/
def State.take (s : State) (conn : Conn) : Option (Pending × List Pending) :=
  pick s.pending (s.pending.findIdx fun p => p.conn = conn)

/-- One step; the clock does not go back. -/
def step (E : Ed25519) (s : State) : Label → Option State
  | .challenge conn ip now nonce opened challengeFails =>
    if s.clock ≤ now ∧ now ≤ opened ∧ ∀ p ∈ s.pending, p.conn ≠ conn then
      let admitted := authAllow s.attempts ip now
      let s := { s with clock := opened, attempts := admitted.1 }
      if admitted.2 = false then some s
      else
        match nonce with
        | none => some s
        | some nonce =>
          let s := { s with drawn := nonce :: s.drawn }
          if challengeFails then some s else some { s with pending := ⟨conn, nonce, opened⟩ :: s.pending }
    else none
  | .sign key message now =>
    if s.clock ≤ now then some { s with clock := now, signed := s.signed ++ [⟨key, message, now⟩] } else none
  | .answer conn frame now readFails responseFails =>
    if s.clock ≤ now then
      (s.take conn).map fun (p, pending) =>
        let s := { s with clock := now, pending }
        -- the context ends the calls at the deadline
        if readFails = true ∨ p.opened.ns + timeout < now.ns then s
        else
          match checkAuthRequest E p.nonce frame with
          | none => s
          | some userID =>
            if responseFails then s else { s with accepted := s.accepted ++ [⟨p, userID, provedKey frame, now⟩] }
    else none

/-- The signature that a client's answer shows. -/
def shownSignature (frame : Bytes) : Bytes := (Base64.decode (unmarshal AuthRequest.decoder .zero frame).1.signature).1

/-- A drawn nonce was neither drawn nor signed before. -/
def FreshNonce (s : State) : Label → Prop
  | .challenge _ _ _ nonce _ _ => ∀ n ∈ nonce, n ∉ s.drawn ∧ ∀ e ∈ s.signed, e.message ≠ n.bytes
  | _ => True

/-- A signature of the pending nonce that verifies under an honest key was made by the holder of the key. -/
def Unforged (E : Ed25519) (honest : Bytes → Bool) (s : State) : Label → Prop
  | .answer conn frame _ _ _ => ∀ p ∈ s.pending, p.conn = conn → honest (provedKey frame) = true →
      E.verify (provedKey frame) p.nonce.bytes (shownSignature frame) = true →
        ∃ e ∈ s.signed, e.key = provedKey frame ∧ e.message = p.nonce.bytes
  | _ => True

instance (s : State) (l : Label) : Decidable (FreshNonce s l) :=
  match l with
  | .challenge _ _ _ nonce _ _ => inferInstanceAs (Decidable (∀ n ∈ nonce, n ∉ s.drawn ∧ ∀ e ∈ s.signed, _))
  | .sign .. | .answer .. => .isTrue trivial

instance (E : Ed25519) (honest : Bytes → Bool) (s : State) (l : Label) : Decidable (Unforged E honest s l) :=
  match l with
  | .answer _ _ _ _ _ => inferInstanceAs (Decidable (∀ p ∈ s.pending, _ → _ → _ → ∃ e ∈ s.signed, _))
  | .sign .. | .challenge .. => .isTrue trivial

/-! ## One step -/

variable {E : Ed25519} {honest : Bytes → Bool} {s s' : State}

/-- All handshakes whose challenge was sent and that are not given up. -/
def State.handshakes (s : State) : List Pending := s.pending ++ s.accepted.map Accepted.handshake

/-- The nonce of a handshake and the time it was sent. -/
def Pending.asked (p : Pending) : Block 32 × Time := (p.nonce, p.opened)

/-- The signature is one that the session can have been accepted with. -/
structure Answers (e : Signed) (a : Accepted) : Prop where
  key : e.key = a.key
  nonce : e.message = a.handshake.nonce.bytes
  after : a.handshake.opened ≤ e.time
  before : e.time ≤ a.time

structure Inv (honest : Bytes → Bool) (s : State) : Prop where
  fresh : Fresh (fun e n => e.message = n.bytes) Signed.time s.signed s.drawn (s.handshakes.map Pending.asked)
  opened : ∀ p ∈ s.handshakes, p.opened ≤ s.clock
  signed : ∀ e ∈ s.signed, e.time ≤ s.clock
  answered : ∀ a ∈ s.accepted, honest a.key = true → ∃ e ∈ s.signed, Answers e a
  prompt : ∀ a ∈ s.accepted, a.time.ns ≤ a.handshake.opened.ns + timeout

theorem take_some {conn : Conn} {p : Pending} {rest : List Pending} (h : s.take conn = some (p, rest)) :
    (p :: rest).Perm s.pending ∧ p.conn = conn := by
  refine ⟨pick_perm h, ?_⟩
  simp only [State.take, pick, Option.map_eq_some_iff, Prod.mk.injEq] at h
  obtain ⟨q, found, rfl, -⟩ := h
  obtain ⟨bound, rfl⟩ := List.getElem?_eq_some_iff.1 found
  exact of_decide_eq_true (List.findIdx_getElem (w := bound))

/-- A handshake that was just opened is found. -/
theorem take_opened (s : State) (p : Pending) : State.take { s with pending := p :: s.pending } p.conn = some (p, s.pending) := by
  have first : ((p :: s.pending).findIdx fun q => q.conn = p.conn) = 0 := by
    rw [List.findIdx_cons, decide_eq_true rfl, cond_true]
  simp only [State.take, first, pick, List.getElem?_cons_zero, Option.map_some, List.eraseIdx_cons_zero]

/-- **The handshake without interruption** is `authenticate`: the same limiter, and a session accepted under the same
id, if any. -/
theorem authenticate_steps (E : Ed25519) {s : State} {conn : Conn} (ip frame : Bytes) (io : AuthIo) {opened now : Time}
    (before : s.clock ≤ io.now) (between : io.now ≤ opened) (after : opened ≤ now) (soon : now.ns ≤ opened.ns + timeout)
    (free : ∀ p ∈ s.pending, p.conn ≠ conn) :
    ∃ more, (more = [] ∨ more = [Label.answer conn frame now io.readFails io.responseFails]) ∧
      ∃ t, run (step E) s (.challenge conn ip io.now io.nonce opened io.challengeFails :: more) = some t ∧
        t.attempts = (authenticate E s.attempts ip frame io).1 ∧ t.pending = s.pending ∧
        t.accepted.map Accepted.userID = s.accepted.map Accepted.userID ++ (authenticate E s.attempts ip frame io).2.toList := by
  have guard : s.clock ≤ io.now ∧ io.now ≤ opened ∧ ∀ p ∈ s.pending, p.conn ≠ conn := ⟨before, between, free⟩
  by_cases refused : (authAllow s.attempts ip io.now).2 = false
  · refine ⟨[], .inl rfl, { s with clock := opened, attempts := (authAllow s.attempts ip io.now).1 }, ?_, ?_⟩
    · simp only [run, step, if_pos guard, if_pos refused, Option.bind_some]
    · simp only [authenticate, if_pos refused, Option.toList_none, List.append_nil, and_self]
  cases drawn : io.nonce with
  | none =>
    refine ⟨[], .inl rfl, { s with clock := opened, attempts := (authAllow s.attempts ip io.now).1 }, ?_, ?_⟩
    · simp only [run, step, if_pos guard, if_neg refused, Option.bind_some]
    · simp only [authenticate, if_neg refused, drawn, Option.toList_none, List.append_nil, and_self]
  | some nonce =>
    by_cases unsent : io.challengeFails = true
    · refine ⟨[], .inl rfl, { s with
        clock := opened, attempts := (authAllow s.attempts ip io.now).1, drawn := nonce :: s.drawn }, ?_, ?_⟩
      · simp only [run, step, if_pos guard, if_neg refused, if_pos unsent, Option.bind_some]
      · simp only [authenticate, if_neg refused, drawn, if_pos unsent, Option.toList_none, List.append_nil, and_self]
    · have late : ¬ opened.ns + timeout < now.ns := by omega
      have found := take_opened { s with
        clock := opened, attempts := (authAllow s.attempts ip io.now).1, drawn := nonce :: s.drawn } ⟨conn, nonce, opened⟩
      refine ⟨[.answer conn frame now io.readFails io.responseFails], .inr rfl, ?_⟩
      simp only [run, step, if_pos guard, if_neg refused, if_neg unsent, Option.bind_some, if_pos after, found,
        Option.map_some, late, or_false, Option.some.injEq, exists_eq_left', authenticate, drawn]
      by_cases unread : io.readFails = true
      · simp only [if_pos unread, Option.toList_none, List.append_nil, and_self]
      · simp only [if_neg unread]
        cases checkAuthRequest E nonce frame with
        | none => simp only [Option.toList_none, List.append_nil, and_self]
        | some userID =>
          by_cases unwritten : io.responseFails = true
          · simp only [if_pos unwritten, Option.toList_none, List.append_nil, and_self]
          · simp only [if_neg unwritten, List.map_append, List.map_singleton, Option.toList_some, and_self]

/-- What a step can do: open no handshake or one, sign, give a handshake up, or accept it. -/
inductive Moves (E : Ed25519) (s : State) : Label → State → Prop where
  | unasked {conn : Conn} {ip : Bytes} {now opened : Time} {nonce : Option (Block 32)} {fails : Bool} {attempts : Attempts}
      {drawn : List (Block 32)} (clock : s.clock ≤ opened) (more : drawn = s.drawn ∨ ∃ n, drawn = n :: s.drawn) :
      Moves E s (.challenge conn ip now nonce opened fails) { s with clock := opened, attempts, drawn }
  | asked {conn : Conn} {ip : Bytes} {now opened : Time} {nonce : Block 32} {fails : Bool} {attempts : Attempts}
      (clock : s.clock ≤ opened) (free : ∀ p ∈ s.pending, p.conn ≠ conn) :
      Moves E s (.challenge conn ip now (some nonce) opened fails)
        { s with clock := opened, attempts, drawn := nonce :: s.drawn, pending := ⟨conn, nonce, opened⟩ :: s.pending }
  | signed {key message : Bytes} {now : Time} (clock : s.clock ≤ now) :
      Moves E s (.sign key message now) { s with clock := now, signed := s.signed ++ [⟨key, message, now⟩] }
  | failed {frame : Bytes} {now : Time} {readFails responseFails : Bool} {p : Pending} {rest : List Pending}
      (clock : s.clock ≤ now) (same : (p :: rest).Perm s.pending) :
      Moves E s (.answer p.conn frame now readFails responseFails) { s with clock := now, pending := rest }
  | accepted {frame : Bytes} {now : Time} {readFails responseFails : Bool} {p : Pending} {rest : List Pending}
      {userID : Bytes} (clock : s.clock ≤ now) (same : (p :: rest).Perm s.pending)
      (soon : now.ns ≤ p.opened.ns + timeout) (checked : checkAuthRequest E p.nonce frame = some userID) :
      Moves E s (.answer p.conn frame now readFails responseFails)
        { s with clock := now, pending := rest, accepted := s.accepted ++ [⟨p, userID, provedKey frame, now⟩] }

theorem step_cases {l : Label} (next : step E s l = some s') : Moves E s l s' := by
  cases l with
  | challenge conn ip now nonce opened fails =>
    simp only [step] at next
    split at next
    case isFalse => cases next
    case isTrue guard =>
      have clock : s.clock ≤ opened := Nat.le_trans guard.1 guard.2.1
      repeat' split at next
      all_goals cases next
      · exact .unasked clock (.inl rfl)
      · exact .unasked clock (.inl rfl)
      · exact .unasked clock (.inr ⟨_, rfl⟩)
      · exact .asked clock guard.2.2
  | sign key message now =>
    simp only [step] at next
    split at next
    case isFalse => cases next
    case isTrue clock =>
      cases next
      exact .signed clock
  | answer conn frame now readFails responseFails =>
    simp only [step] at next
    split at next
    case isFalse => cases next
    case isTrue clock =>
      obtain ⟨⟨p, rest⟩, taken, rfl⟩ := Option.map_eq_some_iff.1 next
      obtain ⟨same, rfl⟩ := take_some taken
      dsimp only
      split
      · exact .failed clock same
      · rename_i good
        split
        · exact .failed clock same
        · rename_i userID found
          split
          · exact .failed clock same
          · exact .accepted clock same (Nat.le_of_not_lt fun late => good (.inr late)) found

theorem inv_init (honest : Bytes → Bool) (clock : Time) : Inv honest (init clock) := by
  constructor
  · exact Fresh.init _ _
  · intro p inside
    cases inside
  · intro e inside
    cases inside
  · intro a inside
    cases inside
  · intro a inside
    cases inside

namespace Inv

/-- Time passes, nonces are drawn and handshakes are given up. -/
theorem later (h : Inv honest s) {clock : Time} (now : s.clock ≤ clock) {attempts : Attempts} {drawn : List (Block 32)}
    {pending : List Pending} (less : pending.Subperm s.pending)
    (fresh : Fresh (fun e n => e.message = n.bytes) Signed.time s.signed drawn (s.handshakes.map Pending.asked)) :
    Inv honest { s with clock, attempts, drawn, pending } := by
  have fewer : (pending ++ s.accepted.map Accepted.handshake).Subperm s.handshakes :=
    (List.subperm_append_right _).2 less
  constructor
  · obtain ⟨part, same, inside⟩ := fewer
    exact fresh.fewer ⟨part.map Pending.asked, same.map _, inside.map _⟩
  · intro p inside
    exact Nat.le_trans (h.opened p (fewer.subset inside)) now
  · intro e inside
    exact Nat.le_trans (h.signed e inside) now
  · exact h.answered
  · exact h.prompt

/-- A challenge with a nonce that nobody has drawn or signed. -/
theorem ask (h : Inv honest s) {conn : Conn} {nonce : Block 32} {opened : Time} {attempts : Attempts}
    (clock : s.clock ≤ opened) (undrawn : nonce ∉ s.drawn) (unsigned : ∀ e ∈ s.signed, e.message ≠ nonce.bytes) :
    Inv honest { s with
      clock := opened, attempts, drawn := nonce :: s.drawn, pending := ⟨conn, nonce, opened⟩ :: s.pending } := by
  constructor
  · exact h.fresh.draw undrawn unsigned opened
  · intro p inside
    rcases List.mem_cons.1 inside with rfl | old
    · exact Nat.le_refl _
    · exact Nat.le_trans (h.opened p old) clock
  · intro e inside
    exact Nat.le_trans (h.signed e inside) clock
  · exact h.answered
  · exact h.prompt

theorem sign (h : Inv honest s) {key message : Bytes} {now : Time} (clock : s.clock ≤ now) :
    Inv honest { s with clock := now, signed := s.signed ++ [⟨key, message, now⟩] } := by
  constructor
  · apply h.fresh.write
    intro a inside
    obtain ⟨p, listed, rfl⟩ := List.mem_map.1 inside
    exact Nat.le_trans (h.opened p listed) clock
  · intro p inside
    exact Nat.le_trans (h.opened p inside) clock
  · intro e inside
    rcases List.mem_append.1 inside with old | new
    · exact Nat.le_trans (h.signed e old) clock
    · cases List.mem_singleton.1 new
      exact Nat.le_refl _
  · intro a inside own
    obtain ⟨e, said, answers⟩ := h.answered a inside own
    exact ⟨e, List.mem_append_left _ said, answers⟩
  · exact h.prompt

/-- A session is accepted on a signature that was made after its challenge. -/
theorem accept (h : Inv honest s) {p : Pending} {rest : List Pending} (same : (p :: rest).Perm s.pending) {now : Time}
    (clock : s.clock ≤ now) (soon : now.ns ≤ p.opened.ns + timeout) {userID key : Bytes}
    (signed : honest key = true → ∃ e ∈ s.signed, e.key = key ∧ e.message = p.nonce.bytes) :
    Inv honest { s with clock := now, pending := rest, accepted := s.accepted ++ [⟨p, userID, key, now⟩] } := by
  have moved : (rest ++ (s.accepted ++ [Accepted.mk p userID key now]).map Accepted.handshake).Perm s.handshakes := by
    rw [List.map_append, ← List.append_assoc]
    exact (List.perm_append_singleton p _).trans (same.append_right _)
  have held : p ∈ s.handshakes := List.mem_append_left _ (same.subset List.mem_cons_self)
  constructor
  · exact h.fresh.fewer (moved.map Pending.asked).subperm
  · intro q inside
    exact Nat.le_trans (h.opened q (moved.subset inside)) clock
  · intro e inside
    exact Nat.le_trans (h.signed e inside) clock
  · intro a inside own
    rcases List.mem_append.1 inside with old | new
    · exact h.answered a old own
    · cases List.mem_singleton.1 new
      obtain ⟨e, said, owner, text⟩ := signed own
      exact ⟨e, said, owner, text, h.fresh.younger p.asked (List.mem_map_of_mem held) e said text,
        Nat.le_trans (h.signed e said) clock⟩
  · intro a inside
    rcases List.mem_append.1 inside with old | new
    · exact h.prompt a old
    · cases List.mem_singleton.1 new
      exact soon

theorem step {l : Label} (h : Inv honest s) (trusted : FreshNonce s l ∧ Unforged E honest s l)
    (next : Handshake.step E s l = some s') : Inv honest s' := by
  cases step_cases next with
  | unasked clock more =>
    rcases more with rfl | ⟨nonce, rfl⟩
    · exact h.later clock (List.Subperm.refl _) h.fresh
    · exact h.later clock (List.Subperm.refl _) (h.fresh.waste nonce)
  | asked clock free =>
    obtain ⟨undrawn, unsigned⟩ := trusted.1 _ rfl
    exact h.ask clock undrawn unsigned
  | signed clock => exact h.sign clock
  | failed clock same => exact h.later clock ((List.sublist_cons_self _ _).subperm.trans same.subperm) h.fresh
  | accepted clock same soon checked =>
    obtain ⟨passed, -⟩ := checkAuthRequest_passed checked
    refine h.accept same clock soon fun own => ?_
    exact trusted.2 _ (same.subset List.mem_cons_self) rfl own passed.verifies

end Inv

/-! ## Agreement -/

theorem Inv.distinct (h : Inv honest s) : (s.accepted.map fun a => a.handshake.nonce).Nodup := by
  have all : (s.handshakes.map Pending.nonce).Nodup := by
    have distinct := h.fresh.distinct
    rw [List.map_map] at distinct
    exact distinct
  rw [State.handshakes, List.map_append, List.map_map] at all
  exact (List.nodup_append.1 all).2.1

/-- **Agreement.** Nonces are fresh and honest keys are not forged. Then, however handshakes, signatures and answers are
interleaved, each session that was accepted under an honest key has a signature of its own, which the key's holder made
of the session's nonce, after the challenge was sent and no more than the timeout before the session was accepted. -/
theorem sessions_agree (E : Ed25519) (honest : Bytes → Bool) (start : Time) (labels : List Label) (s : State)
    (fresh : Always (step E) FreshNonce (init start) labels)
    (unforged : Always (step E) (Unforged E honest) (init start) labels)
    (reached : run (step E) (init start) labels = some s) :
    ∃ event : Nat → Nat,
      (∀ i a, s.accepted[i]? = some a → honest a.key = true →
        ∃ e, s.signed[event i]? = some e ∧ Answers e a ∧ a.time.ns ≤ e.time.ns + timeout) ∧
      ∀ i j a b, s.accepted[i]? = some a → s.accepted[j]? = some b → honest a.key = true → honest b.key = true →
        event i = event j → i = j := by
  have inv : Inv honest s :=
    run_invariant_under (fun _ _ _ h trusted next => h.step trusted next) (inv_init honest start) (fresh.and unforged) reached
  refine answers_apart (fun a => a.handshake.nonce) (fun e a => Answers e a ∧ a.time.ns ≤ e.time.ns + timeout)
    inv.distinct ?_ ?_
  · rintro e a b ⟨answers, -⟩ ⟨answers', -⟩
    exact Block.eq_of_bytes (answers.nonce.symm.trans answers'.nonce)
  · intro a inside own
    obtain ⟨e, said, answers⟩ := inv.answered a inside own
    have soon := inv.prompt a inside
    have after : a.handshake.opened.ns ≤ e.time.ns := answers.after
    exact ⟨e, said, answers, by omega⟩

/-- A nonce that reads as a text. -/
def labelled (text : Bytes) : Block 32 := ⟨Reference.digest text, Reference.digest_length text⟩

/-- The signature that answered the first challenge is shown for the second as well; the third has its own. -/
def replayed (seed : Block 32) (first second third : Block 32) (now : Time) : List Label :=
  [.challenge 1 [] now (some first) now false, .challenge 2 [] now (some second) now false,
    .sign (Reference.ed25519.publicOf seed).bytes first.bytes now,
    .answer 1 (Client.answer Reference.ed25519 seed first (ascii "ann")) now false false,
    .answer 2 (Client.answer Reference.ed25519 seed first (ascii "ann")) now false false,
    .challenge 3 [] now (some third) now false, .sign (Reference.ed25519.publicOf seed).bytes third.bytes now,
    .answer 3 (Client.answer Reference.ed25519 seed third (ascii "ann")) now false false]

/-- The key of the seed of zeros is the honest one. -/
def keyOfZeros (key : Bytes) : Bool := key = (Reference.ed25519.publicOf (.zeros 32)).bytes

/-- The replayed signature is refused; the two accepted sessions have signatures of their own. -/
theorem sessions_agree_replayed : ∃ s, run (step Reference.ed25519) (init Reference.start)
      (replayed (.zeros 32) (labelled [1]) (labelled [2]) (labelled [3]) Reference.start) = some s ∧
    (s.accepted.map fun a => (a.handshake.conn, keyOfZeros a.key)) = [(1, true), (3, true)] ∧
    ∃ event : Nat → Nat,
      (∀ i a, s.accepted[i]? = some a → keyOfZeros a.key = true →
        ∃ e, s.signed[event i]? = some e ∧ Answers e a ∧ a.time.ns ≤ e.time.ns + timeout) ∧
      ∀ i j a b, s.accepted[i]? = some a → s.accepted[j]? = some b → keyOfZeros a.key = true → keyOfZeros b.key = true →
        event i = event j → i = j := by
  have found : ((run (step Reference.ed25519) (init Reference.start)
      (replayed (.zeros 32) (labelled [1]) (labelled [2]) (labelled [3]) Reference.start)).map fun s =>
      s.accepted.map fun a => (a.handshake.conn, keyOfZeros a.key)) = some [(1, true), (3, true)] := by decide +kernel
  obtain ⟨s, reached, accepted⟩ := Option.map_eq_some_iff.1 found
  exact ⟨s, reached, accepted, sessions_agree Reference.ed25519 keyOfZeros Reference.start _ s (by decide +kernel)
    (by decide +kernel) reached⟩

/-! ## Completion -/

/-- How a client reads the server's first frame. -/
def challengeDecoder : Decoder Challenge := record [.of "nonce" Challenge.nonce (fun b _ => ⟨b⟩) bytes]

/-- A client that reads the challenge and signs its nonce. -/
def respond (E : Ed25519) (seed : Block 32) (userID frame : Bytes) : Option Bytes :=
  let challenge := unmarshal challengeDecoder ⟨[]⟩ frame
  if challenge.2 = false then none
  else some (AuthRequest.marshal ⟨userID, Base64.encode (E.publicOf seed).bytes,
    Base64.encode (E.sign (E.privateKey seed) challenge.1.nonce)⟩)

/-- The client finds the nonce in the frame that the server sent. -/
theorem respond_challenge (E : Ed25519) (seed nonce : Block 32) (userID : Bytes) :
    respond E seed userID (Challenge.frame ⟨nonce.bytes⟩) = some (Client.answer E seed nonce userID) := by
  have plain : Printable maxNesting (.obj [(ascii "nonce", .str (Base64.encode nonce.bytes))]) := by
    apply Printable.obj
    simp [Printable.str]
  have read : unmarshal challengeDecoder ⟨[]⟩ (Challenge.frame ⟨nonce.bytes⟩) = (⟨nonce.bytes⟩, true) := by
    rw [Challenge.frame, unmarshal_line _ _ plain]
    simp only [clean, cleanMembers, challengeDecoder, record, sanitize_base64]
    rw [storeAll_found rfl]
    simp only [StructField.of, bytes_base64, storeAll, Bool.and_self]
  simp only [respond, read, Bool.true_eq_false, if_false, Client.answer]

/-- The connection that a step takes an answer from. -/
def Label.answers : Label → Option Conn
  | .answer conn _ _ _ _ => some conn
  | _ => none

/-- No connection has two handshakes. -/
def OneEach (s : State) : Prop := (s.pending.map Pending.conn).Nodup

theorem oneEach_step {l : Label} (h : OneEach s) (next : step E s l = some s') : OneEach s' := by
  have fewer : ∀ {p : Pending} {rest : List Pending}, (p :: rest).Perm s.pending → (rest.map Pending.conn).Nodup :=
    fun same => (List.nodup_cons.1 ((same.map Pending.conn).nodup_iff.2 h)).2
  cases step_cases next with
  | unasked => exact h
  | asked clock free =>
    refine List.nodup_cons.2 ⟨fun inside => ?_, h⟩
    obtain ⟨p, listed, same⟩ := List.mem_map.1 inside
    exact free p listed same
  | signed => exact h
  | failed clock same => exact fewer same
  | accepted clock same => exact fewer same

/-- The handshake of a connection is the only one of its connection. -/
theorem OneEach.take (h : OneEach s) {p : Pending} (pending : p ∈ s.pending) : ∃ rest, s.take p.conn = some (p, rest) := by
  have bound : (s.pending.findIdx fun q => q.conn = p.conn) < s.pending.length :=
    List.findIdx_lt_length_of_exists ⟨p, pending, decide_eq_true rfl⟩
  have taken : s.take p.conn = some (s.pending[s.pending.findIdx fun q => q.conn = p.conn],
      s.pending.eraseIdx (s.pending.findIdx fun q => q.conn = p.conn)) := by
    simp only [State.take, pick, List.getElem?_eq_getElem bound, Option.map_some]
  obtain ⟨same, named⟩ := take_some taken
  rw [List.inj_on_of_nodup_map h (List.getElem_mem bound) pending named] at taken
  exact ⟨_, taken⟩

/-- Nobody else's step ends a handshake. -/
theorem pending_step {l : Label} {p : Pending} (pending : p ∈ s.pending) (other : l.answers ≠ some p.conn)
    (next : step E s l = some s') : p ∈ s'.pending := by
  have left : ∀ {q : Pending} {rest : List Pending}, (q :: rest).Perm s.pending → some q.conn ≠ some p.conn → p ∈ rest := by
    intro q rest same differ
    rcases List.mem_cons.1 (same.mem_iff.2 pending) with rfl | inside
    · exact absurd rfl differ
    · exact inside
  cases step_cases next with
  | unasked => exact pending
  | asked => exact List.mem_cons_of_mem _ pending
  | signed => exact pending
  | failed clock same => exact left same other
  | accepted clock same => exact left same other

/-- **Completion.** A handshake whose challenge was sent is not undone by anything that happens on other connections: if
before the deadline the client signs the nonce it reads in the challenge, the session is accepted under the id and the
key of the client. -/
theorem handshake_completes (E : Ed25519) (start now : Time) (before between : List Label) (s t : State) (p : Pending)
    (seed : Block 32) (userID : Bytes) (reached : run (step E) (init start) before = some s) (pending : p ∈ s.pending)
    (others : ∀ l ∈ between, l.answers ≠ some p.conn) (continued : run (step E) s between = some t)
    (later : t.clock ≤ now) (soon : now.ns ≤ p.opened.ns + timeout) (named : userID ≠ []) (text : Utf8.Valid userID) :
    ∃ frame t', respond E seed userID (Challenge.frame ⟨p.nonce.bytes⟩) = some frame ∧
      step E t (.answer p.conn frame now false false) = some t' ∧
        t'.accepted = t.accepted ++ [⟨p, userID, (E.publicOf seed).bytes, now⟩] := by
  have none : OneEach (init start) := List.nodup_nil
  have one : OneEach s := run_invariant (fun _ _ _ h next => oneEach_step h next) none reached
  obtain ⟨one, still⟩ : OneEach t ∧ p ∈ t.pending :=
    run_invariant_under (C := fun _ l => l.answers ≠ some p.conn) (P := fun s => OneEach s ∧ p ∈ s.pending)
      (fun _ _ _ h other next => ⟨oneEach_step h.1 next, pending_step h.2 other next⟩) ⟨one, pending⟩
      (always_of_forall others s) continued
  obtain ⟨rest, taken⟩ := one.take still
  have prompt : ¬ (false = true ∨ p.opened.ns + timeout < now.ns) := by
    rintro (fails | late)
    · cases fails
    · omega
  have proved : provedKey (Client.answer E seed p.nonce userID) = (E.publicOf seed).bytes := by
    simp only [provedKey, Client.unmarshal_answer E seed p.nonce text, Base64.decode_encode]
  refine ⟨_, { t with
    clock := now, pending := rest, accepted := t.accepted ++ [⟨p, userID, (E.publicOf seed).bytes, now⟩] },
    respond_challenge E seed p.nonce userID, ?_, rfl⟩
  simp only [step, if_pos later, taken, Option.map_some]
  rw [if_neg prompt]
  simp only [Client.checkAuthRequest_answer E seed p.nonce text named, proved, Bool.false_eq_true, if_false]

/-- While connection 1 waits for its client, connection 2 shows a signature of another nonce. -/
def distracted (first second : Block 32) (now : Time) : List Label :=
  [.challenge 2 [] now (some second) now false,
    .answer 2 (Client.answer Reference.ed25519 (.zeros 32) first (ascii "bob")) now false false]

theorem handshake_completes_distracted : ∃ s t t' frame,
    run (step Reference.ed25519) (init Reference.start)
      [.challenge 1 [] Reference.start (some (labelled [1])) Reference.start false] = some s ∧
    run (step Reference.ed25519) s (distracted (labelled [1]) (labelled [2]) Reference.start) = some t ∧
    respond Reference.ed25519 (.zeros 32) (ascii "ann") (Challenge.frame ⟨(labelled [1]).bytes⟩) = some frame ∧
    step Reference.ed25519 t (.answer 1 frame Reference.start false false) = some t' ∧
    t'.accepted = t.accepted ++ [⟨⟨1, labelled [1], Reference.start⟩, ascii "ann", (Block.zeros 32).bytes, Reference.start⟩] := by
  have found : ((run (step Reference.ed25519) (init Reference.start)
      [.challenge 1 [] Reference.start (some (labelled [1])) Reference.start false]).bind fun s =>
      (run (step Reference.ed25519) s (distracted (labelled [1]) (labelled [2]) Reference.start)).map fun t =>
        (s.pending, t.clock)) = some ([⟨1, labelled [1], Reference.start⟩], Reference.start) := by decide +kernel
  obtain ⟨s, reached, found⟩ := Option.bind_eq_some_iff.1 found
  obtain ⟨t, continued, held⟩ := Option.map_eq_some_iff.1 found
  obtain ⟨pending, clock⟩ := Prod.mk.inj held
  obtain ⟨frame, t', answered, next, accepted⟩ := handshake_completes Reference.ed25519 Reference.start Reference.start _ _
    s t ⟨1, labelled [1], Reference.start⟩ (.zeros 32) (ascii "ann") reached (by rw [pending]; exact List.mem_cons_self)
    (by decide) continued (by rw [clock]; exact Nat.le_refl _) (by decide) (by decide) (by decide)
  exact ⟨s, t, t', frame, reached, continued, answered, next, accepted⟩

end SpectreRelay.Server.Handshake
