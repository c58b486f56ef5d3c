import SpectreRelay.Server.Restarts

/-!
# A frame does not tell which way it came

A message is written as it was handed in, or it is stored as JSON first, any
number of times and over restarts, and written as what was read back. Storing
repairs malformed strings and does nothing else, and a client that decodes a
frame repairs them too: it reads the same envelope on every path
(`path_independent`). What it reads has the recipient, ciphertext, time and id
that were decoded when the message entered.
-/

namespace SpectreRelay.Server
set_option autoImplicit false
open Lib Lib.Json Model

/-! ## What a client reads -/

/-- The fields that both envelopes have. -/
structure Contents where
  recipientID : Bytes
  ciphertext : Bytes
  timestampMS : Int64
  id : Bytes
deriving DecidableEq

namespace QueuedMessage

/-- The common fields of the envelope a message holds. -/
def contents (m : QueuedMessage) : Option Contents :=
  match m.sealed, m.opened with
  | some e, _ => some ⟨e.recipientID, e.ciphertext, e.timestampMS, e.id⟩
  | none, some e => some ⟨e.recipientID, e.ciphertext, e.timestampMS, e.id⟩
  | none, none => none

/-- What a client decodes from a frame that holds an envelope of the form of `m`. -/
def receive (m : QueuedMessage) (frame : Bytes) : Option QueuedMessage :=
  match m.sealed with
  | some _ =>
    let decoded := unmarshal SealedEnvelope.decoder .zero frame
    if decoded.2 then some (.ofSealed decoded.1) else none
  | none =>
    let decoded := unmarshal OpenEnvelope.decoder .zero frame
    if decoded.2 then some (.ofOpen decoded.1) else none

/-- The frame of a message decodes to its envelope, the strings sanitized. -/
theorem receive_frame {m : QueuedMessage} {frame : Bytes} (single : m.Single) (text : marshalQueued m = some frame) :
    m.receive frame = some (m.sanitize.stamp 0) := by
  obtain ⟨sealed, opened, x⟩ := m
  cases sealed with
  | some e =>
    cases opened with
    | some o => cases single
    | none =>
      cases text
      simp only [receive, SealedEnvelope.unmarshal_marshal, if_true]
      rfl
  | none =>
    cases opened with
    | some o =>
      cases text
      simp only [receive, OpenEnvelope.unmarshal_marshal, if_true]
      rfl
    | none => cases single

theorem receive_sanitize (m : QueuedMessage) (frame : Bytes) : m.sanitize.receive frame = m.receive frame := by
  obtain ⟨sealed, opened, x⟩ := m
  cases sealed <;> rfl

theorem sanitize_single {m : QueuedMessage} (single : m.Single) : m.sanitize.Single := single_stored single m.expiresAt

/-- The frame of the sanitized message decodes to the same envelope. -/
theorem receive_frame_sanitize {m : QueuedMessage} {frame : Bytes} (single : m.Single)
    (text : marshalQueued m.sanitize = some frame) : m.receive frame = some (m.sanitize.stamp 0) := by
  have twice : m.sanitize.sanitize = m.sanitize := m.valid_sanitize.sanitize
  rw [← receive_sanitize, receive_frame (sanitize_single single) text, twice]

end QueuedMessage

namespace Delivery

/-! ## How a message entered -/

/-- The message that the payload of a step holds, as `Route` or `handleFederationDeliver` decodes it. -/
def ingress : Label → Option QueuedMessage
  | .frame _ data _ => (classify data).map Prod.snd
  | .post _ body => some (.ofSealed (decodeFirst SealedEnvelope.decoder .zero body).1)
  | _ => none

/-- The call hands over what the payload of the step holds; a federated envelope is tagged with the header. -/
inductive Enters : Label → Handed → Prop where
  | routed {senderID data r name : Bytes} {now : Time} {m : QueuedMessage} (decoded : classify data = some (r, m)) :
      Enters (.frame senderID data now) ⟨name, m, .client senderID⟩
  | federated {header body name : Bytes} {e : SealedEnvelope}
      (decoded : (decodeFirst SealedEnvelope.decoder .zero body).1 = e) :
      Enters (.post header body) ⟨name, .ofSealed { e with federationSenderRelay := header }, .federation header⟩

/-- A client reads the fields that were decoded when the message entered. -/
theorem Enters.contents {l : Label} {h : Handed} (enters : Enters l h) :
    ∃ m c, ingress l = some m ∧ m.contents = some c ∧ (h.msg.sanitize.stamp 0).contents = some c := by
  cases enters with
  | @routed senderID data r name now m decoded =>
    have valid : m.sanitize = m := (classify_valid decoded).sanitize
    have single := classify_single decoded
    obtain ⟨c, found⟩ : ∃ c, m.contents = some c := by
      obtain ⟨sealed, opened, x⟩ := m
      cases sealed with
      | some e => exact ⟨_, rfl⟩
      | none =>
        cases opened with
        | some o => exact ⟨_, rfl⟩
        | none => cases single
    refine ⟨m, c, by simp [ingress, decoded], found, ?_⟩
    show (m.sanitize.stamp 0).contents = some c
    rw [valid]
    exact found
  | @federated header body name e decoded =>
    have valid : e.Valid := by
      rw [← decoded]
      exact SealedEnvelope.decodeFirst_valid body
    refine ⟨.ofSealed e, ⟨e.recipientID, e.ciphertext, e.timestampMS, e.id⟩, ?_, rfl, ?_⟩
    · simp only [ingress, decoded]
    · show some (Contents.mk (Utf8.sanitize e.recipientID) e.ciphertext e.timestampMS (Utf8.sanitize e.id)) = _
      rw [valid.recipientID.sanitize, valid.id.sanitize]

/-- Every call was handed over by a step of the run. -/
def Entered (events : List Event) (s : State) : Prop := ∀ h ∈ s.handed, ∃ l, .step l ∈ events ∧ Enters l h

namespace Entered

variable {P : Platform} {ttlSeconds : Int64} {events : List Event} {s : State}

theorem hand (h : Entered events s) {call : Option (Bytes × QueuedMessage)} {origin : Origin} {l : Label}
    (taken : .step l ∈ events) (enters : ∀ r m name, call = some (r, m) → Enters l ⟨name, m, origin⟩) :
    Entered events (s.hand call origin) := by
  rcases State.hand_cases s call origin with ⟨posts, same⟩ | ⟨r, m, name, made, _, same⟩
  · rw [same]
    exact h
  · rw [same]
    intro handed inside
    rcases List.mem_append.1 inside with old | new
    · exact h handed old
    · rw [List.mem_singleton.1 new]
      exact ⟨l, taken, enters r m name made⟩

theorem advance (h : Entered events s) {e : Event} (taken : e ∈ events) {s' : State}
    (advanced : State.advance P ttlSeconds s e = some s') : Entered events s' := by
  rcases State.advance_cases advanced with ⟨l, rfl, stepped⟩ | ⟨io, store, rfl, started, rfl⟩
  · cases State.step_cases stepped with
    | @frame senderID data now router call kind route =>
      have routed : Entered events { s with router } := h
      refine routed.hand taken fun r m name made => ?_
      rw [made] at route
      exact .routed (route_classify route)
    | @post header body =>
      refine h.hand taken fun r m name made => ?_
      rw [federationDeliver_some made]
      exact .federated rfl
    | _ => exact h
  · exact h

end Entered

/-! ## Frames -/

/-- An unfinished call holds what was handed in, a flush what was stored, and a frame is the text of one of them. -/
structure Exact (s : State) : Prop where
  calls : ∀ c ∈ s.calls, ∃ h, s.handed[c.id]? = some h ∧ h.msg = c.msg
  pending : ∀ ss ∈ s.sessions, ∀ p ∈ ss.phase.pending, p.2.Valid
  written : ∀ w ∈ s.written, ∃ h, s.handed[w.id]? = some h ∧ h.msg.Single ∧
    (marshalQueued h.msg = some w.frame ∨ marshalQueued h.msg.sanitize = some w.frame)

/-- A well-formed message with the text of another has the frame of that one, sanitized. -/
theorem SameText.frame {m m' : QueuedMessage} (same : SameText m m') (valid : m.Valid) :
    marshalQueued m = marshalQueued m'.sanitize := by
  obtain ⟨first, second⟩ := same
  rw [valid.sanitize] at first second
  simp only [marshalQueued, first, second]

theorem single_of_sameText {m m' : QueuedMessage} (same : SameText m m') (single : m.Single) : m'.Single := by
  obtain ⟨first, second⟩ := same
  have one := congrArg Option.isSome first
  have two := congrArg Option.isSome second
  simp only [QueuedMessage.sanitize, Option.isSome_map] at one two
  rw [QueuedMessage.Single, ← one, ← two]
  exact single

namespace Exact

variable {P : Platform} {ttlSeconds : Int64} {s : State}

theorem init (store : Store) (router : Router) : Exact (State.init store router) where
  calls := fun _ inside => absurd inside List.not_mem_nil
  pending := fun _ inside => absurd inside List.not_mem_nil
  written := fun _ inside => absurd inside List.not_mem_nil

theorem hand (h : Exact s) (call : Option (Bytes × QueuedMessage)) (origin : Origin) : Exact (s.hand call origin) := by
  rcases State.hand_cases s call origin with ⟨posts, same⟩ | ⟨r, m, name, made, _, same⟩
  · rw [same]
    exact ⟨h.calls, h.pending, h.written⟩
  · rw [same]
    refine ⟨?_, h.pending, ?_⟩
    · intro c inside
      rcases List.mem_cons.1 inside with rfl | old
      · exact ⟨⟨name, m, origin⟩, by simp, rfl⟩
      · obtain ⟨call, found, rest⟩ := h.calls c old
        exact ⟨call, getElem?_grown found _, rest⟩
    · intro w inside
      obtain ⟨call, found, rest⟩ := h.written w inside
      exact ⟨call, getElem?_grown found _, rest⟩

/-- A call that goes on. -/
theorem proceed (h : Exact s) {i id : Nat} {r : Bytes} {m : QueuedMessage} {stage next : Stage} {rest : List Call}
    (picked : pick s.calls i = some (⟨id, r, m, stage⟩, rest)) : Exact { s with calls := ⟨id, r, m, next⟩ :: rest } := by
  refine ⟨?_, h.pending, h.written⟩
  intro c inside
  rcases List.mem_cons.1 inside with rfl | old
  · have before := h.calls _ (mem_of_pick picked)
    exact before
  · exact h.calls c (mem_of_pick_rest picked old)

/-- A session that goes on with messages it already held. -/
theorem flush (h : Exact s) {j : Nat} {conn : Conn} {userID : Bytes} {phase next : Phase} {rest : List Session}
    (picked : pick s.sessions j = some (⟨conn, userID, phase⟩, rest)) (fewer : ∀ p ∈ next.pending, p ∈ phase.pending) :
    Exact { s with sessions := ⟨conn, userID, next⟩ :: rest } := by
  refine ⟨h.calls, ?_, h.written⟩
  intro ss inside p waiting
  rcases List.mem_cons.1 inside with rfl | old
  · exact h.pending _ (mem_of_pick picked) p (fewer p waiting)
  · exact h.pending ss (mem_of_pick_rest picked old) p waiting

theorem write (h : Exact s) {id : Nat} {conn : Conn} {frame : Bytes} {call : Handed} (found : s.handed[id]? = some call)
    (single : call.msg.Single) (text : marshalQueued call.msg = some frame ∨ marshalQueued call.msg.sanitize = some frame) :
    Exact { s with written := s.written ++ [⟨id, conn, frame⟩] } := by
  refine ⟨h.calls, h.pending, ?_⟩
  intro w inside
  rcases List.mem_append.1 inside with old | new
  · exact h.written w old
  · rw [List.mem_singleton.1 new]
    exact ⟨call, found, single, text⟩

/-- What a drain reads is well-formed. -/
theorem drained (inv : Inv P s) {userID : Bytes} {now : Time} {fileNonce : Block 12} {row : Nat × QueuedMessage}
    (inside : row ∈ s.store.drainedRows P userID (.clean now fileNonce)) : row.2.Valid := by
  obtain ⟨stored, listed, _, _, decoded⟩ := Store.mem_drainedRows inside
  obtain ⟨m, decoded', valid, _⟩ := inv.rows _ listed
  rw [decoded] at decoded'
  cases decoded'
  exact valid

/-- **Every step keeps the frames exact.** -/
theorem step (h : Exact s) (inv : Inv P s) {l : Label} {s' : State} (stepped : State.step P s l = some s') : Exact s' := by
  cases State.step_cases stepped with
  | @frame _ _ _ router call kind route =>
    have routed : Exact { s with router } := ⟨h.calls, h.pending, h.written⟩
    exact routed.hand _ _
  | control => exact h
  | post => exact h.hand _ _
  | online picked found => exact h.proceed picked
  | offline picked missing => exact h.proceed picked
  | @wrote i id r frame m rest conn picked text =>
    obtain ⟨call, found, same⟩ := h.calls _ (mem_of_pick picked)
    have single : call.msg.Single := by rw [same]; exact (inv.calls _ (mem_of_pick picked)).single
    have finished : Exact { s with calls := rest } :=
      ⟨fun c inside => h.calls c (mem_of_pick_rest picked inside), h.pending, h.written⟩
    exact finished.write found single (.inl (by rw [same]; exact text))
  | writeFailed picked reason => exact h.proceed picked
  | enqueue picked =>
    exact ⟨fun c inside => h.calls c (mem_of_pick_rest picked inside), h.pending, h.written⟩
  | register fresh =>
    refine ⟨h.calls, ?_, h.written⟩
    intro ss inside p waiting
    rcases List.mem_cons.1 inside with rfl | old
    · cases waiting
    · exact h.pending ss old p waiting
  | drain picked =>
    refine ⟨h.calls, ?_, h.written⟩
    intro ss inside p waiting
    rcases List.mem_cons.1 inside with rfl | old
    · rw [Phase.pending_flush] at waiting
      obtain ⟨row, read, rfl⟩ := List.mem_map.1 waiting
      have valid := drained inv read
      exact valid
    · exact h.pending ss (mem_of_pick_rest picked old) p waiting
  | skipped picked text =>
    refine h.flush picked fun p waiting => ?_
    rw [Phase.pending_flush] at waiting
    exact List.mem_cons_of_mem _ waiting
  | @flushed j id conn userID frame m left rest picked text =>
    obtain ⟨call, found, _, single, same⟩ := inv.pending _ (mem_of_pick picked) (id, m) List.mem_cons_self
    have valid := h.pending _ (mem_of_pick picked) (id, m) List.mem_cons_self
    have moved : Exact { s with sessions := ⟨conn, userID, .flush left⟩ :: rest } := by
      refine h.flush picked fun p waiting => ?_
      rw [Phase.pending_flush] at waiting
      exact List.mem_cons_of_mem _ waiting
    refine moved.write found (single_of_sameText same single) (.inr ?_)
    rw [← same.frame valid]
    exact text
  | flushFailed picked => exact h.flush picked fun _ waiting => waiting
  | @requeue j id conn userID m left rest t picked =>
    have moved : Exact { s with sessions := ⟨conn, userID, .requeue left⟩ :: rest } := by
      refine h.flush picked fun p waiting => ?_
      rw [Phase.pending_requeue] at waiting
      exact List.mem_cons_of_mem _ waiting
    exact ⟨moved.calls, moved.pending, moved.written⟩
  | unregister picked =>
    exact ⟨h.calls, fun ss inside => h.pending ss (mem_of_pick_rest picked inside), h.written⟩
  | purge => exact ⟨h.calls, h.pending, h.written⟩

theorem advance (h : Exact s) (inv : Inv P s) {e : Event} {s' : State}
    (advanced : State.advance P ttlSeconds s e = some s') : Exact s' := by
  rcases State.advance_cases advanced with ⟨l, rfl, stepped⟩ | ⟨io, store, rfl, started, rfl⟩
  · exact h.step inv stepped
  · exact ⟨fun _ inside => absurd inside List.not_mem_nil, fun _ inside => absurd inside List.not_mem_nil, h.written⟩

end Exact

/-- What a client gets in a frame of the message that the step `l` handed in. -/
structure Received (l : Label) (h : Handed) (frame : Bytes) : Prop where
  enters : Enters l h
  /-- The frame decodes to the envelope that a direct write gives. -/
  envelope : ∃ direct e, marshalQueued h.msg = some direct ∧ h.msg.receive direct = some e ∧ h.msg.receive frame = some e
  /-- If all strings are well-formed, it is that frame. -/
  bytes : h.msg.Valid → marshalQueued h.msg = some frame
  /-- The envelope has the fields that were decoded when the message entered. -/
  fields : ∃ m e c, ingress l = some m ∧ h.msg.receive frame = some e ∧ m.contents = some c ∧ e.contents = some c

/-- **Path independence.** In every state reached from a first start by any steps and restarts, every frame that a
connection received decodes to the envelope of a direct write, and every stored record holds one envelope. -/
theorem path_independent (P : Platform) (ttlSeconds : Int64) (fresh : Block 32) (fileNonce : Block 12) (store : Store)
    (started : (Store.newStore P .empty ttlSeconds (.clean fresh fileNonce)).2 = .ok store) (router : Router)
    (events : List Event) (s : State)
    (reached : run (State.advance P ttlSeconds) (State.init store router) events = some s) :
    (∀ w ∈ s.written, ∃ l h, .step l ∈ events ∧ s.handed[w.id]? = some h ∧ Received l h w.frame) ∧
      Store.AllRows P (fun row => ∃ m, Store.readPayload P s.store.key row.2.payload = some m ∧ m.Single) s.store := by
  have all : (Kept P s ∧ Exact s) ∧ Entered events s :=
    run_invariant_under (C := fun _ e => e ∈ events) (P := fun s => (Kept P s ∧ Exact s) ∧ Entered events s)
      (fun _ _ _ before taken advanced =>
        ⟨⟨before.1.1.advance advanced, before.1.2.advance before.1.1.inv advanced⟩, before.2.advance taken advanced⟩)
      ⟨⟨.init started router, .init store router⟩, fun _ inside => absurd inside List.not_mem_nil⟩
      (always_of_forall (fun _ inside => inside) _) reached
  obtain ⟨⟨kept, exact'⟩, entered⟩ := all
  refine ⟨?_, kept.rows.mono fun row _ ⟨m, reads, _, tracked⟩ => ⟨m, reads, tracked.single⟩⟩
  intro w inside
  obtain ⟨h, found, single, text⟩ := exact'.written w inside
  obtain ⟨l, taken, enters⟩ := entered h (List.mem_of_getElem? found)
  obtain ⟨m, c, decoded, fields, same⟩ := enters.contents
  obtain ⟨direct, plain⟩ := marshalQueued_single single
  have received : h.msg.receive w.frame = some (h.msg.sanitize.stamp 0) := by
    rcases text with written | stored
    · exact QueuedMessage.receive_frame single written
    · exact QueuedMessage.receive_frame_sanitize single stored
  refine ⟨l, h, taken, found, enters, ?_, ?_, ⟨m, _, c, decoded, received, fields, same⟩⟩
  · exact ⟨direct, _, plain, QueuedMessage.receive_frame single plain, received⟩
  · intro valid
    rw [valid.sanitize, or_self] at text
    exact text

/-- A message with a malformed tag for an absent user: queued, reloaded, drained, put back and flushed. -/
def longWay : List Event :=
  [.step (.post [98, 255] (SealedEnvelope.marshal ⟨ascii "bob@a", [1], 5, ascii "m", []⟩)), .step (.lookup 0),
    .step (.enqueue 0 .start), .restart (.clean (.zeros 32) (.zeros 12)), .step (.register (ascii "bob") 7),
    .step (.drain 0 Reference.start (.zeros 12)), .step (.flushWrite 0 true), .step (.requeue 0 .start),
    .step (.register (ascii "bob") 8), .step (.drain 0 Reference.start (.zeros 12)), .step (.flushWrite 0 false)]

theorem path_independent_longWay :
    ∃ s w, run (State.advance Reference.platform 60)
        (State.init Reference.firstStore (.new 65536 60 (ascii "a"))) longWay = some s ∧ w ∈ s.written ∧
      ∃ l h, .step l ∈ longWay ∧ s.handed[w.id]? = some h ∧ Received l h w.frame := by
  have found : ((run (State.advance Reference.platform 60) (State.init Reference.firstStore (.new 65536 60 (ascii "a")))
      longWay).map fun s => s.written.head?.isSome) = some true := by decide +kernel
  obtain ⟨s, reached, some⟩ := Option.map_eq_some_iff.1 found
  obtain ⟨w, first⟩ := Option.isSome_iff_exists.1 some
  have inside := List.mem_of_mem_head? first
  exact ⟨s, w, reached, inside, (path_independent Reference.platform 60 (.zeros 32) (.zeros 12) Reference.firstStore
    Reference.firstStore_started _ longWay s reached).1 w inside⟩

end Delivery

end SpectreRelay.Server
