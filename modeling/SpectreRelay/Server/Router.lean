import SpectreRelay.Server.Limits
import SpectreRelay.Server.Names
import SpectreRelay.Server.Store

/-!
# Routing

`server/router.go`. `Route` decides what a client's payload is and whom it is
for; `deliver` sends it to another relay, to a connection, or to the queue.
Between its critical sections `deliver` can be interleaved with everything
else, so it is split at them: `target` is what it decides before it touches the
store, and the steps that follow are taken by `Delivery`.
-/

namespace SpectreRelay.Server
set_option autoImplicit false
open Lib Lib.Json Model

/-- The router's configuration and its limiter. -/
structure Router where
  maxMessageSize : Int
  ratePerMin : Int
  relayID : Bytes
  rateAttempts : Attempts

/-- Where `deliver` sends a message. -/
inductive Target where
  /-- Nowhere: an open envelope for another relay. -/
  | drop
  /-- To the relay at `domain`. -/
  | forward (domain : Bytes) (sealed : SealedEnvelope)
  /-- To the local user with this key. -/
  | local (recipientID : Bytes)
deriving DecidableEq

/-- What `deliver` decides before it looks the recipient up. -/
def target (relayID recipientID : Bytes) (m : QueuedMessage) : Target :=
  match Bytes.cut 64 recipientID with
  | none => .local recipientID
  | some (name, domain) =>
    if isLocalRelay domain relayID then .local name
    else
      match m.sealed with
      | none => .drop
      | some sealed => .forward domain sealed

/-- A message that holds a sealed envelope. -/
def QueuedMessage.ofSealed (e : SealedEnvelope) : QueuedMessage := ⟨some e, none, 0⟩

/-- A message that holds an open envelope. -/
def QueuedMessage.ofOpen (e : OpenEnvelope) : QueuedMessage := ⟨none, some e, 0⟩

/-- The `deliver` call that a payload leads to: sealed is tried first. -/
def classify (payload : Bytes) : Option (Bytes × QueuedMessage) :=
  let sealed := unmarshal SealedEnvelope.decoder .zero payload
  if sealed.2 ∧ sealed.1.recipientID ≠ [] ∧ sealed.1.ciphertext ≠ [] then
    some (sealed.1.recipientID, .ofSealed sealed.1)
  else
    let opened := unmarshal OpenEnvelope.decoder .zero payload
    if opened.2 ∧ opened.1.recipientID ≠ [] ∧ opened.1.ciphertext ≠ [] then
      some (opened.1.recipientID, .ofOpen opened.1)
    else none

namespace Router

def new (maxMessageSize ratePerMin : Int) (relayID : Bytes) : Router :=
  ⟨maxMessageSize, ratePerMin, relayID, fun _ => []⟩

def allow (r : Router) (userID : Bytes) (now : Time) : Router × Bool :=
  let answer := allowAt r.ratePerMin r.rateAttempts userID now
  ({ r with rateAttempts := answer.1 }, answer.2)

/-- Handles one payload of an authenticated sender: the `deliver` call it makes, if any. -/
def route (r : Router) (senderID payload : Bytes) (now : Time) : Router × Option (Bytes × QueuedMessage) :=
  if r.maxMessageSize < payload.length then (r, none)
  else
    let admitted := r.allow senderID now
    if admitted.2 then (admitted.1, classify payload) else (admitted.1, none)

end Router

/-- The frame that is written to a client. -/
def marshalQueued (m : QueuedMessage) : Option Bytes :=
  match m.sealed, m.opened with
  | some e, _ => some e.marshal
  | none, some e => some e.marshal
  | none, none => none

/-! ## Delivery in one go -/

/-- What became of a message given to `deliver`. -/
inductive Delivered where
  | dropped
  | forwarded (domain : Bytes) (sealed : SealedEnvelope)
  | written (conn : Conn) (frame : Bytes)
  | queued (recipientID : Bytes)
deriving DecidableEq

/-- `deliver` with nothing in between: forward, write to the connection, or enqueue when there is none or the write
fails. -/
def deliver (P : Platform) (s : Store) (relayID recipientID : Bytes) (m : QueuedMessage) (writeFails : Bool)
    (io : Store.EnqueueIo) : Store × Delivered :=
  match target relayID recipientID m with
  | .drop => (s, .dropped)
  | .forward domain sealed => (s, .forwarded domain sealed)
  | .local name =>
    match s.lookupClient name, marshalQueued m with
    | some conn, some frame =>
      if writeFails then (s.enqueue P name m io, .queued name) else (s, .written conn frame)
    | _, _ => (s.enqueue P name m io, .queued name)

/-- Puts messages back in order; the `i`th call has its own readings. -/
def requeue (P : Platform) (userID : Bytes) (io : Nat → Store.EnqueueIo) : Nat → List QueuedMessage → Store → Store
  | _, [], s => s
  | i, m :: left, s => requeue P userID io (i + 1) left (s.enqueue P userID m (io i))

/-- The loop over drained messages: a failing write puts the message and all after it back. -/
def flushLoop (P : Platform) (userID : Bytes) (fails : Nat → Bool) (io : Nat → Store.EnqueueIo) :
    Nat → List QueuedMessage → Store → Store × List Bytes
  | _, [], s => (s, [])
  | i, m :: left, s =>
    match marshalQueued m with
    | none => flushLoop P userID fails io (i + 1) left s
    | some frame =>
      if fails i then (requeue P userID io i (m :: left) s, [])
      else
        let rest := flushLoop P userID fails io (i + 1) left s
        (rest.1, frame :: rest.2)

/-- Drains the queue of a freshly connected user: the store afterwards, and the frames written to the connection. -/
def flushQueue (P : Platform) (s : Store) (userID : Bytes) (drain : Store.DrainIo) (fails : Nat → Bool)
    (io : Nat → Store.EnqueueIo) : Store × List Bytes :=
  let drained := s.drainQueue P userID drain
  flushLoop P userID fails io 0 drained.2 drained.1

/-- Without a failing write every drained message is written. -/
theorem flushLoop_written (P : Platform) (userID : Bytes) (io : Nat → Store.EnqueueIo) (i : Nat)
    (messages : List QueuedMessage) (s : Store) :
    flushLoop P userID (fun _ => false) io i messages s = (s, messages.filterMap marshalQueued) := by
  induction messages generalizing i with
  | nil => rfl
  | cons m left ih =>
    cases text : marshalQueued m with
    | none => simp only [flushLoop, text, ih, List.filterMap_cons]
    | some frame => simp only [flushLoop, text, ih, List.filterMap_cons, Bool.false_eq_true, if_false]

/-! ## Federation -/

/-- A federation request. -/
structure Request where
  url : Bytes
  contentType : Bytes
  relayHeader : Bytes
  body : Bytes
deriving DecidableEq

/-- What the HTTP library accepts: URLs that it parses and header values that it sends. -/
structure Http where
  parses : Bytes → Bool
  sendable : Bytes → Bool

/-- The request for an envelope, unless the library rejects its URL or header. -/
def forwardFederated (H : Http) (relayID domain : Bytes) (sealed : SealedEnvelope) : Option Request :=
  let url := ascii "http://" ++ domain ++ ascii "/federation/deliver"
  if H.parses url ∧ H.sendable relayID then some ⟨url, ascii "application/json", relayID, sealed.marshal⟩
  else none

/-- The `deliver` call of a federation request with this header and body, if it is not dropped. -/
def federationDeliver (relayID header body : Bytes) : Option (Bytes × QueuedMessage) :=
  if header = [] then none
  else
    let decoded := decodeFirst SealedEnvelope.decoder .zero body
    if ¬ decoded.2 then none
    else if decoded.1.recipientID = [] ∨ decoded.1.ciphertext = [] then none
    else
      let message := QueuedMessage.ofSealed { decoded.1 with federationSenderRelay := header }
      match Bytes.cut 64 decoded.1.recipientID with
      | none => some (decoded.1.recipientID, message)
      | some (name, domain) => if isLocalRelay domain relayID then some (name, message) else none

/-! ## What is handed to `deliver` -/

/-- Exactly one envelope is present. -/
def QueuedMessage.Single (m : QueuedMessage) : Prop := m.sealed.isSome = !m.opened.isSome

instance (m : QueuedMessage) : Decidable m.Single := inferInstanceAs (Decidable (_ = _))

theorem single_stored {m : QueuedMessage} (h : m.Single) (x : Int64) : (m.stamp x).sanitize.Single := by
  simpa [QueuedMessage.Single, QueuedMessage.sanitize, QueuedMessage.stamp] using h

/-- A message with one envelope has a frame. -/
theorem marshalQueued_single {m : QueuedMessage} (h : m.Single) : ∃ frame, marshalQueued m = some frame := by
  obtain ⟨sealed, opened, x⟩ := m
  cases sealed with
  | some e => exact ⟨_, rfl⟩
  | none =>
    cases opened with
    | some e => exact ⟨_, rfl⟩
    | none => cases h

theorem classify_single {payload r : Bytes} {m : QueuedMessage} (h : classify payload = some (r, m)) : m.Single := by
  simp only [classify] at h
  split at h
  · cases h; rfl
  · split at h
    · cases h; rfl
    · cases h

/-- Every string of a routed message is well-formed. -/
theorem classify_valid {payload r : Bytes} {m : QueuedMessage} (h : classify payload = some (r, m)) : m.Valid := by
  simp only [classify] at h
  split at h
  · cases h
    exact ⟨fun e same => Option.some.inj same ▸ SealedEnvelope.unmarshal_valid payload, nofun⟩
  · split at h
    · cases h
      exact ⟨nofun, fun e same => Option.some.inj same ▸ OpenEnvelope.unmarshal_valid payload⟩
    · cases h

theorem route_classify {r r' : Router} {senderID payload : Bytes} {now : Time} {call : Bytes × QueuedMessage}
    (h : r.route senderID payload now = (r', some call)) : classify payload = some call := by
  simp only [Router.route] at h
  split at h
  · cases h
  · split at h
    · exact (Prod.mk.inj h).2
    · cases h

theorem route_relayID {r r' : Router} {senderID payload : Bytes} {now : Time} {call : Option (Bytes × QueuedMessage)}
    (h : r.route senderID payload now = (r', call)) : r'.relayID = r.relayID := by
  simp only [Router.route] at h
  split at h
  · cases h; rfl
  · split at h
    · cases h; rfl
    · cases h; rfl

/-- The size limit stays, and what `Route` hands on is within it. -/
theorem route_limit {r r' : Router} {senderID payload : Bytes} {now : Time} {call : Option (Bytes × QueuedMessage)}
    (h : r.route senderID payload now = (r', call)) :
    r'.maxMessageSize = r.maxMessageSize ∧ (call ≠ none → (payload.length : Int) ≤ r.maxMessageSize) := by
  simp only [Router.route] at h
  split at h
  · cases h; exact ⟨rfl, fun some => absurd rfl some⟩
  · rename_i within
    have fits : (payload.length : Int) ≤ r.maxMessageSize := by omega
    split at h
    · cases h; exact ⟨rfl, fun _ => fits⟩
    · cases h; exact ⟨rfl, fun _ => fits⟩

/-- A federated message is the decoded envelope under the header's tag, for a local key. -/
theorem federationDeliver_some {relayID header body r : Bytes} {m : QueuedMessage}
    (h : federationDeliver relayID header body = some (r, m)) :
    m = .ofSealed { (decodeFirst SealedEnvelope.decoder .zero body).1 with federationSenderRelay := header } := by
  simp only [federationDeliver] at h
  split at h
  · cases h
  split at h
  · cases h
  split at h
  · cases h
  split at h
  · exact (Prod.mk.inj (Option.some.inj h)).2.symm
  · split at h
    · exact (Prod.mk.inj (Option.some.inj h)).2.symm
    · cases h

theorem federationDeliver_single {relayID header body r : Bytes} {m : QueuedMessage}
    (h : federationDeliver relayID header body = some (r, m)) : m.Single := by
  rw [federationDeliver_some h]
  rfl

end SpectreRelay.Server
