import SpectreRelay.Server.Delivery

/-!
# A network of relays

Any number of relays, each a machine of `Delivery`, and the federation requests
between them. A request that a relay posts is in flight until some relay
receives it or it is lost; which relay answers at an address is not assumed.
Where a message goes is decided on the sending relay, in the receiving relay's
handler and again in its `deliver`; the handler passes on a name without an
`@`, so the last decision is always local and no request leads to another
(`single_hop`).

A request carries history that no step depends on. Its number is that of the
step its message came in with; its trail is the relays that have posted the
message, the latest first.
-/

namespace SpectreRelay.Server

/-! ## Where a message goes -/

set_option autoImplicit false
open Lib Lib.Json Model

/-- The address that a domain's requests go to. -/
def federationURL (domain : Bytes) : Bytes := ascii "http://" ++ domain ++ ascii "/federation/deliver"

theorem target_sealed {relayID u d : Bytes} (plain : 64 ∉ u) (remote : isLocalRelay d relayID = false) (e : SealedEnvelope) :
    target relayID (u ++ 64 :: d) (.ofSealed e) = .forward d e := by
  simp only [target, Bytes.cut_append d plain, remote, Bool.false_eq_true, if_false, QueuedMessage.ofSealed]

theorem target_open {relayID u d : Bytes} (plain : 64 ∉ u) (remote : isLocalRelay d relayID = false) {m : QueuedMessage}
    (opened : m.sealed = none) : target relayID (u ++ 64 :: d) m = .drop := by
  simp only [target, Bytes.cut_append d plain, remote, Bool.false_eq_true, if_false, opened]

/-- Only a sealed envelope for another relay is forwarded. -/
theorem target_forward {relayID r d : Bytes} {m : QueuedMessage} {e : SealedEnvelope}
    (h : target relayID r m = .forward d e) :
    m.sealed = some e ∧ isLocalRelay d relayID = false ∧ ∃ u, 64 ∉ u ∧ r = u ++ 64 :: d := by
  simp only [target] at h
  split at h
  · cases h
  · rename_i name domain split
    split at h
    · cases h
    · rename_i remote
      split at h
      · cases h
      · rename_i found
        cases h
        obtain ⟨same, plain⟩ := Bytes.cut_eq_some.1 split
        exact ⟨found, Bool.not_eq_true _ ▸ remote, name, plain, same⟩

theorem target_plain {relayID r : Bytes} (plain : 64 ∉ r) (m : QueuedMessage) : target relayID r m = .local r := by
  simp only [target, Bytes.cut_eq_none.2 plain]

/-- **The handler hands over bare names**, which are local. -/
theorem federationDeliver_plain {relayID header body r : Bytes} {m : QueuedMessage}
    (h : federationDeliver relayID header body = some (r, m)) : 64 ∉ r := by
  simp only [federationDeliver] at h
  split at h
  · cases h
  split at h
  · cases h
  split at h
  · cases h
  split at h
  · rename_i whole
    cases h
    exact Bytes.cut_eq_none.1 whole
  · rename_i split
    split at h
    · cases h
      exact (Bytes.cut_eq_some.1 split).2
    · cases h

/-- An envelope that a client of the relay has routed to another domain. -/
structure Outbound (relayID d : Bytes) (e : SealedEnvelope) : Prop where
  valid : e.Valid
  full : e.ciphertext ≠ []
  recipient : ∃ u, 64 ∉ u ∧ e.recipientID = u ++ 64 :: d
  remote : isLocalRelay d relayID = false

theorem Outbound.of_classify {relayID r d payload : Bytes} {m : QueuedMessage} {e : SealedEnvelope}
    (routed : classify payload = some (r, m)) (forwarded : target relayID r m = .forward d e) : Outbound relayID d e := by
  obtain ⟨found, remote, u, plain, same⟩ := target_forward forwarded
  have valid := (classify_valid routed).sealed e found
  simp only [classify] at routed
  split at routed
  · rename_i complete
    cases routed
    cases found
    exact ⟨valid, complete.2.2, ⟨u, plain, same⟩, remote⟩
  · split at routed
    · cases routed
      cases found
    · cases routed

/-- What a relay makes of the request for such an envelope. -/
theorem federationDeliver_marshal {e : SealedEnvelope} {u d : Bytes} (valid : e.Valid) (full : e.ciphertext ≠ [])
    (plain : 64 ∉ u) (recipient : e.recipientID = u ++ 64 :: d) {header : Bytes} (named : header ≠ []) (relayID : Bytes) :
    federationDeliver relayID header e.marshal =
      if isLocalRelay d relayID then some (u, .ofSealed { e with federationSenderRelay := header }) else none := by
  have present : e.recipientID ≠ [] := by
    rw [recipient]
    exact List.append_ne_nil_of_right_ne_nil u (List.cons_ne_nil 64 d)
  simp only [federationDeliver, named, if_false, SealedEnvelope.decodeFirst_marshal, valid.sanitize, not_true_eq_false,
    present, full, or_self]
  rw [recipient]
  simp only [Bytes.cut_append d plain]

/-- What a `deliver` call for a bare name does with nothing in between: the frame is written to the connection of the
name, or the message is enqueued under it. -/
theorem deliver_plain (P : Platform) (s : Store) (relayID : Bytes) {u : Bytes} (plain : 64 ∉ u) (e : SealedEnvelope)
    (writeFails : Bool) (io : Store.EnqueueIo) :
    (∃ conn frame, s.lookupClient u = some conn ∧ marshalQueued (.ofSealed e) = some frame ∧
        deliver P s relayID u (.ofSealed e) writeFails io = (s, .written conn frame)) ∨
      deliver P s relayID u (.ofSealed e) writeFails io = (s.enqueue P u (.ofSealed e) io, .queued u) := by
  simp only [deliver, target_plain plain, marshalQueued, QueuedMessage.ofSealed]
  cases online : s.lookupClient u with
  | none => exact .inr rfl
  | some conn =>
    cases writeFails with
    | false => exact .inl ⟨conn, e.marshal, rfl, rfl, rfl⟩
    | true => exact .inr rfl

namespace Delivery.State

variable {P : Platform} {s s' : State}

/-- A `deliver` call starts at most one request. -/
theorem hand_posts (s : State) (call : Option (Bytes × QueuedMessage)) (origin : Origin) :
    (s.hand call origin).router = s.router ∧ ((s.hand call origin).posts = s.posts ∨
      ∃ r m d e, call = some (r, m) ∧ target s.router.relayID r m = .forward d e ∧
        (s.hand call origin).posts = s.posts ++ [(d, e)]) := by
  unfold hand
  split
  · exact ⟨rfl, .inl rfl⟩
  · rename_i r m
    split
    · exact ⟨rfl, .inl rfl⟩
    · rename_i d e forwarded
      exact ⟨rfl, .inr ⟨r, m, d, e, rfl, forwarded, rfl⟩⟩
    · exact ⟨rfl, .inl rfl⟩

/-- A request starts none. -/
theorem hand_federated (s : State) (header body : Bytes) (origin : Origin) :
    (s.hand (federationDeliver s.router.relayID header body) origin).posts = s.posts := by
  rcases (s.hand_posts (federationDeliver s.router.relayID header body) origin).2 with same | ⟨r, m, d, e, call, forwarded, _⟩
  · exact same
  · rw [target_plain (federationDeliver_plain call)] at forwarded
    cases forwarded

/-- **The requests of one step.** A relay keeps its name, and posts at most one request: for a client's envelope. -/
theorem step_posts {l : Label} (h : step P s l = some s') :
    s'.router.relayID = s.router.relayID ∧ (s'.posts = s.posts ∨
      ∃ senderID data now d e, l = .frame senderID data now ∧ Outbound s.router.relayID d e ∧
        s'.posts = s.posts ++ [(d, e)]) := by
  cases step_cases h with
  | @frame senderID data now router call kind route =>
    have name := route_relayID route
    obtain ⟨kept, posts⟩ := hand_posts { s with router } call (.client senderID)
    refine ⟨by rw [kept]; exact name, ?_⟩
    rcases posts with same | ⟨r, m, d, e, rfl, forwarded, grown⟩
    · exact .inl same
    · have outbound := Outbound.of_classify (route_classify route) forwarded
      rw [name] at outbound
      exact .inr ⟨senderID, data, now, d, e, rfl, outbound, grown⟩
  | control => exact ⟨rfl, .inl rfl⟩
  | @post header body =>
    exact ⟨by rw [(s.hand_posts _ _).1], .inl (s.hand_federated header body _)⟩
  | online => exact ⟨rfl, .inl rfl⟩
  | offline => exact ⟨rfl, .inl rfl⟩
  | wrote => exact ⟨rfl, .inl rfl⟩
  | writeFailed => exact ⟨rfl, .inl rfl⟩
  | enqueue => exact ⟨rfl, .inl rfl⟩
  | register => exact ⟨rfl, .inl rfl⟩
  | drain => exact ⟨rfl, .inl rfl⟩
  | skipped => exact ⟨rfl, .inl rfl⟩
  | flushed => exact ⟨rfl, .inl rfl⟩
  | flushFailed => exact ⟨rfl, .inl rfl⟩
  | requeue => exact ⟨rfl, .inl rfl⟩
  | unregister => exact ⟨rfl, .inl rfl⟩
  | purge => exact ⟨rfl, .inl rfl⟩

end Delivery.State

/-! ## The network -/

namespace Federation

/-- A request with what it was made for: the domain, the envelope, the number of the message and the relays that have
posted it. -/
structure Parcel (ι : Type) where
  request : Request
  domain : Bytes
  sealed : SealedEnvelope
  message : Nat
  trail : List ι

structure Net (ι : Type) where
  relays : ι → Delivery.State
  /-- The requests that were posted and not yet received or lost. -/
  flight : List (Parcel ι)
  /-- Every request so far. -/
  posted : List (Parcel ι)
  /-- The next message's number. -/
  next : Nat

inductive Label (ι : Type) where
  /-- A step of one relay by itself; a request that reaches it from outside the network is one too. -/
  | relay (i : ι) (l : Delivery.Label)
  /-- A relay receives a request in flight. -/
  | receive (j : ι) (k : Nat)
  | lose (k : Nat)

namespace Net

variable {ι : Type}

def relayID (net : Net ι) (i : ι) : Bytes := (net.relays i).router.relayID

/-- Relays that were just started. -/
def init (stores : ι → Store) (routers : ι → Router) : Net ι :=
  ⟨fun i => .init (stores i) (routers i), [], [], 0⟩

variable [DecidableEq ι] (P : Platform) (H : Http)

/-- One step of a relay on the message with this number and trail. What it hands to `forwardFederated` is posted. -/
def take (net : Net ι) (i : ι) (l : Delivery.Label) (message : Nat) (trail : List ι) : Option (Net ι) :=
  (Delivery.State.step P (net.relays i) l).map fun s =>
    let started := s.posts.drop (net.relays i).posts.length
    let parcels := started.filterMap fun (domain, sealed) =>
      (forwardFederated H s.router.relayID domain sealed).map fun request => ⟨request, domain, sealed, message, i :: trail⟩
    { net with
      relays := Function.update net.relays i s
      flight := net.flight ++ parcels
      posted := net.posted ++ parcels }

/-- One step, or none when it cannot be taken. -/
def step (net : Net ι) : Label ι → Option (Net ι)
  | .relay i l => take P H { net with next := net.next + 1 } i l net.next []
  | .receive j k =>
    match pick net.flight k with
    | none => none
    | some (p, rest) =>
      take P H { net with flight := rest } j (.post p.request.relayHeader p.request.body) p.message p.trail
  | .lose k => (pick net.flight k).map fun (_, rest) => { net with flight := rest }

variable {P H} {net net' : Net ι}

/-- What one step of a relay adds: nothing, or the request for a client's envelope. -/
structure Took (H : Http) (net net' : Net ι) (i : ι) (l : Delivery.Label) (message : Nat) (trail : List ι)
    (parcels : List (Parcel ι)) : Prop where
  next : net'.next = net.next
  names : ∀ j, net'.relayID j = net.relayID j
  flight : net'.flight = net.flight ++ parcels
  posted : net'.posted = net.posted ++ parcels
  request : parcels = [] ∨ ∃ senderID data now d e request, l = .frame senderID data now ∧ Outbound (net.relayID i) d e ∧
    forwardFederated H (net.relayID i) d e = some request ∧ parcels = [⟨request, d, e, message, i :: trail⟩]

theorem take_took {i : ι} {l : Delivery.Label} {message : Nat} {trail : List ι}
    (h : take P H net i l message trail = some net') : ∃ parcels, Took H net net' i l message trail parcels := by
  obtain ⟨s, stepped, rfl⟩ := Option.map_eq_some_iff.1 h
  obtain ⟨name, posts⟩ := Delivery.State.step_posts stepped
  have names : ∀ j, (Function.update net.relays i s j).router.relayID = net.relayID j := by
    intro j
    by_cases here : j = i
    · rw [here, Function.update_self]
      exact name
    · rw [Function.update_of_ne here]
      rfl
  refine ⟨_, rfl, names, rfl, rfl, ?_⟩
  rcases posts with same | ⟨senderID, data, now, d, e, rfl, outbound, grown⟩
  · left
    rw [same, List.drop_length]
    rfl
  · rw [grown, List.drop_left, name]
    cases made : forwardFederated H (net.relays i).router.relayID d e with
    | none =>
      left
      simp only [List.filterMap_cons, List.filterMap_nil, made, Option.map_none]
    | some request =>
      right
      refine ⟨senderID, data, now, d, e, request, rfl, outbound, made, ?_⟩
      simp only [List.filterMap_cons, List.filterMap_nil, made, Option.map_some]

/-- Every request was posted once, by the relay that the message came to. -/
structure Inv (H : Http) (net : Net ι) : Prop where
  flight : ∀ p ∈ net.flight, p ∈ net.posted
  posted : ∀ p ∈ net.posted, ∃ i, p.trail = [i] ∧ Outbound (net.relayID i) p.domain p.sealed ∧
    forwardFederated H (net.relayID i) p.domain p.sealed = some p.request
  past : ∀ p ∈ net.posted, p.message < net.next
  once : (net.posted.map Parcel.message).Nodup

namespace Inv

omit [DecidableEq ι] in
theorem init (stores : ι → Store) (routers : ι → Router) : Inv H (Net.init stores routers) :=
  ⟨nofun, nofun, nofun, .nil⟩

omit [DecidableEq ι] in
/-- Requests with numbers of their own are added, and any in flight may be gone. -/
theorem extend (h : Inv H net) {parcels : List (Parcel ι)} (names : ∀ j, net'.relayID j = net.relayID j)
    (flight : ∀ p ∈ net'.flight, p ∈ net.flight ∨ p ∈ parcels) (posted : net'.posted = net.posted ++ parcels)
    (next : net.next ≤ net'.next) (once : (parcels.map Parcel.message).Nodup)
    (new : ∀ p ∈ parcels, net.next ≤ p.message ∧ p.message < net'.next ∧ ∃ i, p.trail = [i] ∧
      Outbound (net.relayID i) p.domain p.sealed ∧
      forwardFederated H (net.relayID i) p.domain p.sealed = some p.request) : Inv H net' := by
  refine ⟨?_, ?_, ?_, ?_⟩
  · intro p inside
    rw [posted]
    rcases flight p inside with old | fresh
    · exact List.mem_append_left _ (h.flight p old)
    · exact List.mem_append_right _ fresh
  · intro p inside
    simp only [names]
    rw [posted] at inside
    rcases List.mem_append.1 inside with old | fresh
    · exact h.posted p old
    · exact (new p fresh).2.2
  · intro p inside
    rw [posted] at inside
    rcases List.mem_append.1 inside with old | fresh
    · have early := h.past p old
      omega
    · exact (new p fresh).2.1
  · rw [posted, List.map_append]
    refine List.nodup_append.2 ⟨h.once, once, ?_⟩
    -- the old numbers are below the next one, the new ones are not
    intro a old b fresh same
    obtain ⟨p, before, rfl⟩ := List.mem_map.1 old
    obtain ⟨p', added, rfl⟩ := List.mem_map.1 fresh
    have early := h.past p before
    have late := (new p' added).1
    omega

omit [DecidableEq ι] in
/-- Nothing is posted, and some requests in flight may be gone. -/
theorem fewer (h : Inv H net) (names : ∀ j, net'.relayID j = net.relayID j)
    (flight : ∀ p ∈ net'.flight, p ∈ net.flight) (posted : net'.posted = net.posted) (next : net'.next = net.next) :
    Inv H net' :=
  h.extend names (fun p inside => .inl (flight p inside)) (posted.trans (List.append_nil _).symm) (Nat.le_of_eq next.symm)
    .nil fun _ inside => absurd inside List.not_mem_nil

/-- A step of a relay by itself: a request carries the new number. -/
theorem relay (h : Inv H net) {i : ι} {l : Delivery.Label}
    (took : take P H { net with next := net.next + 1 } i l net.next [] = some net') : Inv H net' := by
  obtain ⟨parcels, next, names, flight, posted, request⟩ := take_took took
  have grown : net.next ≤ net'.next := by
    rw [next]
    exact Nat.le_succ net.next
  refine h.extend names (fun p inside => ?_) posted grown ?_ ?_
  · rw [flight] at inside
    exact List.mem_append.1 inside
  · rcases request with rfl | ⟨_, _, _, _, _, _, _, _, _, rfl⟩
    · exact .nil
    · exact List.nodup_singleton _
  · rcases request with rfl | ⟨_, _, _, d, e, request, _, outbound, made, rfl⟩
    · exact fun _ inside => absurd inside List.not_mem_nil
    · intro p inside
      rw [List.mem_singleton.1 inside, next]
      exact ⟨Nat.le_refl _, Nat.lt_succ_self _, i, rfl, outbound, made⟩

/-- A request that a relay receives leads to no other. -/
theorem receive (h : Inv H net) {j : ι} {k : Nat} {p : Parcel ι} {rest : List (Parcel ι)}
    (picked : pick net.flight k = some (p, rest))
    (took : take P H { net with flight := rest } j (.post p.request.relayHeader p.request.body) p.message p.trail =
      some net') : Inv H net' := by
  obtain ⟨parcels, next, names, flight, posted, none | ⟨_, _, _, _, _, _, wrong, _⟩⟩ := take_took took
  · rw [none, List.append_nil] at flight posted
    refine h.fewer names (fun p' inside => ?_) posted next
    rw [flight] at inside
    exact mem_of_pick_rest picked inside
  · cases wrong

theorem step (h : Inv H net) {l : Label ι} (stepped : Net.step P H net l = some net') : Inv H net' := by
  cases l with
  | relay i l => exact h.relay stepped
  | receive j k =>
    simp only [Net.step] at stepped
    split at stepped
    · cases stepped
    · rename_i picked
      exact h.receive picked stepped
  | lose k =>
    obtain ⟨⟨p, rest⟩, picked, rfl⟩ := Option.map_eq_some_iff.1 stepped
    exact h.fewer (fun _ => rfl) (fun p' inside => mem_of_pick_rest picked inside) rfl rfl

end Inv

/-! ## One hop -/

/-- A client's sealed envelope for another relay: nothing is stored, written or started for a local user, and at most one
request is posted, exactly one when its address and header are well formed. -/
def Forwards (P : Platform) (H : Http) (net : Net ι) : Prop :=
  ∀ i senderID data now router e u d, frameKind data = .route →
    (net.relays i).router.route senderID data now = (router, some (e.recipientID, .ofSealed e)) →
    64 ∉ u → e.recipientID = u ++ 64 :: d → isLocalRelay d (net.relayID i) = false →
    ∃ parcels : List (Parcel ι), parcels.length ≤ 1 ∧
      (H.parses (federationURL d) = true → H.sendable (net.relayID i) = true →
        parcels = [⟨⟨federationURL d, ascii "application/json", net.relayID i, e.marshal⟩, d, e, net.next, [i]⟩]) ∧
      net.step P H (.relay i (.frame senderID data now)) = some {
        relays := Function.update net.relays i { net.relays i with router, posts := (net.relays i).posts ++ [(d, e)] }
        flight := net.flight ++ parcels
        posted := net.posted ++ parcels
        next := net.next + 1 }

/-- A request in flight is one relay's for its envelope to `u@d`. A relay that receives it and is named by `d` starts a
`deliver` call for the bare name `u`, with the sending relay's name on the envelope, which writes or enqueues it under
`u`; any other relay stays as it was. Neither posts anything. -/
def Receives (P : Platform) (H : Http) (net : Net ι) : Prop :=
  ∀ k p rest, pick net.flight k = some (p, rest) →
    ∃ i u, p.trail = [i] ∧ 64 ∉ u ∧ p.sealed.recipientID = u ++ 64 :: p.domain ∧
      p.request = ⟨federationURL p.domain, ascii "application/json", net.relayID i, p.sealed.marshal⟩ ∧
      ∀ j, net.relayID i ≠ [] →
        let m := QueuedMessage.ofSealed { p.sealed with federationSenderRelay := net.relayID i }
        net.step P H (.receive j k) = some { net with
          flight := rest
          relays := if isLocalRelay p.domain (net.relayID j) then Function.update net.relays j { net.relays j with
              calls := ⟨(net.relays j).handed.length, u, m, .lookup⟩ :: (net.relays j).calls
              handed := (net.relays j).handed ++ [⟨u, m, .federation (net.relayID i)⟩] }
            else net.relays } ∧
        ∀ store fails io,
          (∃ conn frame, store.lookupClient u = some conn ∧ marshalQueued m = some frame ∧
            deliver P store (net.relayID j) u m fails io = (store, .written conn frame)) ∨
          deliver P store (net.relayID j) u m fails io = (store.enqueue P u m io, .queued u)

/-- An open envelope for another relay is dropped. -/
def DropsOpen (P : Platform) (net : Net ι) : Prop :=
  ∀ i (m : QueuedMessage) u d origin fails io, m.sealed = none → 64 ∉ u → isLocalRelay d (net.relayID i) = false →
    (net.relays i).hand (some (u ++ 64 :: d, m)) origin = net.relays i ∧
      deliver P (net.relays i).store (net.relayID i) (u ++ 64 :: d) m fails io = ((net.relays i).store, .dropped)

/-- Every message was posted by one relay at most, and once. -/
def OneHop (net : Net ι) : Prop :=
  (∀ p ∈ net.posted, ∃ i, p.trail = [i]) ∧ (net.posted.map Parcel.message).Nodup

theorem forwards (net : Net ι) : Forwards P H net := by
  intro i senderID data now router e u d kind route plain recipient remote
  have name : router.relayID = net.relayID i := route_relayID route
  have handed : target router.relayID e.recipientID (.ofSealed e) = .forward d e := by
    rw [name, recipient]
    exact target_sealed plain remote e
  have stepped : Delivery.State.step P (net.relays i) (.frame senderID data now) =
      some { net.relays i with router, posts := (net.relays i).posts ++ [(d, e)] } := by
    simp only [Delivery.State.step, kind, route, Delivery.State.hand, handed]
  refine ⟨((forwardFederated H (net.relayID i) d e).map fun request => ⟨request, d, e, net.next, [i]⟩).toList, ?_, ?_, ?_⟩
  · exact Option.length_toList_le
  · intro parses sendable
    have parses' : H.parses (ascii "http://" ++ d ++ ascii "/federation/deliver") = true := parses
    simp only [forwardFederated, parses', sendable, and_self, if_true, Option.map_some, Option.toList_some]
    rfl
  · simp only [step, take, stepped, Option.map_some, List.drop_left, name, List.filterMap_cons, List.filterMap_nil]
    cases forwardFederated H (net.relayID i) d e <;> rfl

theorem Inv.receives (h : Inv H net) : Receives P H net := by
  intro k p rest picked
  obtain ⟨i, trail, ⟨valid, full, ⟨u, plain, recipient⟩, _⟩, made⟩ := h.posted p (h.flight p (mem_of_pick picked))
  have request : p.request = ⟨federationURL p.domain, ascii "application/json", net.relayID i, p.sealed.marshal⟩ := by
    simp only [forwardFederated] at made
    split at made
    · exact (Option.some.inj made).symm
    · cases made
  refine ⟨i, u, trail, plain, recipient, request, ?_⟩
  intro j named
  refine ⟨?_, fun store fails io => deliver_plain P store _ plain _ fails io⟩
  have call := federationDeliver_marshal valid full plain recipient named (net.relayID j)
  simp only [Net.step, picked, take, request, Delivery.State.step, Option.map_some,
    show (net.relays j).router.relayID = net.relayID j from rfl, call]
  by_cases here : isLocalRelay p.domain (net.relayID j) = true
  · simp only [here, if_true, Delivery.State.hand, target_plain plain, List.drop_length, List.filterMap_nil, List.append_nil]
  · simp only [here, Bool.false_eq_true, if_false, Delivery.State.hand, List.drop_length, List.filterMap_nil,
      List.append_nil, Function.update_eq_self]

omit [DecidableEq ι] in
theorem dropsOpen (net : Net ι) : DropsOpen P net := by
  intro i m u d origin fails io opened plain remote
  have dropped := target_open plain remote opened
  refine ⟨?_, ?_⟩
  · simp only [Delivery.State.hand, show (net.relays i).router.relayID = net.relayID i from rfl, dropped]
  · simp only [deliver, dropped]

/-- **One hop.** In every state that a network of relays reaches, whatever their names: a client's sealed envelope for
another relay leaves its own relay in at most one request; a relay that receives the request hands the envelope to a
local user or ignores it, and posts nothing; open envelopes stay; and no message was ever posted twice. -/
theorem single_hop (P : Platform) (H : Http) (stores : ι → Store) (routers : ι → Router) (labels : List (Label ι))
    (net : Net ι) (reached : run (step P H) (init stores routers) labels = some net) :
    Forwards P H net ∧ Receives P H net ∧ DropsOpen P net ∧ OneHop net := by
  have inv : Inv H net := run_invariant (fun _ _ _ before stepped => before.step stepped) (Inv.init stores routers) reached
  refine ⟨forwards net, inv.receives, dropsOpen net, ?_, inv.once⟩
  intro p inside
  obtain ⟨i, trail, _⟩ := inv.posted p inside
  exact ⟨i, trail⟩

/-- The names of two relays. -/
def pairID (second : Bool) : Bytes := if second then ascii "relay-b:8080" else ascii "relay-a"

/-- ann on the first relay writes twice to bob on the second, which receives one of the requests. -/
def pairRun : List (Label Bool) :=
  let frame := SealedEnvelope.marshal ⟨ascii "bob@relay-b", [1], 0, ascii "m", []⟩
  [.relay false (.frame (ascii "ann") frame Reference.start), .relay false (.frame (ascii "ann") frame Reference.start),
    .receive true 0]

/-- bob's relay has one message for the bare name, and one request is still in flight. -/
theorem single_hop_pair :
    ∃ net : Net Bool, run (step Reference.platform ⟨fun _ => true, fun _ => true⟩)
        (init (fun _ => Reference.store) fun i => .new 65536 60 (pairID i)) pairRun = some net ∧
      ((net.relays true).handed.map fun h => (h.recipientID, h.msg)) =
        [(ascii "bob", .ofSealed ⟨ascii "bob@relay-b", [1], 0, ascii "m", ascii "relay-a"⟩)] ∧
      net.flight.length = 1 ∧ Forwards Reference.platform ⟨fun _ => true, fun _ => true⟩ net ∧
      Receives Reference.platform ⟨fun _ => true, fun _ => true⟩ net ∧ DropsOpen Reference.platform net ∧ OneHop net := by
  have result : ((run (step Reference.platform ⟨fun _ => true, fun _ => true⟩)
      (init (fun _ => Reference.store) fun i => .new 65536 60 (pairID i)) pairRun).map fun net =>
        ((net.relays true).handed.map fun h => (h.recipientID, h.msg), net.flight.length)) =
      some ([(ascii "bob", .ofSealed ⟨ascii "bob@relay-b", [1], 0, ascii "m", ascii "relay-a"⟩)], 1) := by
    decide +kernel
  obtain ⟨net, reached, both⟩ := Option.map_eq_some_iff.1 result
  exact ⟨net, reached, (Prod.mk.inj both).1, (Prod.mk.inj both).2, single_hop Reference.platform _ _ _ _ net reached⟩

end Net

end Federation

end SpectreRelay.Server
