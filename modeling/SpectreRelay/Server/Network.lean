import SpectreRelay.Server.Conservation
import SpectreRelay.Server.Federation
import SpectreRelay.Server.PathIndependence

/-!
# From client to client over the network

The network of `Federation` with a log of every step by which a message came
in: at which relay, which `deliver` call was made for it, and in whose custody
the message is now. A message is held by one relay, in flight, or gone for one
of four reasons. With `Conservation` at each relay this accounts for every
message of the network, and no message is received twice, at whatever relay and
on whatever way.
-/

namespace SpectreRelay.Server.Network
set_option autoImplicit false
open Lib Model Delivery Federation

/-! ## What a step brings in -/

/-- The `deliver` call that a step of a relay makes. -/
def broughtBy (s : State) : Delivery.Label → Option (Bytes × QueuedMessage)
  | .frame senderID data now =>
    match frameKind data with
    | .route => (s.router.route senderID data now).2
    | _ => none
  | .post header body => federationDeliver s.router.relayID header body
  | _ => none

/-- What becomes of the call: nothing, a request, or a message for a local user. -/
inductive Brought (s s' : State) : Option (Bytes × QueuedMessage) → Prop where
  | nothing (handed : s'.handed = s.handed) (posts : s'.posts = s.posts) : Brought s s' none
  | dropped {r : Bytes} {m : QueuedMessage} (goes : target s.router.relayID r m = .drop) (handed : s'.handed = s.handed)
      (posts : s'.posts = s.posts) : Brought s s' (some (r, m))
  | forwarded {r d : Bytes} {m : QueuedMessage} {e : SealedEnvelope} (goes : target s.router.relayID r m = .forward d e)
      (handed : s'.handed = s.handed) (posts : s'.posts = s.posts ++ [(d, e)]) : Brought s s' (some (r, m))
  | handed {r name : Bytes} {m : QueuedMessage} {origin : Origin} (goes : target s.router.relayID r m = .local name)
      (handed : s'.handed = s.handed ++ [⟨name, m, origin⟩]) (posts : s'.posts = s.posts) : Brought s s' (some (r, m))

/-- A `deliver` call. -/
theorem brought_hand {s : State} {router : Router} (name : router.relayID = s.router.relayID)
    (call : Option (Bytes × QueuedMessage)) (origin : Origin) : Brought s (State.hand { s with router } call origin) call := by
  cases call with
  | none => exact .nothing rfl rfl
  | some call =>
    obtain ⟨r, m⟩ := call
    cases goes : target s.router.relayID r m with
    | drop =>
      have same : State.hand { s with router } (some (r, m)) origin = { s with router } := by
        simp only [State.hand, name, goes]
      rw [same]
      exact .dropped goes rfl rfl
    | forward d e =>
      have posted : State.hand { s with router } (some (r, m)) origin = { s with router, posts := s.posts ++ [(d, e)] } := by
        simp only [State.hand, name, goes]
      rw [posted]
      exact .forwarded goes rfl rfl
    | «local» user =>
      have taken : State.hand { s with router } (some (r, m)) origin = { s with
          router
          calls := ⟨s.handed.length, user, m, .lookup⟩ :: s.calls
          handed := s.handed ++ [⟨user, m, origin⟩] } := by
        simp only [State.hand, name, goes]
      rw [taken]
      exact .handed goes rfl rfl

theorem step_brought {P : Platform} {s s' : State} {l : Delivery.Label} (h : State.step P s l = some s') :
    Brought s s' (broughtBy s l) := by
  cases l with
  | frame senderID data now =>
    simp only [State.step] at h
    split at h
    · rename_i kind
      cases h
      simp only [broughtBy, kind]
      exact brought_hand (route_relayID rfl) _ _
    · rename_i control
      cases h
      have none : broughtBy s (.frame senderID data now) = none := by
        simp only [broughtBy]
      rw [none]
      exact .nothing rfl rfl
  | post header body =>
    cases h
    exact brought_hand (s := s) rfl _ _
  | _ =>
    cases State.step_cases h <;> exact .nothing rfl rfl

/-! ## The log -/

section Log

variable {ι : Type}

/-- Why a message is gone. -/
inductive Gone (ι : Type) where
  /-- An open envelope for another relay. -/
  | dropped
  /-- No request could be made for the domain. -/
  | unposted
  | lost
  /-- The request reached a relay that the domain does not name, or did not name its own relay. -/
  | refused (j : ι)

/-- Where a message is now. -/
inductive Custody (ι : Type) where
  /-- The step brought none. -/
  | nothing
  /-- In a `deliver` call of this relay, by its number. -/
  | held (j : ι) (id : Nat)
  | flight
  | gone (reason : Gone ι)

/-- A step of a relay by itself. -/
structure Entry (ι : Type) where
  relay : ι
  call : Option (Bytes × QueuedMessage)
  custody : Custody ι

/-- The network, with one entry for every number that it has given. -/
structure Ledger (ι : Type) where
  net : Net ι
  log : List (Entry ι)

variable (P : Platform) (H : Http)

/-- Where a `deliver` call at relay `i` puts its message. -/
def custodyOf (net : Net ι) (i : ι) : Option (Bytes × QueuedMessage) → Custody ι
  | none => .nothing
  | some (r, m) =>
    match target (net.relayID i) r m with
    | .drop => .gone .dropped
    | .forward d e => if (forwardFederated H (net.relayID i) d e).isSome then .flight else .gone .unposted
    | .local _ => .held i (net.relays i).handed.length

/-- Where a request that relay `j` receives puts its message. -/
def custodyAt (net : Net ι) (j : ι) (request : Request) : Custody ι :=
  match federationDeliver (net.relayID j) request.relayHeader request.body with
  | none => .gone (.refused j)
  | some _ => .held j (net.relays j).handed.length

variable [DecidableEq ι]

namespace Ledger

def init (stores : ι → Store) (routers : ι → Router) : Ledger ι := ⟨.init stores routers, []⟩

/-- The entry of a message with its new custody. -/
def moved (log : List (Entry ι)) (message : Nat) (custody : Custody ι) : List (Entry ι) :=
  log.modify message fun e => { e with custody }

/-- A step of the network, and what it means for the messages. -/
def step (L : Ledger ι) (l : Federation.Label ι) : Option (Ledger ι) :=
  (Net.step P H L.net l).bind fun net =>
    match l with
    | .relay i l =>
      let call := broughtBy (L.net.relays i) l
      some ⟨net, L.log ++ [⟨i, call, custodyOf H L.net i call⟩]⟩
    | .receive j k =>
      (pick L.net.flight k).map fun (p, _) => ⟨net, moved L.log p.message (custodyAt L.net j p.request)⟩
    | .lose k => (pick L.net.flight k).map fun (p, _) => ⟨net, moved L.log p.message (.gone .lost)⟩

end Ledger

/-! ## What is known of a message -/

/-- The `deliver` call `h` of relay `j` carries the message of the entry: it is the call that a client or a stranger
made at `j`, or the envelope was forwarded to `j` and is tagged with the relay that it came from. -/
inductive Carries (net : Net ι) (e : Entry ι) (j : ι) (h : Handed) : Prop where
  | here {r : Bytes} {m : QueuedMessage} (same : e.relay = j) (call : e.call = some (r, m))
      (goes : target (net.relayID j) r m = .local h.recipientID) (msg : h.msg = m)
  | there {r d : Bytes} {m : QueuedMessage} {sealed : SealedEnvelope} (call : e.call = some (r, m))
      (goes : target (net.relayID e.relay) r m = .forward d sealed) (named : isLocalRelay d (net.relayID j) = true)
      (recipient : sealed.recipientID = h.recipientID ++ 64 :: d)
      (msg : h.msg = .ofSealed { sealed with federationSenderRelay := net.relayID e.relay })

/-- The reason why a message is gone holds of it. -/
def Gone.Justified (net : Net ι) (e : Entry ι) : Gone ι → Prop
  | dropped => ∃ r m, e.call = some (r, m) ∧ target (net.relayID e.relay) r m = .drop
  | unposted => ∃ r m d sealed, e.call = some (r, m) ∧ target (net.relayID e.relay) r m = .forward d sealed ∧
      forwardFederated H (net.relayID e.relay) d sealed = none
  | lost => ∃ r m d sealed, e.call = some (r, m) ∧ target (net.relayID e.relay) r m = .forward d sealed
  | refused j => ∃ r m d sealed, e.call = some (r, m) ∧ target (net.relayID e.relay) r m = .forward d sealed ∧
      (net.relayID e.relay = [] ∨ isLocalRelay d (net.relayID j) = false)

/-- The entry's message is where the entry says. -/
def Entry.Accounted (net : Net ι) (k : Nat) (e : Entry ι) : Prop :=
  match e.custody with
  | .nothing => e.call = none
  | .held j id => ∃ h, (net.relays j).handed[id]? = some h ∧ Carries net e j h
  | .flight => ∃ p ∈ net.flight, p.message = k
  | .gone reason => reason.Justified H net e

/-- What `Tracking`, `Conservation` and `PathIndependence` know of one relay. -/
structure Whole (P : Platform) (s : State) : Prop where
  inv : Delivery.Inv P s
  conserved : Conserved s
  exact : Exact s

end Log

/-! ## One step -/

section Step

variable {ι : Type} [DecidableEq ι] {P : Platform} {H : Http} {net net' : Net ι} {L L' : Ledger ι}

theorem Whole.init (store : Store) (router : Router) : Whole P (State.init store router) :=
  ⟨.init store router, .init store router, .init store router⟩

theorem Whole.step {s s' : State} {l : Delivery.Label} (h : Whole P s) (stepped : State.step P s l = some s') : Whole P s' :=
  ⟨h.inv.step stepped, h.conserved.step h.inv stepped, h.exact.step h.inv stepped⟩

/-- A frame that was written is that of its call, for the connection's user. -/
theorem Whole.frame {s : State} {w : Written} (h : Whole P s) (inside : w ∈ s.written) :
    ∃ x, s.handed[w.id]? = some x ∧ (x.recipientID, w.conn) ∈ s.registered ∧
      x.msg.receive w.frame = some (x.msg.sanitize.stamp 0) := by
  obtain ⟨x, found, single, text⟩ := h.exact.written w inside
  obtain ⟨r, m, tracked, known, _⟩ := h.inv.written w inside
  rw [tracked.recipient found] at known
  refine ⟨x, found, known, ?_⟩
  rcases text with written | stored
  · exact QueuedMessage.receive_frame single written
  · exact QueuedMessage.receive_frame_sanitize single stored

/-- The request for a call, if it goes to another relay and a request can be made. -/
def parcels (H : Http) (net : Net ι) (i : ι) (message : Nat) (trail : List ι) : Option (Bytes × QueuedMessage) → List (Parcel ι)
  | none => []
  | some (r, m) =>
    match target (net.relayID i) r m with
    | .forward d e =>
      ((forwardFederated H (net.relayID i) d e).map fun request => ⟨request, d, e, message, i :: trail⟩).toList
    | _ => []

/-- **One relay takes a step** in the network. -/
structure Taken (P : Platform) (H : Http) (net net' : Net ι) (i : ι) (l : Delivery.Label) (message : Nat) (trail : List ι) :
    Prop where
  step : State.step P (net.relays i) l = some (net'.relays i)
  brought : Brought (net.relays i) (net'.relays i) (broughtBy (net.relays i) l)
  others : ∀ j, j ≠ i → net'.relays j = net.relays j
  names : ∀ j, net'.relayID j = net.relayID j
  next : net'.next = net.next
  flight : net'.flight = net.flight ++ parcels H net i message trail (broughtBy (net.relays i) l)

theorem take_taken {i : ι} {l : Delivery.Label} {message : Nat} {trail : List ι}
    (h : Net.take P H net i l message trail = some net') : Taken P H net net' i l message trail := by
  obtain ⟨_, took⟩ := Net.take_took h
  obtain ⟨s, stepped, rfl⟩ := Option.map_eq_some_iff.1 h
  have brought := step_brought stepped
  have name := (State.step_posts stepped).1
  refine ⟨?_, ?_, fun j other => Function.update_of_ne other _ _, took.names, rfl, ?_⟩
  · simp only [Function.update_self, stepped]
  · simp only [Function.update_self, brought]
  · generalize broughtBy (net.relays i) l = call at brought
    show net.flight ++ _ = _
    refine congrArg _ ?_
    cases brought with
    | nothing handed posts => simp only [posts, List.drop_length, List.filterMap_nil, parcels]
    | dropped goes handed posts =>
      simp only [posts, List.drop_length, List.filterMap_nil, parcels, Net.relayID, goes]
    | forwarded goes handed posts =>
      simp only [posts, List.drop_left, name, parcels, Net.relayID, goes, List.filterMap_cons, List.filterMap_nil]
      cases forwardFederated H (net.relays i).router.relayID _ _ <;> rfl
    | handed goes handed posts =>
      simp only [posts, List.drop_length, List.filterMap_nil, parcels, Net.relayID, goes]

/-- Calls keep their numbers. -/
theorem Brought.grown {s s' : State} {call : Option (Bytes × QueuedMessage)} (h : Brought s s' call) :
    ∃ more, s'.handed = s.handed ++ more := by
  cases h with
  | nothing handed => exact ⟨[], by rw [handed, List.append_nil]⟩
  | dropped _ handed => exact ⟨[], by rw [handed, List.append_nil]⟩
  | forwarded _ handed => exact ⟨[], by rw [handed, List.append_nil]⟩
  | handed _ handed => exact ⟨_, handed⟩

theorem Taken.grown {i : ι} {l : Delivery.Label} {message : Nat} {trail : List ι} (h : Taken P H net net' i l message trail)
    (j : ι) : ∃ more, (net'.relays j).handed = (net.relays j).handed ++ more := by
  by_cases here : j = i
  · rw [here]
    exact h.brought.grown
  · exact ⟨[], by rw [h.others j here, List.append_nil]⟩

theorem Taken.whole {i : ι} {l : Delivery.Label} {message : Nat} {trail : List ι} (h : Taken P H net net' i l message trail)
    (before : ∀ j, Whole P (net.relays j)) (j : ι) : Whole P (net'.relays j) := by
  by_cases here : j = i
  · rw [here]
    exact (before i).step h.step
  · rw [h.others j here]
    exact before j

omit [DecidableEq ι] in
theorem Carries.mono {e : Entry ι} {j : ι} {x : Handed} (h : Carries net e j x)
    (names : ∀ j, net'.relayID j = net.relayID j) : Carries net' e j x := by
  cases h with
  | here same call goes msg => exact .here same call (by rw [names]; exact goes) msg
  | there call goes named recipient msg =>
    refine .there call (by rw [names]; exact goes) (by rw [names]; exact named) recipient (by rw [names]; exact msg)

omit [DecidableEq ι] in
/-- An entry stays accounted for while its request stays in flight. -/
theorem Entry.Accounted.mono {e : Entry ι} {k : Nat} (h : e.Accounted H net k)
    (names : ∀ j, net'.relayID j = net.relayID j)
    (grown : ∀ j, ∃ more, (net'.relays j).handed = (net.relays j).handed ++ more)
    (kept : ∀ p ∈ net.flight, p.message = k → p ∈ net'.flight) : e.Accounted H net' k := by
  obtain ⟨relay, call, custody⟩ := e
  cases custody with
  | nothing => exact h
  | held j id =>
    obtain ⟨x, found, carries⟩ := h
    obtain ⟨more, grown⟩ := grown j
    refine ⟨x, ?_, carries.mono names⟩
    rw [grown]
    exact getElem?_grown found more
  | flight =>
    obtain ⟨p, inside, number⟩ := h
    exact ⟨p, kept p inside number, number⟩
  | gone reason =>
    cases reason with
    | dropped => simpa only [Entry.Accounted, Gone.Justified, names] using h
    | unposted => simpa only [Entry.Accounted, Gone.Justified, names] using h
    | lost => simpa only [Entry.Accounted, Gone.Justified, names] using h
    | refused j => simpa only [Entry.Accounted, Gone.Justified, names] using h

omit [DecidableEq ι] in
/-- The new entry of a step says what the step did with its message. -/
theorem accounted_new {i : ι} {call : Option (Bytes × QueuedMessage)} {k : Nat}
    (brought : Brought (net.relays i) (net'.relays i) call) (names : ∀ j, net'.relayID j = net.relayID j)
    (flight : net'.flight = net.flight ++ parcels H net i k [] call) :
    Entry.Accounted H net' k ⟨i, call, custodyOf H net i call⟩ := by
  cases brought with
  | nothing => rfl
  | @dropped r m goes =>
    have custody : custodyOf H net i (some (r, m)) = .gone .dropped := by simp only [custodyOf, Net.relayID, goes]
    rw [custody]
    exact ⟨r, m, rfl, by rw [names]; exact goes⟩
  | @forwarded r d m e goes =>
    cases made : forwardFederated H (net.relayID i) d e with
    | none =>
      have custody : custodyOf H net i (some (r, m)) = .gone .unposted := by
        simp only [custodyOf, show target (net.relayID i) r m = .forward d e from goes, made, Option.isSome_none,
          Bool.false_eq_true, if_false]
      rw [custody]
      exact ⟨r, m, d, e, rfl, by rw [names]; exact goes, by rw [names]; exact made⟩
    | some request =>
      have custody : custodyOf H net i (some (r, m)) = .flight := by
        simp only [custodyOf, show target (net.relayID i) r m = .forward d e from goes, made, Option.isSome_some, if_true]
      rw [custody]
      refine ⟨⟨request, d, e, k, [i]⟩, ?_, rfl⟩
      rw [flight]
      apply List.mem_append_right
      simp only [parcels, show target (net.relayID i) r m = .forward d e from goes, made, Option.map_some,
        Option.toList_some, List.mem_singleton]
  | @handed r name m origin goes handed =>
    have custody : custodyOf H net i (some (r, m)) = .held i (net.relays i).handed.length := by
      simp only [custodyOf, Net.relayID, goes]
    rw [custody]
    refine ⟨⟨name, m, origin⟩, ?_, .here rfl rfl (by rw [names]; exact goes) rfl⟩
    rw [handed, List.getElem?_append_right (Nat.le_refl _), Nat.sub_self]
    rfl

omit [DecidableEq ι] in
/-- A request in flight has the number of its step. -/
theorem mem_parcels {i : ι} {call : Option (Bytes × QueuedMessage)} {k : Nat} {p : Parcel ι}
    (inside : p ∈ parcels H net i k [] call) :
    p.message = k ∧ p.trail = [i] ∧ custodyOf H net i call = .flight ∧
      ∃ r m, call = some (r, m) ∧ target (net.relayID i) r m = .forward p.domain p.sealed := by
  unfold parcels at inside
  split at inside
  · cases inside
  · rename_i r m
    split at inside
    · rename_i d e goes
      obtain ⟨request, made, rfl⟩ := Option.map_eq_some_iff.1 (Option.mem_toList.1 inside)
      refine ⟨rfl, rfl, ?_, r, m, rfl, goes⟩
      simp only [custodyOf, goes, made, Option.isSome_some, if_true]
    · cases inside

omit [DecidableEq ι] in
theorem parcels_nodup (H : Http) (net : Net ι) (i : ι) (k : Nat) (call : Option (Bytes × QueuedMessage)) :
    ((parcels H net i k [] call).map Parcel.message).Nodup := by
  unfold parcels
  split
  · exact List.nodup_nil
  · split
    · rename_i d e _
      cases forwardFederated H (net.relayID i) d e with
      | none => exact List.nodup_nil
      | some request => exact List.nodup_singleton _
    · exact List.nodup_nil

omit [DecidableEq ι] in
theorem moved_get (log : List (Entry ι)) (message k : Nat) (custody : Custody ι) :
    (Ledger.moved log message custody)[k]? =
      if k = message then log[message]?.map fun e => { e with custody } else log[k]? := by
  rw [Ledger.moved, List.getElem?_modify]
  by_cases same : k = message
  · rw [same]
    simp only [if_true, Option.map_eq_map]
  · simp only [if_neg same, if_neg (Ne.symm same), Option.map_eq_map, Option.map_id']

omit [DecidableEq ι] in
/-- What the handler of relay `j` makes of a request that relay `i` has posted. -/
theorem federationDeliver_parcel {p : Parcel ι} {i : ι} (outbound : Outbound (net.relayID i) p.domain p.sealed)
    (made : forwardFederated H (net.relayID i) p.domain p.sealed = some p.request) (j : ι) :
    (federationDeliver (net.relayID j) p.request.relayHeader p.request.body = none ∧
        (net.relayID i = [] ∨ isLocalRelay p.domain (net.relayID j) = false)) ∨
      ∃ u, p.sealed.recipientID = u ++ 64 :: p.domain ∧ isLocalRelay p.domain (net.relayID j) = true ∧
        federationDeliver (net.relayID j) p.request.relayHeader p.request.body =
          some (u, .ofSealed { p.sealed with federationSenderRelay := net.relayID i }) := by
  have request : p.request = ⟨federationURL p.domain, ascii "application/json", net.relayID i, p.sealed.marshal⟩ := by
    simp only [forwardFederated] at made
    split at made
    · exact (Option.some.inj made).symm
    · cases made
  rw [request]
  by_cases named : net.relayID i = []
  · exact .inl ⟨by simp only [federationDeliver, named, if_true], .inl named⟩
  · obtain ⟨u, plain, recipient⟩ := outbound.recipient
    have call := federationDeliver_marshal outbound.valid outbound.full plain recipient named (net.relayID j)
    cases mine : isLocalRelay p.domain (net.relayID j) with
    | false =>
      rw [mine, if_neg Bool.false_ne_true] at call
      exact .inl ⟨call, .inr rfl⟩
    | true =>
      rw [mine, if_pos rfl] at call
      exact .inr ⟨u, recipient, rfl, call⟩

end Step

end SpectreRelay.Server.Network
