import SpectreRelay.Server.Network

/-!
# No message of the network is received twice

The log of `Network` accounts for every message in every state that a network
reaches: its invariant is kept by a step of one relay, by the receipt of a
request and by the loss of one. From it follow what every connection of the
network has received, and that it received it once (`delivered_once`).
-/

namespace SpectreRelay.Server.Network
set_option autoImplicit false
open Lib Model Delivery Federation

section Step

variable {ι : Type} [DecidableEq ι] {P : Platform} {H : Http} {net net' : Net ι} {L L' : Ledger ι}

variable (P H) in
/-- The log agrees with the network. -/
structure Inv (L : Ledger ι) : Prop where
  net : Net.Inv H L.net
  relays : ∀ i, Whole P (L.net.relays i)
  numbers : L.log.length = L.net.next
  accounted : ∀ (k : Nat) (e : Entry ι), L.log[k]? = some e → e.Accounted H L.net k
  handed : ∀ j id, id < (L.net.relays j).handed.length →
    ∃ (k : Nat) (e : Entry ι), L.log[k]? = some e ∧ e.custody = .held j id
  flight : ∀ p ∈ L.net.flight, ∃ (e : Entry ι) (r : Bytes) (m : QueuedMessage), L.log[p.message]? = some e ∧
    e.custody = .flight ∧ p.trail = [e.relay] ∧ e.call = some (r, m) ∧
    target (L.net.relayID e.relay) r m = .forward p.domain p.sealed
  once : (L.net.flight.map Parcel.message).Nodup

namespace Inv

omit [DecidableEq ι] in
theorem init (stores : ι → Store) (routers : ι → Router) : Inv P H (Ledger.init stores routers) where
  net := .init stores routers
  relays i := Whole.init (stores i) (routers i)
  numbers := rfl
  accounted k e found := by cases found
  handed j id below := absurd below (Nat.not_lt_zero id)
  flight p inside := absurd inside List.not_mem_nil
  once := List.nodup_nil

/-- A step of a relay by itself. -/
theorem relay (h : Inv P H L) {i : ι} {l : Delivery.Label} (stepped : Net.step P H L.net (.relay i l) = some net') :
    Inv P H ⟨net', L.log ++ [⟨i, broughtBy (L.net.relays i) l, custodyOf H L.net i (broughtBy (L.net.relays i) l)⟩]⟩ := by
  have taken : Taken P H { L.net with next := L.net.next + 1 } net' i l L.net.next [] := take_taken stepped
  have names : ∀ j, net'.relayID j = L.net.relayID j := taken.names
  have flight : net'.flight = L.net.flight ++ parcels H L.net i L.net.next [] (broughtBy (L.net.relays i) l) := taken.flight
  have last : (L.log ++ [⟨i, broughtBy (L.net.relays i) l, custodyOf H L.net i (broughtBy (L.net.relays i) l)⟩])[L.net.next]? =
      some ⟨i, broughtBy (L.net.relays i) l, custodyOf H L.net i (broughtBy (L.net.relays i) l)⟩ := by
    rw [← h.numbers, List.getElem?_append_right (Nat.le_refl _), Nat.sub_self]
    rfl
  constructor
  · exact h.net.step stepped
  · exact taken.whole h.relays
  · rw [List.length_append, h.numbers, taken.next]
    rfl
  · intro k e found
    by_cases old : k < L.log.length
    · rw [List.getElem?_append_left old] at found
      refine (h.accounted k e found).mono names taken.grown fun p inside _ => ?_
      rw [flight]
      exact List.mem_append_left _ inside
    · obtain rfl : k = L.net.next := by
        have bound := (List.getElem?_eq_some_iff.1 found).1
        rw [List.length_append, List.length_singleton] at bound
        rw [← h.numbers]
        omega
      rw [last] at found
      cases found
      exact accounted_new taken.brought names flight
  · intro j id below
    by_cases old : id < (L.net.relays j).handed.length
    · obtain ⟨k, e, found, custody⟩ := h.handed j id old
      exact ⟨k, e, getElem?_grown found _, custody⟩
    · by_cases here : j = i
      · subst here
        refine ⟨L.net.next, _, last, ?_⟩
        have brought := taken.brought
        generalize broughtBy (L.net.relays j) l = call at brought
        cases brought with
        | nothing handed => rw [handed] at below; exact absurd below old
        | dropped _ handed => rw [handed] at below; exact absurd below old
        | forwarded _ handed => rw [handed] at below; exact absurd below old
        | @handed r name m origin goes handed =>
          rw [handed, List.length_append, List.length_singleton] at below
          have goes : target (L.net.relayID j) r m = .local name := goes
          have first : (L.net.relays j).handed.length = id := by
            have least : ¬ id < (L.net.relays j).handed.length := old
            have most : id < (L.net.relays j).handed.length + 1 := below
            omega
          simp only [custodyOf, goes, first]
      · have same : net'.relays j = L.net.relays j := taken.others j here
        rw [same] at below
        exact absurd below old
  · intro p inside
    rw [flight] at inside
    rcases List.mem_append.1 inside with old | new
    · obtain ⟨e, r, m, found, custody, trail, call, goes⟩ := h.flight p old
      exact ⟨e, r, m, getElem?_grown found _, custody, trail, call, by rw [names]; exact goes⟩
    · obtain ⟨number, trail, custody, r, m, call, goes⟩ := mem_parcels new
      rw [number]
      exact ⟨_, r, m, last, custody, trail, call, by rw [names]; exact goes⟩
  · rw [flight, List.map_append]
    refine List.nodup_append.2 ⟨h.once, parcels_nodup H L.net i L.net.next _, ?_⟩
    intro a old b new same
    obtain ⟨p, before, rfl⟩ := List.mem_map.1 old
    obtain ⟨q, added, rfl⟩ := List.mem_map.1 new
    have early := h.net.past p (h.net.flight p before)
    have late := (mem_parcels added).1
    omega

omit [DecidableEq ι] in
/-- A request is not in flight any more, and its message has a new place. -/
theorem settle (h : Inv P H L) {k : Nat} {p : Parcel ι} {rest : List (Parcel ι)} {custody : Custody ι}
    (picked : pick L.net.flight k = some (p, rest)) (net : Net.Inv H net') (relays : ∀ j, Whole P (net'.relays j))
    (names : ∀ j, net'.relayID j = L.net.relayID j)
    (grown : ∀ j, ∃ more, (net'.relays j).handed = (L.net.relays j).handed ++ more) (next : net'.next = L.net.next)
    (flight : net'.flight = rest)
    (settled : ∀ (e : Entry ι) (r : Bytes) (m : QueuedMessage), e.call = some (r, m) → p.trail = [e.relay] →
      target (L.net.relayID e.relay) r m = .forward p.domain p.sealed →
        Entry.Accounted H net' p.message { e with custody })
    (new : ∀ j id, id < (net'.relays j).handed.length → ¬ id < (L.net.relays j).handed.length → custody = .held j id) :
    Inv P H ⟨net', Ledger.moved L.log p.message custody⟩ := by
  obtain ⟨own, r, m, listed, aloft, trail, call, goes⟩ := h.flight p (mem_of_pick picked)
  have numbers : ((p :: rest).map Parcel.message).Nodup := ((pick_perm picked).map _).nodup_iff.2 h.once
  obtain ⟨fresh, once⟩ := List.nodup_cons.1 numbers
  have apart : ∀ q ∈ rest, q.message ≠ p.message := by
    intro q inside same
    exact fresh (same ▸ List.mem_map_of_mem inside)
  constructor
  · exact net
  · exact relays
  · rw [Ledger.moved, List.length_modify, next]
    exact h.numbers
  · intro n e found
    rw [moved_get] at found
    split at found
    · rename_i same
      rw [listed, Option.map_some] at found
      cases found
      rw [same]
      exact settled own r m call trail goes
    · rename_i other
      refine (h.accounted n e found).mono names grown fun q inside number => ?_
      rw [flight]
      rcases List.mem_cons.1 ((pick_perm picked).mem_iff.2 inside) with rfl | left
      · exact absurd number.symm other
      · exact left
  · intro j id below
    by_cases old : id < (L.net.relays j).handed.length
    · obtain ⟨n, e, found, held⟩ := h.handed j id old
      refine ⟨n, e, ?_, held⟩
      rw [moved_get, if_neg]
      · exact found
      · rintro rfl
        rw [listed] at found
        cases found
        rw [aloft] at held
        cases held
    · refine ⟨p.message, { own with custody }, ?_, new j id below old⟩
      rw [moved_get, if_pos rfl, listed, Option.map_some]
  · intro q inside
    rw [flight] at inside
    obtain ⟨e, r, m, found, custody, trail, call, goes⟩ := h.flight q (mem_of_pick_rest picked inside)
    refine ⟨e, r, m, ?_, custody, trail, call, by rw [names]; exact goes⟩
    rw [moved_get, if_neg (apart q inside)]
    exact found
  · rw [flight]
    exact once

theorem lose (h : Inv P H L) {k : Nat} {p : Parcel ι} {rest : List (Parcel ι)} (picked : pick L.net.flight k = some (p, rest))
    (stepped : Net.step P H L.net (.lose k) = some net') : Inv P H ⟨net', Ledger.moved L.log p.message (.gone .lost)⟩ := by
  have after : net' = { L.net with flight := rest } := by
    simp only [Net.step, picked, Option.map_some, Option.some.injEq] at stepped
    exact stepped.symm
  have net := h.net.step stepped
  subst after
  refine h.settle picked net h.relays (fun _ => rfl) (fun _ => ⟨[], (List.append_nil _).symm⟩) rfl rfl ?_ ?_
  · intro e r m call trail goes
    exact ⟨r, m, p.domain, p.sealed, call, goes⟩
  · intro j id below old
    exact absurd below old

/-- A relay receives a request: it hands the envelope to a user, or refuses it. -/
theorem receive (h : Inv P H L) {j : ι} {k : Nat} {p : Parcel ι} {rest : List (Parcel ι)}
    (picked : pick L.net.flight k = some (p, rest)) (stepped : Net.step P H L.net (.receive j k) = some net') :
    Inv P H ⟨net', Ledger.moved L.log p.message (custodyAt L.net j p.request)⟩ := by
  have net := h.net.step stepped
  simp only [Net.step, picked] at stepped
  have taken := take_taken stepped
  have names : ∀ i, net'.relayID i = L.net.relayID i := taken.names
  obtain ⟨i, trail, outbound, made⟩ := h.net.posted p (h.net.flight p (mem_of_pick picked))
  have brought : Brought (L.net.relays j) (net'.relays j)
      (federationDeliver (L.net.relayID j) p.request.relayHeader p.request.body) := taken.brought
  have flight : net'.flight = rest ++ parcels H L.net j p.message p.trail
      (federationDeliver (L.net.relayID j) p.request.relayHeader p.request.body) := taken.flight
  have others : ∀ j' id, id < (net'.relays j').handed.length → ¬ id < (L.net.relays j').handed.length → j' = j := by
    intro j' id below old
    by_contra elsewhere
    have same : net'.relays j' = L.net.relays j' := taken.others j' elsewhere
    exact old (same ▸ below)
  rcases federationDeliver_parcel outbound made j with ⟨call, reason⟩ | ⟨u, recipient, mine, call⟩
  · rw [call] at brought flight
    have custody : custodyAt L.net j p.request = .gone (.refused j) := by simp only [custodyAt, call]
    rw [custody]
    refine h.settle picked net (taken.whole h.relays) names taken.grown taken.next ?_ ?_ ?_
    · rw [flight, parcels, List.append_nil]
    · intro e r m made' trail' goes
      obtain rfl : i = e.relay := by
        rw [trail] at trail'
        exact (List.cons.inj trail').1
      exact ⟨r, m, p.domain, p.sealed, made', by rw [names]; exact goes, by rw [names, names]; exact reason⟩
    · intro j' id below old
      cases brought with
      | nothing handed =>
        obtain rfl := others j' id below old
        rw [handed] at below
        exact absurd below old
  · have plain : 64 ∉ u := federationDeliver_plain call
    have here (m : QueuedMessage) : target (L.net.relayID j) u m = .local u := target_plain plain m
    rw [call] at brought flight
    have custody : custodyAt L.net j p.request = .held j (L.net.relays j).handed.length := by simp only [custodyAt, call]
    rw [custody]
    have handed : ∃ origin, (net'.relays j).handed = (L.net.relays j).handed ++
        [⟨u, .ofSealed { p.sealed with federationSenderRelay := L.net.relayID i }, origin⟩] := by
      cases brought with
      | dropped goes => cases (here _).symm.trans goes
      | forwarded goes => cases (here _).symm.trans goes
      | handed goes handed =>
        cases (here _).symm.trans goes
        exact ⟨_, handed⟩
    obtain ⟨origin, handed⟩ := handed
    refine h.settle picked net (taken.whole h.relays) names taken.grown taken.next ?_ ?_ ?_
    · rw [flight, parcels, here, List.append_nil]
    · intro e r m made' trail' goes
      obtain rfl : i = e.relay := by
        rw [trail] at trail'
        exact (List.cons.inj trail').1
      refine ⟨⟨u, .ofSealed { p.sealed with federationSenderRelay := L.net.relayID e.relay }, origin⟩, ?_,
        .there made' (by rw [names]; exact goes) (by rw [names]; exact mine) recipient (by rw [names])⟩
      rw [handed, List.getElem?_append_right (Nat.le_refl _), Nat.sub_self]
      rfl
    · intro j' id below old
      obtain rfl := others j' id below old
      rw [handed, List.length_append, List.length_singleton] at below
      have last : id = (L.net.relays j').handed.length := by omega
      rw [last]

theorem step (h : Inv P H L) {l : Federation.Label ι} (stepped : Ledger.step P H L l = some L') : Inv P H L' := by
  obtain ⟨net', moved, after⟩ := Option.bind_eq_some_iff.1 stepped
  cases l with
  | relay i l =>
    cases after
    exact h.relay moved
  | receive j k =>
    obtain ⟨⟨p, rest⟩, picked, rfl⟩ := Option.map_eq_some_iff.1 after
    exact h.receive picked moved
  | lose k =>
    obtain ⟨⟨p, rest⟩, picked, rfl⟩ := Option.map_eq_some_iff.1 after
    exact h.lose picked moved

end Inv

end Step

/-! ## Whole runs -/

section Runs

variable {ι : Type} [DecidableEq ι]

/-- **The log is history.** Every run of the network is one of the network with its log. -/
theorem run_logged {P : Platform} {H : Http} {labels : List (Federation.Label ι)} {net net' : Net ι}
    (reached : run (Net.step P H) net labels = some net') (log : List (Entry ι)) :
    ∃ log', run (Ledger.step P H) ⟨net, log⟩ labels = some ⟨net', log'⟩ := by
  induction labels generalizing net log with
  | nil =>
    cases reached
    exact ⟨log, rfl⟩
  | cons l labels ih =>
    obtain ⟨m, first, rest⟩ := run_cons.1 reached
    have next : ∃ log₁, Ledger.step P H ⟨net, log⟩ l = some ⟨m, log₁⟩ := by
      cases l with
      | relay i l => exact ⟨_, by simp only [Ledger.step, first, Option.bind_some]; rfl⟩
      | receive j k =>
        cases picked : pick net.flight k with
        | none =>
          simp only [Net.step, picked] at first
          cases first
        | some taken => exact ⟨_, by simp only [Ledger.step, first, Option.bind_some, picked, Option.map_some]; rfl⟩
      | lose k =>
        cases picked : pick net.flight k with
        | none =>
          simp only [Net.step, picked, Option.map_none] at first
          cases first
        | some taken => exact ⟨_, by simp only [Ledger.step, first, Option.bind_some, picked, Option.map_some]; rfl⟩
    obtain ⟨log₁, first⟩ := next
    obtain ⟨log', rest⟩ := ih rest log₁
    exact ⟨log', run_cons.2 ⟨_, first, rest⟩⟩

omit [DecidableEq ι] in
/-- The message with number `k` is the `a`th frame that the connections of relay `j` received. -/
def Received (L : Ledger ι) (k : Nat) (j : ι) (a : Nat) : Prop :=
  ∃ (e : Entry ι) (w : Written), L.log[k]? = some e ∧ e.custody = .held j w.id ∧ (L.net.relays j).written[a]? = some w

/-- A relay writes no message twice. -/
theorem writtenIds_nodup {s : State} (h : Conserved s) : s.writtenIds.Nodup := by
  refine List.nodup_iff_count_le_one.2 fun id => ?_
  have all := h id
  unfold State.held at all
  split at all <;> omega

omit [DecidableEq ι] in
theorem Received.unique {P : Platform} {L : Ledger ι} (whole : ∀ i, Whole P (L.net.relays i)) {k a a' : Nat} {j j' : ι}
    (first : Received L k j a) (second : Received L k j' a') : j = j' ∧ a = a' := by
  obtain ⟨e, w, listed, held, found⟩ := first
  obtain ⟨e', w', listed', held', found'⟩ := second
  rw [listed] at listed'
  cases listed'
  rw [held] at held'
  injection held' with relay number
  subst relay
  refine ⟨rfl, ?_⟩
  have ids : (L.net.relays j).writtenIds[a]? = (L.net.relays j).writtenIds[a']? := by
    simp only [State.writtenIds, List.getElem?_map, found, found', Option.map_some, number]
  have bound : a < (L.net.relays j).writtenIds.length := by
    rw [State.writtenIds, List.length_map]
    exact (List.getElem?_eq_some_iff.1 found).1
  exact (List.getElem?_inj bound (writtenIds_nodup (whole j).conserved)).1 ids

/-- **From client to client.** In every state that a network of relays reaches, every message that came in at some relay
is where its entry says: held by one relay, there in one place of its recipient's; in flight; or gone for a reason that
holds. Every frame that a connection received, at any relay, is the frame of such a message, with its envelope unchanged
but for the tag of the relay it was forwarded from; and no message was received twice. -/
theorem delivered_once (P : Platform) (H : Http) (stores : ι → Store) (routers : ι → Router)
    (labels : List (Federation.Label ι)) (L : Ledger ι)
    (reached : run (Ledger.step P H) (Ledger.init stores routers) labels = some L) :
    (∀ (k : Nat) (e : Entry ι), L.log[k]? = some e → e.Accounted H L.net k ∧
      ∀ j id, e.custody = .held j id → ∃ h place, (L.net.relays j).handed[id]? = some h ∧
        (L.net.relays j).places id = [place] ∧ place.Fits (L.net.relays j) h) ∧
    (∀ j (a : Nat) w, (L.net.relays j).written[a]? = some w → ∃ (k : Nat) (e : Entry ι) (h : Handed), Received L k j a ∧
      L.log[k]? = some e ∧ Carries L.net e j h ∧ (h.recipientID, w.conn) ∈ (L.net.relays j).registered ∧
      h.msg.receive w.frame = some (h.msg.sanitize.stamp 0)) ∧
    ∀ k a a' j j', Received L k j a → Received L k j' a' → j = j' ∧ a = a' := by
  have inv : Inv P H L := run_invariant (fun _ _ _ h stepped => h.step stepped) (Inv.init stores routers) reached
  refine ⟨?_, ?_, fun k a a' j j' first second => first.unique inv.relays second⟩
  · intro k e listed
    refine ⟨inv.accounted k e listed, fun j id held => ?_⟩
    have accounted := inv.accounted k e listed
    simp only [Entry.Accounted, held] at accounted
    obtain ⟨h, found, -⟩ := accounted
    obtain ⟨place, only, -, fits⟩ := (inv.relays j).inv.place (inv.relays j).conserved found
    exact ⟨h, place, found, only, fits⟩
  · intro j a w written
    obtain ⟨h, found, known, received⟩ := (inv.relays j).frame (List.mem_of_getElem? written)
    obtain ⟨k, e, listed, held⟩ := inv.handed j w.id (List.getElem?_eq_some_iff.1 found).1
    have accounted := inv.accounted k e listed
    simp only [Entry.Accounted, held] at accounted
    obtain ⟨h', found', carries⟩ := accounted
    rw [found] at found'
    cases found'
    exact ⟨k, e, h, ⟨e, w, listed, held, written⟩, listed, carries, known, received⟩

/-- ann on the first relay writes to bob on the second relay, who is connected there; one of two requests is lost. -/
def crossing (now : Time) : List (Federation.Label Bool) :=
  let frame := SealedEnvelope.marshal ⟨ascii "bob@relay-b", [1], 0, ascii "m", []⟩
  [.relay true (.register (ascii "bob") 7), .relay false (.frame (ascii "ann") frame now),
    .relay false (.frame (ascii "ann") frame now), .receive true 0, .relay true (.lookup 0), .relay true (.write 0 false),
    .lose 0]

/-- bob receives the first message, which is accounted for as the second is. -/
theorem delivered_once_crossing :
    ∃ L : Ledger Bool, run (Ledger.step Reference.platform ⟨fun _ => true, fun _ => true⟩)
        (Ledger.init (fun _ => Reference.store) fun i => .new 65536 60 (Net.pairID i)) (crossing Reference.start) = some L ∧
      ((L.net.relays true).written.map fun w => (w.conn, w.frame)) =
        [(7, SealedEnvelope.marshal ⟨ascii "bob@relay-b", [1], 0, ascii "m", ascii "relay-a"⟩)] ∧
      (∀ (k : Nat) (e : Entry Bool), L.log[k]? = some e → e.Accounted ⟨fun _ => true, fun _ => true⟩ L.net k) ∧
      ∃ k, Received L k true 0 ∧ ∀ j a, Received L k j a → j = true ∧ a = 0 := by
  have found : ((run (Ledger.step Reference.platform ⟨fun _ => true, fun _ => true⟩)
      (Ledger.init (fun _ => Reference.store) fun i => .new 65536 60 (Net.pairID i)) (crossing Reference.start)).map fun L =>
        (L.net.relays true).written.map fun w => (w.conn, w.frame)) =
      some [(7, SealedEnvelope.marshal ⟨ascii "bob@relay-b", [1], 0, ascii "m", ascii "relay-a"⟩)] := by decide +kernel
  obtain ⟨L, reached, written⟩ := Option.map_eq_some_iff.1 found
  obtain ⟨accounted, received, once⟩ := delivered_once Reference.platform _ _ _ _ L reached
  refine ⟨L, reached, written, fun k e listed => (accounted k e listed).1, ?_⟩
  obtain ⟨w, first⟩ : ∃ w, (L.net.relays true).written[0]? = some w := by
    cases all : (L.net.relays true).written with
    | nil =>
      rw [all] at written
      cases written
    | cons w rest => exact ⟨w, rfl⟩
  obtain ⟨k, -, -, here, -⟩ := received true 0 w first
  exact ⟨k, here, fun j a there => once k a 0 j true there here⟩

end Runs

end SpectreRelay.Server.Network
