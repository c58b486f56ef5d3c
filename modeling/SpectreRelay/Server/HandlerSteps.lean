import SpectreRelay.Lib.Simulation
import SpectreRelay.Server.Ownership
import SpectreRelay.Server.Restarts
import SpectreRelay.Server.Sessions
import SpectreRelay.Server.StoreCalls

/-!
# Handlers as runs of their critical sections

`Sessions` takes a whole handler in one step: a handshake with its flush, a
frame with its `deliver` call, a federation request. `Delivery` takes their
critical sections one by one, in any order. Here every run of the first is a
run of the second, with the same queue, the same registry, the same frames on
the same connections and the same requests to other relays: what is shown of
every interleaving holds of the handlers.
-/

namespace SpectreRelay.Server.HandlerSteps
set_option autoImplicit false
open Lib Model Delivery

/-! ## What goes in and out -/

/-- The frames to clients, the requests to other relays, and the messages taken in for local users. -/
structure Traffic where
  frames : List (Conn × Bytes)
  requests : List (Bytes × SealedEnvelope)
  handed : List Handed

namespace Traffic

def nothing : Traffic := ⟨[], [], []⟩

def append (a b : Traffic) : Traffic := ⟨a.frames ++ b.frames, a.requests ++ b.requests, a.handed ++ b.handed⟩

theorem append_nothing (a : Traffic) : a.append nothing = a := by
  simp only [append, nothing, List.append_nil]

/-- The traffic of a `deliver` call for `recipientID`. -/
def ofDeliver (P : Platform) (s : Store) (relayID recipientID : Bytes) (m : QueuedMessage) (origin : Origin)
    (writeFails : Bool) (enqueue : Store.EnqueueIo) : Traffic where
  frames := match (deliver P s relayID recipientID m writeFails enqueue).2 with
    | .written conn frame => [(conn, frame)]
    | _ => []
  requests := match (deliver P s relayID recipientID m writeFails enqueue).2 with
    | .forwarded domain sealed => [(domain, sealed)]
    | _ => []
  handed := match target relayID recipientID m with
    | .local name => [⟨name, m, origin⟩]
    | _ => []

end Traffic

section Handlers

variable (P : Platform)

/-- The traffic of a handler that makes this `deliver` call, or none. -/
def called (s : Sessions.State) (call : Option (Bytes × QueuedMessage)) (origin : Origin) (writeFails : Bool)
    (enqueue : Store.EnqueueIo) : Traffic :=
  match call with
  | none => .nothing
  | some (recipientID, m) => .ofDeliver P s.server.store s.server.router.relayID recipientID m origin writeFails enqueue

/-- The traffic of a step of `Sessions`; certificates and answers to HTTP requests apart. -/
def traffic (s : Sessions.State) : Sessions.Label → Traffic
  | .connect conn ip answer auth flush =>
    match (authenticate P.ed25519 s.server.auth ip answer auth).2 with
    | none => .nothing
    | some claimed =>
      let userID := normalizeUser s.cfg.relayID claimed
      let flushed := flushQueue P (s.server.store.register userID conn).1 userID flush.drain flush.fails flush.requeue
      ⟨flushed.2.map fun frame => (conn, frame), [], []⟩
  | .frame conn data io writeFails enqueue =>
    match s.sessions.find? fun ss => ss.conn = conn with
    | none => .nothing
    | some ss =>
      match frameKind data with
      | .route => called P s (s.server.router.route ss.userID data io.now).2 (.client ss.userID) writeFails enqueue
      | _ => .nothing
  | .post method header body writeFails enqueue =>
    called P s (s.server.handleFederationDeliver method header body) (.federation header) writeFails enqueue
  | _ => .nothing

/-- The traffic of a state of `Delivery` so far. -/
def sofar (d : State) : Traffic := ⟨d.written.map fun w => (w.conn, w.frame), d.posts, d.handed⟩

/-- No storage call of the step fails. -/
def Sound : Sessions.Label → Prop
  | .connect _ _ _ _ flush => (∃ now fileNonce, flush.drain = .clean now fileNonce) ∧
      ∃ stamps : Nat → Stamp, flush.requeue = fun i => (stamps i).io
  | .frame _ _ _ _ enqueue => ∃ t : Stamp, enqueue = t.io
  | .post _ _ _ _ enqueue => ∃ t : Stamp, enqueue = t.io
  | .fetch _ _ _ _ => True
  | .disconnect _ => True
  | .restart _ => True

/-- The connections that the steps open. -/
def opened : List Sessions.Label → List Conn
  | [] => []
  | .connect conn _ _ _ _ :: labels => conn :: opened labels
  | _ :: labels => opened labels

end Handlers

/-! ## One `deliver` call -/

section Calls

variable {P : Platform}

/-- What the steps of a call or a flush leave alone. -/
structure Beside (d d' : State) : Prop where
  router : d'.router = d.router
  calls : d'.calls = d.calls
  registered : d'.registered = d.registered

theorem Beside.refl (d : State) : Beside d d := ⟨rfl, rfl, rfl⟩

/-- The steps of one call, with nothing in between: the store and the traffic are those of `deliver`. -/
theorem deliver_run (d : State) (r : Bytes) (m : QueuedMessage) (origin : Origin) (fails : Bool) (t : Stamp) :
    ∃ labels d', run (State.step P) (d.hand (some (r, m)) origin) labels = some d' ∧
      d'.store = (deliver P d.store d.router.relayID r m fails t.io).1 ∧ Beside d d' ∧ d'.sessions = d.sessions ∧
      sofar d' = (sofar d).append (.ofDeliver P d.store d.router.relayID r m origin fails t.io) := by
  cases goes : target d.router.relayID r m with
  | drop =>
    refine ⟨[], d, ?_, ?_, .refl d, rfl, ?_⟩
    · simp only [State.hand, goes, run]
    · simp only [deliver, goes]
    · simp only [Traffic.ofDeliver, deliver, goes, Traffic.append, sofar, List.append_nil]
  | forward domain sealed =>
    refine ⟨[], { d with posts := d.posts ++ [(domain, sealed)] }, ?_, ?_, ⟨rfl, rfl, rfl⟩, rfl, ?_⟩
    · simp only [State.hand, goes, run]
    · simp only [deliver, goes]
    · simp only [Traffic.ofDeliver, deliver, goes, Traffic.append, sofar, List.append_nil]
  | «local» name =>
    have handed : d.hand (some (r, m)) origin = { d with
        calls := ⟨d.handed.length, name, m, .lookup⟩ :: d.calls
        handed := d.handed ++ [⟨name, m, origin⟩] } := by
      simp only [State.hand, goes]
    have first (stage : Stage) : pick ((⟨d.handed.length, name, m, stage⟩ : Call) :: d.calls) 0 =
        some (⟨d.handed.length, name, m, stage⟩, d.calls) := rfl
    rw [handed]
    cases online : d.store.lookupClient name with
    | none =>
      refine ⟨[.lookup 0, .enqueue 0 t], State.enqueue P { d with handed := d.handed ++ [⟨name, m, origin⟩] }
        d.handed.length name m t, ?_, ?_, ⟨rfl, rfl, rfl⟩, rfl, ?_⟩
      · simp only [run, State.step, first, online, Option.bind_some]
      · simp only [deliver, goes, online, State.enqueue]
      · simp only [Traffic.ofDeliver, deliver, goes, online, Traffic.append, sofar, State.enqueue, List.append_nil]
    | some conn =>
      cases text : marshalQueued m with
      | none =>
        refine ⟨[.lookup 0, .write 0 fails, .enqueue 0 t], State.enqueue P { d with
          handed := d.handed ++ [⟨name, m, origin⟩] } d.handed.length name m t, ?_, ?_, ⟨rfl, rfl, rfl⟩, rfl, ?_⟩
        · simp only [run, State.step, first, online, text, Option.bind_some]
        · simp only [deliver, goes, online, text, State.enqueue]
        · simp only [Traffic.ofDeliver, deliver, goes, online, text, Traffic.append, sofar, State.enqueue,
            List.append_nil]
      | some frame =>
        cases fails with
        | false =>
          refine ⟨[.lookup 0, .write 0 false], { d with
            handed := d.handed ++ [⟨name, m, origin⟩]
            written := d.written ++ [⟨d.handed.length, conn, frame⟩] }, ?_, ?_, ⟨rfl, rfl, rfl⟩, rfl, ?_⟩
          · simp only [run, State.step, first, online, text, Option.bind_some]
          · simp only [deliver, goes, online, text, Bool.false_eq_true, if_false]
          · simp only [Traffic.ofDeliver, deliver, goes, online, text, Bool.false_eq_true, if_false, Traffic.append,
              sofar, List.map_append, List.map_singleton, List.append_nil]
        | true =>
          refine ⟨[.lookup 0, .write 0 true, .enqueue 0 t], State.enqueue P { d with
            handed := d.handed ++ [⟨name, m, origin⟩] } d.handed.length name m t, ?_, ?_, ⟨rfl, rfl, rfl⟩, rfl, ?_⟩
          · simp only [run, State.step, first, online, text, Option.bind_some]
          · simp only [deliver, goes, online, text, if_true, State.enqueue]
          · simp only [Traffic.ofDeliver, deliver, goes, online, text, if_true, Traffic.append, sofar, State.enqueue,
              List.append_nil]

/-! ## One flush -/

/-- Putting messages back, with nothing in between. -/
theorem requeue_run (stamps : Nat → Stamp) {conn : Conn} {userID : Bytes} {rest : List Session}
    (pending : List (Nat × QueuedMessage)) (i : Nat) (d : State)
    (here : d.sessions = ⟨conn, userID, .requeue pending⟩ :: rest) :
    ∃ labels d', run (State.step P) d labels = some d' ∧
      d'.store = requeue P userID (fun i => (stamps i).io) i (pending.map Prod.snd) d.store ∧ Beside d d' ∧
      d'.sessions = ⟨conn, userID, .serving⟩ :: rest ∧ sofar d' = sofar d := by
  induction pending generalizing i d with
  | nil => exact ⟨[], d, rfl, rfl, .refl d, here, rfl⟩
  | cons head left ih =>
    obtain ⟨id, m⟩ := head
    have picked : pick d.sessions 0 = some (⟨conn, userID, .requeueing ((id, m) :: left)⟩, rest) := by rw [here]; rfl
    obtain ⟨labels, d', reached, store, beside, sessions, same⟩ := ih (i + 1)
      (State.enqueue P { d with sessions := ⟨conn, userID, .requeue left⟩ :: rest } id userID m (stamps i)) rfl
    refine ⟨.requeue 0 (stamps i) :: labels, d', ?_, store, ⟨beside.router, beside.calls, beside.registered⟩,
      sessions, same⟩
    simp only [run, State.step, picked, Option.bind_some]
    exact reached

/-- Writing what was drained, with nothing in between. -/
theorem flush_run (fails : Nat → Bool) (stamps : Nat → Stamp) {conn : Conn} {userID : Bytes} {rest : List Session}
    (pending : List (Nat × QueuedMessage)) (i : Nat) (d : State)
    (here : d.sessions = ⟨conn, userID, .flush pending⟩ :: rest) :
    ∃ labels d', run (State.step P) d labels = some d' ∧
      d'.store = (flushLoop P userID fails (fun i => (stamps i).io) i (pending.map Prod.snd) d.store).1 ∧ Beside d d' ∧
      d'.sessions = ⟨conn, userID, .serving⟩ :: rest ∧
      sofar d' = (sofar d).append ⟨(flushLoop P userID fails (fun i => (stamps i).io) i (pending.map Prod.snd)
        d.store).2.map fun frame => (conn, frame), [], []⟩ := by
  induction pending generalizing i d with
  | nil => exact ⟨[], d, rfl, rfl, .refl d, here, ((sofar d).append_nothing).symm⟩
  | cons head left ih =>
    obtain ⟨id, m⟩ := head
    have picked : pick d.sessions 0 = some (⟨conn, userID, .flushing ((id, m) :: left)⟩, rest) := by rw [here]; rfl
    cases text : marshalQueued m with
    | none =>
      obtain ⟨labels, d', reached, store, beside, sessions, same⟩ :=
        ih (i + 1) { d with sessions := ⟨conn, userID, .flush left⟩ :: rest } rfl
      refine ⟨.flushWrite 0 (fails i) :: labels, d', ?_, ?_, ⟨beside.router, beside.calls, beside.registered⟩,
        sessions, ?_⟩
      · simp only [run, State.step, picked, text, Option.bind_some]
        exact reached
      · simp only [List.map_cons, flushLoop, text]
        exact store
      · simp only [List.map_cons, flushLoop, text]
        exact same
    | some frame =>
      cases broken : fails i with
      | true =>
        obtain ⟨labels, d', reached, store, beside, sessions, same⟩ := requeue_run (P := P) stamps ((id, m) :: left) i
          { d with sessions := ⟨conn, userID, .requeue ((id, m) :: left)⟩ :: rest } rfl
        refine ⟨.flushWrite 0 true :: labels, d', ?_, ?_, ⟨beside.router, beside.calls, beside.registered⟩,
          sessions, ?_⟩
        · simp only [run, State.step, picked, text, Option.bind_some]
          exact reached
        · simp only [List.map_cons, flushLoop, text, broken, if_true]
          exact store
        · simp only [List.map_cons, flushLoop, text, broken, if_true]
          exact same.trans ((sofar d).append_nothing).symm
      | false =>
        obtain ⟨labels, d', reached, store, beside, sessions, same⟩ := ih (i + 1)
          { d with
            sessions := ⟨conn, userID, .flush left⟩ :: rest
            written := d.written ++ [⟨id, conn, frame⟩] } rfl
        refine ⟨.flushWrite 0 false :: labels, d', ?_, ?_, ⟨beside.router, beside.calls, beside.registered⟩,
          sessions, ?_⟩
        · simp only [run, State.step, picked, text, Option.bind_some]
          exact reached
        · simp only [List.map_cons, flushLoop, text, broken, Bool.false_eq_true, if_false]
          exact store
        · simp only [List.map_cons, flushLoop, text, broken, Bool.false_eq_true, if_false]
          rw [same]
          simp only [sofar, Traffic.append, List.map_append, List.map_cons, List.map_nil, List.append_assoc,
            List.cons_append, List.nil_append]

/-- **`Register` and `FlushQueue` of a new session**, with nothing in between. -/
theorem connect_run (d : State) (userID : Bytes) (conn : Conn) (now : Time) (fileNonce : Block 12) (fails : Nat → Bool)
    (stamps : Nat → Stamp) (fresh : conn ∉ d.registered.map Prod.snd) :
    let flushed := flushQueue P (d.store.register userID conn).1 userID (.clean now fileNonce) fails
      fun i => (stamps i).io
    ∃ labels d', run (State.step P) d labels = some d' ∧ d'.store = flushed.1 ∧ d'.router = d.router ∧
      d'.calls = d.calls ∧ d'.registered = d.registered ++ [(userID, conn)] ∧
      d'.sessions = ⟨conn, userID, .serving⟩ :: d.sessions ∧
      sofar d' = (sofar d).append ⟨flushed.2.map fun frame => (conn, frame), [], []⟩ := by
  have open' : (d.registered.any fun past => past.2 = conn) = false := by
    rw [List.any_eq_false]
    intro past inside same
    exact fresh (List.mem_map.2 ⟨past, inside, of_decide_eq_true same⟩)
  let joined : State := { d with
    store := (d.store.register userID conn).1
    sessions := ⟨conn, userID, .registered⟩ :: d.sessions
    registered := d.registered ++ [(userID, conn)] }
  let pending := (joined.store.drainedRows P userID (.clean now fileNonce)).map fun row => (joined.owner row.1, row.2)
  obtain ⟨labels, d', reached, store, beside, sessions, same⟩ := flush_run (P := P) fails stamps pending 0
    { joined with
      store := (joined.store.drainQueue P userID (.clean now fileNonce)).1
      sessions := ⟨conn, userID, .flush pending⟩ :: d.sessions
      discarded := joined.discarded ++
        joined.expiries (fun row => row.recipientID = userID ∧ Store.expired now row) now } rfl
  refine ⟨.register userID conn :: .drain 0 now fileNonce :: labels, d', ?_, ?_, beside.router, beside.calls,
    beside.registered, sessions, ?_⟩
  · simp only [run, State.step, open', Bool.false_eq_true, if_false, Option.bind_some]
    exact reached
  · rw [store, List.map_map]
    rfl
  · rw [same, List.map_map]
    rfl

end Calls

/-! ## One handler -/

/-- The relay between handlers, as a state of `Delivery` in which no call is under way and no session is in its flush. -/
structure Matches (s : Sessions.State) (d : State) : Prop where
  store : d.store = s.server.store
  router : d.router = s.server.router
  calls : d.calls = []
  sessions : d.sessions = s.sessions.map fun ss => ⟨ss.conn, ss.userID, .serving⟩
  distinct : (s.sessions.map Sessions.Session.conn).Nodup
  relayID : s.server.relayID = s.cfg.relayID
  settings : s.server.router.maxMessageSize = s.cfg.maxMessageSize.toInt ∧
    s.server.router.ratePerMin = s.cfg.rateLimitPerMin.toInt ∧ s.server.router.relayID = s.cfg.relayID

/-- `Route` keeps the settings of the router. -/
theorem route_settings (r : Router) (senderID data : Bytes) (now : Time) :
    (r.route senderID data now).1.maxMessageSize = r.maxMessageSize ∧
      (r.route senderID data now).1.ratePerMin = r.ratePerMin ∧ (r.route senderID data now).1.relayID = r.relayID := by
  simp only [Router.route]
  split
  · exact ⟨rfl, rfl, rfl⟩
  · split <;> exact ⟨rfl, rfl, rfl⟩

/-- A frame that is not routed leaves the store, the router and the sessions alone. -/
theorem control_frame {P : Platform} {s s' : Sessions.State} {conn : Conn} {data : Bytes} {io : Server.FrameIo}
    {writeFails : Bool} {enqueue : Store.EnqueueIo} (kind : frameKind data ≠ .route)
    (stepped : s.step P (.frame conn data io writeFails enqueue) = some s') :
    s'.cfg = s.cfg ∧ s'.sessions = s.sessions ∧ s'.server.store = s.server.store ∧
      s'.server.router = s.server.router ∧ s'.server.relayID = s.server.relayID := by
  simp only [Sessions.State.step] at stepped
  split at stepped
  · cases stepped
  · rename_i ss found
    have handled := s.server.handleAuthedFrame_cases (P := P) ss.userID data io
    have unrouted (server : Server) (call : Option (Bytes × QueuedMessage)) :
        s.server.handleAuthedFrame P ss.userID data io ≠ (server, .routed call) := by
      intro same
      unfold Server.handleAuthedFrame at same
      split at same
      · cases same
      · cases same
      · cases same
      · contradiction
    generalize s.server.handleAuthedFrame P ss.userID data io = out at stepped handled unrouted
    cases handled with
    | uncertified => cases stepped; exact ⟨rfl, rfl, rfl, rfl, rfl⟩
    | certified => cases stepped; exact ⟨rfl, rfl, rfl, rfl, rfl⟩
    | malformed => cases stepped; exact ⟨rfl, rfl, rfl, rfl, rfl⟩
    | @registered bundle prekeys result answer =>
      cases result with
      | ok done => cases stepped; exact ⟨rfl, rfl, rfl, rfl, rfl⟩
      | error e => cases stepped; exact ⟨rfl, rfl, rfl, rfl, rfl⟩
    | @routed router call => exact absurd rfl (unrouted _ call)

section Steps

variable {P : Platform} {s s' : Sessions.State} {d : State}

/-- A run of critical sections that has the effects of the step `l` of a handler. -/
structure Follows (P : Platform) (s : Sessions.State) (l : Sessions.Label) (s' : Sessions.State) (d d' : State) : Prop where
  reached : ∃ events, run (State.advance P s.cfg.messageTTLSeconds) d events = some d'
  between : Matches s' d'
  cfg : s'.cfg = s.cfg
  registered : ∀ c ∈ d'.registered.map Prod.snd, c ∈ d.registered.map Prod.snd ∨ c ∈ opened [l]
  sofar : sofar d' = (sofar d).append (traffic P s l)

/-- A run within one process. -/
theorem advance_of_run {ttlSeconds : Int64} {d' : State} (labels : List Label)
    (reached : run (State.step P) d labels = some d') :
    ∃ events, run (State.advance P ttlSeconds) d events = some d' :=
  ⟨labels.map .step, (run_map (k := State.advance P ttlSeconds) (h := Event.step) (fun _ _ => rfl) d labels).trans reached⟩

theorem Matches.call (h : Matches s d) (call : Option (Bytes × QueuedMessage)) (origin : Origin) (fails : Bool)
    (t : Stamp) :
    ∃ labels d', run (State.step P) (d.hand call origin) labels = some d' ∧ Matches (s.delivered P call fails t.io) d' ∧
      d'.registered = d.registered ∧ sofar d' = (sofar d).append (called P s call origin fails t.io) := by
  cases call with
  | none => exact ⟨[], d, rfl, h, rfl, ((sofar d).append_nothing).symm⟩
  | some call =>
    obtain ⟨r, m⟩ := call
    obtain ⟨labels, d', reached, store, beside, sessions, same⟩ := deliver_run (P := P) d r m origin fails t
    rw [h.store, h.router] at store same
    exact ⟨labels, d', reached, ⟨store, beside.router.trans h.router, beside.calls.trans h.calls,
      sessions.trans h.sessions, h.distinct, h.relayID, h.settings⟩, beside.registered, same⟩

theorem Matches.connect (h : Matches s d) {conn : Conn} {ip answer : Bytes} {auth : AuthIo} {flush : Sessions.FlushIo}
    (sound : Sound (.connect conn ip answer auth flush)) (fresh : conn ∉ d.registered.map Prod.snd)
    (stepped : s.step P (.connect conn ip answer auth flush) = some s') :
    ∃ d', Follows P s (.connect conn ip answer auth flush) s' d d' := by
  obtain ⟨drain, fails, io⟩ := flush
  obtain ⟨⟨now, fileNonce, rfl⟩, stamps, rfl⟩ : (∃ now fileNonce, drain = .clean now fileNonce) ∧
    ∃ stamps : Nat → Stamp, io = fun i => (stamps i).io := sound
  simp only [Sessions.State.step] at stepped
  split at stepped
  · cases stepped
  · rename_i other
    split at stepped
    · rename_i attempts failed
      cases stepped
      refine ⟨d, ⟨[], rfl⟩, ⟨h.store, h.router, h.calls, h.sessions, h.distinct, h.relayID, h.settings⟩, rfl,
        fun c inside => .inl inside, ?_⟩
      simp only [traffic, failed, Traffic.append_nothing]
    · rename_i attempts claimed authenticated
      cases stepped
      obtain ⟨labels, d', reached, store, router, calls, registered, sessions, same⟩ := connect_run (P := P) d
        (normalizeUser s.cfg.relayID claimed) conn now fileNonce fails stamps fresh
      rw [h.store] at store same
      refine ⟨d', advance_of_run labels reached, ?_, rfl, ?_, ?_⟩
      · refine ⟨store, router.trans h.router, calls.trans h.calls, ?_, ?_, h.relayID, h.settings⟩
        · rw [sessions, h.sessions]
          rfl
        · refine List.nodup_cons.2 ⟨fun inside => other ?_, h.distinct⟩
          obtain ⟨ss, listed, same⟩ := List.mem_map.1 inside
          exact List.any_eq_true.2 ⟨ss, listed, decide_eq_true same⟩
      · intro c inside
        rw [registered, List.map_append, List.mem_append] at inside
        exact inside
      · simp only [traffic, authenticated]
        exact same

theorem Matches.frame (h : Matches s d) {conn : Conn} {data : Bytes} {io : Server.FrameIo} {fails : Bool}
    {enqueue : Store.EnqueueIo} (sound : Sound (.frame conn data io fails enqueue))
    (stepped : s.step P (.frame conn data io fails enqueue) = some s') :
    ∃ d', Follows P s (.frame conn data io fails enqueue) s' d d' := by
  obtain ⟨t, rfl⟩ : ∃ t : Stamp, enqueue = t.io := sound
  by_cases kind : frameKind data = .route
  · simp only [Sessions.State.step] at stepped
    split at stepped
    · cases stepped
    · rename_i ss found
      simp only [Server.handleAuthedFrame, kind] at stepped
      cases stepped
      obtain ⟨size, rate, name⟩ := route_settings s.server.router ss.userID data io.now
      have moved : Matches
          { s with server := { s.server with router := (s.server.router.route ss.userID data io.now).1 } }
          { d with router := (s.server.router.route ss.userID data io.now).1 } :=
        ⟨h.store, rfl, h.calls, h.sessions, h.distinct, h.relayID, size.trans h.settings.1, rate.trans h.settings.2.1,
          name.trans h.settings.2.2⟩
      obtain ⟨labels, d', reached, between, registered, same⟩ := moved.call (P := P)
        (s.server.router.route ss.userID data io.now).2 (.client ss.userID) fails t
      refine ⟨d', advance_of_run (.frame ss.userID data io.now :: labels) ?_, between, ?_, ?_, ?_⟩
      · simp only [run, State.step, kind, h.router, Option.bind_some]
        exact reached
      · obtain ⟨store, changed⟩ := Sessions.State.delivered_store (P := P)
          { s with server := { s.server with router := (s.server.router.route ss.userID data io.now).1 } }
          (s.server.router.route ss.userID data io.now).2 fails t.io
        rw [changed]
      · intro c inside
        rw [registered] at inside
        exact .inl inside
      · simp only [traffic, found, kind]
        rw [same]
        simp only [called, name]
        rfl
  · obtain ⟨cfg, sessions, store, router, relayID⟩ := control_frame kind stepped
    refine ⟨d, ⟨[], rfl⟩, ?_, cfg, fun c inside => .inl inside, ?_⟩
    · refine ⟨h.store.trans store.symm, h.router.trans router.symm, h.calls, ?_, ?_, ?_, ?_⟩
      · rw [sessions]
        exact h.sessions
      · rw [sessions]
        exact h.distinct
      · rw [relayID, cfg]
        exact h.relayID
      · rw [router, cfg]
        exact h.settings
    · simp only [traffic]
      split
      · exact ((sofar d).append_nothing).symm
      · exact ((sofar d).append_nothing).symm

theorem Matches.post (h : Matches s d) (method : Server.Method) (header body : Bytes) (fails : Bool) (t : Stamp) :
    ∃ d', Follows P s (.post method header body fails t.io)
      (s.delivered P (s.server.handleFederationDeliver method header body) fails t.io) d d' := by
  obtain ⟨store, changed⟩ := s.delivered_store (P := P) (s.server.handleFederationDeliver method header body) fails t.io
  obtain ⟨labels, d', reached, between, registered, same⟩ := h.call (P := P)
    (s.server.handleFederationDeliver method header body) (.federation header) fails t
  refine ⟨d', ?_, between, by rw [changed], ?_, same⟩
  · by_cases posted : method = .post
    · refine advance_of_run (.post header body :: labels) ?_
      have name : d.router.relayID = s.server.relayID := by
        rw [h.router, h.relayID]
        exact h.settings.2.2
      simp only [run, State.step, name, Option.bind_some]
      simp only [Server.handleFederationDeliver, posted, ne_eq, not_true_eq_false, if_false] at reached
      exact reached
    · simp only [Server.handleFederationDeliver, ne_eq, posted, not_false_eq_true, if_true] at reached
      exact advance_of_run labels reached
  · intro c inside
    rw [registered] at inside
    exact .inl inside

theorem Matches.disconnect (h : Matches s d) {conn : Conn} (stepped : s.step P (.disconnect conn) = some s') :
    ∃ d', Follows P s (.disconnect conn) s' d d' := by
  simp only [Sessions.State.step] at stepped
  split at stepped
  · cases stepped
  · rename_i ss found
    cases stepped
    obtain ⟨j, taken⟩ := pick_of_find h.distinct found
    have same : ss.conn = conn := by simpa using List.find?_some found
    have picked : pick d.sessions j = some (⟨conn, ss.userID, .serving⟩,
        (s.sessions.filter fun ss => ss.conn ≠ conn).map fun ss => ⟨ss.conn, ss.userID, .serving⟩) := by
      rw [h.sessions, pick_map, taken, Option.map_some, same]
    refine ⟨{ d with
      store := d.store.unregister ss.userID conn
      sessions := (s.sessions.filter fun ss => ss.conn ≠ conn).map fun ss => ⟨ss.conn, ss.userID, .serving⟩ },
      advance_of_run [.unregister j] ?_, ?_, rfl, fun c inside => .inl inside, ?_⟩
    · simp only [run, State.step, picked, Option.bind_some]
    · refine ⟨?_, h.router, h.calls, rfl, ?_, h.relayID, h.settings⟩
      · simp only [h.store]
      · exact h.distinct.sublist (List.filter_sublist.map _)
    · exact ((sofar d).append_nothing).symm

theorem Matches.restart (h : Matches s d) {io : Server.StartIo} (stepped : s.step P (.restart io) = some s') :
    ∃ d', Follows P s (.restart io) s' d d' := by
  obtain ⟨files, server, made, rfl⟩ := Sessions.State.start_some stepped
  obtain ⟨started, router⟩ := Server.new_store made
  refine ⟨d.restarted server.store, ⟨[.restart io.store], ?_⟩, ?_, rfl, fun c inside => .inl inside, ?_⟩
  · simp only [run, State.advance]
    rw [h.store, show s.server.store.disk = s.files.queue from rfl, started]
    rfl
  · refine ⟨rfl, ?_, rfl, rfl, List.nodup_nil, (Server.new_ok made).relayID, ?_⟩
    · simp only [State.restarted, h.router, h.settings.1, h.settings.2.1, h.settings.2.2, router]
    · rw [router]
      exact ⟨rfl, rfl, rfl⟩
  · exact ((sofar d).append_nothing).symm

/-- **One handler** is a run of its critical sections. -/
theorem Matches.step (h : Matches s d) {l : Sessions.Label} (sound : Sound l)
    (fresh : ∀ c ∈ opened [l], c ∉ d.registered.map Prod.snd) (stepped : s.step P l = some s') :
    ∃ d', Follows P s l s' d d' := by
  cases l with
  | connect conn ip answer auth flush => exact h.connect sound (fresh conn (by simp [opened])) stepped
  | frame conn data io fails enqueue => exact h.frame sound stepped
  | fetch method path now persist =>
    cases stepped
    refine ⟨d, ⟨[], rfl⟩, ?_, rfl, fun c inside => .inl inside, ((sofar d).append_nothing).symm⟩
    rcases s.server.handlePrekeysGet_cases (P := P) method path now persist with same | ⟨limiter, userID, consume, same⟩
    · rw [same]
      exact h
    · rw [same]
      exact ⟨h.store, h.router, h.calls, h.sessions, h.distinct, h.relayID, h.settings⟩
  | post method header body fails enqueue =>
    obtain ⟨t, rfl⟩ : ∃ t : Stamp, enqueue = t.io := sound
    cases stepped
    exact h.post method header body fails t
  | disconnect conn => exact h.disconnect stepped
  | restart io => exact h.restart stepped

end Steps

/-! ## Every run -/

/-- What relates the two machines before these steps. -/
structure Before (cfg : Config) (labels : List Sessions.Label) (s : Sessions.State) (d : State) : Prop where
  between : Matches s d
  cfg : s.cfg = cfg
  sound : ∀ l ∈ labels, Sound l
  distinct : (opened labels).Nodup
  fresh : ∀ c ∈ opened labels, c ∉ d.registered.map Prod.snd

theorem opened_cons (l : Sessions.Label) (labels : List Sessions.Label) :
    opened (l :: labels) = opened [l] ++ opened labels := by
  cases l <;> rfl

theorem Before.step {P : Platform} {cfg : Config} {l : Sessions.Label} {labels : List Sessions.Label}
    {s s' : Sessions.State} {d : State} (h : Before cfg (l :: labels) s d) (stepped : s.step P l = some s') :
    ∃ events d', run (State.advance P cfg.messageTTLSeconds) d events = some d' ∧ Before cfg labels s' d' ∧
      sofar d' = (sofar d).append (traffic P s l) := by
  have distinct := h.distinct
  have fresh := h.fresh
  rw [opened_cons] at distinct fresh
  obtain ⟨d', ⟨events, reached⟩, between, same, registered, out⟩ := h.between.step
    (h.sound l List.mem_cons_self) (fun c inside => fresh c (List.mem_append_left _ inside)) stepped
  rw [h.cfg] at reached same
  refine ⟨events, d', reached, ⟨between, same, fun l inside => h.sound l (List.mem_cons_of_mem _ inside),
    (List.nodup_append.1 distinct).2.1, fun c inside known => ?_⟩, out⟩
  rcases registered c known with old | new
  · exact fresh c (List.mem_append_right _ inside) old
  · exact (List.nodup_append.1 distinct).2.2 c new c inside rfl

/-- A first start. -/
theorem Before.start {P : Platform} {cfg : Config} {files : Files} {keyFile : Option Bytes} {io : Server.StartIo}
    {first : Sessions.State} {labels : List Sessions.Label} (queue : files.queue = ⟨keyFile, none⟩)
    (started : Sessions.State.start P cfg files io [] = some first) (sound : ∀ l ∈ labels, Sound l)
    (distinct : (opened labels).Nodup) :
    Before cfg labels first (State.init first.server.store first.server.router) := by
  obtain ⟨files', server, made, rfl⟩ := Sessions.State.start_some started
  obtain ⟨store, router⟩ := Server.new_store made
  rw [queue] at store
  obtain ⟨clients, table, -⟩ := Store.newStore_fresh store
  refine ⟨⟨?_, rfl, rfl, rfl, List.nodup_nil, (Server.new_ok made).relayID, ?_⟩, rfl, sound, distinct, nofun⟩
  · simp only [State.init, ← clients, ← table]
  · rw [router]
    exact ⟨rfl, rfl, rfl⟩

/-- **The handlers refine the critical sections.** Every run of whole handlers from a first start, over any restarts
and with any failing writes, is a run of `Delivery`: with the same queue, registry and limiter, between handlers no
call under way and every session in its read loop, and with the same traffic in the same order. -/
theorem handlers_refine (P : Platform) (cfg : Config) (files : Files) (keyFile : Option Bytes) (io : Server.StartIo)
    (first s : Sessions.State) (labels : List Sessions.Label) (queue : files.queue = ⟨keyFile, none⟩)
    (started : Sessions.State.start P cfg files io [] = some first) (sound : ∀ l ∈ labels, Sound l)
    (distinct : (opened labels).Nodup) (reached : run (Sessions.State.step P) first labels = some s) :
    ∃ events d, run (State.advance P cfg.messageTTLSeconds) (State.init first.server.store first.server.router) events =
        some d ∧ Matches s d ∧
      sofar d = (observed (Sessions.State.step P) (traffic P) first labels).foldl Traffic.append .nothing := by
  obtain ⟨events, d, arrived, last, out⟩ := run_simulated (R := Before cfg) (g := State.advance P cfg.messageTTLSeconds)
    (fun _ _ _ _ _ before stepped => before.step stepped) (Before.start queue started sound distinct) reached
  exact ⟨events, d, arrived, last.between, out⟩

section Scene

open Reference Sessions.State

def bobConnects (conn : Conn) (fails : Nat → Bool) : Sessions.Label :=
  .connect conn [] (Client.answer ed25519 (.zeros 32) (.zeros 32) (ascii "bob")) (.clean start (.zeros 32))
    { flushIo start with fails }

/-- ann writes to bob, who is away, and the relay is restarted; bob's first connection breaks before the message. -/
def ferry : List Sessions.Label :=
  [.connect 1 [] (Client.answer ed25519 (.zeros 32) (.zeros 32) (ascii "ann")) (.clean start (.zeros 32)) (flushIo start),
    frameLabel 1 (SealedEnvelope.marshal ⟨ascii "bob", [1], 0, [], []⟩) start, .restart startIo,
    bobConnects 2 fun _ => true, .disconnect 2, bobConnects 3 fun _ => false]

end Scene

/-- In that run the message goes out once, on bob's second connection. -/
theorem handlers_refine_ferry :
    ∃ first s, Sessions.State.start Reference.platform Reference.cfg .empty Reference.startIo [] = some first ∧
      run (Sessions.State.step Reference.platform) first ferry = some s ∧
      ∃ events d, run (State.advance Reference.platform 60) (State.init first.server.store first.server.router) events =
          some d ∧ Matches s d ∧
        (d.written.map fun w => (w.conn, w.frame)) = [(3, SealedEnvelope.marshal ⟨ascii "bob", [1], 0, [], []⟩)] := by
  have result : ((Sessions.State.start Reference.platform Reference.cfg .empty Reference.startIo []).bind fun first =>
      (run (Sessions.State.step Reference.platform) first ferry).map fun _ =>
        ((observed (Sessions.State.step Reference.platform) (traffic Reference.platform) first ferry).foldl
          Traffic.append .nothing).frames) =
      some [(3, SealedEnvelope.marshal ⟨ascii "bob", [1], 0, [], []⟩)] := by decide +kernel
  obtain ⟨first, started, rest⟩ := Option.bind_eq_some_iff.1 result
  obtain ⟨s, reached, frames⟩ := Option.map_eq_some_iff.1 rest
  have sound : ∀ l ∈ ferry, Sound l := by
    have flushed : (∃ now fileNonce, (Sessions.State.flushIo Reference.start).drain = .clean now fileNonce) ∧
        ∃ stamps : Nat → Stamp, (Sessions.State.flushIo Reference.start).requeue = fun i => (stamps i).io :=
      ⟨⟨Reference.start, .zeros 12, rfl⟩, fun _ => .start, rfl⟩
    intro l inside
    simp only [ferry, bobConnects, Sessions.State.frameLabel, List.mem_cons, List.not_mem_nil, or_false] at inside
    rcases inside with rfl | rfl | rfl | rfl | rfl | rfl
    · exact flushed
    · exact ⟨.start, rfl⟩
    · exact trivial
    · exact flushed
    · exact trivial
    · exact flushed
  obtain ⟨events, d, arrived, between, out⟩ := handlers_refine Reference.platform Reference.cfg .empty none
    Reference.startIo first s ferry rfl started sound (by decide) reached
  refine ⟨first, s, started, reached, events, d, arrived, between, ?_⟩
  rw [← frames, ← out]
  rfl

end SpectreRelay.Server.HandlerSteps
