import SpectreRelay.Server.Restarts

/-!
# The sender leaves no trace

Two runs that differ only in who sent each frame, and in which the limiter
admits the same frames, leave the same queue, the same files, the same frames on
every connection and the same requests to other relays. The sender's id goes to
the limiter and nowhere else: `State.view` is the state without the limiter, and
without the origins that only our history keeps, and every step acts on it
(`advance_view`).
-/

namespace SpectreRelay.Server.Delivery
set_option autoImplicit false
open Lib Model

/-- The step with its sender's id left out. -/
def Label.unsigned : Label → Label
  | frame _ data now => frame [] data now
  | l => l

theorem Label.unsigned_other {l : Label} (other : ∀ senderID data now, l ≠ frame senderID data now) : l.unsigned = l := by
  cases l with
  | frame senderID data now => exact absurd rfl (other senderID data now)
  | _ => rfl

theorem Label.frame_of_unsigned {l : Label} {data : Bytes} {now : Time} (same : l.unsigned = frame [] data now) :
    ∃ senderID, l = frame senderID data now := by
  cases l with
  | frame senderID data now => cases same; exact ⟨senderID, rfl⟩
  | _ => cases same

def Event.unsigned : Event → Event
  | step l => step l.unsigned
  | restart io => restart io

/-- What the limiter answers to a frame that `Route` asks it about. -/
def admission (s : State) : Event → Option Bool
  | .step (.frame senderID data now) =>
    if frameKind data = .route ∧ (data.length : Int) ≤ s.router.maxMessageSize then some (s.router.allow senderID now).2
    else none
  | _ => none

namespace State

variable {P : Platform} {ttlSeconds : Int64}

/-- The state without the limiter and the origins of messages. -/
def view (s : State) : State :=
  { s with
    router := .new s.router.maxMessageSize s.router.ratePerMin s.router.relayID
    handed := s.handed.map fun h => { h with origin := .client [] } }

/-- The requests to other relays that the HTTP library sends. -/
def requests (H : Http) (s : State) : List Request :=
  s.posts.filterMap fun post => forwardFederated H s.router.relayID post.1 post.2

theorem view_view (s : State) : s.view.view = s.view := by
  simp only [view, Router.new, List.map_map, Function.comp_def]

theorem hand_view (s : State) (call : Option (Bytes × QueuedMessage)) (origin : Origin) :
    (s.hand call origin).view = s.view.hand call (.client []) := by
  cases call with
  | none => rfl
  | some call =>
    obtain ⟨r, m⟩ := call
    have relay : s.view.router.relayID = s.router.relayID := rfl
    have length : s.view.handed.length = s.handed.length := List.length_map ..
    cases goes : target s.router.relayID r m with
    | drop => simp only [hand, relay, goes]
    | forward domain sealed =>
      simp only [hand, relay, goes]
      rfl
    | «local» name =>
      simp only [hand, relay, length, goes]
      simp only [view, List.map_append, List.map_cons, List.map_nil]

/-- A frame of a sender that the limiter admits, as seen without the limiter. -/
theorem frame_view (s : State) (senderID data : Bytes) (now : Time) :
    (s.step P (.frame senderID data now)).map view =
      some (s.view.hand (if admission s (.step (.frame senderID data now)) = some true then classify data else none)
        (.client [])) := by
  by_cases kind : frameKind data = .route
  · simp only [step, admission, kind, true_and, Option.map_some, hand_view]
    by_cases fits : (data.length : Int) ≤ s.router.maxMessageSize
    · have small : ¬ s.router.maxMessageSize < data.length := by omega
      simp only [Router.route, small, fits, if_true, if_false, Option.some.injEq]
      cases (s.router.allow senderID now).2 <;> rfl
    · have large : s.router.maxMessageSize < data.length := by omega
      simp only [Router.route, large, fits, if_true, if_false, reduceCtorEq]
  · simp only [step, admission, kind, false_and, if_false, reduceCtorEq]
    rfl

/-- Every other step does not read what the view leaves out. -/
theorem step_view (s : State) {l : Label} (other : ∀ senderID data now, l ≠ .frame senderID data now) :
    (s.view.step P l).map view = (s.step P l).map view := by
  cases l with
  | frame senderID data now => exact absurd rfl (other senderID data now)
  | post header body =>
    show some (s.view.hand _ _).view = some (s.hand _ _).view
    rw [hand_view, hand_view, view_view]
    rfl
  | lookup i =>
    simp only [step, view]
    split <;> simp [view, Router.new]
  | write i fails =>
    simp only [step, view]
    split
    · split <;> simp [view, Router.new]
    · rfl
  | enqueue i t =>
    simp only [step, view]
    split <;> simp [view, Router.new, enqueue, expiries]
  | register userID conn =>
    simp only [step, view]
    by_cases past : (s.registered.any fun past => past.2 = conn) = true
    · simp only [past, if_true, Option.map_none]
    · simp [past, view, Router.new]
  | drain j now fileNonce =>
    simp only [step, view]
    split <;> simp [view, Router.new, expiries]
  | flushWrite j fails =>
    simp only [step, view]
    split
    · split <;> simp [view, Router.new]
    · rfl
  | requeue j t =>
    simp only [step, view]
    split <;> simp [view, Router.new, enqueue, expiries]
  | unregister j =>
    simp only [step, view]
    split <;> simp [view, Router.new]
  | purge now fileNonce => simp [step, view, Router.new, expiries]

/-- A restart does not either. -/
theorem restart_view (s : State) (io : Store.StartIo) :
    (s.view.advance P ttlSeconds (.restart io)).map view = (s.advance P ttlSeconds (.restart io)).map view := by
  simp only [advance, show s.view.store = s.store from rfl]
  split <;> simp [restarted, view, Router.new]

/-- **One step of two runs.** From states with the same view, steps that differ in the sender only and that the limiter
answers alike lead to states with the same view. -/
theorem advance_view {s t s' : State} {a b : Event} (same : s.view = t.view) (unsigned : a.unsigned = b.unsigned)
    (admitted : admission s a = admission t b) (advanced : s.advance P ttlSeconds a = some s') :
    ∃ t', t.advance P ttlSeconds b = some t' ∧ s'.view = t'.view := by
  have equal : (s.advance P ttlSeconds a).map view = (t.advance P ttlSeconds b).map view := by
    cases a with
    | restart io =>
      cases b with
      | restart io' =>
        cases unsigned
        rw [← restart_view s, ← restart_view t, same]
      | step l => cases unsigned
    | step l =>
      cases b with
      | restart io => cases unsigned
      | step l' =>
        have labels : l.unsigned = l'.unsigned := Event.step.inj unsigned
        show (s.step P l).map view = (t.step P l').map view
        by_cases framed : ∃ senderID data now, l = .frame senderID data now
        · obtain ⟨senderID, data, now, rfl⟩ := framed
          obtain ⟨senderID', rfl⟩ := Label.frame_of_unsigned labels.symm
          rw [frame_view, frame_view, same, admitted]
        · have other : ∀ senderID data now, l ≠ .frame senderID data now :=
            fun senderID data now frame => framed ⟨senderID, data, now, frame⟩
          have other' : ∀ senderID data now, l' ≠ .frame senderID data now := by
            rintro senderID data now rfl
            obtain ⟨senderID', frame⟩ := Label.frame_of_unsigned labels
            exact other senderID' data now frame
          rw [Label.unsigned_other other, Label.unsigned_other other'] at labels
          rw [← labels, ← step_view s other, ← step_view t other, same]
  rw [advanced, Option.map_some] at equal
  obtain ⟨t', reached, view⟩ := Option.map_eq_some_iff.1 equal.symm
  exact ⟨t', reached, view.symm⟩

end State

/-- Everything that messages leave behind is the same: the queue with its key and files, the frames on every connection
and the requests to other relays. -/
structure SameTraces (H : Http) (s t : State) : Prop where
  store : s.store = t.store
  written : s.written = t.written
  requests : s.requests H = t.requests H

/-- **Sender privacy.** Take two runs from the same start, with the same steps and restarts up to the senders of the
frames. If the limiter gives the same answers in both, then when one reaches a state so does the other, and both have
left the same traces. -/
theorem sender_leaves_no_trace (P : Platform) (H : Http) (ttlSeconds : Int64) (store : Store) (router : Router)
    (events events' : List Event) (same : events.map Event.unsigned = events'.map Event.unsigned)
    (admitted : observed (State.advance P ttlSeconds) admission (State.init store router) events =
      observed (State.advance P ttlSeconds) admission (State.init store router) events') (s : State)
    (reached : run (State.advance P ttlSeconds) (State.init store router) events = some s) :
    ∃ t, run (State.advance P ttlSeconds) (State.init store router) events' = some t ∧ SameTraces H s t := by
  obtain ⟨t, reached', view⟩ : ∃ t, run (State.advance P ttlSeconds) (State.init store router) events' = some t ∧
      s.view = t.view := by
    refine run_pair (R := fun s t => s.view = t.view) ?_ rfl same admitted reached
    intro s t a b s' same unsigned admitted advanced
    exact State.advance_view same unsigned admitted advanced
  refine ⟨t, reached', ?_, ?_, ?_⟩
  · show s.view.store = t.view.store
    rw [view]
  · show s.view.written = t.view.written
    rw [view]
  · show s.view.requests H = t.view.requests H
    rw [view]

/-- A frame for bob, who is away and comes after a restart, and one for carol on another relay. -/
def mailFrom (senderID : Bytes) : List Event :=
  [.step (.frame senderID (SealedEnvelope.marshal ⟨ascii "bob", [1], 0, [], []⟩) Reference.start), .step (.lookup 0),
    .step (.enqueue 0 .start), .restart (.clean (.zeros 32) (.zeros 12)), .step (.register (ascii "bob") 7),
    .step (.drain 0 Reference.start (.zeros 12)), .step (.flushWrite 0 false),
    .step (.frame senderID (SealedEnvelope.marshal ⟨ascii "carol@b", [2], 0, [], []⟩) Reference.start)]

/-- Whether ann or dan sends the two messages. -/
theorem sender_leaves_no_trace_mail :
    ∃ s t, run (State.advance Reference.platform 60)
        (State.init Reference.firstStore (.new 65536 60 (ascii "a"))) (mailFrom (ascii "ann")) = some s ∧
      run (State.advance Reference.platform 60)
        (State.init Reference.firstStore (.new 65536 60 (ascii "a"))) (mailFrom (ascii "dan")) = some t ∧
      s.written.length = 1 ∧ s.posts.length = 1 ∧ SameTraces ⟨fun _ => true, fun _ => true⟩ s t := by
  have found : ((run (State.advance Reference.platform 60) (State.init Reference.firstStore (.new 65536 60 (ascii "a")))
      (mailFrom (ascii "ann"))).map fun s => (s.written.length, s.posts.length)) = some (1, 1) := by decide +kernel
  obtain ⟨s, reached, counts⟩ := Option.map_eq_some_iff.1 found
  obtain ⟨t, reached', same⟩ := sender_leaves_no_trace Reference.platform ⟨fun _ => true, fun _ => true⟩ 60
    Reference.firstStore (.new 65536 60 (ascii "a")) (mailFrom (ascii "ann")) (mailFrom (ascii "dan")) rfl
    (by decide +kernel) s reached
  exact ⟨s, t, reached, reached', (Prod.mk.inj counts).1, (Prod.mk.inj counts).2, same⟩

end SpectreRelay.Server.Delivery
