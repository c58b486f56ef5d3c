import SpectreRelay.Server.Tracking

/-!
# The federation tag

A sealed envelope's federation tag is meant to be set by the relay alone, from
the header of the request that brought the envelope in. The field is decoded
from client frames too and nothing clears it, so a client can set it
(`tag_from_client`). When no frame carries a tag, and the headers are text, every
tag that is queued or written is the header of the request that its envelope came
with (`tags_from_requests`).
-/

namespace SpectreRelay.Server.Delivery
set_option autoImplicit false
open Lib Lib.Json Model

/-- Tags come from federation requests, wherever an envelope is queued or written, and none from clients. -/
structure Provenance (P : Platform) (s : State) : Prop where
  queued : ∀ row ∈ s.store.table.rows, ∀ m e, Store.readPayload P s.store.key row.2.payload = some m →
    m.sealed = some e → e.federationSenderRelay ≠ [] →
    ∃ h, s.handed[s.owner row.1]? = some h ∧ h.origin = .federation e.federationSenderRelay
  written : ∀ w ∈ s.written, ∀ e, unmarshal SealedEnvelope.decoder .zero w.frame = (e, true) →
    e.federationSenderRelay ≠ [] → ∃ h, s.handed[w.id]? = some h ∧ h.origin = .federation e.federationSenderRelay
  routed : ∀ h ∈ s.handed, ∀ senderID e, h.origin = .client senderID → h.msg.sealed = some e →
    e.federationSenderRelay = []

/-- A client frame to a local user with a tag. -/
def forgingRun : List Label :=
  [.register (ascii "bob") 7, .drain 0 Reference.start (.zeros 12),
    .frame (ascii "ann") (SealedEnvelope.marshal ⟨ascii "bob", [1], 0, [], ascii "evil"⟩) Reference.start, .lookup 0,
    .write 0 false]

/-- A client's tag reaches the recipient. -/
theorem tag_from_client :
    ∃ s w, run (State.step Reference.platform) (State.init Reference.store (.new 65536 60 (ascii "a"))) forgingRun = some s ∧
      w ∈ s.written ∧
      unmarshal SealedEnvelope.decoder .zero w.frame = (⟨ascii "bob", [1], 0, [], ascii "evil"⟩, true) ∧
      (s.handed.map Handed.origin) = [.client (ascii "ann")] ∧ ¬ Provenance Reference.platform s := by
  have result : ((run (State.step Reference.platform) (State.init Reference.store (.new 65536 60 (ascii "a")))
      forgingRun).map fun s => ((s.written.map fun w => (w.id, unmarshal SealedEnvelope.decoder .zero w.frame)),
        s.handed.map Handed.origin)) =
      some ([(0, (⟨ascii "bob", [1], 0, [], ascii "evil"⟩, true))], [.client (ascii "ann")]) := by decide +kernel
  obtain ⟨s, reached, both⟩ := Option.map_eq_some_iff.1 result
  obtain ⟨frames, origins⟩ := Prod.mk.inj both
  obtain ⟨w, written, text⟩ := List.map_eq_singleton_iff.1 frames
  have inside : w ∈ s.written := by rw [written]; exact List.mem_singleton_self w
  refine ⟨s, w, reached, inside, (Prod.mk.inj text).2, origins, fun tags => ?_⟩
  obtain ⟨h, found, origin⟩ := tags.written w inside _ (Prod.mk.inj text).2 (by decide)
  obtain ⟨h', handed, from_⟩ := List.map_eq_singleton_iff.1 origins
  rw [handed, (Prod.mk.inj text).1] at found
  cases found
  rw [from_] at origin
  cases origin

/-! ## Tags when clients set none -/

/-- The step is no client frame whose text decodes to a sealed envelope with a tag, and no request with a malformed
header. -/
def Label.Untagged : Label → Prop
  | .frame _ data _ =>
    (unmarshal SealedEnvelope.decoder .zero data).2 = true →
      (unmarshal SealedEnvelope.decoder .zero data).1.federationSenderRelay = []
  | .post header _ => Utf8.Valid header
  | _ => True

instance (l : Label) : Decidable l.Untagged := by
  unfold Label.Untagged
  split <;> infer_instance

/-- A sealed envelope that a payload is routed as is what its text decodes to. -/
theorem classify_sealed_text {payload r : Bytes} {m : QueuedMessage} {e : SealedEnvelope}
    (routed : classify payload = some (r, m)) (sealed : m.sealed = some e) :
    (unmarshal SealedEnvelope.decoder .zero payload).2 = true ∧
      e = (unmarshal SealedEnvelope.decoder .zero payload).1 := by
  simp only [classify] at routed
  split at routed
  · rename_i complete
    cases routed
    cases sealed
    exact ⟨complete.1, rfl⟩
  · split at routed
    · cases routed
      cases sealed
    · cases routed

/-- The tag that an envelope of this origin has. -/
def Origin.Tags : Origin → Bytes → Prop
  | client _, tag => tag = []
  | federation header, tag => tag = header ∧ Utf8.Valid header

/-- Every message was handed over with the tag of its origin. -/
def Sourced (s : State) : Prop := ∀ h ∈ s.handed, ∀ e, h.msg.sealed = some e → h.origin.Tags e.federationSenderRelay

namespace Sourced

variable {P : Platform} {s s' : State}

theorem hand (h : Sourced s) {call : Option (Bytes × QueuedMessage)} {origin : Origin}
    (tags : ∀ r m name e, call = some (r, m) → target s.router.relayID r m = .local name → m.sealed = some e →
      origin.Tags e.federationSenderRelay) : Sourced (s.hand call origin) := by
  rcases State.hand_cases s call origin with ⟨posts, same⟩ | ⟨r, m, name, made, here, same⟩
  · rw [same]
    exact h
  · rw [same]
    intro handed inside e sealed
    rcases List.mem_append.1 inside with old | new
    · exact h handed old e sealed
    · rw [List.mem_singleton.1 new] at sealed ⊢
      exact tags r m name e made here sealed

theorem step (h : Sourced s) {l : Label} (untagged : l.Untagged) (stepped : State.step P s l = some s') : Sourced s' := by
  cases State.step_cases stepped with
  | @frame senderID data now router call kind route =>
    have routed : Sourced { s with router } := h
    refine routed.hand fun r m name e made here sealed => ?_
    rw [made] at route
    obtain ⟨decoded, same⟩ := classify_sealed_text (route_classify route) sealed
    rw [same]
    exact untagged decoded
  | @post header body =>
    refine h.hand fun r m name e made here sealed => ?_
    rw [federationDeliver_some made] at sealed
    cases sealed
    exact ⟨rfl, untagged⟩
  | _ => exact h

end Sourced

theorem Origin.Tags.sanitize {origin : Origin} {tag : Bytes} (h : origin.Tags tag) : origin.Tags (Utf8.sanitize tag) := by
  cases origin with
  | client senderID => rw [show tag = [] from h]; rfl
  | federation header =>
    obtain ⟨rfl, text⟩ := h
    exact ⟨text.sanitize, text⟩

/-- A tag that is not empty is a header. -/
theorem Origin.Tags.header {origin : Origin} {tag : Bytes} (h : origin.Tags tag) (tagged : tag ≠ []) :
    origin = .federation tag := by
  cases origin with
  | client senderID => exact absurd h tagged
  | federation header => rw [h.1]

/-- A tracked envelope has the tag of its origin, once its strings are made well-formed. -/
theorem Tracked.tags {s : State} {id : Nat} {r : Bytes} {m : QueuedMessage} {e : SealedEnvelope} (sourced : Sourced s)
    (tracked : Tracked s.handed id r m) (sealed : m.sealed = some e) :
    ∃ h, s.handed[id]? = some h ∧ h.origin.Tags (Utf8.sanitize e.federationSenderRelay) := by
  obtain ⟨h, found, _, _, same, _⟩ := tracked
  have both : some e.sanitize = h.msg.sealed.map SealedEnvelope.sanitize := by
    rw [← show m.sealed.map SealedEnvelope.sanitize = some e.sanitize by rw [sealed]; rfl]
    exact same
  obtain ⟨e', sealed', equal⟩ := Option.map_eq_some_iff.1 both.symm
  have tag : Utf8.sanitize e'.federationSenderRelay = Utf8.sanitize e.federationSenderRelay :=
    congrArg SealedEnvelope.federationSenderRelay equal
  rw [← tag]
  exact ⟨h, found, (sourced h (List.mem_of_getElem? found) e' sealed').sanitize⟩

/-- What a written frame decodes to, by the form of the message. -/
theorem marshalQueued_decoded {m : QueuedMessage} {frame : Bytes} {e : SealedEnvelope} (text : marshalQueued m = some frame)
    (decoded : unmarshal SealedEnvelope.decoder .zero frame = (e, true)) :
    (∃ e', m.sealed = some e' ∧ e = e'.sanitize) ∨ e.federationSenderRelay = [] := by
  obtain ⟨sealed, opened, x⟩ := m
  cases sealed with
  | some e' =>
    cases text
    rw [SealedEnvelope.unmarshal_marshal] at decoded
    exact .inl ⟨e', rfl, (Prod.mk.inj decoded).1.symm⟩
  | none =>
    cases opened with
    | some o =>
      cases text
      rw [OpenEnvelope.sealed_unmarshal_marshal] at decoded
      rw [← (Prod.mk.inj decoded).1]
      exact .inr rfl
    | none => cases text

/-- **Tags come from requests.** If no client frame decodes to a sealed envelope with a tag and no request has a malformed
header, then in every state reached every tag queued or written is the header its envelope came with. -/
theorem tags_from_requests (P : Platform) (store : Store) (router : Router) (labels : List Label) (s : State)
    (reached : run (State.step P) (State.init store router) labels = some s)
    (untagged : ∀ l ∈ labels, l.Untagged) : Provenance P s := by
  have both : Inv P s ∧ Sourced s :=
    run_invariant_under (C := fun _ (l : Label) => l.Untagged) (P := fun s => Inv P s ∧ Sourced s)
      (fun _ _ _ before plain stepped => ⟨before.1.step stepped, before.2.step plain stepped⟩)
      ⟨.init store router, nofun⟩ (always_of_forall untagged _) reached
  obtain ⟨inv, sourced⟩ := both
  refine ⟨?_, ?_, ?_⟩
  · intro row inside m e read sealed tagged
    obtain ⟨m', read', valid, tracked⟩ := inv.rows row inside
    rw [read] at read'
    cases read'
    obtain ⟨h, found, tags⟩ := tracked.tags sourced sealed
    rw [(valid.sealed e sealed).federationSenderRelay.sanitize] at tags
    exact ⟨h, found, tags.header tagged⟩
  · intro w inside e decoded tagged
    obtain ⟨r, m, tracked, _, text⟩ := inv.written w inside
    rcases marshalQueued_decoded text decoded with ⟨e', sealed, rfl⟩ | empty
    · obtain ⟨h, found, tags⟩ := tracked.tags sourced sealed
      exact ⟨h, found, tags.header tagged⟩
    · exact absurd empty tagged
  · intro h inside senderID e origin sealed
    have tags := sourced h inside e sealed
    rw [origin] at tags
    exact tags

/-- A request from relay b and an untagged client frame. -/
def mixedRun : List Label :=
  [.post (ascii "b") (SealedEnvelope.marshal ⟨ascii "bob", [1], 0, [], []⟩), .lookup 0, .enqueue 0 .start,
    .frame (ascii "ann") (SealedEnvelope.marshal ⟨ascii "bob", [2], 0, [], []⟩) Reference.start, .lookup 0, .enqueue 0 .start]

theorem tags_from_requests_mixed :
    ∃ s, run (State.step Reference.platform) (State.init Reference.store (.new 65536 60 (ascii "a"))) mixedRun = some s ∧
      s.handed.length = 2 ∧ Provenance Reference.platform s := by
  have result : ((run (State.step Reference.platform) (State.init Reference.store (.new 65536 60 (ascii "a")))
      mixedRun).map fun s => s.handed.length) = some 2 := by decide +kernel
  obtain ⟨s, reached, two⟩ := Option.map_eq_some_iff.1 result
  refine ⟨s, reached, two, tags_from_requests _ _ _ _ s reached ?_⟩
  decide +kernel

end SpectreRelay.Server.Delivery
