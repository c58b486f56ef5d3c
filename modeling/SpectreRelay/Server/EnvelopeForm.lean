import SpectreRelay.Server.Reference
import SpectreRelay.Server.Router

/-!
# The form of a routed envelope

The two wire forms carry no tag. `Route` tries the sealed form first and its
decoder ignores keys it does not know, so the JSON of an open envelope is taken
for a sealed one and its sender id is lost (`classify_open`). Routing keeps the
form of exactly the sealed envelopes (`route_keeps_sealed_form`).
-/

namespace SpectreRelay.Server
set_option autoImplicit false
open Lib Lib.Json Model

/-- An envelope of either form. -/
inductive Envelope where
  | sealed (e : SealedEnvelope)
  | opened (e : OpenEnvelope)

namespace Envelope

def marshal : Envelope → Bytes
  | sealed e => e.marshal
  | opened e => e.marshal

def recipientID : Envelope → Bytes
  | sealed e => e.recipientID
  | opened e => e.recipientID

/-- The message that holds the envelope in its own form. -/
def message : Envelope → QueuedMessage
  | sealed e => .ofSealed e
  | opened e => .ofOpen e

/-- The fields that routing asks for are present, and an open envelope names its sender. -/
def Complete : Envelope → Prop
  | sealed e => e.recipientID ≠ [] ∧ e.ciphertext ≠ []
  | opened e => e.senderID ≠ [] ∧ e.recipientID ≠ [] ∧ e.ciphertext ≠ []

end Envelope

theorem classify_sealed {e : SealedEnvelope} (named : e.recipientID ≠ []) (full : e.ciphertext ≠ []) :
    classify e.marshal = some (e.sanitize.recipientID, .ofSealed e.sanitize) := by
  simp only [classify, SealedEnvelope.unmarshal_marshal, SealedEnvelope.sanitize, Utf8.sanitize_ne_nil named, full, ne_eq,
    not_false_eq_true, and_self, if_true]

/-- The JSON of an open envelope is classified as sealed, without its sender. -/
theorem classify_open {e : OpenEnvelope} (named : e.recipientID ≠ []) (full : e.ciphertext ≠ []) :
    classify e.marshal = some (e.asSealed.recipientID, .ofSealed e.asSealed) := by
  simp only [classify, OpenEnvelope.sealed_unmarshal_marshal, OpenEnvelope.asSealed, Utf8.sanitize_ne_nil named, full,
    ne_eq, not_false_eq_true, and_self, if_true]

theorem route_admitted {r : Router} {senderID payload : Bytes} {now : Time} (admitted : (r.allow senderID now).2 = true)
    (fits : (payload.length : Int) ≤ r.maxMessageSize) : (r.route senderID payload now).2 = classify payload := by
  simp only [Router.route, Int.not_lt.2 fits, admitted, if_false, if_true]

/-- Routing an open envelope loses its sender. -/
theorem open_routed_as_sealed :
    ((Router.new 65536 60 (ascii "a")).allow (ascii "ann") Reference.start).2 = true ∧
      ((Router.new 65536 60 (ascii "a")).route (ascii "ann")
        (OpenEnvelope.marshal ⟨ascii "ann", ascii "bob", [1], 0, ascii "m"⟩) Reference.start).2 =
      some (ascii "bob", .ofSealed ⟨ascii "bob", [1], 0, ascii "m", []⟩) := by
  decide +kernel

/-- **Routing keeps the form of exactly the sealed envelopes** whose strings are text. -/
theorem route_keeps_sealed_form (r : Router) (senderID : Bytes) (now : Time) (e : Envelope) (complete : e.Complete)
    (admitted : (r.allow senderID now).2 = true) (fits : (e.marshal.length : Int) ≤ r.maxMessageSize) :
    (r.route senderID e.marshal now).2 = some (e.recipientID, e.message) ↔ ∃ s, e = .sealed s ∧ s.Valid := by
  rw [route_admitted admitted fits]
  cases e with
  | sealed e =>
    obtain ⟨named, full⟩ := complete
    simp only [Envelope.marshal, classify_sealed named full, Envelope.recipientID, Envelope.message]
    constructor
    · intro same
      have kept : e.sanitize = e := Option.some.inj (congrArg QueuedMessage.sealed (Prod.mk.inj (Option.some.inj same)).2)
      exact ⟨e, rfl, kept ▸ e.valid_sanitize⟩
    · rintro ⟨s, same, ok⟩
      cases same
      rw [ok.sanitize]
  | opened e =>
    obtain ⟨_, named, full⟩ := complete
    simp [Envelope.marshal, classify_open named full, Envelope.message, QueuedMessage.ofSealed, QueuedMessage.ofOpen]

theorem route_keeps_sealed_form_bob :
    (Envelope.sealed ⟨ascii "bob", [1], 0, [], []⟩).Complete ∧
      ((Router.new 65536 60 (ascii "a")).route (ascii "ann")
        (Envelope.sealed ⟨ascii "bob", [1], 0, [], []⟩).marshal Reference.start).2 =
      some (ascii "bob", .ofSealed ⟨ascii "bob", [1], 0, [], []⟩) := by
  have bob : Utf8.Valid (ascii "bob") := by decide
  have complete : (Envelope.sealed ⟨ascii "bob", [1], 0, [], []⟩).Complete := ⟨by decide, by decide⟩
  exact ⟨complete, (route_keeps_sealed_form (.new 65536 60 (ascii "a")) (ascii "ann") Reference.start
    (.sealed ⟨ascii "bob", [1], 0, [], []⟩) complete (by decide +kernel) (by decide +kernel)).2 ⟨_, rfl, bob, rfl, rfl⟩⟩

end SpectreRelay.Server
