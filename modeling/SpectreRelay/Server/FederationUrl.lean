import SpectreRelay.Lib.Uri
import SpectreRelay.Server.Federation

/-!
# Where federation requests go

`forwardFederated` puts the domain of a recipient into a URL as it is. The
domain is text that a client chose: it starts after the first `@` of the
recipient and may contain anything. The URL leads to the delivery endpoint of
that domain exactly when the domain has none of the characters that end or
split an authority.
-/

namespace SpectreRelay.Server
set_option autoImplicit false
open Lib Lib.Json Model

/-- The URL names the delivery endpoint of `domain` and nothing else. -/
structure Endpoint (domain url : Bytes) : Prop where
  host : ∃ authority, (Uri.parse url).authority = some authority ∧ Uri.userinfo authority = none ∧
    Uri.hostPort authority = domain
  path : (Uri.parse url).path = ascii "/federation/deliver"
  query : (Uri.parse url).query = none
  fragment : (Uri.parse url).fragment = none

/-- No slash, question mark, hash or `@` is in the domain. -/
def PlainDomain (domain : Bytes) : Prop := 47 ∉ domain ∧ 63 ∉ domain ∧ 35 ∉ domain ∧ 64 ∉ domain

instance (domain : Bytes) : Decidable (PlainDomain domain) :=
  inferInstanceAs (Decidable (47 ∉ domain ∧ 63 ∉ domain ∧ 35 ∉ domain ∧ 64 ∉ domain))

/-- The parts of the address, as the generic syntax has them. -/
theorem federationURL_eq (domain : Bytes) : federationURL domain =
    ascii "http" ++ 58 :: 47 :: 47 :: (domain ++ 47 :: ascii "federation/deliver") := by
  have scheme : ascii "http://" = ascii "http" ++ [58, 47, 47] := by decide
  have path : ascii "/federation/deliver" = 47 :: ascii "federation/deliver" := by decide
  rw [federationURL, scheme, path]
  simp only [List.append_assoc, List.cons_append, List.nil_append]

/-- **Print, then parse.** The URL built for a domain names its endpoint exactly when the domain is plain. -/
theorem endpoint_iff (domain : Bytes) : Endpoint domain (federationURL domain) ↔ PlainDomain domain := by
  constructor
  · rintro ⟨⟨authority, found, bare, same⟩, -, -, -⟩
    have alone := Uri.userinfo_eq_none.1 bare
    rw [Uri.hostPort_free alone] at same
    subst same
    obtain ⟨slash, mark, hash⟩ := Uri.parse_authority found
    exact ⟨slash, mark, hash, alone⟩
  · rintro ⟨slash, mark, hash, alone⟩
    have path : 47 :: ascii "federation/deliver" = ascii "/federation/deliver" := by decide
    have parsed : Uri.parse (federationURL domain) =
        ⟨some (ascii "http"), some domain, 47 :: ascii "federation/deliver", none, none⟩ := by
      rw [federationURL_eq]
      exact Uri.parse_print (by decide) (by decide) ⟨slash, mark, hash⟩ (by decide)
    refine ⟨⟨domain, ?_, Uri.userinfo_eq_none.2 alone, Uri.hostPort_free alone⟩, ?_, ?_, ?_⟩
    · rw [parsed]
    · rw [parsed]
      exact path
    · rw [parsed]
    · rw [parsed]

theorem forwardFederated_url {H : Http} {relayID domain : Bytes} {sealed : SealedEnvelope} {request : Request}
    (sent : forwardFederated H relayID domain sealed = some request) : request.url = federationURL domain := by
  simp only [forwardFederated] at sent
  split at sent
  · rw [← Option.some.inj sent]
    rfl
  · cases sent

namespace Federation.Net

variable {ι : Type} [DecidableEq ι]

/-- **Where requests go.** In every run of a network of relays, a posted request is for an envelope to `u@d`, where `d` is
not the posting relay's own domain, and its URL names the delivery endpoint of `d` exactly when `d` is plain. -/
theorem requests_to_endpoint (P : Platform) (H : Http) (stores : ι → Store) (routers : ι → Router)
    (labels : List (Label ι)) (net : Net ι) (reached : run (step P H) (init stores routers) labels = some net) :
    ∀ p ∈ net.posted, (∃ i u, 64 ∉ u ∧ p.sealed.recipientID = u ++ 64 :: p.domain ∧
        isLocalRelay p.domain (net.relayID i) = false) ∧
      (Endpoint p.domain p.request.url ↔ PlainDomain p.domain) := by
  have inv : Inv H net := run_invariant (fun _ _ _ before stepped => before.step stepped) (Inv.init stores routers) reached
  intro p inside
  obtain ⟨i, -, outbound, sent⟩ := inv.posted p inside
  obtain ⟨u, plain, recipient⟩ := outbound.recipient
  constructor
  · exact ⟨i, u, plain, recipient, outbound.remote⟩
  · rw [forwardFederated_url sent]
    exact endpoint_iff p.domain

namespace Scene

/-- ann on a relay writes to `recipient`. -/
def oneFrame (recipient : Bytes) : List (Label Unit) :=
  [.relay () (.frame (ascii "ann") (SealedEnvelope.marshal ⟨recipient, [1], 0, ascii "m", []⟩) Reference.start)]

/-- A relay whose client writes to `recipient`, where the library sends every request. -/
def lone (recipient : Bytes) : Option (Net Unit) :=
  run (step Reference.platform ⟨fun _ => true, fun _ => true⟩)
    (init (fun _ => Reference.store) fun _ => .new 65536 60 (ascii "relay-a")) (oneFrame recipient)

end Scene

theorem requests_to_endpoint_bob :
    ∃ net p, Scene.lone (ascii "bob@relay-b:8080") = some net ∧ net.posted = [p] ∧ p.domain = ascii "relay-b:8080" ∧
      Endpoint (ascii "relay-b:8080") p.request.url := by
  have result : (Scene.lone (ascii "bob@relay-b:8080")).map (fun net => net.posted.map Parcel.domain) =
      some [ascii "relay-b:8080"] := by decide +kernel
  obtain ⟨net, reached, domains⟩ := Option.map_eq_some_iff.1 result
  obtain ⟨p, posted, domain⟩ := List.map_eq_singleton_iff.1 domains
  have here : p ∈ net.posted := by rw [posted]; exact List.mem_singleton_self p
  have goes := (requests_to_endpoint _ _ _ _ _ net reached p here).2.2 (by rw [domain]; decide)
  rw [domain] at goes
  exact ⟨net, p, reached, posted, domain, goes⟩

/-- For `bob@b/x?` the request goes to the path `/x` of `b`, and for `bob@u@evil` to `evil`. -/
theorem requests_elsewhere :
    (Scene.lone (ascii "bob@b/x?")).map (fun net => net.posted.map fun p => (p.domain, Uri.parse p.request.url)) =
        some [(ascii "b/x?", ⟨some (ascii "http"), some (ascii "b"), ascii "/x", some (ascii "/federation/deliver"), none⟩)] ∧
      (Scene.lone (ascii "bob@u@evil")).map (fun net => net.posted.map fun p =>
          (p.domain, (Uri.parse p.request.url).authority.map fun a => (Uri.userinfo a, Uri.hostPort a))) =
        some [(ascii "u@evil", some (some (ascii "u"), ascii "evil"))] := by
  constructor
  · decide +kernel
  · decide +kernel

end Federation.Net

end SpectreRelay.Server
