import SpectreRelay.Server.CertBinding
import SpectreRelay.Server.PrekeyForm

/-!
# Fetching what was registered

A registration goes through the handshake, which cuts a local domain off the
session's name, and stores the bundle under what is left. A fetch takes the
name out of a URL path, refuses three characters and looks the rest up as it
is. Over whole runs the store has, for every name, what is left of the last
bundle accepted for it (`Follows`), under names that are their own key. So a
fetch under the name that the owner gave in the handshake finds the bundle
exactly when that name is its own key and has none of the three characters.
-/

namespace SpectreRelay.Server.Sessions
set_option autoImplicit false
open Lib Lib.Json Model PrekeyStore PrekeyForm

/-- No registration of the step has a failing persist. -/
def Label.Persists : Label → Prop
  | .frame _ _ io _ _ => io.persist.fault = none
  | .connect .. | .fetch .. | .post .. | .disconnect _ | .restart _ => True

instance Label.Persists.decide (l : Label) : Decidable l.Persists :=
  match l with
  | .frame _ _ io _ _ => inferInstanceAs (Decidable (io.persist.fault = none))
  | .connect .. | .fetch .. | .post .. | .disconnect _ | .restart _ => .isTrue trivial

/-- The map has an entry for every user with an accepted bundle, what is left of the last one, under a name that is its
own key. -/
structure Follows (relayID : Bytes) (log : List Event) (m : Map PrekeyBundle) : Prop where
  uploads : FromUploads (fun u => latest u log) m
  covers : ∀ (u : Bytes) (upload : PrekeyBundle), latest u log = some upload → ∃ b, m[u]? = some b
  keys : ∀ (u : Bytes) (b : PrekeyBundle), m[u]? = some b → normalizeUser relayID u = u

namespace Follows

variable {relayID : Bytes} {log : List Event} {m : Map PrekeyBundle}

theorem empty (relayID : Bytes) : Follows relayID [] ∅ where
  uploads := FromUploads.empty _
  covers _ _ none := by cases none
  keys u b found := by
    rw [Map.get_empty] at found
    cases found

/-- An event that stores no bundle. -/
theorem event (h : Follows relayID log m) {e : Event} (none : e.bundle = none) : Follows relayID (log ++ [e]) m := by
  refine ⟨fun u b found => ?_, fun u upload known => ?_, h.keys⟩
  · simp only [latest_other none]
    exact h.uploads u b found
  · rw [latest_other none] at known
    exact h.covers u upload known

theorem pop (h : Follows relayID log m) {userID : Bytes} {b : PrekeyBundle} {k : OneTimePrekey} {rest : List OneTimePrekey}
    (before : m[userID]? = some b) (pool : b.oneTimePrekeys = k :: rest) :
    Follows relayID log (m.insert userID { b with oneTimePrekeys := rest }) := by
  refine ⟨h.uploads.pop before pool, fun u upload known => ?_, fun u b' found => ?_⟩
  · rw [Map.get_insert]
    split
    · exact ⟨_, rfl⟩
    · exact h.covers u upload known
  · rw [Map.get_insert] at found
    split at found
    · rename_i here
      rw [← here]
      exact h.keys userID b before
    · exact h.keys u b' found

/-- A bundle is accepted and stored. -/
theorem accept (h : Follows relayID log m) {userID key : Bytes} {bundle : PrekeyBundle}
    (own : normalizeUser relayID userID = userID) :
    Follows relayID (log ++ [.accepted userID key bundle]) (m.insert userID bundle) := by
  have here : latest userID (log ++ [.accepted userID key bundle]) = some bundle := by
    rw [latest_append]
    exact if_pos rfl
  have other (u : Bytes) (differ : u ≠ userID) : latest u (log ++ [.accepted userID key bundle]) = latest u log := by
    rw [latest_append]
    exact if_neg (Ne.symm differ)
  refine ⟨h.uploads.insert here other, fun u upload known => ?_, fun u b found => ?_⟩
  · rw [Map.get_insert]
    split
    · exact ⟨_, rfl⟩
    · rename_i differ
      rw [other u (Ne.symm differ)] at known
      exact h.covers u upload known
  · rw [Map.get_insert] at found
    split at found
    · rename_i same
      rw [← same]
      exact own
    · exact h.keys u b found

theorem served (h : Follows relayID log m) {A : Aead} {ps ps' : PrekeyStore} (memory : m = ps.bundles) {userID : Bytes}
    {io : PersistIo} (done : Served A ps userID io ps') : Follows relayID log ps'.bundles := by
  subst memory
  cases done with
  | same => exact h
  | popped found pool => exact h.pop found pool

end Follows

/-- What holds in every state of a run of the relay `relayID`; the prekey file holds `m`. -/
structure FetchInv (P : Platform) (relayID : Bytes) (s : State) (m : Map PrekeyBundle) : Prop where
  config : s.cfg.relayID = relayID
  sessions : ∀ ss ∈ s.sessions, Utf8.Valid ss.userID ∧ normalizeUser relayID ss.userID = ss.userID
  backed : Backed P.aead s.server.prekeys m
  memory : Follows relayID s.log s.server.prekeys.bundles
  file : Follows relayID s.log m

namespace FetchInv

variable {P : Platform} {relayID : Bytes} {s s' : State} {m : Map PrekeyBundle}

/-- A start without prekey files. -/
theorem start {cfg : Config} {files : Files} (prekeys : files.prekeys = .empty) {io : Server.StartIo}
    (started : State.start P cfg files io [] = some s) : FetchInv P cfg.relayID s ∅ := by
  obtain ⟨files', server, made, rfl⟩ := State.start_some started
  have fresh := (Server.new_ok made).prekeys
  rw [prekeys] at fresh
  obtain ⟨key, bundles⟩ := newPrekeyStore_first fresh
  refine ⟨rfl, fun _ inside => absurd inside List.not_mem_nil, ?_, ?_, .empty _⟩
  · rw [bundles]
    exact (InStep.fresh P.aead key).backed
  · rw [bundles]
    exact .empty _

/-- An accepted bundle is stored in memory and in the file. -/
theorem accept (h : FetchInv P relayID s m) {ss : Session} (session : ss ∈ s.sessions) {bundle : PrekeyBundle}
    {io : PersistIo} (clean : io.fault = none) {prekeys : PrekeyStore}
    (answer : s.server.prekeys.registerBundle P.aead ss.userID bundle io = (prekeys, .ok ())) :
    FetchInv P relayID { s with
      server := { s.server with prekeys }
      log := s.log ++ [.accepted ss.userID ss.key bundle] } prekeys.bundles := by
  obtain ⟨text, own⟩ := h.sessions ss session
  obtain ⟨named, accepted, rfl⟩ := registerBundle_ok answer
  have written := h.backed.persist (h.backed.sound.insert named text accepted) io
  rw [if_pos clean] at written
  exact ⟨h.config, h.sessions, written, h.memory.accept own, h.memory.accept own⟩

/-- **One step.** -/
theorem step (h : FetchInv P relayID s m) {l : Label} (persists : l.Persists) (stepped : State.step P s l = some s') :
    ∃ m', FetchInv P relayID s' m' := by
  cases State.step_cases stepped with
  | refused failed => exact ⟨m, h.config, h.sessions, h.backed, h.memory, h.file⟩
  | connected authenticated =>
    obtain ⟨nonce, _, checked⟩ := authenticate_some authenticated
    refine ⟨m, h.config, ?_, h.backed, h.memory.event rfl, h.file.event rfl⟩
    intro ss inside
    rcases List.mem_cons.1 inside with rfl | other
    · rw [h.config]
      exact ⟨normalizeUser_valid (checkAuthRequest_some checked).1, normalizeUser_normalizeUser _ _⟩
    · exact h.sessions ss other
  | uncertified session => exact ⟨m, h.config, h.sessions, h.backed, h.memory, h.file⟩
  | certified session key issued =>
    exact ⟨m, h.config, h.sessions, h.backed, h.memory.event rfl, h.file.event rfl⟩
  | malformed => exact ⟨m, h⟩
  | rejected session answer =>
    rw [registerBundle_error persists answer]
    exact ⟨m, h⟩
  | accepted session answer => exact ⟨_, h.accept session persists answer⟩
  | routed => exact ⟨m, h.config, h.sessions, h.backed, h.memory, h.file⟩
  | @fetch method path now persist =>
    rcases s.server.handlePrekeysGet_cases (P := P) method path now persist with same | ⟨limiter, userID, consume, same⟩
    · rw [same]
      exact ⟨m, h⟩
    · rw [same]
      have done : Served P.aead s.server.prekeys userID persist _ := getBundleWithOTPK_served s.server.prekeys userID consume persist
      have memory := h.memory.served rfl done
      rcases h.backed.served done with old | written
      · exact ⟨m, h.config, h.sessions, old, memory, h.file⟩
      · exact ⟨_, h.config, h.sessions, written, memory, memory⟩
  | post => exact ⟨m, h.config, h.sessions, h.backed, h.memory, h.file⟩
  | disconnect fewer =>
    exact ⟨m, h.config, fun ss inside => h.sessions ss (fewer ss inside), h.backed, h.memory, h.file⟩
  | @restart io files server started =>
    have parts := Server.new_ok started
    -- the bundles come back from the file
    have same : server.prekeys = ⟨m, s.server.prekeys.disk, s.server.prekeys.key⟩ :=
      h.backed.reloaded (congrArg Prod.snd parts.prekeys)
    refine ⟨m, h.config, fun _ inside => absurd inside List.not_mem_nil, ?_, ?_, h.file⟩
    · rw [same]
      exact ⟨h.backed.file, h.backed.file, h.backed.stored⟩
    · rw [same]
      exact h.file

end FetchInv

/-! ## The endpoint -/

theorem trimPrefix_append (front rest : Bytes) : Bytes.trimPrefix front (front ++ rest) = rest := by
  rw [Bytes.trimPrefix, if_pos (List.prefix_append _ _), List.drop_left]

/-- What a GET answers for a name: 404 when the path cannot carry it, and otherwise what the store has under it. -/
theorem handlePrekeysGet_answer (P : Platform) (s : Server) (userID : Bytes) (now : Time) (io : PersistIo) :
    (s.handlePrekeysGet P .get (ascii "/prekeys/" ++ userID) now io).2 =
      if userID = [] ∨ 47 ∈ userID ∨ 63 ∈ userID ∨ 35 ∈ userID then .notFound
      else
        match (s.prekeys.getBundleWithOTPK P.aead userID (s.prekeyLimiter.allow userID now).2 io).2 with
        | none => .notFound
        | some response => .ok response := by
  simp only [Server.handlePrekeysGet, Server.prekeyTarget, trimPrefix_append]
  by_cases refused : userID = [] ∨ 47 ∈ userID ∨ 63 ∈ userID ∨ 35 ∈ userID
  · simp only [refused, if_true]
    rfl
  · simp only [refused, if_false]
    rfl

/-- The last bundle accepted for who authenticates as `x`. -/
def registered (relayID : Bytes) (log : List Event) (x : Bytes) : Option PrekeyBundle := latest (normalizeUser relayID x) log

/-- Every GET for `x` answers with the identity key, signed prekey, signature and id of the bundle. -/
def Fetches (P : Platform) (s : Server) (x : Bytes) (bundle : PrekeyBundle) : Prop :=
  ∀ now io, ∃ k, (s.handlePrekeysGet P .get (ascii "/prekeys/" ++ x) now io).2 = .ok { response bundle with oneTimePrekey := k }

/-- The name is its own key, and a path can carry it. -/
def Fetchable (relayID x : Bytes) : Prop := normalizeUser relayID x = x ∧ 47 ∉ x ∧ 63 ∉ x ∧ 35 ∉ x

instance (relayID x : Bytes) : Decidable (Fetchable relayID x) := inferInstanceAs (Decidable (_ ∧ _))

namespace FetchInv

variable {P : Platform} {relayID : Bytes} {s : State} {m : Map PrekeyBundle} {x : Bytes} {bundle : PrekeyBundle}

/-- A name that is its own key, and that a path can carry, is served its last bundle. -/
theorem fetches (h : FetchInv P relayID s m) (known : registered relayID s.log x = some bundle)
    (own : Fetchable relayID x) : Fetches P s.server x bundle := by
  obtain ⟨key, slash, mark, hash⟩ := own
  rw [registered, key] at known
  obtain ⟨b, found⟩ := h.memory.covers x bundle known
  obtain ⟨named, -, -⟩ := h.backed.sound x b found
  obtain ⟨upload, same, n, rfl⟩ := h.memory.uploads x b found
  cases known.symm.trans same
  intro now io
  obtain ⟨k, answer⟩ := getBundleWithOTPK_found (A := P.aead) found (s.server.prekeyLimiter.allow x now).2 io
  refine ⟨k, ?_⟩
  rw [handlePrekeysGet_answer, if_neg (by simp [named, slash, mark, hash]), answer]
  rfl

/-- Any other name is not found: nothing is stored under a name that is not its own key. -/
theorem notFound (h : FetchInv P relayID s m) (other : ¬ Fetchable relayID x) (now : Time) (io : PersistIo) :
    (s.server.handlePrekeysGet P .get (ascii "/prekeys/" ++ x) now io).2 = .notFound := by
  rw [handlePrekeysGet_answer]
  split
  · rfl
  · rename_i carried
    have missing : s.server.prekeys.bundles[x]? = none := by
      cases found : s.server.prekeys.bundles[x]? with
      | none => rfl
      | some b =>
        have key := h.memory.keys x b found
        simp only [not_or] at carried
        exact absurd ⟨key, carried.2⟩ other
    rw [getBundleWithOTPK_missing missing]

end FetchInv

/-- **Fetching under one's own name.** In every run in which no registration has a failing persist, with fetches whose
persist fails and restarts: if a bundle was accepted for who authenticates as `x`, a GET for `x` answers with the last
one exactly when `x` is its own key, without a local domain, and has no slash, question mark or hash. -/
theorem fetched_under_own_name (P : Platform) (cfg : Config) (files : Files) (prekeys : files.prekeys = .empty)
    (io : Server.StartIo) (first s : State) (labels : List Label) (started : State.start P cfg files io [] = some first)
    (persists : ∀ l ∈ labels, l.Persists) (reached : run (State.step P) first labels = some s) (x : Bytes)
    (bundle : PrekeyBundle) (known : registered cfg.relayID s.log x = some bundle) :
    Fetches P s.server x bundle ↔ Fetchable cfg.relayID x := by
  obtain ⟨m, inv⟩ := run_invariant_under (P := fun s : State => ∃ m, FetchInv P cfg.relayID s m)
    (fun _ _ _ ⟨_, before⟩ persists stepped => before.step persists stepped) ⟨∅, FetchInv.start prekeys started⟩
    (always_of_forall persists first) reached
  constructor
  · intro fetches
    by_contra other
    obtain ⟨k, answer⟩ := fetches ⟨0, by decide⟩ (.clean (.zeros 12))
    rw [inv.notFound other] at answer
    cases answer
  · intro own
    exact inv.fetches known own

namespace Scene

open Reference

/-- A user authenticates as `x` and registers; a fetch whose persist fails, and a restart. -/
def registers (x : Bytes) : List Label :=
  [.connect 1 [] (Client.answer ed25519 (.zeros 32) (.zeros 32) x) (.clean start (.zeros 32)) (State.flushIo start),
    State.frameLabel 1 (Client.registration bundle) start,
    .fetch .get (ascii "/prekeys/ann") start ⟨.zeros 12, some .write⟩, .restart startIo]

/-- The relay `a` after that, and its answer to a GET for `x`. -/
def fetchAfter (x : Bytes) : Option (Option PrekeyBundle × Server.PrekeyAnswer) :=
  (State.start platform cfg .empty startIo []).bind fun first =>
    (run (State.step platform) first (registers x)).map fun s =>
      (registered (ascii "a") s.log x,
        (s.server.handlePrekeysGet platform .get (ascii "/prekeys/" ++ x) start (.clean (.zeros 12))).2)

end Scene

/-- Ann, without a domain, is found. -/
theorem fetched_under_own_name_ann :
    ∃ first s, State.start Reference.platform Reference.cfg .empty Reference.startIo [] = some first ∧
      run (State.step Reference.platform) first (Scene.registers (ascii "ann")) = some s ∧
      Fetches Reference.platform s.server (ascii "ann") Reference.bundle := by
  have result : ((State.start Reference.platform Reference.cfg .empty Reference.startIo []).bind fun first =>
      (run (State.step Reference.platform) first (Scene.registers (ascii "ann"))).map fun s =>
        registered (ascii "a") s.log (ascii "ann")) = some (some Reference.bundle) := by decide +kernel
  obtain ⟨first, started, rest⟩ := Option.bind_eq_some_iff.1 result
  obtain ⟨s, reached, known⟩ := Option.map_eq_some_iff.1 rest
  exact ⟨first, s, started, reached, (fetched_under_own_name _ _ _ rfl _ first s _ started (by decide +kernel) reached
    (ascii "ann") Reference.bundle known).2 (by decide)⟩

/-- Who authenticates as `ann@a`, or as `a/b`, has registered a bundle, and a GET for that name answers 404. -/
theorem registered_not_found :
    Scene.fetchAfter (ascii "ann@a") = some (some Reference.bundle, .notFound) ∧
      Scene.fetchAfter (ascii "a/b") = some (some Reference.bundle, .notFound) := by
  constructor
  · decide +kernel
  · decide +kernel

end SpectreRelay.Server.Sessions
