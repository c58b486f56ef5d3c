import SpectreRelay.Server.PrekeyForm

/-!
# The prekey store when a persist fails

`registerBundle` and the calls that take a prekey change the map in memory
first and write the file afterwards. When the write fails the change stays:
`registerBundle` reports the error with the bundle already in the map, and the
other calls hand the prekey out and only log. The file then lags behind the
map (`Backed`) until some later call writes the whole map, or a restart takes
the change back.

The machine is that of `PrekeyForm`, with any persist failing at any step.
-/

namespace SpectreRelay.Server.PrekeyForm
set_option autoImplicit false
open Lib PrekeyStore

/-- The user id of a registration is well-formed text, as that of a session is. -/
def Label.Text : Label → Prop
  | registerBundle userID _ _ => Utf8.Valid userID
  | getBundleWithOTPK .. | consumeOneTimePrekey .. | identityKeyOf _ | reload _ => True

instance Label.Text.decide (l : Label) : Decidable l.Text :=
  match l with
  | registerBundle userID _ _ => inferInstanceAs (Decidable (Utf8.Valid userID))
  | getBundleWithOTPK .. | consumeOneTimePrekey .. | identityKeyOf _ | reload _ => .isTrue trivial

variable {A : Aead} {s s' : State} {l : Label}

/-- What a step does to the store. -/
inductive Stepped (A : Aead) (s : State) : Label → State → Prop where
  | refused {userID : Bytes} {bundle : PrekeyBundle} {io : PersistIo} (bad : userID = [] ∨ ¬ bundle.Accepted) :
      Stepped A s (.registerBundle userID bundle io) s
  | stored {userID : Bytes} {bundle : PrekeyBundle} {io : PersistIo} (named : userID ≠ []) (accepted : bundle.Accepted) :
      Stepped A s (.registerBundle userID bundle io)
        ⟨(persistLocked A { s.store with bundles := s.store.bundles.insert userID bundle } io).1,
          if io.fault = none then s.uploads.insert userID bundle else s.uploads⟩
  | served {l : Label} {userID : Bytes} {io : PersistIo} {ps : PrekeyStore} (done : Served A s.store userID io ps) :
      Stepped A s l { s with store := ps }
  | reload {io : StartIo} {ps : PrekeyStore} (started : (newPrekeyStore A s.store.disk io).2 = .ok ps) :
      Stepped A s (.reload io) { s with store := ps }

theorem step_cases (h : s.step A l = some s') : Stepped A s l s' := by
  cases l with
  | registerBundle userID bundle io =>
    have done := registerBundle_cases A s.store userID bundle io
    simp only [State.step] at h
    generalize registerBundle A s.store userID bundle io = answer at h done
    cases done with
    | refused bad =>
      cases h
      exact .refused bad
    | stored named accepted =>
      have stored : Stepped A s (.registerBundle userID bundle io) _ := .stored named accepted
      obtain ⟨nonce, fault⟩ := io
      cases fault with
      | none =>
        cases h
        exact stored
      | some point =>
        cases h
        exact stored
  | getBundleWithOTPK userID consumeOTPK io =>
    cases h
    exact .served (getBundleWithOTPK_served ..)
  | consumeOneTimePrekey userID io =>
    cases h
    exact .served (consumeOneTimePrekey_served ..)
  | identityKeyOf userID =>
    cases h
    exact .served (Served.same : Served A s.store userID (.clean (.zeros 12)) s.store)
  | reload io =>
    simp only [State.step] at h
    split at h
    · rename_i ps started
      cases h
      exact .reload started
    · cases h

/-- Whatever fails, the map in memory and the map in the file stay sound. -/
theorem backed_step {m : Map PrekeyBundle} (h : Backed A s.store m) (text : l.Text) (next : s.step A l = some s') :
    ∃ m', Backed A s'.store m' := by
  cases step_cases next with
  | refused bad => exact ⟨m, h⟩
  | stored named accepted => exact ⟨_, h.persist (h.sound.insert named text accepted) _⟩
  | served done =>
    rcases h.served done with same | written
    · exact ⟨m, same⟩
    · exact ⟨_, written⟩
  | reload started =>
    rw [h.reloaded started]
    exact ⟨m, h.file, h.file, h.stored⟩

/-- **Every store that calls can lead to is backed by its file.** -/
theorem backed_of_run {key : Block 32} {labels : List Label} (text : ∀ l ∈ labels, l.Text)
    (reached : run (State.step A) (State.init key) labels = some s) : ∃ m, Backed A s.store m :=
  run_invariant_under (P := fun s : State => ∃ m, Backed A s.store m)
    (fun _ _ _ ⟨_, before⟩ text next => backed_step before text next) ⟨∅, (InStep.fresh A key).backed⟩
    (always_of_forall text _) reached

/-! ## Handing out a prekey -/

/-- The one-time prekeys of a user. -/
def pool (ps : PrekeyStore) (u : Bytes) : List OneTimePrekey := (ps.bundles[u]?).elim [] PrekeyBundle.oneTimePrekeys

/-- A call gives out the prekey `k` of `u`, alone or with the bundle, and leaves the store `ps'`. -/
inductive HandsOut (A : Aead) (ps : PrekeyStore) (u : Bytes) (io : PersistIo) (k : OneTimePrekey) (ps' : PrekeyStore) :
    Prop where
  | bundle {consumeOTPK : Bool} {r : PrekeyResponse} (answer : ps.getBundleWithOTPK A u consumeOTPK io = (ps', some r))
      (key : r.oneTimePrekey = some k)
  | prekey (answer : ps.consumeOneTimePrekey A u io = (ps', some k))

/-- What is given out is the head of the pool, and the store afterwards has the rest. -/
theorem HandsOut.popped {ps ps' : PrekeyStore} {u : Bytes} {io : PersistIo} {k : OneTimePrekey}
    (h : HandsOut A ps u io k ps') : ∃ b rest, ps.bundles[u]? = some b ∧ b.oneTimePrekeys = k :: rest ∧
      ps' = (persistLocked A { ps with bundles := ps.bundles.insert u { b with oneTimePrekeys := rest } } io).1 := by
  cases h with
  | bundle answer key =>
    unfold getBundleWithOTPK at answer
    split at answer
    · cases answer
    · rename_i b found
      split at answer
      · rename_i consumed rest listed
        cases answer
        cases key
        exact ⟨b, rest, found, listed, rfl⟩
      · cases answer
        cases key
  | prekey answer =>
    unfold consumeOneTimePrekey at answer
    split at answer
    · cases answer
    · rename_i b found
      split at answer
      · cases answer
      · rename_i consumed rest listed
        cases answer
        exact ⟨b, rest, found, listed, rfl⟩

/-- Ids are distinct, so the rest of a pool does not have its head. -/
theorem not_mem_rest {b : PrekeyBundle} {k : OneTimePrekey} {rest : List OneTimePrekey} (accepted : b.Accepted)
    (listed : b.oneTimePrekeys = k :: rest) : k ∉ rest := by
  intro inside
  have distinct := accepted.distinct
  rw [listed, List.map_cons, List.nodup_cons] at distinct
  exact distinct.1 (List.mem_map_of_mem inside)

/-- **When a removal is durable.** In every store that calls can lead to, whatever has failed: after a call gives out
`k`, a restart from the files does not have `k` in the pool exactly when the persist of that call succeeds, or a restart
from the files before the call would not have had it either. -/
theorem removal_durable_iff (A : Aead) (key : Block 32) {labels : List Label} {s : State} (text : ∀ l ∈ labels, l.Text)
    (reached : run (State.step A) (State.init key) labels = some s) {u : Bytes} {io : PersistIo} {k : OneTimePrekey}
    {ps : PrekeyStore} (handed : HandsOut A s.store u io k ps) (fresh : Block 32) :
    ∃ before after, newPrekeyStore A s.store.disk (.clean fresh) = (s.store.disk, .ok before) ∧
      newPrekeyStore A ps.disk (.clean fresh) = (ps.disk, .ok after) ∧
      (k ∉ pool after u ↔ io.fault = none ∨ k ∉ pool before u) := by
  obtain ⟨m, backed⟩ := backed_of_run text reached
  obtain ⟨b, rest, found, listed, rfl⟩ := handed.popped
  have written := backed.persist (backed.sound.pop found listed) io
  refine ⟨_, _, backed.restart fresh, written.restart fresh, ?_⟩
  by_cases clean : io.fault = none
  · have gone : k ∉ rest := not_mem_rest (backed.sound u b found).2.2 listed
    simp only [clean, if_true, true_or, iff_true, pool, Map.get_insert_self, Option.elim_some]
    exact gone
  · simp only [clean, if_false, false_or, pool]

/-- Ann registers, and a prekey of hers is taken while the persist fails at the rename. -/
def lostRename : List Label :=
  [.registerBundle (ascii "ann") Reference.bundle (.clean (.zeros 12)),
    .getBundleWithOTPK (ascii "ann") true ⟨.zeros 12, some .rename⟩]

theorem removal_durable_iff_written :
    ∃ s ps k, run (State.step .clear) (State.init (.zeros 32)) lostRename = some s ∧
      HandsOut .clear s.store (ascii "ann") (.clean (.zeros 12)) k ps ∧
      ∃ after, newPrekeyStore .clear ps.disk (.clean (.zeros 32)) = (ps.disk, .ok after) ∧ k ∉ pool after (ascii "ann") := by
  have result : ((run (State.step .clear) (State.init (.zeros 32)) lostRename).map fun s =>
      (s.store.consumeOneTimePrekey .clear (ascii "ann") (.clean (.zeros 12))).2.map OneTimePrekey.id) = some (some 2) := by
    decide +kernel
  obtain ⟨s, reached, given⟩ := Option.map_eq_some_iff.1 result
  obtain ⟨k, found, -⟩ := Option.map_eq_some_iff.1 given
  have handed : HandsOut .clear s.store (ascii "ann") (.clean (.zeros 12)) k _ := .prekey (Prod.ext rfl found)
  obtain ⟨before, after, -, started, durable⟩ :=
    removal_durable_iff .clear (.zeros 32) (by decide +kernel) reached handed (.zeros 32)
  exact ⟨s, _, k, reached, handed, after, started, durable.2 (.inl rfl)⟩

/-- The prekeys that ann's two visitors get when the first persist fails and the relay restarts: the same. -/
theorem prekey_served_twice :
    (run (State.step .clear) (State.init (.zeros 32)) (lostRename.take 1)).map (fun s =>
        ((s.store.getBundleWithOTPK .clear (ascii "ann") true ⟨.zeros 12, some .rename⟩).2.bind
          PrekeyResponse.oneTimePrekey).map OneTimePrekey.id) = some (some 1) ∧
      (run (State.step .clear) (State.init (.zeros 32)) (lostRename ++ [.reload (.clean (.zeros 32))])).map (fun s =>
        ((s.store.getBundleWithOTPK .clear (ascii "ann") true (.clean (.zeros 12))).2.bind
          PrekeyResponse.oneTimePrekey).map OneTimePrekey.id) = some (some 1) := by
  decide +kernel

/-! ## Failing to register -/

/-- No registration that passes the checks has a failing persist. -/
def Label.Steady : Label → Prop
  | registerBundle userID bundle io => userID = [] ∨ ¬ WellFormed bundle ∨ io.fault = none
  | getBundleWithOTPK .. | consumeOneTimePrekey .. | identityKeyOf _ | reload _ => True

/-- The store is backed by its file, and both have what is left of the last uploads that were accepted. -/
structure Traced (A : Aead) (s : State) (m : Map PrekeyBundle) : Prop where
  backed : Backed A s.store m
  memory : FromUploads (fun u => s.uploads[u]?) s.store.bundles
  file : FromUploads (fun u => s.uploads[u]?) m

theorem Traced.step {m : Map PrekeyBundle} (h : Traced A s m) (text : l.Text) (steady : l.Steady)
    (next : s.step A l = some s') : ∃ m', Traced A s' m' := by
  cases step_cases next with
  | refused bad => exact ⟨m, h⟩
  | @stored userID bundle io named accepted =>
    have clean : io.fault = none := (steady.resolve_left named).resolve_left (not_not.2 (wellFormed_iff.2 accepted))
    have written := h.backed.persist (h.backed.sound.insert named text accepted) io
    rw [if_pos clean] at written
    rw [if_pos clean]
    exact ⟨_, written, h.memory.insert_map userID bundle, h.memory.insert_map userID bundle⟩
  | @served _ _ _ ps done =>
    have memory : FromUploads (fun u => s.uploads[u]?) ps.bundles := by
      cases done with
      | same => exact h.memory
      | popped found listed => exact h.memory.pop found listed
    rcases h.backed.served done with same | written
    · exact ⟨m, same, memory, h.file⟩
    · exact ⟨_, written, memory, memory⟩
  | reload started =>
    rw [h.backed.reloaded started]
    exact ⟨m, ⟨h.backed.file, h.backed.file, h.backed.stored⟩, h.file, h.file⟩

/-- An error from `registerBundle` leaves the map as it was exactly when the checks refused the call, or the map had
that very bundle. -/
theorem registerBundle_unchanged_iff {ps ps' : PrekeyStore} {u : Bytes} {b : PrekeyBundle} {io : PersistIo} {e : String}
    (failed : ps.registerBundle A u b io = (ps', .error e)) :
    ps'.bundles = ps.bundles ↔ u = [] ∨ ¬ WellFormed b ∨ ps.bundles[u]? = some b := by
  have done := registerBundle_cases A ps u b io
  rw [failed] at done
  generalize answer : (ps', Except.error e) = out at done
  cases done with
  | refused bad =>
    cases answer
    rw [← wellFormed_iff] at bad
    exact iff_of_true rfl (bad.imp_right .inl)
  | stored named accepted =>
    have formed := wellFormed_iff.2 accepted
    rw [(Prod.mk.inj answer).1]
    show ps.bundles.insert u b = ps.bundles ↔ _
    rw [Map.insert_eq_self]
    simp only [named, formed, not_true_eq_false, false_or]

/-- **What failed registrations leave behind.** -/
structure Traceless (A : Aead) (s : State) : Prop where
  /-- What is in memory, what is served and what is certified is from the last bundle accepted for the user. -/
  memory : FromUploads (fun u => s.uploads[u]?) s.store.bundles
  represents : Represents A s
  /-- So is what a restart finds on disk. -/
  disk : ∀ io ps, (newPrekeyStore A s.store.disk io).2 = .ok ps → FromUploads (fun u => s.uploads[u]?) ps.bundles
  /-- A registration that fails the checks leaves the store as it is. -/
  refused : ∀ u b io ps e, Label.Steady (.registerBundle u b io) →
    s.store.registerBundle A u b io = (ps, .error e) → ps.bundles = s.store.bundles

theorem Traced.traceless {m : Map PrekeyBundle} (h : Traced A s m) : Traceless A s := by
  refine ⟨h.memory, represents_of h.backed.sound h.memory, ?_, ?_⟩
  · intro io ps started
    rw [h.backed.reloaded started]
    exact h.file
  · intro u b io ps e steady failed
    rcases steady with empty | bad | clean
    · exact (registerBundle_unchanged_iff failed).2 (.inl empty)
    · exact (registerBundle_unchanged_iff failed).2 (.inr (.inl bad))
    · rw [registerBundle_error clean failed]

/-- **Failed registrations have no effect**, as long as no registration that passes the checks has a failing persist:
after every such run, with any other persist failing and any restarts, memory, answers, certificates and disk come from
the last bundle accepted for each user, and a refused call changes nothing. -/
theorem failed_registration_traceless (A : Aead) (key : Block 32) {labels : List Label} {s : State}
    (plain : ∀ l ∈ labels, l.Text ∧ l.Steady) (reached : run (State.step A) (State.init key) labels = some s) :
    Traceless A s := by
  have first : Traced A (State.init key) ∅ := ⟨(InStep.fresh A key).backed, .empty _, .empty _⟩
  obtain ⟨m, traced⟩ := run_invariant_under (P := fun s : State => ∃ m, Traced A s m)
    (fun _ _ _ ⟨_, before⟩ plain next => before.step plain.1 plain.2 next) ⟨∅, first⟩ (always_of_forall plain _) reached
  exact traced.traceless

/-- Ann registers; a bundle without a signed prekey is refused; a prekey is taken while the persist fails; a restart. -/
def refusedOnce : List Label :=
  [.registerBundle (ascii "ann") Reference.bundle (.clean (.zeros 12)),
    .registerBundle [] Reference.bundle ⟨.zeros 12, some .write⟩,
    .getBundleWithOTPK (ascii "ann") true ⟨.zeros 12, some .rename⟩, .reload (.clean (.zeros 32))]

theorem failed_registration_traceless_ann :
    ∃ s, run (State.step .clear) (State.init (.zeros 32)) refusedOnce = some s ∧
      ((s.store.bundles[ascii "ann"]?).map fun b => b.oneTimePrekeys.map OneTimePrekey.id) = some [1, 2, 3] ∧
      Traceless .clear s := by
  have found : ((run (State.step .clear) (State.init (.zeros 32)) refusedOnce).map fun s =>
      (s.store.bundles[ascii "ann"]?).map fun b => b.oneTimePrekeys.map OneTimePrekey.id) = some (some [1, 2, 3]) := by
    decide +kernel
  obtain ⟨s, reached, left⟩ := Option.map_eq_some_iff.1 found
  have plain : ∀ l ∈ refusedOnce, l.Text ∧ l.Steady := by
    have text : ∀ l ∈ refusedOnce, l.Text := by decide +kernel
    intro l inside
    refine ⟨text l inside, ?_⟩
    simp only [refusedOnce, List.mem_cons, List.not_mem_nil, or_false] at inside
    rcases inside with rfl | rfl | rfl | rfl
    · exact .inr (.inr rfl)
    · exact .inl rfl
    · trivial
    · trivial
  exact ⟨s, reached, left, failed_registration_traceless .clear (.zeros 32) plain reached⟩

/-- Bob's registration fails to persist; then ann registers and the relay restarts. -/
def unpersisted : List Label :=
  [.registerBundle (ascii "bob") Reference.bundle ⟨.zeros 12, some .rename⟩,
    .registerBundle (ascii "ann") Reference.bundle (.clean (.zeros 12)), .reload (.clean (.zeros 32))]

/-- Bob's bundle was refused with an error, and yet it is in memory and certified at once, ann's registration writes it
to disk, and the restarted relay serves it. -/
theorem failed_registration_served :
    ((State.init (.zeros 32)).store.registerBundle .clear (ascii "bob") Reference.bundle ⟨.zeros 12, some .rename⟩).2 =
        .error systemError ∧
      (run (State.step .clear) (State.init (.zeros 32)) (unpersisted.take 1)).map (fun s =>
          (s.uploads[ascii "bob"]?, s.store.identityKeyOf (ascii "bob"))) = some (none, some Reference.bundle.identityKey) ∧
      (run (State.step .clear) (State.init (.zeros 32)) unpersisted).map (fun s =>
          (s.uploads[ascii "bob"]?, (s.store.getBundleWithOTPK .clear (ascii "bob") false (.clean (.zeros 12))).2)) =
        some (none, some (response Reference.bundle)) := by
  refine ⟨?_, ?_, ?_⟩
  · decide +kernel
  · decide +kernel
  · decide +kernel

end SpectreRelay.Server.PrekeyForm
