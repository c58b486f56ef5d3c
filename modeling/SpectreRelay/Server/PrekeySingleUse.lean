import SpectreRelay.Server.PrekeyCrash

/-!
# One-time prekeys are served once

Memory and disk each hold, for every user, an upload with a number of prekeys
gone from its pool. They differ at most in the pool of the user whose call holds
the lock, and there by that call's change only. A prekey is returned after the
file without it is in place, so the pool that a reload brings back never stands
before a prekey that was served, and a crash can lose the one prekey that was
on its way out (`prekeys_single_use`).
-/

namespace SpectreRelay.Server.PrekeyCrash
set_option autoImplicit false
open Lib PrekeyStore

/-- The bundle with the first prekeys of its pool gone. -/
def remaining (b : PrekeyBundle) (gone : Nat) : PrekeyBundle := { b with oneTimePrekeys := b.oneTimePrekeys.drop gone }

theorem remaining_pool {b : PrekeyBundle} {gone : Nat} {key : OneTimePrekey} {rest : List OneTimePrekey}
    (pool : (remaining b gone).oneTimePrekeys = key :: rest) :
    b.oneTimePrekeys[gone]? = some key ∧ { remaining b gone with oneTimePrekeys := rest } = remaining b (gone + 1) := by
  have dropped : b.oneTimePrekeys.drop gone = key :: rest := pool
  have head : b.oneTimePrekeys[gone]? = some key := by rw [← List.head?_drop, dropped]; rfl
  have tail : b.oneTimePrekeys.drop (gone + 1) = rest := by rw [← List.tail_drop, dropped]; rfl
  exact ⟨head, by simp only [remaining, tail]⟩

/-! ## Pools and their uploads -/

/-- The pools of a map are from uploads of their users, as far along as `source` says. -/
def Holds (uploads : List Upload) (source : Bytes → Source) (m : Map PrekeyBundle) : Prop :=
  ∀ (u : Bytes) (b : PrekeyBundle), m[u]? = some b → u ≠ [] ∧ Utf8.Valid u ∧
    ∃ up, uploads[(source u).upload]? = some up ∧ up.userID = u ∧ up.bundle.Accepted ∧
      b = remaining up.bundle (source u).gone

namespace Holds

variable {uploads : List Upload} {source : Bytes → Source} {m : Map PrekeyBundle}

theorem empty (source : Bytes → Source) : Holds uploads source ∅ := by
  intro u b found
  rw [Map.get_empty] at found
  cases found

theorem sound (h : Holds uploads source m) : Sound m := by
  intro u b found
  obtain ⟨named, text, up, _, _, accepted, rfl⟩ := h u b found
  exact ⟨named, text, accepted.drop _⟩

theorem append (h : Holds uploads source m) (more : List Upload) : Holds (uploads ++ more) source m := by
  intro u b found
  obtain ⟨named, text, up, listed, rest⟩ := h u b found
  exact ⟨named, text, up, getElem?_grown listed more, rest⟩

theorem insert (h : Holds uploads source m) {u : Bytes} {b : PrekeyBundle} {src : Source} {up : Upload} (named : u ≠ [])
    (text : Utf8.Valid u) (listed : uploads[src.upload]? = some up) (mine : up.userID = u) (accepted : up.bundle.Accepted)
    (left : b = remaining up.bundle src.gone) : Holds uploads (Function.update source u src) (m.insert u b) := by
  intro u' b' found
  rw [Map.get_insert] at found
  split at found
  · rename_i same
    subst same
    cases found
    rw [Function.update_self]
    exact ⟨named, text, up, listed, mine, accepted, left⟩
  · rename_i other
    rw [Function.update_of_ne (Ne.symm other)]
    exact h u' b' found

end Holds

/-- The positions served from an upload, in order, each with the crashes before it. -/
def record (serves : List Serve) (upload : Nat) : List Taken :=
  (serves.filter fun v => v.upload = upload).map Serve.taken

/-- The prekey is at its position in its upload, which is its user's. -/
def Genuine (uploads : List Upload) (v : Serve) : Prop :=
  ∃ up, uploads[v.upload]? = some up ∧ up.userID = v.userID ∧ up.bundle.oneTimePrekeys[v.taken.position]? = some v.key

theorem Genuine.append {uploads : List Upload} {v : Serve} (h : Genuine uploads v) (more : List Upload) :
    Genuine (uploads ++ more) v := by
  obtain ⟨up, listed, rest⟩ := h
  exact ⟨up, getElem?_grown listed more, rest⟩

/-- A new upload has no record. -/
theorem record_new {uploads : List Upload} {serves : List Serve} (h : ∀ v ∈ serves, Genuine uploads v) :
    record serves uploads.length = [] := by
  rw [record, List.map_eq_nil_iff, List.filter_eq_nil_iff]
  intro v inside same
  obtain ⟨up, listed, _⟩ := h v inside
  have bound := (List.getElem?_eq_some_iff.1 listed).1
  rw [of_decide_eq_true same] at bound
  exact Nat.lt_irrefl _ bound

theorem record_append (serves : List Serve) (v : Serve) (k : Nat) :
    record (serves ++ [v]) k = if v.upload = k then record serves k ++ [v.taken] else record serves k := by
  unfold record
  rw [List.filter_append, List.map_append]
  split
  · rename_i same
    simp [same]
  · rename_i other
    simp [other]

namespace State

variable {A : Aead} {s : State}

/-- The next prekey of this pool can follow what was served from its upload. -/
def Due (s : State) (src : Source) : Prop :=
  ∃ up, s.uploads[src.upload]? = some up ∧
    (standing ⟨0, up.crashes⟩ (record s.serves src.upload)).Allows ⟨src.gone, s.crashes⟩

namespace Due

variable {s' : State} {src : Source}

/-- Later uploads do not matter. -/
theorem grow (h : s.Due src) {more : List Upload} (uploads : s'.uploads = s.uploads ++ more)
    (serves : s'.serves = s.serves) (crashes : s'.crashes = s.crashes) : s'.Due src := by
  obtain ⟨up, listed, allows⟩ := h
  refine ⟨up, ?_, ?_⟩
  · rw [uploads]
    exact getElem?_grown listed more
  · rw [serves, crashes]
    exact allows

/-- A new upload is due from its start. -/
theorem new {u : Bytes} {b : PrekeyBundle} (genuine : ∀ v ∈ s.serves, Genuine s.uploads v)
    (uploads : s'.uploads = s.uploads ++ [⟨u, b, s.crashes⟩]) (serves : s'.serves = s.serves)
    (crashes : s'.crashes = s.crashes) : s'.Due ⟨s.uploads.length, 0⟩ := by
  refine ⟨⟨u, b, s.crashes⟩, by simp [uploads], ?_⟩
  rw [serves, crashes, record_new genuine]
  exact .here ⟨0, s.crashes⟩

/-- After a crash the pool can stand where it was. -/
theorem wait (h : s.Due src) (uploads : s'.uploads = s.uploads) (serves : s'.serves = s.serves)
    (crashes : s'.crashes = s.crashes + 1) : s'.Due src := by
  obtain ⟨up, listed, allows⟩ := h
  refine ⟨up, ?_, ?_⟩
  · rw [uploads]
    exact listed
  · rw [serves, crashes]
    exact allows.wait

/-- A crash allows one prekey to be gone that was not served. -/
theorem skip (h : s.Due src) (uploads : s'.uploads = s.uploads) (serves : s'.serves = s.serves)
    (crashes : s'.crashes = s.crashes + 1) : s'.Due ⟨src.upload, src.gone + 1⟩ := by
  obtain ⟨up, listed, allows⟩ := h
  refine ⟨up, ?_, ?_⟩
  · rw [uploads]
    exact listed
  · rw [serves, crashes]
    exact allows.skip

end Due

/-- What is known of the pool of the call's user between the change and the return. -/
def Pending (s : State) (u : Bytes) (answer : Answer) : Prop :=
  match answer.key with
  | none => ∀ b, s.ps.bundles[u]? = some b → s.Due (s.memory u)
  | some key => s.memory u = ⟨s.popped.upload, s.popped.gone + 1⟩ ∧ s.Due s.popped ∧
      ∃ up, s.uploads[s.popped.upload]? = some up ∧ up.userID = u ∧
        up.bundle.oneTimePrekeys[s.popped.gone]? = some key

/-- Memory and disk agree. -/
structure Same (s : State) (m : Map PrekeyBundle) : Prop where
  bundles : s.ps.bundles = m
  sources : s.memory = s.stored

/-- Memory is ahead of the disk by the change of one call. -/
structure Ahead (s : State) (m : Map PrekeyBundle) (op : Op) (answer : Answer) : Prop where
  others : ∀ u, u ≠ op.userID → s.ps.bundles[u]? = m[u]? ∧ s.memory u = s.stored u
  due : ∀ u b, m[u]? = some b → s.Due (s.stored u)
  pending : s.Pending op.userID answer

/-- How memory and the disk's map `m` are related, by how far the call has come. -/
def Agrees (A : Aead) (s : State) (m : Map PrekeyBundle) : Prop :=
  match s.phase with
  | .down => ∀ u b, m[u]? = some b → s.Due (s.stored u)
  | .idle => s.Same m ∧ ∀ u b, m[u]? = some b → s.Due (s.stored u)
  | .busy _ .locked => s.Same m ∧ ∀ u b, m[u]? = some b → s.Due (s.stored u)
  | .busy op (.changed answer) => s.Ahead m op answer
  | .busy op (.writing sealed _ answer) =>
    s.Ahead m op answer ∧ ∃ nonce, sealed = A.encrypt s.ps.key nonce (encodeBundles s.ps.bundles)
  | .busy op (.returning answer) =>
    s.Same m ∧ (∀ u b, u ≠ op.userID → m[u]? = some b → s.Due (s.stored u)) ∧ s.Pending op.userID answer

end State

/-- The call passed the checks before the lock, and the id it registers is well-formed. -/
def Op.Accepted (op : Op) : Prop := op.refused = false ∧ ∀ u b, op = .registerBundle u b → Utf8.Valid u

structure Inv (A : Aead) (s : State) : Prop where
  accepted : ∀ op progress, s.phase = .busy op progress → op.Accepted
  serves : ∀ v ∈ s.serves, Genuine s.uploads v
  serial : ∀ k up, s.uploads[k]? = some up → Serial ⟨0, up.crashes⟩ (record s.serves k)
  memory : Holds s.uploads s.memory s.ps.bundles
  disk : ∃ m, Stored A s.ps.disk s.ps.key m ∧ Holds s.uploads s.stored m ∧ s.Agrees A m

namespace Inv

variable {A : Aead} {s : State}

theorem init (A : Aead) (key : Block 32) : Inv A (State.init key) where
  accepted := nofun
  serves := nofun
  serial := nofun
  memory := .empty _
  disk := by
    refine ⟨∅, ⟨rfl, .inl ⟨rfl, rfl⟩⟩, .empty _, ⟨rfl, rfl⟩, ?_⟩
    intro u b found
    rw [Map.get_empty] at found
    cases found

/-- A step that changes the phase only. -/
theorem proceed (h : Inv A s) {phase : Phase} (accepted : ∀ op progress, phase = .busy op progress → op.Accepted)
    (agrees : ∀ m, s.Agrees A m → State.Agrees A { s with phase } m) : Inv A { s with phase } := by
  obtain ⟨m, image, holds, related⟩ := h.disk
  exact ⟨accepted, h.serves, h.serial, h.memory, m, image, holds, agrees m related⟩

/-- The change of `registerBundle` in memory. -/
theorem register (h : Inv A s) {u : Bytes} {b : PrekeyBundle}
    (locked : s.phase = .busy (.registerBundle u b) .locked) : Inv A (s.change (.registerBundle u b)) := by
  obtain ⟨passed, text⟩ := h.accepted _ _ locked
  obtain ⟨named, valid⟩ := State.refused_register passed
  obtain ⟨m, image, holds, related⟩ := h.disk
  simp only [State.Agrees, locked] at related
  obtain ⟨⟨bundles, sources⟩, due⟩ := related
  have listed : (s.uploads ++ [⟨u, b, s.crashes⟩])[s.uploads.length]? = some ⟨u, b, s.crashes⟩ := by simp
  refine ⟨?_, fun v inside => (h.serves v inside).append _, ?_, ?_, m, image, holds.append _, ?_, ?_, ?_⟩
  · rintro op progress ⟨⟩
    exact ⟨passed, text⟩
  · intro k up found
    by_cases old : k < s.uploads.length
    · simp only [State.change, List.getElem?_append_left old] at found
      exact h.serial k up found
    · have last : k = s.uploads.length := by
        have bound := (List.getElem?_eq_some_iff.1 found).1
        simp only [State.change, List.length_append, List.length_singleton] at bound
        omega
      have none : record s.serves k = [] := by rw [last]; exact record_new h.serves
      simp only [State.change, none]
      trivial
  · exact (h.memory.append _).insert named (text u b rfl) listed rfl (validatePrekeyBundle_ok.1 valid) rfl
  · intro u' other
    have stays : u' ≠ u := other
    simp only [State.change, Map.get_insert_other _ _ stays, Function.update_of_ne stays, bundles, sources, and_self]
  · exact fun u' b' found => (due u' b' found).grow rfl rfl rfl
  · intro b' _
    have here : (s.change (.registerBundle u b)).memory u = ⟨s.uploads.length, 0⟩ := Function.update_self ..
    have new : (s.change (.registerBundle u b)).Due ⟨s.uploads.length, 0⟩ := .new h.serves rfl rfl rfl
    rw [← here] at new
    exact new

/-- The head of a pool is taken in memory. -/
theorem pop (h : Inv A s) {op : Op} {b : PrekeyBundle} {key : OneTimePrekey} {rest : List OneTimePrekey}
    {answer : Answer} (locked : s.phase = .busy op .locked) (found : s.ps.bundles[op.userID]? = some b)
    (pool : b.oneTimePrekeys = key :: rest) (keyed : answer.key = some key) : Inv A (s.pop op b rest answer) := by
  obtain ⟨m, image, holds, related⟩ := h.disk
  simp only [State.Agrees, locked] at related
  obtain ⟨⟨bundles, sources⟩, due⟩ := related
  obtain ⟨named, text, up, listed, mine, accepted, rfl⟩ := h.memory _ _ found
  obtain ⟨head, tail⟩ := remaining_pool pool
  refine ⟨?_, h.serves, h.serial, ?_, m, image, holds, ?_, due, ?_⟩
  · rintro op' progress ⟨⟩
    exact h.accepted _ _ locked
  · exact h.memory.insert named text listed mine accepted tail
  · intro u other
    simp only [State.pop, Map.get_insert_other _ _ other, Function.update_of_ne other, bundles, sources, and_self]
  · have first : s.Due (s.memory op.userID) := by
      rw [bundles] at found
      rw [sources]
      exact due _ _ found
    simp only [State.Pending, keyed]
    exact ⟨Function.update_self .., first, up, listed, mine, head⟩

/-- The file is replaced by the image of the memory. -/
theorem rename (h : Inv A s) {op : Op} {sealed : Bytes} {done : Nat} {answer : Answer}
    (writing : s.phase = .busy op (.writing sealed done answer)) :
    Inv A { s with
      ps := { s.ps with disk := { s.ps.disk with dataFile := some sealed } }
      phase := .busy op (.returning answer)
      stored := s.memory } := by
  obtain ⟨m, image, holds, related⟩ := h.disk
  simp only [State.Agrees, writing] at related
  obtain ⟨⟨others, due, pending⟩, nonce, rfl⟩ := related
  refine ⟨?_, h.serves, h.serial, h.memory, s.ps.bundles, ⟨image.keyFile, .inr ⟨nonce, rfl⟩⟩, h.memory, ⟨rfl, rfl⟩, ?_, pending⟩
  · rintro op' progress ⟨⟩
    exact h.accepted _ _ writing
  · intro u b other found
    have before := others u other
    rw [before.1] at found
    have same : s.Due (s.memory u) := by rw [before.2]; exact due u b found
    exact same

/-- Two users' pools are from different uploads. -/
theorem apart {uploads : List Upload} {source : Bytes → Source} {m : Map PrekeyBundle} (holds : Holds uploads source m)
    {u u' : Bytes} {b : PrekeyBundle} {up : Upload} {k : Nat} (found : m[u]? = some b) (listed : uploads[k]? = some up)
    (mine : up.userID = u') (other : u ≠ u') : k ≠ (source u).upload := by
  obtain ⟨_, _, up', listed', mine', _⟩ := holds u b found
  intro same
  rw [same, listed'] at listed
  cases listed
  exact other (mine'.symm.trans mine)

/-- The call returns and its prekey counts as served. -/
theorem ret (h : Inv A s) {op : Op} {answer : Answer} (returning : s.phase = .busy op (.returning answer)) :
    Inv A { s with phase := .idle, serves := s.served op answer } := by
  obtain ⟨m, image, holds, related⟩ := h.disk
  simp only [State.Agrees, returning] at related
  obtain ⟨⟨bundles, sources⟩, due, pending⟩ := related
  unfold State.Pending at pending
  cases keyed : answer.key with
  | none =>
    simp only [keyed] at pending
    simp only [State.served, keyed]
    refine ⟨nofun, h.serves, h.serial, h.memory, m, image, holds, ⟨bundles, sources⟩, ?_⟩
    intro u b found
    by_cases same : u = op.userID
    · rw [← bundles, same] at found
      have here := pending b found
      rw [sources, ← same] at here
      exact here
    · exact due u b same found
  | some key =>
    simp only [keyed] at pending
    obtain ⟨ahead, ⟨up', listed', allows⟩, up, listed, mine, head⟩ := pending
    obtain rfl : up = up' := Option.some.inj (listed.symm.trans listed')
    simp only [State.served, keyed]
    refine ⟨nofun, ?_, ?_, h.memory, m, image, holds, ⟨bundles, sources⟩, ?_⟩
    · intro v inside
      rcases List.mem_append.1 inside with old | new
      · exact h.serves v old
      · rw [List.mem_singleton.1 new]
        exact ⟨up, listed, mine, head⟩
    · intro k up' found
      rw [record_append]
      split
      · rename_i same
        cases same
        rw [listed] at found
        cases found
        exact (h.serial _ _ listed).append allows
      · exact h.serial k up' found
    · intro u b found
      by_cases same : u = op.userID
      · -- the pool now stands right after the prekey that was served
        have stands : s.stored u = ⟨s.popped.upload, s.popped.gone + 1⟩ := by rw [← sources, same, ahead]
        rw [stands]
        refine ⟨up, listed, ?_⟩
        rw [record_append, if_pos rfl, standing_append]
        exact .here ⟨s.popped.gone + 1, s.crashes⟩
      · obtain ⟨up', listed', allows'⟩ := due u b same found
        refine ⟨up', listed', ?_⟩
        rw [record_append, if_neg (apart holds found listed mine same)]
        exact allows'

/-- At a crash, every pool on disk can stand where it is. -/
theorem due_crash (s' : State) {m : Map PrekeyBundle} (related : s.Agrees A m) (uploads : s'.uploads = s.uploads)
    (serves : s'.serves = s.serves) (crashes : s'.crashes = s.crashes + 1) {u : Bytes} {b : PrekeyBundle}
    (found : m[u]? = some b) : s'.Due (s.stored u) := by
  unfold State.Agrees at related
  split at related
  · exact (related u b found).wait uploads serves crashes
  · exact (related.2 u b found).wait uploads serves crashes
  · exact (related.2 u b found).wait uploads serves crashes
  · exact (related.due u b found).wait uploads serves crashes
  · exact (related.1.due u b found).wait uploads serves crashes
  · rename_i op answer _
    obtain ⟨⟨bundles, sources⟩, due, pending⟩ := related
    by_cases same : u = op.userID
    · subst same
      unfold State.Pending at pending
      rw [← sources]
      split at pending
      · rw [← bundles] at found
        exact (pending b found).wait uploads serves crashes
      · -- the prekey on its way out is lost
        rw [pending.1]
        exact pending.2.1.skip uploads serves crashes
    · exact (due u b same found).wait uploads serves crashes

theorem crash (h : Inv A s) : Inv A { s with ps := { s.ps with bundles := ∅ }, phase := .down, crashes := s.crashes + 1 } := by
  obtain ⟨m, image, holds, related⟩ := h.disk
  exact ⟨nofun, h.serves, h.serial, .empty _, m, image, holds,
    fun u b found => due_crash { s with crashes := s.crashes + 1 } related rfl rfl rfl found⟩

theorem reload (h : Inv A s) {fresh : Block 32} {disk : Disk} {ps : PrekeyStore} (down : s.phase = .down)
    (started : newPrekeyStore A s.ps.disk (.clean fresh) = (disk, .ok ps)) :
    Inv A { s with ps, phase := .idle, memory := s.stored } := by
  obtain ⟨m, image, holds, related⟩ := h.disk
  simp only [State.Agrees, down] at related
  rw [newPrekeyStore_stored image holds.sound fresh] at started
  cases started
  exact ⟨nofun, h.serves, h.serial, holds, m, image, holds, ⟨rfl, rfl⟩, related⟩

end Inv

/-- An id that is registered is well-formed text. -/
def Label.Text : Label → Prop
  | .enter (.registerBundle userID _) => Utf8.Valid userID
  | _ => True

/-- **Every step keeps the invariant.** -/
theorem Inv.step {A : Aead} {s s' : State} {l : Label} (h : Inv A s) (text : l.Text)
    (stepped : State.step A s l = some s') : Inv A s' := by
  cases State.step_cases stepped with
  | refused idle => exact h
  | @enter op idle accepted =>
    refine h.proceed ?_ fun m agreed => ?_
    · rintro _ _ ⟨⟩
      refine ⟨accepted, ?_⟩
      rintro u b rfl
      exact text
    · simp only [State.Agrees, idle] at agreed ⊢
      exact ⟨⟨agreed.1.bundles, agreed.1.sources⟩, agreed.2⟩
  | register locked => exact h.register locked
  | answer locked plain =>
    refine h.proceed ?_ fun m agreed => ?_
    · rintro _ _ ⟨⟩
      exact h.accepted _ _ locked
    · simp only [State.Agrees, locked, State.Pending, plain] at agreed ⊢
      obtain ⟨⟨bundles, sources⟩, due⟩ := agreed
      refine ⟨⟨bundles, sources⟩, fun u b _ found => due u b found, fun b found => ?_⟩
      rw [bundles] at found
      rw [sources]
      exact due _ b found
  | pop locked found pool keyed => exact h.pop locked found pool keyed
  | @encrypt op answer nonce changed =>
    refine h.proceed ?_ fun m agreed => ?_
    · rintro _ _ ⟨⟩
      exact h.accepted _ _ changed
    · simp only [State.Agrees, changed] at agreed ⊢
      exact ⟨⟨agreed.others, agreed.due, agreed.pending⟩, nonce, rfl⟩
  | write writing =>
    refine h.proceed ?_ fun m agreed => ?_
    · rintro _ _ ⟨⟩
      exact h.accepted _ _ writing
    · simp only [State.Agrees, writing] at agreed ⊢
      exact ⟨⟨agreed.1.others, agreed.1.due, agreed.1.pending⟩, agreed.2⟩
  | rename written => exact h.rename written
  | ret returning => exact h.ret returning
  | crash running => exact h.crash
  | reload down started => exact h.reload down started

/-! ## Other users -/

namespace State

variable {A : Aead} {s s' : State}

/-- The bundle of a user: the one in memory, or the one that a reload brings back. -/
def bundleOf (A : Aead) (s : State) (u : Bytes) : Option PrekeyBundle :=
  match s.phase with
  | .down =>
    match (newPrekeyStore A s.ps.disk (.clean (.zeros 32))).2 with
    | .ok ps => ps.bundles[u]?
    | .error _ => none
  | _ => s.ps.bundles[u]?

/-- The user whose call holds the lock. -/
def holder (s : State) : Option Bytes :=
  match s.phase with
  | .busy op _ => some op.userID
  | _ => none

theorem bundleOf_up (running : s.phase ≠ .down) (u : Bytes) : s.bundleOf A u = s.ps.bundles[u]? := by
  unfold bundleOf
  split
  · rename_i down
    exact absurd down running
  · rfl

theorem bundleOf_down (down : s.phase = .down) {m : Map PrekeyBundle} (image : Stored A s.ps.disk s.ps.key m) (sound : Sound m)
    (u : Bytes) : s.bundleOf A u = m[u]? := by
  simp only [bundleOf, down, newPrekeyStore_stored image sound]

/-- Memory and disk hold the same bundle of every user but the one whose call holds the lock. -/
theorem Agrees.others {m : Map PrekeyBundle} (related : s.Agrees A m) (running : s.phase ≠ .down) {u : Bytes}
    (other : s.holder ≠ some u) : s.ps.bundles[u]? = m[u]? := by
  unfold Agrees at related
  split at related
  · rename_i down
    exact absurd down running
  · rw [related.1.bundles]
  · rw [related.1.bundles]
  · rename_i op answer phase
    exact (related.others u fun same => other (by simp [holder, phase, same])).1
  · rename_i op sealed done answer phase
    exact (related.1.others u fun same => other (by simp [holder, phase, same])).1
  · rw [related.1.bundles]

/-- **A step changes the bundle of no user but the one whose call holds the lock.** -/
theorem bundleOf_step (h : Inv A s) {l : Label} (stepped : State.step A s l = some s') {u : Bytes}
    (other : s.holder ≠ some u) : s'.bundleOf A u = s.bundleOf A u := by
  have apart : ∀ op progress, s.phase = .busy op progress → u ≠ op.userID := by
    intro op progress phase same
    exact other (by simp [holder, phase, same])
  cases State.step_cases stepped with
  | refused idle => rfl
  | enter idle accepted => simp [bundleOf, idle]
  | @register userID bundle locked =>
    have stays : u ≠ userID := apart _ _ locked
    simp only [bundleOf, change, locked, Map.get_insert_other _ _ stays]
  | answer locked plain => simp [bundleOf, locked]
  | pop locked found pool keyed => simp only [bundleOf, pop, locked, Map.get_insert_other _ _ (apart _ _ locked)]
  | encrypt changed => simp [bundleOf, changed]
  | write writing => simp [bundleOf, writing]
  | rename written => simp [bundleOf, written]
  | ret returning => simp [bundleOf, returning]
  | crash running =>
    obtain ⟨m, image, holds, related⟩ := h.disk
    have lost := bundleOf_down
      (s := { s with ps := { s.ps with bundles := ∅ }, phase := .down, crashes := s.crashes + 1 }) rfl image holds.sound u
    rw [lost, bundleOf_up running]
    exact (related.others running other).symm
  | @reload fresh disk ps down started =>
    obtain ⟨m, image, holds, related⟩ := h.disk
    rw [bundleOf_down down image holds.sound]
    rw [newPrekeyStore_stored image holds.sound fresh] at started
    cases started
    rfl

end State

/-- **One-time prekeys are single use across crashes.** In every state reached, each prekey served was at its position
in an upload of its user; the positions served from one upload go up, with at most one skipped for each crash and none
otherwise; and no step, a crash or reload included, changes the bundle of a user other than the one whose call was
under way. -/
theorem prekeys_single_use (A : Aead) (key : Block 32) (labels : List Label) (s : State)
    (reached : run (State.step A) (State.init key) labels = some s) (text : ∀ l ∈ labels, l.Text) :
    (∀ v ∈ s.serves, Genuine s.uploads v) ∧
      (∀ k up, s.uploads[k]? = some up → ((record s.serves k).map Taken.position).Pairwise (· < ·) ∧
        Serial ⟨0, up.crashes⟩ (record s.serves k)) ∧
      ∀ l s', State.step A s l = some s' → ∀ u, s.holder ≠ some u → s'.bundleOf A u = s.bundleOf A u := by
  have inv : Inv A s := run_invariant_under (fun _ _ _ before ok stepped => before.step ok stepped) (.init A key)
    (always_of_forall text _) reached
  exact ⟨inv.serves, fun k up listed => ⟨(inv.serial k up listed).increasing, inv.serial k up listed⟩,
    fun l s' stepped u other => State.bundleOf_step inv stepped other⟩

/-- A prekey is served, the next one is lost in a crash after the rename, and the one after it is served. -/
def lossRun : List Label :=
  let persist := [.change, .encrypt (.zeros 12), .write 10000, .rename]
  .enter (.registerBundle (ascii "bob") Reference.bundle) :: persist ++
    .ret :: .enter (.getBundleWithOTPK (ascii "bob") true) :: persist ++
    .ret :: .enter (.consumeOneTimePrekey (ascii "bob")) :: persist ++
    .crash :: .reload (.zeros 32) :: .enter (.getBundleWithOTPK (ascii "bob") true) :: persist ++ [.ret]

theorem prekeys_single_use_crash :
    ∃ s, run (State.step .clear) (State.init (.zeros 32)) lossRun = some s ∧
      (∀ l ∈ lossRun, l.Text) ∧ record s.serves 0 = [⟨0, 0⟩, ⟨2, 1⟩] ∧ ∀ v ∈ s.serves, Genuine s.uploads v := by
  have result : ((run (State.step .clear) (State.init (.zeros 32)) lossRun).map fun s => record s.serves 0) =
      some [⟨0, 0⟩, ⟨2, 1⟩] := by decide +kernel
  obtain ⟨s, reached, served⟩ := Option.map_eq_some_iff.1 result
  have bob : Utf8.Valid (ascii "bob") := by decide
  have text : ∀ l ∈ lossRun, l.Text := by simpa [lossRun, Label.Text] using bob
  exact ⟨s, reached, text, served, (prekeys_single_use .clear (.zeros 32) lossRun s reached text).1⟩

end SpectreRelay.Server.PrekeyCrash
