import SpectreRelay.Lib.Bag
import SpectreRelay.Lib.Runs
import SpectreRelay.Lib.Serial
import SpectreRelay.Server.Prekeys
import SpectreRelay.Server.Reference

/-!
# One-time prekeys across crashes

The calls of the prekey store, cut where a crash makes a difference: taking the
lock, the change in memory, encrypting the image, writing the temp file byte by
byte, the rename, and the return. The lock is released by the return, so one
call at a time is between its start and its return. A crash loses the memory
and whatever call was under way; a reload reads the file. No persist call
returns an error here.

Some fields are history that the relay does not keep: the uploads so far, the
upload and position that each pool stands at, the prekeys served and the number
of crashes. No step depends on them.
-/

namespace SpectreRelay.Server.PrekeyCrash
set_option autoImplicit false
open Lib PrekeyStore

/-- A call of the store. -/
inductive Op where
  | registerBundle (userID : Bytes) (bundle : PrekeyBundle)
  | getBundleWithOTPK (userID : Bytes) (consumeOTPK : Bool)
  | consumeOneTimePrekey (userID : Bytes)

def Op.userID : Op → Bytes
  | registerBundle userID _ => userID
  | getBundleWithOTPK userID _ => userID
  | consumeOneTimePrekey userID => userID

/-- The call returns an error before it takes the lock. -/
def Op.refused : Op → Bool
  | registerBundle userID bundle => userID = [] || !(validatePrekeyBundle bundle).isOk
  | _ => false

/-- What a call returns. -/
inductive Answer where
  | registered
  | bundle (response : Option PrekeyResponse)
  | prekey (key : Option OneTimePrekey)
deriving DecidableEq

/-- The one-time prekey in an answer. -/
def Answer.key : Answer → Option OneTimePrekey
  | registered => none
  | bundle response => response.bind PrekeyResponse.oneTimePrekey
  | prekey key => key

/-- How far the call that holds the lock has come. -/
inductive Progress where
  | locked
  | changed (answer : Answer)
  /-- The temp file holds the first `done` bytes. -/
  | writing (sealed : Bytes) (done : Nat) (answer : Answer)
  | returning (answer : Answer)

inductive Phase where
  | down
  | idle
  | busy (op : Op) (progress : Progress)

/-- A bundle that `registerBundle` stored, and the number of crashes before it. -/
structure Upload where
  userID : Bytes
  bundle : PrekeyBundle
  crashes : Nat

/-- A one-time prekey that a call returned: the upload it is from, its position there, and the crashes before. -/
structure Serve where
  userID : Bytes
  key : OneTimePrekey
  upload : Nat
  taken : Taken

/-- Where a pool stands: the upload it is from and the number of prekeys gone. -/
structure Source where
  upload : Nat
  gone : Nat
deriving DecidableEq

structure State where
  ps : PrekeyStore
  phase : Phase
  uploads : List Upload
  /-- Where each pool in memory stands. -/
  memory : Bytes → Source
  /-- Where each pool on disk stands. -/
  stored : Bytes → Source
  /-- The upload and position of the last prekey taken. -/
  popped : Source
  serves : List Serve
  crashes : Nat

inductive Label where
  | enter (op : Op)
  | change
  | encrypt (nonce : Block 12)
  | write (n : Nat)
  | rename
  | ret
  | crash
  | reload (fresh : Block 32)

namespace State

/-- A store on a key and no data file. -/
def init (key : Block 32) : State where
  ps := ⟨∅, ⟨some key.bytes, none⟩, key⟩
  phase := .idle
  uploads := []
  memory := fun _ => ⟨0, 0⟩
  stored := fun _ => ⟨0, 0⟩
  popped := ⟨0, 0⟩
  serves := []
  crashes := 0

/-- Takes the head of a pool. -/
def pop (s : State) (op : Op) (b : PrekeyBundle) (rest : List OneTimePrekey) (answer : Answer) : State :=
  let source := s.memory op.userID
  { s with
    ps := { s.ps with bundles := s.ps.bundles.insert op.userID { b with oneTimePrekeys := rest } }
    phase := .busy op (.changed answer)
    memory := Function.update s.memory op.userID ⟨source.upload, source.gone + 1⟩
    popped := source }

/-- The change in memory, or the answer of a call that changes nothing. -/
def change (s : State) (op : Op) : State :=
  match op with
  | .registerBundle userID bundle =>
    { s with
      ps := { s.ps with bundles := s.ps.bundles.insert userID bundle }
      phase := .busy op (.changed .registered)
      uploads := s.uploads ++ [⟨userID, bundle, s.crashes⟩]
      memory := Function.update s.memory userID ⟨s.uploads.length, 0⟩ }
  | .getBundleWithOTPK userID consumeOTPK =>
    match s.ps.bundles[userID]? with
    | none => { s with phase := .busy op (.returning (.bundle none)) }
    | some b =>
      match consumeOTPK, b.oneTimePrekeys with
      | true, consumed :: rest => s.pop op b rest (.bundle (some { response b with oneTimePrekey := some consumed }))
      | _, _ => { s with phase := .busy op (.returning (.bundle (some (response b)))) }
  | .consumeOneTimePrekey userID =>
    match s.ps.bundles[userID]? with
    | none => { s with phase := .busy op (.returning (.prekey none)) }
    | some b =>
      match b.oneTimePrekeys with
      | [] => { s with phase := .busy op (.returning (.prekey none)) }
      | consumed :: rest => s.pop op b rest (.prekey (some consumed))

/-- The prekeys served once the call has returned its answer. -/
def served (s : State) (op : Op) (answer : Answer) : List Serve :=
  match answer.key with
  | none => s.serves
  | some key => s.serves ++ [⟨op.userID, key, s.popped.upload, ⟨s.popped.gone, s.crashes⟩⟩]

/-- One step, or none when it cannot be taken. -/
def step (A : Aead) (s : State) : Label → Option State
  | .enter op =>
    match s.phase with
    | .idle => some (if op.refused then s else { s with phase := .busy op .locked })
    | _ => none
  | .change =>
    match s.phase with
    | .busy op .locked => some (s.change op)
    | _ => none
  | .encrypt nonce =>
    match s.phase with
    | .busy op (.changed answer) =>
      some { s with phase := .busy op (.writing (A.encrypt s.ps.key nonce (encodeBundles s.ps.bundles)) 0 answer) }
    | _ => none
  | .write n =>
    match s.phase with
    | .busy op (.writing sealed done answer) =>
      some { s with phase := .busy op (.writing sealed (min (done + n) sealed.length) answer) }
    | _ => none
  | .rename =>
    match s.phase with
    | .busy op (.writing sealed done answer) =>
      if done = sealed.length then
        some { s with
          ps := { s.ps with disk := { s.ps.disk with dataFile := some (sealed.take done) } }
          phase := .busy op (.returning answer)
          stored := s.memory }
      else none
    | _ => none
  | .ret =>
    match s.phase with
    | .busy op (.returning answer) => some { s with phase := .idle, serves := s.served op answer }
    | _ => none
  | .crash =>
    match s.phase with
    | .down => none
    | _ => some { s with ps := { s.ps with bundles := ∅ }, phase := .down, crashes := s.crashes + 1 }
  | .reload fresh =>
    match s.phase with
    | .down =>
      match newPrekeyStore A s.ps.disk (.clean fresh) with
      | (_, .ok ps) => some { s with ps, phase := .idle, memory := s.stored }
      | (_, .error _) => none
    | _ => none

/-! ## What a step can do -/

/-- The steps by their effects. -/
inductive Step (A : Aead) (s : State) : Label → State → Prop where
  | refused {op : Op} (idle : s.phase = .idle) : Step A s (.enter op) s
  | enter {op : Op} (idle : s.phase = .idle) (accepted : op.refused = false) :
      Step A s (.enter op) { s with phase := .busy op .locked }
  | register {userID : Bytes} {bundle : PrekeyBundle}
      (locked : s.phase = .busy (.registerBundle userID bundle) .locked) :
      Step A s .change (s.change (.registerBundle userID bundle))
  | answer {op : Op} {answer : Answer} (locked : s.phase = .busy op .locked) (plain : answer.key = none) :
      Step A s .change { s with phase := .busy op (.returning answer) }
  | pop {op : Op} {b : PrekeyBundle} {key : OneTimePrekey} {rest : List OneTimePrekey} {answer : Answer}
      (locked : s.phase = .busy op .locked) (found : s.ps.bundles[op.userID]? = some b)
      (pool : b.oneTimePrekeys = key :: rest) (keyed : answer.key = some key) :
      Step A s .change (s.pop op b rest answer)
  | encrypt {op : Op} {answer : Answer} {nonce : Block 12} (changed : s.phase = .busy op (.changed answer)) :
      Step A s (.encrypt nonce)
        { s with phase := .busy op (.writing (A.encrypt s.ps.key nonce (encodeBundles s.ps.bundles)) 0 answer) }
  | write {op : Op} {sealed : Bytes} {done n : Nat} {answer : Answer}
      (writing : s.phase = .busy op (.writing sealed done answer)) :
      Step A s (.write n) { s with phase := .busy op (.writing sealed (min (done + n) sealed.length) answer) }
  | rename {op : Op} {sealed : Bytes} {answer : Answer}
      (written : s.phase = .busy op (.writing sealed sealed.length answer)) :
      Step A s .rename { s with
        ps := { s.ps with disk := { s.ps.disk with dataFile := some sealed } }
        phase := .busy op (.returning answer)
        stored := s.memory }
  | ret {op : Op} {answer : Answer} (returning : s.phase = .busy op (.returning answer)) :
      Step A s .ret { s with phase := .idle, serves := s.served op answer }
  | crash (running : s.phase ≠ .down) :
      Step A s .crash { s with ps := { s.ps with bundles := ∅ }, phase := .down, crashes := s.crashes + 1 }
  | reload {fresh : Block 32} {disk : Disk} {ps : PrekeyStore} (down : s.phase = .down)
      (started : newPrekeyStore A s.ps.disk (.clean fresh) = (disk, .ok ps)) :
      Step A s (.reload fresh) { s with ps, phase := .idle, memory := s.stored }

variable {A : Aead}

theorem change_cases {s : State} {op : Op} (locked : s.phase = .busy op .locked) : Step A s .change (s.change op) := by
  cases op with
  | registerBundle userID bundle => exact .register locked
  | getBundleWithOTPK userID consumeOTPK =>
    simp only [change]
    split
    · exact .answer locked rfl
    · rename_i b found
      split
      · rename_i pool
        exact .pop locked found pool rfl
      · exact .answer locked rfl
  | consumeOneTimePrekey userID =>
    simp only [change]
    split
    · exact .answer locked rfl
    · rename_i b found
      split
      · exact .answer locked rfl
      · rename_i pool
        exact .pop locked found pool rfl

/-- Every step is one of these. -/
theorem step_cases {s s' : State} {l : Label} (h : step A s l = some s') : Step A s l s' := by
  cases l with
  | enter op =>
    simp only [step] at h
    split at h
    · rename_i idle
      cases refused : op.refused with
      | true =>
        rw [refused, if_pos rfl] at h
        cases h
        exact .refused idle
      | false =>
        rw [refused, if_neg Bool.false_ne_true] at h
        cases h
        exact .enter idle refused
    · cases h
  | change =>
    simp only [step] at h
    split at h
    · rename_i locked
      cases h
      exact change_cases locked
    · cases h
  | encrypt nonce =>
    simp only [step] at h
    split at h
    · rename_i changed; cases h; exact .encrypt changed
    · cases h
  | write n =>
    simp only [step] at h
    split at h
    · rename_i writing; cases h; exact .write writing
    · cases h
  | rename =>
    simp only [step] at h
    split at h
    · rename_i op sealed done answer writing
      split at h
      · rename_i all
        cases h
        rw [all] at writing ⊢
        rw [List.take_length]
        exact .rename writing
      · cases h
    · cases h
  | ret =>
    simp only [step] at h
    split at h
    · rename_i returning; cases h; exact .ret returning
    · cases h
  | crash =>
    simp only [step] at h
    split at h
    · cases h
    · rename_i running
      cases h
      exact .crash running
  | reload fresh =>
    simp only [step] at h
    split at h
    · rename_i down
      split at h
      · rename_i started
        cases h
        exact .reload down started
      · cases h
    · cases h

/-! ## Undisturbed calls -/

/-- A call as one function of the store, with no error. -/
def perform (A : Aead) (ps : PrekeyStore) (nonce : Block 12) : Op → PrekeyStore × Answer
  | .registerBundle userID bundle => ((registerBundle A ps userID bundle (.clean nonce)).1, .registered)
  | .getBundleWithOTPK userID consumeOTPK =>
    let got := getBundleWithOTPK A ps userID consumeOTPK (.clean nonce)
    (got.1, .bundle got.2)
  | .consumeOneTimePrekey userID =>
    let got := consumeOneTimePrekey A ps userID (.clean nonce)
    (got.1, .prekey got.2)

/-- The steps from a change in memory to the return. -/
theorem persist_steps {s : State} {op : Op} {answer : Answer} (changed : s.phase = .busy op (.changed answer))
    (nonce : Block 12) :
    ∃ labels, ((run (step A) s labels).map fun s' => (s'.ps, s'.phase)) =
      some ((s.ps.persistLocked A (.clean nonce)).1, .busy op (.returning answer)) := by
  refine ⟨[.encrypt nonce, .write (A.encrypt s.ps.key nonce (encodeBundles s.ps.bundles)).length, .rename], ?_⟩
  simp only [run, step, changed, Option.bind_some, Nat.zero_add, min_self, if_pos, Option.map_some, List.take_length]
  rfl

theorem refused_register {userID : Bytes} {bundle : PrekeyBundle}
    (accepted : (Op.registerBundle userID bundle).refused = false) :
    userID ≠ [] ∧ validatePrekeyBundle bundle = .ok () := by
  simp only [Op.refused, Bool.or_eq_false_iff, decide_eq_false_iff_not, Bool.not_eq_false'] at accepted
  refine ⟨accepted.1, ?_⟩
  cases checked : validatePrekeyBundle bundle with
  | ok _ => rfl
  | error e =>
    rw [checked] at accepted
    cases accepted.2

/-- The change in memory is what the call does before it persists, if it does. -/
theorem change_perform (s : State) {op : Op} (accepted : op.refused = false) (nonce : Block 12) :
    (∃ answer, (s.change op).phase = .busy op (.changed answer) ∧
        perform A s.ps nonce op = (((s.change op).ps.persistLocked A (.clean nonce)).1, answer)) ∨
      ∃ answer, (s.change op).phase = .busy op (.returning answer) ∧ perform A s.ps nonce op = ((s.change op).ps, answer) := by
  cases op with
  | registerBundle userID bundle =>
    obtain ⟨named, valid⟩ := refused_register accepted
    refine .inl ⟨_, rfl, ?_⟩
    simp only [perform, registerBundle, named, if_false, valid]
    rfl
  | getBundleWithOTPK userID consumeOTPK =>
    cases found : s.ps.bundles[userID]? with
    | none =>
      simp only [change, perform, getBundleWithOTPK, found]
      exact .inr ⟨_, rfl, rfl⟩
    | some b =>
      simp only [change, perform, getBundleWithOTPK, found]
      cases consumeOTPK with
      | false => exact .inr ⟨_, rfl, rfl⟩
      | true =>
        cases pool : b.oneTimePrekeys with
        | nil => exact .inr ⟨_, rfl, rfl⟩
        | cons consumed rest => exact .inl ⟨_, rfl, rfl⟩
  | consumeOneTimePrekey userID =>
    cases found : s.ps.bundles[userID]? with
    | none =>
      simp only [change, perform, consumeOneTimePrekey, found]
      exact .inr ⟨_, rfl, rfl⟩
    | some b =>
      simp only [change, perform, consumeOneTimePrekey, found]
      cases pool : b.oneTimePrekeys with
      | nil => exact .inr ⟨_, rfl, rfl⟩
      | cons consumed rest => exact .inl ⟨_, rfl, rfl⟩

/-- **The steps of one call, taken with nothing in between, are the call.** -/
theorem call_steps {s : State} (idle : s.phase = .idle) {op : Op} (accepted : op.refused = false) (nonce : Block 12) :
    ∃ labels, ((run (step A) s labels).map fun s' => (s'.ps, s'.phase)) =
      some ((perform A s.ps nonce op).1, .busy op (.returning (perform A s.ps nonce op).2)) := by
  have entered : step A s (.enter op) = some { s with phase := .busy op .locked } := by
    simp [step, idle, accepted]
  have changes : step A { s with phase := .busy op .locked } .change =
      some (change { s with phase := .busy op .locked } op) := rfl
  rcases change_perform (A := A) { s with phase := .busy op .locked } accepted nonce with
    ⟨answer, changed, same⟩ | ⟨answer, returning, same⟩
  · obtain ⟨labels, persisted⟩ := persist_steps (A := A) changed nonce
    refine ⟨.enter op :: .change :: labels, ?_⟩
    rw [run, entered, Option.bind_some, run, changes, Option.bind_some, persisted]
    exact congrArg some (congrArg (fun got : PrekeyStore × Answer => (got.1, Phase.busy op (.returning got.2))) same.symm)
  · refine ⟨[.enter op, .change], ?_⟩
    rw [run, entered, Option.bind_some, run, changes, Option.bind_some, run, Option.map_some, returning]
    exact congrArg some (congrArg (fun got : PrekeyStore × Answer => (got.1, Phase.busy op (.returning got.2))) same.symm)

end State

end SpectreRelay.Server.PrekeyCrash
