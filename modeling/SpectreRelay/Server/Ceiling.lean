import SpectreRelay.Lib.Bag
import SpectreRelay.Lib.Runs

/-!
# The connection ceiling

`handleWS` of `server/server.go`, as any number of requests interleave it. A
request loads `active` and compares it with the limit, upgrades the
connection, and only then adds one to `active`; the deferred subtraction comes
after `serveConn` has ended. `active` counts the requests between the addition
and the subtraction in every run (`active_eq`), and stays within the limit as
long as requests that have passed the comparison leave room for each other.
-/

namespace SpectreRelay.Server.Ceiling
set_option autoImplicit false
open Lib

/-- `MaxClients`, which `config.Load` demands to be positive. -/
structure MaxClients where
  limit : Int64
  positive : 0 < limit

/-- Where a request is in `handleWS`. -/
inductive Phase where
  /-- Before the load of `active`. -/
  | arrived
  /-- The comparison let it pass; the upgrade is next. -/
  | passed
  /-- Upgraded, before the addition. -/
  | accepted
  /-- In `serveConn`, after the addition. -/
  | serving
  /-- `serveConn` has ended; the deferred subtraction is next. -/
  | served
deriving DecidableEq, Repr

/-- The request has added to `active` and not yet subtracted. -/
def Phase.counted : Phase → Bool
  | .serving | .served => true
  | .arrived | .passed | .accepted => false

/-- The request has passed the comparison and not yet added to `active`. -/
def Phase.coming : Phase → Bool
  | .passed | .accepted => true
  | .arrived | .serving | .served => false

/-- The counter and the requests that are in the handler, in no order. -/
structure State where
  active : Int64
  requests : List Phase

inductive Label where
  | request
  /-- The atomic load and the comparison: refused with 503, or let pass. -/
  | load (i : Nat)
  /-- `websocket.Accept`, which may fail. -/
  | accept (i : Nat) (fails : Bool)
  | add (i : Nat)
  /-- `serveConn` returns, also after a panic. -/
  | finish (i : Nat)
  | subtract (i : Nat)
deriving DecidableEq, Repr

namespace State

def init : State := ⟨0, []⟩

/-- The number of requests that have added and not yet subtracted. -/
def counted (s : State) : Nat := s.requests.countP Phase.counted

/-- The number of requests between the comparison and the addition. -/
def coming (s : State) : Nat := s.requests.countP Phase.coming

/-- One atomic step of one request. -/
def step (max : MaxClients) (s : State) : Label → Option State
  | .request => some { s with requests := .arrived :: s.requests }
  | .load i =>
    match pick s.requests i with
    | some (.arrived, rest) =>
      if max.limit ≤ s.active then some { s with requests := rest } else some { s with requests := .passed :: rest }
    | _ => none
  | .accept i fails =>
    match pick s.requests i with
    | some (.passed, rest) =>
      if fails then some { s with requests := rest } else some { s with requests := .accepted :: rest }
    | _ => none
  | .add i =>
    match pick s.requests i with
    | some (.accepted, rest) => some ⟨s.active + 1, .serving :: rest⟩
    | _ => none
  | .finish i =>
    match pick s.requests i with
    | some (.serving, rest) => some { s with requests := .served :: rest }
    | _ => none
  | .subtract i =>
    match pick s.requests i with
    | some (.served, rest) => some ⟨s.active - 1, rest⟩
    | _ => none

/-- What a step does to the counter and the two numbers. -/
inductive Counts (max : MaxClients) (s s' : State) : Label → Prop where
  | request (active : s'.active = s.active) (counted : s'.counted = s.counted) (coming : s'.coming = s.coming) :
      Counts max s s' .request
  | refused {i : Nat} (active : s'.active = s.active) (counted : s'.counted = s.counted) (coming : s'.coming = s.coming) :
      Counts max s s' (.load i)
  | passed {i : Nat} (room : ¬ max.limit ≤ s.active) (active : s'.active = s.active) (counted : s'.counted = s.counted)
      (coming : s'.coming = s.coming + 1) : Counts max s s' (.load i)
  | rejected {i : Nat} (active : s'.active = s.active) (counted : s'.counted = s.counted)
      (coming : s.coming = s'.coming + 1) : Counts max s s' (.accept i true)
  | accepted {i : Nat} (active : s'.active = s.active) (counted : s'.counted = s.counted) (coming : s'.coming = s.coming) :
      Counts max s s' (.accept i false)
  | added {i : Nat} (active : s'.active = s.active + 1) (counted : s'.counted = s.counted + 1)
      (coming : s.coming = s'.coming + 1) : Counts max s s' (.add i)
  | finished {i : Nat} (active : s'.active = s.active) (counted : s'.counted = s.counted) (coming : s'.coming = s.coming) :
      Counts max s s' (.finish i)
  | subtracted {i : Nat} (active : s'.active = s.active - 1) (counted : s.counted = s'.counted + 1)
      (coming : s'.coming = s.coming) : Counts max s s' (.subtract i)

variable {max : MaxClients} {s s' : State}

/-- The numbers of a state from which one request was picked. -/
theorem counted_pick {i : Nat} {p : Phase} {rest : List Phase} (h : pick s.requests i = some (p, rest)) :
    s.counted = rest.countP Phase.counted + (if p.counted then 1 else 0) ∧
      s.coming = rest.countP Phase.coming + (if p.coming then 1 else 0) :=
  ⟨countP_pick h _, countP_pick h _⟩

theorem counted_cons (active : Int64) (p : Phase) (rest : List Phase) :
    counted ⟨active, p :: rest⟩ = rest.countP Phase.counted + (if p.counted then 1 else 0) := List.countP_cons

theorem coming_cons (active : Int64) (p : Phase) (rest : List Phase) :
    coming ⟨active, p :: rest⟩ = rest.countP Phase.coming + (if p.coming then 1 else 0) := List.countP_cons

theorem step_counts {l : Label} (h : s.step max l = some s') : Counts max s s' l := by
  cases l with
  | request =>
    cases h
    exact .request rfl rfl rfl
  | load i =>
    simp only [step] at h
    split at h
    · rename_i rest picked
      obtain ⟨counted, coming⟩ := counted_pick picked
      split at h
      · cases h
        exact .refused rfl counted.symm coming.symm
      · rename_i room
        cases h
        exact .passed room rfl counted.symm (by rw [coming_cons, coming]; rfl)
    · cases h
  | accept i fails =>
    simp only [step] at h
    split at h
    · rename_i rest picked
      obtain ⟨counted, coming⟩ := counted_pick picked
      cases fails with
      | true =>
        cases h
        exact .rejected rfl counted.symm coming
      | false =>
        cases h
        exact .accepted rfl counted.symm (by rw [coming_cons, coming]; rfl)
    · cases h
  | add i =>
    simp only [step] at h
    split at h
    · rename_i rest picked
      obtain ⟨counted, coming⟩ := counted_pick picked
      cases h
      exact .added rfl (by rw [counted_cons, counted]; rfl) coming
    · cases h
  | finish i =>
    simp only [step] at h
    split at h
    · rename_i rest picked
      obtain ⟨counted, coming⟩ := counted_pick picked
      cases h
      exact .finished rfl (by rw [counted_cons, counted]; rfl) coming.symm
    · cases h
  | subtract i =>
    simp only [step] at h
    split at h
    · rename_i rest picked
      obtain ⟨counted, coming⟩ := counted_pick picked
      cases h
      exact .subtracted rfl counted coming.symm
    · cases h

/-- **The counter counts.** In every run `active` is the number of requests that have added and not yet subtracted, as
a 64-bit integer. -/
theorem active_eq {labels : List Label} (reached : run (step max) init labels = some s) :
    s.active = Int64.ofNat s.counted := by
  apply run_invariant (P := fun s : State => s.active = Int64.ofNat s.counted) _ rfl reached
  intro s l s' before stepped
  cases step_counts stepped with
  | request active counted _ | refused active counted _ | passed _ active counted _ | rejected active counted _
  | accepted active counted _ | finished active counted _ => rw [active, counted, before]
  | added active counted _ => rw [active, counted, before, Int64.ofNat_add]; rfl
  | subtracted active counted _ =>
    rw [active, before, counted, Int64.ofNat_add]
    exact Int64.add_sub_cancel _ _

/-- The step does not let a request pass the comparison when those that are counted and those that are coming already
fill the limit. -/
def Roomy (max : MaxClients) (s : State) : Label → Prop
  | .load _ => s.active < max.limit → (s.counted + s.coming : Int) < max.limit.toInt
  | _ => True

instance (max : MaxClients) (s : State) (l : Label) : Decidable (Roomy max s l) :=
  match l with
  | .load _ => inferInstanceAs (Decidable (s.active < max.limit → (s.counted + s.coming : Int) < max.limit.toInt))
  | .request | .accept _ _ | .add _ | .finish _ | .subtract _ => .isTrue trivial

/-- Under the condition, the requests that are counted or coming fit. -/
theorem fits_step {l : Label} (fits : (s.counted + s.coming : Int) ≤ max.limit.toInt) (roomy : Roomy max s l)
    (stepped : s.step max l = some s') : (s'.counted + s'.coming : Int) ≤ max.limit.toInt := by
  cases step_counts stepped with
  | request _ counted coming | refused _ counted coming | accepted _ counted coming | finished _ counted coming
  | rejected _ counted coming | added _ counted coming | subtracted _ counted coming => omega
  | passed room _ counted coming =>
    have more := roomy (Int64.not_le.1 room)
    omega

/-- **The ceiling.** In every run in which requests leave room for each other, `active` is the number of requests that
have added and not yet subtracted, and at most `MaxClients`. -/
theorem active_within_limit (max : MaxClients) (labels : List Label) (s : State)
    (roomy : Always (step max) (Roomy max) init labels) (reached : run (step max) init labels = some s) :
    s.active.toInt = s.counted ∧ s.active ≤ max.limit := by
  have start : ((init.counted + init.coming : Nat) : Int) ≤ max.limit.toInt :=
    Int.le_of_lt (Int64.lt_iff_toInt_lt.1 max.positive)
  have fits : (s.counted + s.coming : Int) ≤ max.limit.toInt :=
    run_invariant_under (P := fun s : State => (s.counted + s.coming : Int) ≤ max.limit.toInt)
      (fun _ _ _ before met stepped => fits_step before met stepped) start roomy reached
  have below := max.limit.toInt_lt
  have same : s.active.toInt = s.counted := by
    rw [active_eq reached]
    exact Int64.toInt_ofNat_of_lt (by omega)
  refine ⟨same, ?_⟩
  rw [Int64.le_iff_toInt_le, same]
  omega

namespace Scene

/-- A limit of one. -/
def one : MaxClients := ⟨1, by decide⟩

/-- One request is served while another is refused, and a third takes its place. -/
def oneByOne : List Label :=
  [.request, .request, .load 0, .accept 0 false, .add 0, .load 1, .finish 0, .subtract 0, .request, .load 0,
    .accept 0 false, .add 0]

/-- Two requests load the counter before either adds to it. -/
def bothLoad : List Label :=
  [.request, .request, .load 0, .load 1, .accept 0 false, .accept 1 false, .add 0, .add 1]

end Scene

theorem active_within_limit_oneByOne :
    Always (step Scene.one) (Roomy Scene.one) init Scene.oneByOne ∧
      ∃ s, run (step Scene.one) init Scene.oneByOne = some s ∧ s.requests = [.serving] ∧
        s.active.toInt = s.counted ∧ s.active ≤ Scene.one.limit := by
  have roomy : Always (step Scene.one) (Roomy Scene.one) init Scene.oneByOne := by decide
  have result : (run (step Scene.one) init Scene.oneByOne).map requests = some [.serving] := by decide
  obtain ⟨s, reached, served⟩ := Option.map_eq_some_iff.1 result
  exact ⟨roomy, s, reached, served, active_within_limit Scene.one _ s roomy reached⟩

/-- With a limit of one, two requests that both load 0 are both served, and `active` is 2. -/
theorem ceiling_exceeded :
    (run (step Scene.one) init Scene.bothLoad).map (fun s => (s.active, s.requests)) = some (2, [.serving, .serving]) ∧
      ¬ (2 : Int64) ≤ Scene.one.limit := by
  decide

end State

end SpectreRelay.Server.Ceiling
