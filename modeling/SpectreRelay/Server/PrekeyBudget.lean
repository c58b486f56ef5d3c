import Mathlib.Algebra.Order.Ring.Nat
import SpectreRelay.Lib.Runs
import SpectreRelay.Server.Reference
import SpectreRelay.Server.Server

/-!
# The budget of one-time prekeys

The prekey endpoint is open to everyone and keyed by the id that is asked for.
The limiter and the store use the same id, so over any sequence of requests and
registrations no more than the budget leaves a user's pool in any minute, and a
request over the budget or for another user leaves the bundle as it was
(`prekey_drain_bounded`). Whether the persist after a pop succeeds does not
matter here.

The record of requests is history that the relay does not keep.
-/

namespace SpectreRelay.Server.PrekeyBudget
set_option autoImplicit false
open Lib

/-- A request: when it came, the id it asked for, whether it was within the budget, and the bundles around it. -/
structure Fetch where
  now : Time
  target : Option Bytes
  admitted : Bool
  before : Map PrekeyBundle
  after : Map PrekeyBundle

/-- The number of one-time prekeys of a user. -/
def poolSize (m : Map PrekeyBundle) (u : Bytes) : Nat := ((m[u]?).map fun b => b.oneTimePrekeys.length).getD 0

namespace Fetch

/-- The number of one-time prekeys that left the user's pool. -/
def drained (u : Bytes) (f : Fetch) : Nat := poolSize f.before u - poolSize f.after u

/-- The request was for this user, and within the budget. -/
def admits (u : Bytes) (f : Fetch) : Bool := f.target = some u && f.admitted

/-- The request came in the minute up to `t`. -/
def during (t : Int) (f : Fetch) : Bool := t - minute < f.now.ns ∧ (f.now.ns : Int) ≤ t

end Fetch

structure State where
  server : Server
  clock : Time
  fetches : List Fetch

inductive Label where
  | get (method : Server.Method) (path : Bytes) (now : Time) (io : PersistIo)
  | register (userID : Bytes) (bundle : PrekeyBundle) (io : PersistIo)

/-- The id that a request is for. -/
def asked (method : Server.Method) (path : Bytes) : Option Bytes :=
  if method ≠ .get then none else Server.prekeyTarget path

namespace State

variable (P : Platform)

/-- A relay whose limiter has seen nothing yet. -/
def init (server : Server) (clock : Time) : State where
  server := { server with prekeyLimiter := .new prekeyFetchesPerMinPerTarget }
  clock
  fetches := []

/-- One step; the clock does not go back. -/
def step (s : State) : Label → Option State
  | .get method path now io =>
    if s.clock ≤ now then
      let server := (s.server.handlePrekeysGet P method path now io).1
      let target := asked method path
      let admitted := match target with
        | none => false
        | some userID => (s.server.prekeyLimiter.allow userID now).2
      some {
        server
        clock := now
        fetches := s.fetches ++ [⟨now, target, admitted, s.server.prekeys.bundles, server.prekeys.bundles⟩] }
    else none
  | .register userID bundle io =>
    some { s with server := { s.server with prekeys := (s.server.prekeys.registerBundle P.aead userID bundle io).1 } }

end State

/-! ## What a request does to the bundles -/

variable {P : Platform}

/-- Serving a bundle takes at most one prekey, from that user's pool, and none when it may not. -/
theorem getBundleWithOTPK_bundles (A : Aead) (ps : PrekeyStore) (userID : Bytes) (consume : Bool) (io : PersistIo)
    (u : Bytes) :
    (ps.getBundleWithOTPK A userID consume io).1.bundles[u]? = ps.bundles[u]? ∨
      (userID = u ∧ consume = true ∧
        poolSize ps.bundles u ≤ poolSize (ps.getBundleWithOTPK A userID consume io).1.bundles u + 1) := by
  unfold PrekeyStore.getBundleWithOTPK
  split
  · exact .inl rfl
  · rename_i b found
    split
    · rename_i consumed rest pool
      by_cases same : userID = u
      · subst same
        refine .inr ⟨rfl, rfl, ?_⟩
        simp only [poolSize, found, PrekeyStore.persistLocked, Map.get_insert_self, Option.map_some, Option.getD_some, pool,
          List.length_cons]
        exact Nat.le_refl _
      · exact .inl (Map.get_insert_other _ _ (Ne.symm same))
    · exact .inl rfl

/-- A request without a target changes nothing. -/
theorem handlePrekeysGet_none {s : Server} {method : Server.Method} {path : Bytes} (missing : asked method path = none)
    (now : Time) (io : PersistIo) : (s.handlePrekeysGet P method path now io).1 = s := by
  unfold asked at missing
  simp only [Server.handlePrekeysGet]
  split
  · rfl
  · rename_i get
    rw [if_neg get] at missing
    rw [missing]

/-- A request with a target counts against the target and serves its bundle. -/
theorem handlePrekeysGet_some {s : Server} {method : Server.Method} {path userID : Bytes}
    (target : asked method path = some userID) (now : Time) (io : PersistIo) :
    (s.handlePrekeysGet P method path now io).1 = { s with
      prekeyLimiter := (s.prekeyLimiter.allow userID now).1
      prekeys := (s.prekeys.getBundleWithOTPK P.aead userID (s.prekeyLimiter.allow userID now).2 io).1 } := by
  unfold asked at target
  simp only [Server.handlePrekeysGet]
  split
  · rename_i other
    rw [if_pos other] at target
    cases target
  · rename_i get
    rw [if_neg get] at target
    rw [target]

/-! ## The budget over a run -/

/-- The times of the requests for a user that were within the budget. -/
def history (fetches : List Fetch) (u : Bytes) : List Int :=
  (fetches.filter fun f => f.admits u).map fun f => (f.now.ns : Int)

theorem history_append (fetches : List Fetch) (f : Fetch) (u : Bytes) :
    history (fetches ++ [f]) u = extend (history fetches u) (f.now.ns : Int) (f.admits u) := by
  unfold history extend
  rw [List.filter_append, List.map_append]
  cases admitted : f.admits u with
  | true => simp [admitted]
  | false => simp [admitted]

structure Inv (s : State) : Prop where
  limit : s.server.prekeyLimiter.perMin = prekeyFetchesPerMinPerTarget
  windows : ∀ u, WindowInv prekeyFetchesPerMinPerTarget minute (s.clock.ns : Int) (s.server.prekeyLimiter.attempts u)
    (history s.fetches u)
  fetches : ∀ f ∈ s.fetches, ∀ u, f.after[u]? = f.before[u]? ∨
    (f.admits u = true ∧ poolSize f.before u ≤ poolSize f.after u + 1)

namespace Inv

variable {s s' : State}

theorem init (server : Server) (clock : Time) : Inv (State.init server clock) where
  limit := rfl
  windows _ := WindowInv.init _ _ _
  fetches := nofun

/-- One request. -/
theorem get (h : Inv s) {method : Server.Method} {path : Bytes} {now : Time} {io : PersistIo} (later : s.clock ≤ now)
    (stepped : State.step P s (.get method path now io) = some s') : Inv s' := by
  simp only [State.step, later, if_true] at stepped
  have forward : (s.clock.ns : Int) ≤ now.ns := Int.ofNat_le.2 later
  cases target : asked method path with
  | none =>
    simp only [target, handlePrekeysGet_none target] at stepped
    cases stepped
    refine ⟨h.limit, fun u => ?_, fun f inside u => ?_⟩
    · rw [history_append]
      exact (h.windows u).later forward
    · rcases List.mem_append.1 inside with old | new
      · exact h.fetches f old u
      · rw [List.mem_singleton.1 new]
        exact .inl rfl
  | some userID =>
    simp only [target, handlePrekeysGet_some target] at stepped
    cases stepped
    refine ⟨h.limit, fun u => ?_, fun f inside u => ?_⟩
    · rw [history_append]
      simp only [Fetch.admits, Option.some.injEq, RateLimiter.allow, h.limit]
      exact allowAt_window (h.windows u) forward
    · rcases List.mem_append.1 inside with old | new
      · exact h.fetches f old u
      · rw [List.mem_singleton.1 new]
        rcases getBundleWithOTPK_bundles P.aead s.server.prekeys userID (s.server.prekeyLimiter.allow userID now).2 io u with
          same | ⟨rfl, consumed, fewer⟩
        · exact .inl same
        · exact .inr ⟨by simp [Fetch.admits, consumed], fewer⟩

theorem step (h : Inv s) {l : Label} (stepped : State.step P s l = some s') : Inv s' := by
  cases l with
  | get method path now io =>
    by_cases later : s.clock ≤ now
    · exact h.get later stepped
    · simp only [State.step, later, if_false] at stepped
      cases stepped
  | register userID bundle io =>
    cases stepped
    exact ⟨h.limit, h.windows, h.fetches⟩

/-- A request takes at most one prekey, and none unless it was for the user and within the budget. -/
theorem drained_le (h : Inv s) {f : Fetch} (inside : f ∈ s.fetches) (u : Bytes) :
    f.drained u ≤ if f.admits u then 1 else 0 := by
  unfold Fetch.drained
  rcases h.fetches f inside u with same | ⟨admitted, fewer⟩
  · have equal : poolSize f.after u = poolSize f.before u := by unfold poolSize; rw [same]
    rw [equal, Nat.sub_self]
    exact Nat.zero_le _
  · rw [if_pos admitted]
    omega

end Inv

/-- A sum of steps of one counts the places where they are made. -/
theorem sum_le_length (fetches : List Fetch) (size : Fetch → Nat) (p : Fetch → Bool)
    (small : ∀ f ∈ fetches, size f ≤ if p f then 1 else 0) : (fetches.map size).sum ≤ (fetches.filter p).length := by
  induction fetches with
  | nil => exact Nat.le_refl _
  | cons f fetches ih =>
    have first := small f List.mem_cons_self
    have rest := ih fun f' inside => small f' (List.mem_cons_of_mem _ inside)
    cases counted : p f with
    | true =>
      simp only [counted, if_true] at first
      simp only [List.map_cons, List.sum_cons, List.filter_cons, counted, if_true, List.length_cons]
      omega
    | false =>
      simp only [counted, Bool.false_eq_true, if_false] at first
      simp only [List.map_cons, List.sum_cons, List.filter_cons, counted, Bool.false_eq_true, if_false]
      omega

/-- **Bounded drain.** Over any requests and registrations, at most ten one-time prekeys leave a user's pool through
the endpoint in any minute, and a request over the budget or for another id leaves the user's bundle unchanged. -/
theorem prekey_drain_bounded (P : Platform) (server : Server) (clock : Time) (labels : List Label) (s : State)
    (reached : run (State.step P) (State.init server clock) labels = some s) (u : Bytes) :
    (∀ t : Int, ((s.fetches.filter fun f => f.during t).map fun f => f.drained u).sum ≤ 10) ∧
      ∀ f ∈ s.fetches, f.target ≠ some u ∨ f.admitted = false → f.after[u]? = f.before[u]? := by
  have inv : Inv s := run_invariant (fun _ _ _ before stepped => before.step stepped) (.init server clock) reached
  constructor
  · intro t
    have counted := sum_le_length (s.fetches.filter fun f => f.during t) (fun f => f.drained u) (fun f => f.admits u)
      fun f inside => inv.drained_le (List.mem_filter.1 inside).1 u
    have bound := (inv.windows u).bound t
    have same : ((history s.fetches u).filter fun time => t - minute < time ∧ time ≤ t).length =
        ((s.fetches.filter fun f => f.during t).filter fun f => f.admits u).length := by
      simp only [history, List.filter_map, List.length_map, List.filter_filter]
      congr 1
      apply List.filter_congr
      intro f _
      simp only [Function.comp_apply, Fetch.during, Bool.and_comm]
    rw [same] at bound
    have limit : max prekeyFetchesPerMinPerTarget 0 = 10 := rfl
    rw [limit] at bound
    omega
  · intro f inside spared
    rcases inv.fetches f inside u with same | ⟨admitted, _⟩
    · exact same
    · simp only [Fetch.admits, Bool.and_eq_true, decide_eq_true_eq] at admitted
      rcases spared with other | spent
      · exact absurd admitted.1 other
      · rw [spent] at admitted
        cases admitted.2

/-- bob registers three prekeys and two requests ask for them. -/
def twoFetches : List Label :=
  [.register (ascii "bob") Reference.bundle (.clean (.zeros 12)),
    .get .get (ascii "/prekeys/bob") Reference.start (.clean (.zeros 12)),
    .get .get (ascii "/prekeys/bob") Reference.start (.clean (.zeros 12))]

theorem prekey_drain_bounded_bob :
    ∃ server s, (Server.new Reference.platform Reference.cfg .empty Reference.startIo).2.toOption = some server ∧
      run (State.step Reference.platform) (State.init server Reference.start) twoFetches = some s ∧
      (s.fetches.map fun f => f.drained (ascii "bob")) = [1, 1] ∧
      ((s.fetches.filter fun f => f.during Reference.start.ns).map fun f => f.drained (ascii "bob")).sum ≤ 10 := by
  have result : ((Server.new Reference.platform Reference.cfg .empty Reference.startIo).2.toOption.bind fun server =>
      (run (State.step Reference.platform) (State.init server Reference.start) twoFetches).map fun s =>
        s.fetches.map fun f => f.drained (ascii "bob")) = some [1, 1] := by decide +kernel
  obtain ⟨server, started, rest⟩ := Option.bind_eq_some_iff.1 result
  obtain ⟨s, reached, taken⟩ := Option.map_eq_some_iff.1 rest
  exact ⟨server, s, started, reached, taken,
    (prekey_drain_bounded Reference.platform server Reference.start twoFetches s reached (ascii "bob")).1 _⟩

end SpectreRelay.Server.PrekeyBudget
