import SpectreRelay.Lib.Runs
import SpectreRelay.Server.Router

/-!
# What the limiters admit

The relay has three limiters with one loop between them. `Exact` says what that
loop computes over a whole sequence of calls: it counts the admitted calls of
the last minute, although it remembers only a pruned list. It is proved once,
for `allowAt`, and each limiter is a state from which `allowAt` can be read.
-/

namespace SpectreRelay.Server.SlidingWindow
set_option autoImplicit false
open Lib

/-- A call of a limiter: the key, and the clock's reading. -/
abbrev Call := Bytes × Time

/-- The clock does not go back from call to call. -/
def Ordered (calls : List Call) : Prop := calls.Pairwise fun a b => a.2 ≤ b.2

/-- The times of the admitted calls for `key`. -/
def admittedTimes (key : Bytes) (answered : List (Call × Bool)) : List Int :=
  (answered.filter fun a => decide (a.1.1 = key) && a.2).map fun a => (a.1.2.ns : Int)

/-- How many of the times lie in the minute that ends at `t`. -/
def inMinute (t : Int) (times : List Int) : Int := (times.filter fun s => t - minute < s ∧ s ≤ t).length

/-- What a limiter does over whole sequences of calls: `stored` reads the list it keeps per key. -/
structure Exact {σ : Type} (limit : Int) (allow : σ → Call → σ × Bool) (init : σ) (stored : σ → Attempts) : Prop where
  /-- A call is admitted exactly when fewer than `limit` admitted calls for its key are in its minute. -/
  admits : ∀ before key now, Ordered (before ++ [(key, now)]) →
    ((allow (final allow init before) (key, now)).2 = true ↔
      inMinute now.ns (admittedTimes key (transcript allow init before)) < limit)
  /-- No minute holds more than `limit` admitted calls for a key. -/
  bound : ∀ calls key t, Ordered calls → inMinute t (admittedTimes key (transcript allow init calls)) ≤ max limit 0
  /-- Without a refused call, all later calls are answered as with it. -/
  undelayed : ∀ before call after, Ordered (before ++ call :: after) →
    (allow (final allow init before) call).2 = false →
    transcript allow init (before ++ after) =
      (transcript allow init (before ++ call :: after)).eraseIdx before.length
  /-- The calls for `key` are answered as if there were no others. -/
  apart : ∀ calls key, (transcript allow init calls).filter (fun a => a.1.1 = key) =
    transcript allow init (calls.filter fun c => c.1 = key)
  /-- The stored lists stay short, whatever the clock does. -/
  short : 0 ≤ limit → ∀ calls key, ((stored (final allow init calls) key).length : Int) ≤ limit

theorem Ordered.snoc {calls : List Call} {call : Call} (h : Ordered (calls ++ [call])) :
    Ordered calls ∧ ∀ c ∈ calls, (c.2.ns : Int) ≤ call.2.ns := by
  obtain ⟨earlier, -, before⟩ := List.pairwise_append.1 h
  exact ⟨earlier, fun c inside => Int.ofNat_le.2 (before c inside call List.mem_cons_self)⟩

theorem Ordered.tail {calls : List Call} {call : Call} (h : Ordered (call :: calls)) :
    Ordered calls ∧ ∀ c ∈ calls, (call.2.ns : Int) ≤ c.2.ns := by
  obtain ⟨first, rest⟩ := List.pairwise_cons.1 h
  exact ⟨rest, fun c inside => Int.ofNat_le.2 (first c inside)⟩

/-! ## One loop -/

section AllowAt

variable (limit : Int)

/-- The loop that the limiters share, as a machine. -/
def countCalls (attempts : Attempts) (call : Call) : Attempts × Bool := allowAt limit attempts call.1 call.2

theorem admittedTimes_append (key : Bytes) (answered : List (Call × Bool)) (call : Call) (answer : Bool) :
    admittedTimes key (answered ++ [(call, answer)]) =
      extend (admittedTimes key answered) (call.2.ns : Int) (decide (call.1 = key) && answer) := by
  simp only [admittedTimes, List.filter_append, List.map_append, extend]
  cases mine : (decide (call.1 = key) && answer)
  · simp [mine]
  · simp [mine]

/-- After any calls up to `last`, the stored list of each key stands for all its admitted calls. -/
theorem countCalls_window (calls : List Call) (ordered : Ordered calls) (key : Bytes) (last : Int)
    (past : ∀ c ∈ calls, (c.2.ns : Int) ≤ last) :
    WindowInv limit minute last (final (countCalls limit) (fun _ => []) calls key)
      (admittedTimes key (transcript (countCalls limit) (fun _ => []) calls)) := by
  -- from the end: the last call is made at a clock that no earlier call is after
  induction calls using List.reverseRecOn generalizing last with
  | nil => exact WindowInv.init limit minute last
  | append_singleton before call ih =>
    obtain ⟨earlier, before_call⟩ := ordered.snoc
    have reached := ih earlier call.2.ns before_call
    rw [final_append, transcript_append]
    show WindowInv limit minute last ((allowAt limit _ call.1 call.2).1 key) (admittedTimes key (_ ++ [(call, _)]))
    rw [admittedTimes_append]
    exact (allowAt_window reached (Int.le_refl _)).later (past call (by simp))

/-- Limiters that store the same of every window from `last` on. -/
def Alike (last : Int) (a b : Attempts) : Prop :=
  ∀ key now, last ≤ now → recent minute now (a key) = recent minute now (b key)

theorem Alike.countCalls {last : Int} {a b : Attempts} (h : Alike last a b) {call : Call} (later : last ≤ call.2.ns) :
    (countCalls limit a call).2 = (countCalls limit b call).2 ∧
      Alike call.2.ns (countCalls limit a call).1 (countCalls limit b call).1 := by
  have same : allowIn limit minute (call.2.ns : Int) (a call.1) = allowIn limit minute (call.2.ns : Int) (b call.1) :=
    allowIn_congr (h call.1 _ later)
  constructor
  · simp only [SlidingWindow.countCalls, allowAt, same]
  · intro key now after
    simp only [SlidingWindow.countCalls]
    by_cases mine : key = call.1
    · rw [mine, allowAt_self, allowAt_self, same]
    · rw [allowAt_other _ _ _ mine, allowAt_other _ _ _ mine]
      exact h key now (later.trans after)

theorem Alike.transcript {last : Int} {a b : Attempts} (h : Alike last a b) {calls : List Call} (ordered : Ordered calls)
    (later : ∀ c ∈ calls, last ≤ c.2.ns) :
    Lib.transcript (SlidingWindow.countCalls limit) a calls = Lib.transcript (SlidingWindow.countCalls limit) b calls := by
  induction calls generalizing last a b with
  | nil => rfl
  | cons call calls ih =>
    obtain ⟨rest, first⟩ := ordered.tail
    obtain ⟨answer, next⟩ := h.countCalls limit (later call List.mem_cons_self)
    have tail := ih next rest first
    simp only [Lib.transcript, answer, tail]

/-- A refused call changes nothing for the calls after it. -/
theorem alike_of_refused {attempts : Attempts} {call : Call} (refused : (countCalls limit attempts call).2 = false) :
    Alike call.2.ns (countCalls limit attempts call).1 attempts := by
  intro key now after
  simp only [countCalls]
  by_cases mine : key = call.1
  · rw [mine, allowAt_self, allowIn_refused refused, recent_recent after]
  · rw [allowAt_other _ _ _ mine]

/-- The answers for a key depend on its own list and its own calls. -/
theorem countCalls_apart (calls : List Call) (key : Bytes) (a b : Attempts) (same : a key = b key) :
    (transcript (countCalls limit) a calls).filter (fun t => t.1.1 = key) =
      transcript (countCalls limit) b (calls.filter fun c => c.1 = key) := by
  induction calls generalizing a b with
  | nil => rfl
  | cons call calls ih =>
    by_cases mine : call.1 = key
    · have answer : (countCalls limit a call).2 = (countCalls limit b call).2 := by
        simp only [countCalls, allowAt, mine, same]
      have next : (countCalls limit a call).1 key = (countCalls limit b call).1 key := by
        simp only [countCalls, ← mine, allowAt_self]
        rw [mine, same]
      simp only [transcript, List.filter_cons, mine, decide_true, if_true, answer, ih _ _ next]
    · have next : (countCalls limit a call).1 key = b key := by
        rw [← same]
        exact allowAt_other _ _ _ (Ne.symm mine)
      simp only [transcript, List.filter_cons, mine, decide_false, Bool.false_eq_true, if_false, ih _ _ next]

theorem countCalls_short (calls : List Call) (attempts : Attempts) (key : Bytes)
    (short : ((attempts key).length : Int) ≤ limit) :
    ((final (countCalls limit) attempts calls key).length : Int) ≤ limit := by
  induction calls generalizing attempts with
  | nil => exact short
  | cons call calls ih =>
    apply ih
    by_cases mine : key = call.1
    · subst mine
      simp only [countCalls, allowAt_self]
      exact allowIn_length short
    · simp only [countCalls, allowAt_other _ _ _ mine]
      exact short

/-- The shared loop counts the last minute. -/
theorem countCalls_exact : Exact limit (countCalls limit) (fun _ => []) id where
  admits before key now ordered := by
    obtain ⟨earlier, before_call⟩ := ordered.snoc
    have window := countCalls_window limit before earlier key now.ns before_call
    exact window.allowIn_iff (Int.le_refl _)
  bound calls key t ordered := by
    obtain ⟨last, past⟩ : ∃ last : Int, ∀ c ∈ calls, (c.2.ns : Int) ≤ last :=
      ⟨2 ^ 62 * 10 ^ 6, fun c _ => by have := c.2.era; omega⟩
    exact (countCalls_window limit calls ordered key last past).bound t
  undelayed before call after ordered refused := by
    obtain ⟨-, rest, -⟩ := List.pairwise_append.1 ordered
    obtain ⟨rest, first⟩ := Ordered.tail rest
    have same := (alike_of_refused limit refused).transcript limit rest first
    have length : (transcript (countCalls limit) (fun _ => []) before).length = before.length := transcript_length _ _ _
    rw [transcript_append, transcript_append, ← length, List.eraseIdx_append_of_length_le (Nat.le_refl _), Nat.sub_self,
      transcript, List.eraseIdx_cons_zero, same]
  apart calls key := countCalls_apart limit calls key _ _ rfl
  short notNegative calls key := countCalls_short limit calls _ key notNegative

end AllowAt

/-! ## Three limiters -/

/-- A limiter from whose good states `allowAt` can be read counts as `allowAt` does. -/
theorem Exact.of_projected {σ : Type} {limit : Int} {allow : σ → Call → σ × Bool} {init : σ} {stored : σ → Attempts}
    (Good : σ → Prop) (step : ∀ s c, Good s → Good (allow s c).1 ∧ stored (allow s c).1 = (countCalls limit (stored s) c).1 ∧
      (allow s c).2 = (countCalls limit (stored s) c).2)
    (good : Good init) (empty : stored init = fun _ => []) : Exact limit allow init stored := by
  have runs (calls : List Call) := final_projected step calls init good
  have answer (calls : List Call) (c : Call) : (allow (final allow init calls) c).2 =
      (countCalls limit (final (countCalls limit) (fun _ => []) calls) c).2 := by
    obtain ⟨reached, seen, -⟩ := runs calls
    rw [(step _ c reached).2.2, seen, empty]
  have same (calls : List Call) : transcript allow init calls = transcript (countCalls limit) (fun _ => []) calls := by
    rw [(runs calls).2.2, empty]
  have loop := countCalls_exact limit
  refine ⟨?_, ?_, ?_, ?_, ?_⟩
  · intro before key now ordered
    rw [answer, same]
    exact loop.admits before key now ordered
  · intro calls key t ordered
    rw [same]
    exact loop.bound calls key t ordered
  · intro before call after ordered refused
    rw [answer] at refused
    rw [same, same]
    exact loop.undelayed before call after ordered refused
  · intro calls key
    rw [same, same]
    exact loop.apart calls key
  · intro notNegative calls key
    rw [(runs calls).2.1, empty]
    exact loop.short notNegative calls key

/-- **The limiters count the last minute.** The certificate and prekey limiter with any limit, the router's with any
limit, and the handshake's with five. -/
theorem limiters_exact (perMin maxMessageSize ratePerMin : Int) (relayID : Bytes) :
    Exact perMin (fun l c => RateLimiter.allow l c.1 c.2) (.new perMin) RateLimiter.attempts ∧
      Exact ratePerMin (fun r c => Router.allow r c.1 c.2) (.new maxMessageSize ratePerMin relayID) Router.rateAttempts ∧
      Exact 5 (fun attempts c => authAllow attempts c.1 c.2) (fun _ => []) id := by
  refine ⟨?_, ?_, ?_⟩
  · apply Exact.of_projected (fun l => l.perMin = perMin) _ rfl rfl
    intro l c good
    subst good
    exact ⟨rfl, rfl, rfl⟩
  · apply Exact.of_projected (fun r => r.ratePerMin = ratePerMin) _ rfl rfl
    intro r c good
    subst good
    exact ⟨rfl, rfl, rfl⟩
  · exact countCalls_exact 5

end SpectreRelay.Server.SlidingWindow
