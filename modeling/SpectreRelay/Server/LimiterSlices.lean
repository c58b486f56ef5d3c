import SpectreRelay.Lib.Bag
import SpectreRelay.Lib.Skew
import SpectreRelay.Lib.Slices
import SpectreRelay.Server.Reference
import SpectreRelay.Server.SlidingWindow

/-!
# The limiters in memory

The three `allow` functions keep, per key, a slice of times, and prune it into
its own array (`kept := xs[:0]`) before they append to it. `Memory` has the
arrays and the slices as the code does; no two keys share an array (`Separate`),
so the calls answer as the lists of `allowAt` do (`limiters_in_memory`).

A call reads the clock before it takes the limiter's lock. Calls that wait for
the lock are counted in another order than that of their readings, and a minute
can hold more than the limit (`crowded`). The machine of `Race` takes readings
and critical sections in any order; a window that is shorter by the longest wait
holds no more (`race_bounded`).
-/

namespace SpectreRelay.Server.LimiterSlices
set_option autoImplicit false
open Lib SlidingWindow

/-- The arrays of a limiter, and the slice of each key; a key that the map does not have reads as the nil slice. -/
structure Memory where
  heap : Heap Int
  attempts : Bytes → Slice

namespace Memory

def empty : Memory := ⟨[], fun _ => .nil⟩

/-- The statement that all branches end in: `attempts[key] = s`. -/
def assign (m : Memory) (key : Bytes) (result : Heap Int × Slice) : Memory :=
  ⟨result.1, Function.update m.attempts key result.2⟩

/-- The body of the three `allow` functions. A new array has room for `spare` times more. -/
def allow (limit : Int) (m : Memory) (key : Bytes) (now : Time) (spare : Nat) : Memory × Bool :=
  let cutoff := (now.ns : Int) - minute
  let kept := (m.attempts key).filterInPlace 0 spare (fun t => decide (cutoff < t)) m.heap
  if limit ≤ kept.2.len then (m.assign key kept, false)
  else (m.assign key (kept.2.append 0 spare kept.1 now.ns), true)

/-- `authLimiter.allow`. -/
def authLimiterAllow (m : Memory) (ip : Bytes) (now : Time) (spare : Nat) : Memory × Bool := m.allow 5 ip now spare

/-- `rateLimiter.allow` of a limiter made for `perMin`. -/
def rateLimiterAllow (perMin : Int) (m : Memory) (key : Bytes) (now : Time) (spare : Nat) : Memory × Bool :=
  m.allow perMin key now spare

/-- `Router.allow` of a router made for `ratePerMin`. -/
def routerAllow (ratePerMin : Int) (m : Memory) (userID : Bytes) (now : Time) (spare : Nat) : Memory × Bool :=
  m.allow ratePerMin userID now spare

/-- The times that each slice holds. -/
def stored (m : Memory) : Attempts := fun key => (m.attempts key).contents m.heap

/-- Every slice is within an array, and no two keys have the same. -/
structure Separate (m : Memory) : Prop where
  fits : ∀ key, (m.attempts key).Fits m.heap
  apart : ∀ key key' a, (m.attempts key).array = some a → (m.attempts key').array = some a → key = key'

theorem separate_empty : Separate empty where
  fits _ := Slice.nil_fits _
  apart _ _ _ here := by cases here

section Assign

variable {m : Memory} {key : Bytes} {result : Heap Int × Slice}

/-- Writing the key's own array, or a new one, leaves the other keys alone. -/
theorem Separate.other (h : Separate m) (untouched : Slice.Untouched (m.attempts key).array m.heap result.1)
    {other : Bytes} (differ : other ≠ key) :
    (m.attempts other).backing result.1 = (m.attempts other).backing m.heap := by
  apply untouched.backing (h.fits other)
  cases array : (m.attempts other).array with
  | none => exact .inr rfl
  | some a => exact .inl fun same => differ (h.apart other key a array same.symm)

theorem Separate.assign (h : Separate m) (untouched : Slice.Untouched (m.attempts key).array m.heap result.1)
    (fits : result.2.Fits result.1)
    (array : result.2.array = (m.attempts key).array ∨ ∃ a, result.2.array = some a ∧ m.heap.length ≤ a) :
    Separate (m.assign key result) where
  fits other := by
    by_cases mine : other = key
    · subst mine
      simpa only [Memory.assign, Function.update_self] using fits
    · simp only [Memory.assign, Function.update_of_ne mine]
      constructor
      · intro a here
        exact Nat.lt_of_lt_of_le ((h.fits other).allocated a here) untouched.grown
      · rw [h.other untouched mine]
        exact (h.fits other).room
  apart := by
    -- an array of another key is old, and not the one that the key had
    have mine {other : Bytes} {a : Nat} (differ : other ≠ key) (here : (m.attempts other).array = some a) :
        result.2.array ≠ some a := by
      intro same
      rcases array with kept | ⟨b, fresh, above⟩
      · exact differ (h.apart other key a here (kept.symm.trans same))
      · have old := (h.fits other).allocated a here
        cases fresh.symm.trans same
        omega
    intro k k' a first second
    simp only [Memory.assign, Function.update_apply] at first second
    split at first
    · split at second
      · rename_i left right
        exact left.trans right.symm
      · rename_i differ
        exact absurd first (mine differ second)
    · rename_i differ
      split at second
      · exact absurd second (mine differ first)
      · exact h.apart k k' a first second

theorem Separate.stored_assign (h : Separate m) (untouched : Slice.Untouched (m.attempts key).array m.heap result.1) :
    (m.assign key result).stored = Function.update m.stored key (result.2.contents result.1) := by
  funext other
  by_cases mine : other = key
  · subst mine
    simp only [stored, Memory.assign, Function.update_self]
  · simp only [stored, Memory.assign, Function.update_of_ne mine, Slice.contents, h.other untouched mine]

end Assign

/-- **One call.** The slices stay apart and hold what the lists of `allowAt` hold, and the answers agree. -/
theorem Separate.allow {m : Memory} (h : Separate m) (limit : Int) (key : Bytes) (now : Time) (spare : Nat) :
    Separate (m.allow limit key now spare).1 ∧
      (m.allow limit key now spare).1.stored = (allowAt limit m.stored key now).1 ∧
      (m.allow limit key now spare).2 = (allowAt limit m.stored key now).2 := by
  have filtered := Slice.filterInPlace_filters 0 spare (fun t => decide ((now.ns : Int) - minute < t)) (h.fits key)
  simp only [Memory.allow, allowAt]
  generalize (m.attempts key).filterInPlace 0 spare (fun t => decide ((now.ns : Int) - minute < t)) m.heap = kept
    at filtered ⊢
  have contents : kept.2.contents kept.1 = recent minute (now.ns : Int) (m.stored key) := filtered.contents
  have length : kept.2.len = (recent minute (now.ns : Int) (m.stored key)).length := by
    rw [← contents, Slice.contents_length filtered.fits]
  by_cases full : limit ≤ kept.2.len
  · have refused : allowIn limit minute (now.ns : Int) (m.stored key) = (recent minute (now.ns : Int) (m.stored key), false) :=
      if_pos (length ▸ full)
    rw [if_pos full, refused]
    refine ⟨h.assign filtered.untouched filtered.fits (.inl filtered.array), ?_, rfl⟩
    rw [h.stored_assign filtered.untouched, contents]
  · have admitted : allowIn limit minute (now.ns : Int) (m.stored key) =
        (recent minute (now.ns : Int) (m.stored key) ++ [(now.ns : Int)], true) := if_neg (length ▸ full)
    have appended := Slice.append_appended 0 spare (now.ns : Int) filtered.fits
    have untouched := filtered.untouched.trans (filtered.array ▸ appended.untouched)
    rw [if_neg full, admitted]
    refine ⟨h.assign untouched appended.fits ?_, ?_, rfl⟩
    · rcases appended.array with same | fresh
      · exact .inl (same.trans filtered.array)
      · exact .inr ⟨_, fresh, filtered.untouched.grown⟩
    · rw [h.stored_assign untouched, appended.contents, contents]

end Memory

/-! ## Sequences of calls -/

/-- A limiter in memory does over whole sequences of calls what the limiter over lists does; each call comes with the
room that a new array has. -/
structure InMemory {σ : Type} (allow : σ → Call → σ × Bool) (init : σ) (kept : σ → Attempts)
    (allowIn : Memory → Bytes → Time → Nat → Memory × Bool) : Prop where
  answers : ∀ calls : List (Call × Nat), transcript (fun m c => allowIn m c.1.1 c.1.2 c.2) .empty calls =
    transcript (fun s c => allow s c.1) init calls
  stored : ∀ calls : List (Call × Nat), (final (fun m c => allowIn m c.1.1 c.1.2 c.2) .empty calls).stored =
    kept (final (fun s c => allow s c.1) init calls)
  separate : ∀ calls : List (Call × Nat), (final (fun m c => allowIn m c.1.1 c.1.2 c.2) .empty calls).Separate

theorem InMemory.of_projected {σ : Type} {limit : Int} {allow : σ → Call → σ × Bool} {init : σ} {kept : σ → Attempts}
    (Good : σ → Prop) (step : ∀ s c, Good s → Good (allow s c).1 ∧ kept (allow s c).1 = (countCalls limit (kept s) c).1 ∧
      (allow s c).2 = (countCalls limit (kept s) c).2)
    (good : Good init) (empty : kept init = fun _ => []) : InMemory allow init kept fun m => m.allow limit := by
  have plain (calls : List (Call × Nat)) := final_projected (g := fun attempts (c : Call × Nat) => countCalls limit attempts c.1)
    (fun s c => step s c.1) calls init good
  have memory (calls : List (Call × Nat)) := final_projected (g := fun attempts (c : Call × Nat) => countCalls limit attempts c.1)
    (fun (m : Memory) c separate => separate.allow limit c.1.1 c.1.2 c.2) calls .empty Memory.separate_empty
  have start : Memory.empty.stored = kept init := empty.symm
  refine ⟨?_, ?_, fun calls => (memory calls).1⟩
  · intro calls
    rw [(memory calls).2.2, (plain calls).2.2, start]
  · intro calls
    rw [(memory calls).2.1, (plain calls).2.1, start]

/-- **Pruning in place is harmless.** Each of the three limiters, over arrays and slices as the code has them, answers
every sequence of calls as the limiter over lists does, whatever room new arrays are given. No two keys ever share an
array. -/
theorem limiters_in_memory (perMin maxMessageSize ratePerMin : Int) (relayID : Bytes) :
    InMemory (fun l c => RateLimiter.allow l c.1 c.2) (.new perMin) RateLimiter.attempts (Memory.rateLimiterAllow perMin) ∧
      InMemory (fun r c => Router.allow r c.1 c.2) (.new maxMessageSize ratePerMin relayID) Router.rateAttempts
        (Memory.routerAllow ratePerMin) ∧
      InMemory (fun attempts c => authAllow attempts c.1 c.2) (fun _ => []) id Memory.authLimiterAllow := by
  refine ⟨?_, ?_, ?_⟩
  · apply InMemory.of_projected (fun l => l.perMin = perMin) _ rfl rfl
    intro l c good
    subst good
    exact ⟨rfl, rfl, rfl⟩
  · apply InMemory.of_projected (fun r => r.ratePerMin = ratePerMin) _ rfl rfl
    intro r c good
    subst good
    exact ⟨rfl, rfl, rfl⟩
  · apply InMemory.of_projected (fun _ => True) _ trivial rfl
    intro attempts c _
    exact ⟨trivial, rfl, rfl⟩

/-- A second key does not get the array of the first, and a pruned slice is appended to in place. -/
example : (final (fun m (c : Call × Nat) => Memory.authLimiterAllow m c.1.1 c.1.2 c.2) .empty
    [((ascii "a", ⟨0, by decide⟩), 1), ((ascii "b", ⟨1, by decide⟩), 1), ((ascii "a", ⟨2, by decide⟩), 1),
      ((ascii "a", ⟨60000000001, by decide⟩), 1)]).heap = [[2, 60000000001], [1, 0]] := by
  decide +kernel

/-! ## Calls that wait for the lock -/

namespace Race

/-- A limiter and the calls that have read the clock and not yet taken the lock. The log has the calls in the order of
their critical sections. -/
structure State where
  clock : Time
  waiting : List Call
  memory : Memory
  log : List (Call × Bool)

inductive Label where
  /-- A call for `key` reads the clock. -/
  | read (key : Bytes) (now : Time)
  /-- The `i`th waiting call has the lock at `now`. -/
  | enter (i : Nat) (now : Time) (spare : Nat)

def init (clock : Time) : State := ⟨clock, [], .empty, []⟩

/-- One step; the clock does not go back. -/
def step (limit : Int) (s : State) : Label → Option State
  | .read key now => if s.clock ≤ now then some { s with clock := now, waiting := s.waiting ++ [(key, now)] } else none
  | .enter i now spare =>
    if s.clock ≤ now then
      (pick s.waiting i).map fun (call, waiting) =>
        let answer := s.memory.allow limit call.1 call.2 spare
        { clock := now, waiting, memory := answer.1, log := s.log ++ [(call, answer.2)] }
    else none

/-- How long the step's call has waited, in nanoseconds. -/
def waited (s : State) : Label → Int
  | .read _ _ => 0
  | .enter i now _ =>
    match pick s.waiting i with
    | none => 0
    | some (call, _) => now.ns - call.2.ns

/-- How many readings lie in the window of width `w` that ends at `t`. -/
def inWindow (w t : Int) (times : List Int) : Int := (times.filter fun r => t - w < r ∧ r ≤ t).length

/-- What holds of the limiter while no call waits longer than `delay`. -/
structure Inv (limit delay : Int) (s : State) : Prop where
  read : ∀ call ∈ s.waiting, call.2 ≤ s.clock
  separate : s.memory.Separate
  serial : s.log = transcript (countCalls limit) (fun _ => []) (s.log.map Prod.fst)
  stored : s.memory.stored = final (countCalls limit) (fun _ => []) (s.log.map Prod.fst)
  skew : ∀ key, SkewInv limit minute delay (s.clock.ns : Int) (s.memory.stored key) (admittedTimes key s.log)

theorem inv_init (limit delay : Int) (clock : Time) : Inv limit delay (init clock) where
  read _ inside := absurd inside List.not_mem_nil
  separate := Memory.separate_empty
  serial := rfl
  stored := rfl
  skew _ := SkewInv.init _ _ _ _

theorem allowAt_skew {limit delay clock : Int} {attempts : Attempts} {key : Bytes} {history : List Int} {call : Call}
    (h : SkewInv limit minute delay clock (attempts key) history) (read : (call.2.ns : Int) ≤ clock)
    (prompt : clock ≤ call.2.ns + delay) :
    SkewInv limit minute delay clock ((allowAt limit attempts call.1 call.2).1 key)
      (extend history call.2.ns (decide (call.1 = key) && (allowAt limit attempts call.1 call.2).2)) := by
  by_cases mine : call.1 = key
  · subst mine
    rw [allowAt_self, decide_eq_true rfl, Bool.true_and]
    exact h.allowIn read prompt
  · rw [allowAt_other _ _ _ (Ne.symm mine), decide_eq_false mine, Bool.false_and]
    exact h

theorem Inv.step {limit delay : Int} {s s' : State} {l : Label} (h : Inv limit delay s) (prompt : waited s l ≤ delay)
    (next : Race.step limit s l = some s') : Inv limit delay s' := by
  cases l with
  | read key now =>
    simp only [Race.step] at next
    split at next
    · rename_i later
      cases next
      refine ⟨?_, h.separate, h.serial, h.stored, fun k => (h.skew k).later (Int.ofNat_le.2 later)⟩
      intro call inside
      rcases List.mem_append.1 inside with old | new
      · exact Nat.le_trans (h.read call old) later
      · cases List.mem_singleton.1 new
        exact Nat.le_refl _
    · cases next
  | enter i now spare =>
    simp only [Race.step] at next
    split at next
    · rename_i later
      obtain ⟨⟨call, waiting⟩, picked, rfl⟩ := Option.map_eq_some_iff.1 next
      have read : call.2 ≤ s.clock := h.read call (mem_of_pick picked)
      have soon : (now.ns : Int) - call.2.ns ≤ delay := by simpa only [waited, picked] using prompt
      obtain ⟨separate, stored, answer⟩ := h.separate.allow limit call.1 call.2 spare
      constructor
      · intro other inside
        exact Nat.le_trans (h.read other (mem_of_pick_rest picked inside)) later
      · exact separate
      · simp only [List.map_append, List.map_singleton, transcript_append, ← h.serial, ← h.stored, answer]
        rfl
      · simp only [List.map_append, List.map_singleton, final_append, ← h.stored]
        exact stored
      · intro key
        simp only [stored, answer, admittedTimes_append]
        apply allowAt_skew ((h.skew key).later (Int.ofNat_le.2 later))
        · exact Int.ofNat_le.2 (Nat.le_trans read later)
        · omega
    · cases next

/-- **Waiting for the lock.** Calls for any keys read the clock and take the lock in any order. They are answered as by
the limiter over lists in the order of their critical sections; and when no call waits longer than `delay`, no key has
more than `limit` admitted calls in a window that is shorter than a minute by `delay`. -/
theorem race_bounded (limit delay : Int) (start : Time) (labels : List Label) (s : State)
    (prompt : Always (step limit) (fun s l => waited s l ≤ delay) (init start) labels)
    (reached : run (step limit) (init start) labels = some s) :
    s.log = transcript (countCalls limit) (fun _ => []) (s.log.map Prod.fst) ∧
      ∀ key t, inWindow (minute - delay) t (admittedTimes key s.log) ≤ max limit 0 := by
  have inv : Inv limit delay s :=
    run_invariant_under (fun _ _ _ h soon next => h.step soon next) (inv_init limit delay start) prompt reached
  exact ⟨inv.serial, fun key t => (inv.skew key).bound t⟩

/-- Two calls are admitted. A minute later a third reads the clock and waits for the lock; a fourth that reads a later
time is counted before it, and forgets the first two. -/
def crowded (first second third fourth last : Time) : List Label :=
  [.read (ascii "ann") first, .enter 0 first 1, .read (ascii "ann") second, .enter 0 second 1, .read (ascii "ann") third,
    .read (ascii "ann") fourth, .enter 1 fourth 1, .enter 0 last 1]

/-- With a limit of two, the minute up to 64 holds three calls, and no window of 56 seconds holds more than two. -/
theorem race_bounded_crowded : ∃ s, run (step 2) (init Reference.start) (crowded (Reference.second 5)
      (Reference.second 6) (Reference.second 64) (Reference.second 67) (Reference.second 68)) = some s ∧
    inWindow minute (64 * 10 ^ 9) (admittedTimes (ascii "ann") s.log) = 3 ∧
      ∀ key t, inWindow (minute - 4 * 10 ^ 9) t (admittedTimes key s.log) ≤ 2 := by
  have found : ((run (step 2) (init Reference.start) (crowded (Reference.second 5) (Reference.second 6)
      (Reference.second 64) (Reference.second 67) (Reference.second 68))).map fun s =>
      inWindow minute (64 * 10 ^ 9) (admittedTimes (ascii "ann") s.log)) = some 3 := by decide +kernel
  obtain ⟨s, reached, count⟩ := Option.map_eq_some_iff.1 found
  have bounded := race_bounded 2 (4 * 10 ^ 9) Reference.start _ s (by decide +kernel) reached
  exact ⟨s, reached, count, bounded.2⟩

end Race

end SpectreRelay.Server.LimiterSlices
