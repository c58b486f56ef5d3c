import Mathlib.Algebra.Order.Group.Int
import SpectreRelay.Lib.Window
import SpectreRelay.Server.Platform

/-!
# Rate limiters

`server/ratelimit.go` and the limiter of `server/auth.go`. Every limiter of the
relay keeps, per key, the times of the admitted calls of the last minute. They
differ in their limit and in what the key is.
-/

namespace SpectreRelay.Server
set_option autoImplicit false
open Lib

/-- A minute in nanoseconds. -/
def minute : Int := 60 * 10 ^ 9

/-- The times of admitted calls, per key. -/
abbrev Attempts := Bytes → List Int

/-- One call for `key` at `now`: prunes the key's list and admits while it is shorter than the limit. -/
def allowAt (limit : Int) (attempts : Attempts) (key : Bytes) (now : Time) : Attempts × Bool :=
  let answer := allowIn limit minute (now.ns : Int) (attempts key)
  (Function.update attempts key answer.1, answer.2)

/-- `rateLimiter`: the limit is set when it is made. -/
structure RateLimiter where
  perMin : Int
  attempts : Attempts

namespace RateLimiter

def new (perMin : Int) : RateLimiter := ⟨perMin, fun _ => []⟩

def allow (l : RateLimiter) (key : Bytes) (now : Time) : RateLimiter × Bool :=
  let answer := allowAt l.perMin l.attempts key now
  ({ l with attempts := answer.1 }, answer.2)

end RateLimiter

/-- `authLimiter.allow`: five handshakes per address and minute. -/
def authAllow (attempts : Attempts) (ip : Bytes) (now : Time) : Attempts × Bool := allowAt 5 attempts ip now

theorem allowAt_other (limit : Int) (attempts : Attempts) {key other : Bytes} (now : Time) (differ : other ≠ key) :
    (allowAt limit attempts key now).1 other = attempts other :=
  Function.update_of_ne differ _ _

theorem allowAt_self (limit : Int) (attempts : Attempts) (key : Bytes) (now : Time) :
    (allowAt limit attempts key now).1 key = (allowIn limit minute (now.ns : Int) (attempts key)).1 :=
  Function.update_self _ _ _

/-- One call extends the history of its own key, and no other key's. -/
theorem allowAt_window {limit last : Int} {attempts : Attempts} {key k : Bytes} {now : Time} {history : List Int}
    (h : WindowInv limit minute last (attempts k) history) (later : last ≤ now.ns) :
    WindowInv limit minute (now.ns : Int) ((allowAt limit attempts key now).1 k)
      (extend history now.ns (decide (key = k) && (allowAt limit attempts key now).2)) := by
  by_cases same : key = k
  · subst same
    rw [allowAt_self, decide_eq_true rfl, Bool.true_and]
    exact h.allowIn later
  · rw [allowAt_other _ _ _ (Ne.symm same), decide_eq_false same, Bool.false_and]
    exact h.later later

/-- Every recorded call is a minute or more before `now`. -/
def Attempts.Old (now : Time) (attempts : Attempts) : Prop := ∀ key, ∀ t ∈ attempts key, t + minute ≤ now.ns

theorem Attempts.old_empty (now : Time) : Old now fun _ => [] := nofun

theorem Attempts.Old.allowAt {now early : Time} {attempts : Attempts} (h : Old now attempts)
    (before : early.ns + minute ≤ now.ns) (limit : Int) (key : Bytes) : Old now (allowAt limit attempts key early).1 := by
  intro key' t inside
  by_cases same : key' = key
  · subst same
    rw [allowAt_self] at inside
    have stored : t ∈ recent minute (early.ns : Int) (attempts key') ∨ t = early.ns := by
      unfold allowIn at inside
      split at inside
      · exact .inl inside
      · simpa using inside
    rcases stored with old | rfl
    · exact h key' t (List.mem_filter.1 old).1
    · exact before
  · rw [allowAt_other _ _ _ same] at inside
    exact h key' t inside

/-- A limiter that recorded nothing in the last minute admits. -/
theorem Attempts.Old.admits {now : Time} {attempts : Attempts} (h : Old now attempts) {limit : Int} (positive : 0 < limit)
    (key : Bytes) : (Server.allowAt limit attempts key now).2 = true := by
  have none : recent minute (now.ns : Int) (attempts key) = [] := by
    rw [recent, List.filter_eq_nil_iff]
    intro t inside
    have := h key t inside
    simp only [decide_eq_true_eq]
    omega
  have room : ¬ limit ≤ 0 := by omega
  simp [Server.allowAt, allowIn, none, room]

end SpectreRelay.Server
