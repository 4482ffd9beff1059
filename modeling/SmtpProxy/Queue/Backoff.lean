import Mathlib.Data.Rat.Floor
import SmtpProxy.Lib.Bytes

/-!
# The retry schedule

`internal/queue/backoff.go`. The jitter arithmetic is done in `float64` by the
code; here the fraction and the random value are exact rationals, and the
conversion to a duration truncates towards zero as Go's does. `random` is the
value `rand.Float64` returned for this call.
-/

namespace SmtpProxy.Queue

open Lib

structure Backoff where
  delays : List Int := []
  jitter : ℚ := 0
  maxAttempts : Int := 0
  maxAge : Int := 0

def minute : Int := 60 * 1000000000

def hour : Int := 60 * minute

def defaultDelays : List Int := [minute, 5 * minute, 15 * minute, hour, 4 * hour, 12 * hour]

def clampJitter (j : ℚ) : ℚ := if j < 0 then 0 else if j > 1 then 1 else j

def toDuration (q : ℚ) : Int := if 0 ≤ q then ⌊q⌋ else -⌊-q⌋

namespace Backoff

/-- The delay before jitter: the list's entry, the last one repeating. -/
def baseDelay (b : Backoff) (attempts : Int) : Int :=
  let delays := if b.delays = [] then defaultDelays else b.delays
  let index := min (max (attempts - 1) 0).toNat (delays.length - 1)
  delays.getD index 0

/-- `delayFor`: the base delay, shortened by the jitter. -/
def delayFor (b : Backoff) (random : ℚ) (attempts : Int) : Int :=
  let delay := b.baseDelay attempts
  if b.jitter ≤ 0 then delay
  else
    let spread := delay * clampJitter b.jitter
    delay - toDuration (spread * random)

/-- `NextAttempt`: when to retry, or `none` for giving up. -/
def nextAttempt (b : Backoff) (random : ℚ) (now : Int) (attempts : Int) (receivedAt : Int) :
    Option Int :=
  if b.maxAttempts > 0 ∧ attempts ≥ b.maxAttempts then none
  else
    let next := now + b.delayFor random attempts
    -- compared with the retry time: a retry past the deadline is no retry
    if b.maxAge > 0 ∧ receivedAt ≠ 0 ∧ next > receivedAt + b.maxAge then none
    else some next

/-- `NextAttemptAfter`: never earlier than the upstream asked for. -/
def nextAttemptAfter (b : Backoff) (random : ℚ) (now : Int) (attempts : Int) (receivedAt : Int)
    (requested : Int) : Option Int :=
  (b.nextAttempt random now attempts receivedAt).map fun next =>
    if requested > 0 ∧ now + requested > next then now + requested else next

theorem nextAttemptAfter_exhausted {b : Backoff} {random : ℚ} {now attempts receivedAt requested : Int}
    (hpos : 0 < b.maxAttempts) (hge : b.maxAttempts ≤ attempts) :
    b.nextAttemptAfter random now attempts receivedAt requested = none := by
  simp [nextAttemptAfter, nextAttempt, hpos, hge]

end Backoff

end SmtpProxy.Queue
