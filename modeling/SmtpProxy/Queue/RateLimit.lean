import SmtpProxy.Lib.Reach
import SmtpProxy.Queue.Backoff

/-!
# The delivery budget of a mailbox

`internal/queue/ratelimit.go`: a token bucket for the rate and a semaphore for
the number of deliveries in flight. The bucket's arithmetic is `float64` in the
code and exact here.

A `mailboxLimiter` is an object: a delivery that was given one keeps it, whatever
the map says later. So the objects ever built are a list, the map holds
positions in it, and a call of `Acquire` remembers the position it was given.
`limiterStep` is one atomic step of the limiter and its callers.
-/

namespace SmtpProxy.Queue

open Lib Option

def exchangeMessagesPerMinute : Int := 30

def exchangeConcurrentConnections : Int := 3

/-- One mailbox's allowance. -/
structure Budget where
  perMinute : Int
  maxConcurrent : Int
  deriving DecidableEq

def Budget.clamp (b : Budget) : Budget :=
  let perMinute :=
    if b.perMinute ≤ 0 ∨ exchangeMessagesPerMinute < b.perMinute then exchangeMessagesPerMinute
    else b.perMinute
  let maxConcurrent := if b.maxConcurrent ≤ 0 then 2 else b.maxConcurrent
  { perMinute
    maxConcurrent :=
      if exchangeConcurrentConnections < maxConcurrent then exchangeConcurrentConnections
      else maxConcurrent }

/-- What Exchange Online permits, and at least something. -/
structure Budget.Permitted (b : Budget) : Prop where
  one_le_perMinute : 1 ≤ b.perMinute
  perMinute_le : b.perMinute ≤ exchangeMessagesPerMinute
  one_le_maxConcurrent : 1 ≤ b.maxConcurrent
  maxConcurrent_le : b.maxConcurrent ≤ exchangeConcurrentConnections

theorem Budget.clamp_permitted (b : Budget) : b.clamp.Permitted := by
  unfold Budget.clamp exchangeMessagesPerMinute exchangeConcurrentConnections
  refine ⟨?_, ?_, ?_, ?_⟩
  all_goals
    simp only [exchangeMessagesPerMinute, exchangeConcurrentConnections]
    split_ifs <;> omega

/-! ## The token bucket -/

structure TokenBucket where
  perMinute : Int
  tokens : ℚ
  capacity : ℚ
  last : Int

def newTokenBucket (perMinute : Int) (now : Int) : TokenBucket where
  perMinute := perMinute
  tokens := perMinute
  capacity := perMinute
  last := now

def TokenBucket.refill (b : TokenBucket) (now : Int) : TokenBucket :=
  if now ≤ b.last then b
  else
    let elapsed : ℚ := ((now - b.last : Int) : ℚ) / minute
    let tokens := b.tokens + elapsed * b.perMinute
    { b with last := now, tokens := if b.capacity < tokens then b.capacity else tokens }

/-- `tokenBucket.take`: how long to wait, and whether a token was taken. `none` is
the panic of an integer division by zero. -/
def TokenBucket.take (b : TokenBucket) (now : Int) : Option ((Int × Bool) × TokenBucket) :=
  let b := b.refill now
  if 1 ≤ b.tokens then some ((0, true), { b with tokens := b.tokens - 1 })
  else if b.perMinute = 0 then none
  else
    let missing := 1 - b.tokens
    let perToken := minute.tdiv b.perMinute
    some ((toDuration (missing * perToken), false), b)

/-! ## The limiter -/

/-- `mailboxLimiter`: its bucket, and its semaphore as the channel's capacity and
the number of elements in it. -/
structure MailboxLimiter where
  bucket : TokenBucket
  slots : Int
  held : Nat := 0

/-- The limiter serves this budget as it stands. -/
def MailboxLimiter.fits (ml : MailboxLimiter) (effective : Budget) : Bool :=
  ml.bucket.perMinute = effective.perMinute && ml.slots = effective.maxConcurrent

structure Limiter where
  defaults : Budget
  objects : List MailboxLimiter := []
  mailbox : Bytes → Option Nat := fun _ => none

def newLimiter (defaults : Budget) : Limiter := { defaults := defaults.clamp }

def Limiter.effective (l : Limiter) (budget : Budget) : Budget :=
  Budget.clamp {
    perMinute := if budget.perMinute ≤ 0 then l.defaults.perMinute else budget.perMinute
    maxConcurrent :=
      if budget.maxConcurrent ≤ 0 then l.defaults.maxConcurrent else budget.maxConcurrent }

def Limiter.rebuild (l : Limiter) (id : Bytes) (effective : Budget) (now : Int) : Limiter × Nat :=
  ({ l with
      objects := l.objects ++
        [{ bucket := newTokenBucket effective.perMinute now, slots := effective.maxConcurrent }]
      mailbox := Function.update l.mailbox id (some l.objects.length) },
    l.objects.length)

/-- `Limiter.forMailbox`: a changed budget rebuilds the limiter. -/
def Limiter.forMailbox (l : Limiter) (id : Bytes) (budget : Budget) (now : Int) : Limiter × Nat :=
  let effective := l.effective budget
  match l.mailbox id with
  | none => l.rebuild id effective now
  | some k =>
    if (l.objects[k]?).any (·.fits effective) then (l, k) else l.rebuild id effective now

def Limiter.forget (l : Limiter) (id : Bytes) : Limiter :=
  { l with mailbox := Function.update l.mailbox id none }

def Limiter.put (l : Limiter) (k : Nat) (ml : MailboxLimiter) : Limiter :=
  { l with objects := l.objects.set k ml }

/-! ## Its callers -/

/-- How far a call of `Acquire` has come: at the semaphore, about to ask for a
token, refused one and waiting, returned with a slot, its slot released,
cancelled. -/
inductive AcquirePhase where
  | queued
  | pacing
  | waiting
  | returned
  | released
  | cancelled
  deriving DecidableEq

/-- One call of `Acquire` and the release function it returned. -/
structure Acquire where
  mailboxID : Bytes
  object : Nat
  phase : AcquirePhase := .queued
  deriving DecidableEq

/-- The call has put an element into its semaphore and not taken it back. -/
def Acquire.holds (c : Acquire) : Bool :=
  match c.phase with
  | .pacing | .waiting | .returned => true
  | _ => false

def Acquire.over (c : Acquire) : Bool :=
  match c.phase with
  | .released | .cancelled => true
  | _ => false

/-- The limiter and every call ever made. -/
structure Acquires where
  limiter : Limiter
  calls : List Acquire := []

def Acquires.move (s : Acquires) (i : Nat) (c : Acquire) (phase : AcquirePhase) : Acquires :=
  { s with calls := s.calls.set i { c with phase } }

def Acquires.moveWith (s : Acquires) (i : Nat) (c : Acquire) (phase : AcquirePhase)
    (ml : MailboxLimiter) : Acquires :=
  { s.move i c phase with limiter := s.limiter.put c.object ml }

inductive LimiterAct where
  | acquire (id : Bytes) (budget : Budget) (now : Int)
  | slot (i : Nat)
  | take (i : Nat) (now : Int)
  | cancel (i : Nat)
  | release (i : Nat)
  | forget (id : Bytes)

/-- One atomic step. `slot` is the send on the semaphore, which needs room;
`cancel` is `ctx.Done` in one of the two `select`s; `release` runs the function
`Acquire` returned, which acts once. -/
def limiterStep (s : Acquires) : LimiterAct → Option Acquires
  | .acquire id budget now =>
    let r := s.limiter.forMailbox id budget now
    some { limiter := r.1, calls := s.calls ++ [{ mailboxID := id, object := r.2 }] }
  | .slot i =>
    match s.calls[i]? with
    | none => none
    | some c =>
      match c.phase, s.limiter.objects[c.object]? with
      | .queued, some ml =>
        if (ml.held : Int) < ml.slots then
          some (s.moveWith i c .pacing { ml with held := ml.held + 1 })
        else none
      | _, _ => none
  | .take i now =>
    match s.calls[i]? with
    | none => none
    | some c =>
      match c.phase, s.limiter.objects[c.object]? with
      | .pacing, some ml | .waiting, some ml =>
        (ml.bucket.take now).map fun r =>
          s.moveWith i c (if r.1.2 then .returned else .waiting) { ml with bucket := r.2 }
      | _, _ => none
  | .cancel i =>
    match s.calls[i]? with
    | none => none
    | some c =>
      match c.phase, s.limiter.objects[c.object]? with
      | .queued, _ => some (s.move i c .cancelled)
      | .waiting, some ml => some (s.moveWith i c .cancelled { ml with held := ml.held - 1 })
      | _, _ => none
  | .release i =>
    match s.calls[i]? with
    | none => none
    | some c =>
      match c.phase, s.limiter.objects[c.object]? with
      | .returned, some ml => some (s.moveWith i c .released { ml with held := ml.held - 1 })
      | .released, _ => some s
      | _, _ => none
  | .forget id => some { s with limiter := s.limiter.forget id }

inductive LimiterStep (s : Acquires) : LimiterAct → Acquires → Prop where
  | acquire {id : Bytes} {budget : Budget} {now : Int} :
      LimiterStep s (.acquire id budget now)
        { limiter := (s.limiter.forMailbox id budget now).1
          calls := s.calls ++
            [{ mailboxID := id, object := (s.limiter.forMailbox id budget now).2 }] }
  | slot {i : Nat} {c : Acquire} {ml : MailboxLimiter} (hc : s.calls[i]? = some c)
      (hp : c.phase = .queued) (hml : s.limiter.objects[c.object]? = some ml)
      (hroom : (ml.held : Int) < ml.slots) :
      LimiterStep s (.slot i) (s.moveWith i c .pacing { ml with held := ml.held + 1 })
  | take {i : Nat} {now : Int} {c : Acquire} {ml : MailboxLimiter} {r : (Int × Bool) × TokenBucket}
      (hc : s.calls[i]? = some c) (hp : c.phase = .pacing ∨ c.phase = .waiting)
      (hml : s.limiter.objects[c.object]? = some ml) (hr : ml.bucket.take now = some r) :
      LimiterStep s (.take i now)
        (s.moveWith i c (if r.1.2 then .returned else .waiting) { ml with bucket := r.2 })
  | leave {i : Nat} {c : Acquire} (hc : s.calls[i]? = some c) (hp : c.phase = .queued) :
      LimiterStep s (.cancel i) (s.move i c .cancelled)
  | giveBack {a : LimiterAct} {i : Nat} {c : Acquire} {ml : MailboxLimiter} {p : AcquirePhase}
      (ha : a = .cancel i ∧ c.phase = .waiting ∧ p = .cancelled ∨
        a = .release i ∧ c.phase = .returned ∧ p = .released)
      (hc : s.calls[i]? = some c) (hml : s.limiter.objects[c.object]? = some ml) :
      LimiterStep s a (s.moveWith i c p { ml with held := ml.held - 1 })
  | again {i : Nat} : LimiterStep s (.release i) s
  | forget {id : Bytes} :
      LimiterStep s (.forget id) { s with limiter := s.limiter.forget id }

theorem limiterStep_cases {s t : Acquires} {a : LimiterAct} (h : limiterStep s a = some t) :
    LimiterStep s a t := by
  cases a with
  | acquire id budget now =>
    rw [← some.inj h]
    exact .acquire
  | slot i =>
    simp only [limiterStep] at h
    split at h
    · cases h
    next c hc =>
    split at h
    · next hp hml =>
      split at h
      · next hroom =>
        rw [← some.inj h]
        exact .slot hc hp hml hroom
      · cases h
    · cases h
  | take i now =>
    simp only [limiterStep] at h
    split at h
    · cases h
    next c hc =>
    split at h
    · next hp hml =>
      obtain ⟨r, hr, rfl⟩ := map_eq_some_iff.1 h
      exact .take hc (.inl hp) hml hr
    · next hp hml =>
      obtain ⟨r, hr, rfl⟩ := map_eq_some_iff.1 h
      exact .take hc (.inr hp) hml hr
    · cases h
  | cancel i =>
    simp only [limiterStep] at h
    split at h
    · cases h
    next c hc =>
    split at h
    · next hp =>
      rw [← some.inj h]
      exact .leave hc hp
    · next hp hml =>
      rw [← some.inj h]
      exact .giveBack (.inl ⟨rfl, hp, rfl⟩) hc hml
    · cases h
  | release i =>
    simp only [limiterStep] at h
    split at h
    · cases h
    next c hc =>
    split at h
    · next hp hml =>
      rw [← some.inj h]
      exact .giveBack (.inr ⟨rfl, hp, rfl⟩) hc hml
    · rw [← some.inj h]
      exact .again
    · cases h
  | forget id =>
    rw [← some.inj h]
    exact .forget

end SmtpProxy.Queue
