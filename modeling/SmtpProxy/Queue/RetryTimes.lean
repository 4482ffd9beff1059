import SmtpProxy.Queue.Settle
import SmtpProxy.Transport.Graph

/-!
# When a message is tried again

A retry must not come earlier than the upstream asked for, nor after the message's
last day, nor beyond its last attempt. `NextAttempt` looks at the attempts and at the
age; what the upstream asked for is added by `NextAttemptAfter` behind it, and the age
is not looked at again. So the bounds hold together exactly where the request itself
ends in time (`retry_bounds_iff`).

The request is Graph's `Retry-After`. Only the branch for 429 keeps it, and the number
of seconds is multiplied in 64 bits; for every other status, and for a number that does
not fit, the message waits as long as the schedule says (`retryAfter_kept_iff`).
-/

namespace SmtpProxy.Queue

open Lib Store Transport Option

/-! ## The bounds of a retry -/

namespace Backoff

theorem baseDelay_nonneg {b : Backoff} (hdelays : ∀ d ∈ b.delays, 0 ≤ d) (attempts : Int) :
    0 ≤ b.baseDelay attempts := by
  have hall : ∀ d ∈ (if b.delays = [] then defaultDelays else b.delays), 0 ≤ d := by
    split
    · decide
    · exact hdelays
  unfold baseDelay
  dsimp only
  generalize (if b.delays = [] then defaultDelays else b.delays) = delays at hall ⊢
  rw [List.getD_eq_getElem?_getD]
  cases hd : delays[min (max (attempts - 1) 0).toNat (delays.length - 1)]? with
  | none => exact le_refl 0
  | some d => exact hall d (List.mem_of_getElem? hd)

theorem toDuration_le {q : ℚ} {d : Int} (h0 : 0 ≤ q) (hle : q ≤ d) : toDuration q ≤ d := by
  rw [toDuration, if_pos h0]
  have hcast : ((⌊q⌋ : Int) : ℚ) ≤ (d : ℚ) := (Int.floor_le q).trans hle
  exact_mod_cast hcast

theorem clampJitter_range (j : ℚ) : 0 ≤ clampJitter j ∧ clampJitter j ≤ 1 := by
  unfold clampJitter
  split
  · exact ⟨le_refl 0, zero_le_one⟩
  next hlo =>
  split
  · exact ⟨zero_le_one, le_refl 1⟩
  · next hhi => exact ⟨not_lt.1 hlo, not_lt.1 hhi⟩

theorem delayFor_nonneg {b : Backoff} (hdelays : ∀ d ∈ b.delays, 0 ≤ d) {random : ℚ}
    (hlo : 0 ≤ random) (hhi : random < 1) (attempts : Int) : 0 ≤ b.delayFor random attempts := by
  have hbase := baseDelay_nonneg hdelays attempts
  unfold delayFor
  dsimp only
  split
  · exact hbase
  obtain ⟨hj0, hj1⟩ := clampJitter_range b.jitter
  have hbase' : (0 : ℚ) ≤ b.baseDelay attempts := by exact_mod_cast hbase
  have hspread : (0 : ℚ) ≤ b.baseDelay attempts * clampJitter b.jitter := mul_nonneg hbase' hj0
  have hspread' : (b.baseDelay attempts : ℚ) * clampJitter b.jitter ≤ b.baseDelay attempts :=
    mul_le_of_le_one_right hbase' hj1
  have hcut : toDuration (b.baseDelay attempts * clampJitter b.jitter * random)
      ≤ b.baseDelay attempts :=
    toDuration_le (mul_nonneg hspread hlo)
      ((mul_le_of_le_one_right hspread hhi.le).trans hspread')
  omega

theorem nextAttempt_cases (b : Backoff) (random : ℚ) (now attempts receivedAt : Int) :
    (b.nextAttempt random now attempts receivedAt = some (now + b.delayFor random attempts) ∧
      (0 < b.maxAttempts → attempts < b.maxAttempts) ∧
      (0 < b.maxAge → receivedAt ≠ 0 → now + b.delayFor random attempts ≤ receivedAt + b.maxAge)) ∨
    (b.nextAttempt random now attempts receivedAt = none ∧
      ((0 < b.maxAttempts ∧ b.maxAttempts ≤ attempts) ∨ (0 < b.maxAge ∧ receivedAt ≠ 0 ∧
          receivedAt + b.maxAge < now + b.delayFor random attempts))) := by
  unfold nextAttempt
  dsimp only
  split
  · next hlimit => exact .inr ⟨rfl, .inl hlimit⟩
  next hlimit =>
  split
  · next hage => exact .inr ⟨rfl, .inr hage⟩
  next hage =>
  refine .inl ⟨rfl, fun hpos => ?_, fun hpos hset => ?_⟩
  · by_contra hge
    exact hlimit ⟨hpos, not_lt.1 hge⟩
  by_contra hlate
  exact hage ⟨hpos, hset, not_le.1 hlate⟩

end Backoff

/-- All that is asked of a retry time, and of giving up. -/
structure RetryBounds (b : Backoff) (random : ℚ) (now attempts receivedAt requested : Int) :
    Prop where
  notBefore : ∀ t, b.nextAttemptAfter random now attempts receivedAt requested = some t →
    now + max requested 0 ≤ t
  limit : ∀ t, b.nextAttemptAfter random now attempts receivedAt requested = some t →
    0 < b.maxAttempts → attempts < b.maxAttempts
  age : ∀ t, b.nextAttemptAfter random now attempts receivedAt requested = some t →
    0 < b.maxAge → receivedAt ≠ 0 → t ≤ receivedAt + b.maxAge
  givenUp : b.nextAttemptAfter random now attempts receivedAt requested = none →
    (b.maxAttempts ≤ attempts ∧ 0 < b.maxAttempts) ∨
      (0 < b.maxAge ∧ receivedAt ≠ 0 ∧
        receivedAt + b.maxAge < max (now + b.delayFor random attempts) (now + requested))

/-- Where the schedule leaves a retry, what the upstream asks for leaves it too. -/
def RequestInTime (b : Backoff) (random : ℚ) (now attempts receivedAt requested : Int) : Prop :=
  (b.nextAttempt random now attempts receivedAt).isSome → 0 < b.maxAge → receivedAt ≠ 0 →
    now + requested ≤ receivedAt + b.maxAge

/-- **The bounds of a retry hold together exactly where the upstream's request ends
before the message's last day.** -/
theorem retry_bounds_iff {b : Backoff} (hdelays : ∀ d ∈ b.delays, 0 ≤ d) {random : ℚ}
    (hlo : 0 ≤ random) (hhi : random < 1) (now attempts receivedAt requested : Int) :
    RetryBounds b random now attempts receivedAt requested ↔
      RequestInTime b random now attempts receivedAt requested := by
  have hdelay := b.delayFor_nonneg hdelays hlo hhi attempts
  have hafter : ∀ t, b.nextAttemptAfter random now attempts receivedAt requested = some t ↔
      ∃ next, b.nextAttempt random now attempts receivedAt = some next ∧
        (if requested > 0 ∧ now + requested > next then now + requested else next) = t :=
    fun t => map_eq_some_iff
  unfold RequestInTime
  obtain ⟨hnext, hlimit, hage⟩ | ⟨hnone, hwhy⟩ := b.nextAttempt_cases random now attempts receivedAt
  · -- a retry is scheduled; the request may move it
    have hsome : b.nextAttemptAfter random now attempts receivedAt requested
        = some (max (now + b.delayFor random attempts) (now + requested)) := by
      refine (hafter _).2 ⟨_, hnext, ?_⟩
      split <;> omega
    rw [hnext]
    constructor
    · intro h _ hpos hset
      have hin := h.age _ hsome hpos hset
      omega
    intro h
    refine ⟨fun t ht => ?_, fun t _ => hlimit, fun t ht hpos hset => ?_, fun hgone => ?_⟩
    · have heq := some.inj (hsome.symm.trans ht)
      omega
    · have heq := some.inj (hsome.symm.trans ht)
      have hin := h rfl hpos hset
      have hnext := hage hpos hset
      omega
    · cases hsome.symm.trans hgone
  have hgone : b.nextAttemptAfter random now attempts receivedAt requested = none := by
    rw [Backoff.nextAttemptAfter, hnone]
    rfl
  rw [hnone]
  refine ⟨fun _ hno => absurd hno (by simp), fun _ => ⟨?_, ?_, ?_, fun _ => ?_⟩⟩
  · exact fun t ht => absurd (hgone.symm.trans ht) (by simp)
  · exact fun t ht => absurd (hgone.symm.trans ht) (by simp)
  · exact fun t ht => absurd (hgone.symm.trans ht) (by simp)
  obtain ⟨hpos, hge⟩ | ⟨hpos, hset, hlate⟩ := hwhy
  · exact .inl ⟨hge, hpos⟩
  · exact .inr ⟨hpos, hset, lt_max_of_lt_left hlate⟩

def dayBackoff : Backoff where
  delays := [minute]
  jitter := 1 / 2
  maxAttempts := 5
  maxAge := 24 * hour

theorem dayBackoff_delays : ∀ d ∈ dayBackoff.delays, 0 ≤ d := by decide

/-- An hour's wait asked for in the first hour. -/
theorem anHour_in_time : RetryBounds dayBackoff (1 / 2) (2 * hour) 1 hour hour := by
  refine (retry_bounds_iff dayBackoff_delays (by norm_num) (by norm_num) _ _ _ _).2 ?_
  intro _ _ _
  decide

/-- **A wait of two days is granted to a message that is kept for one.** -/
theorem twoDays_granted :
    dayBackoff.nextAttemptAfter (1 / 2) (2 * hour) 1 hour (48 * hour) = some (50 * hour) ∧
      hour + dayBackoff.maxAge < 50 * hour := by
  constructor
  · have hdelay : dayBackoff.delayFor (1 / 2) 1 = 45 * 1000000000 := by
      norm_num [Backoff.delayFor, Backoff.baseDelay, dayBackoff, clampJitter, toDuration, minute]
    rw [Backoff.nextAttemptAfter, Backoff.nextAttempt, hdelay]
    rfl
  · decide

/-! ## What Graph asks for -/

open Transport.Graph (HTTPResponse Response second)

def graphBackend (o : Graph.Options) (s : Graph.Service) : Backend where
  name := ascii "graph"
  send := fun ctx m => (Graph.send o s ctx m).2

/-- A delivery that got as far as a request to Graph, and its answer. -/
structure Answered (r : Runner) (env : Env) (ctx : Ctx) (m : Store.Message) (o : Graph.Options)
    (s : Graph.Service) (p : Transport.Message) (request : Graph.Request) (answer : Response) :
    Prop where
  prepared : prepare env ctx m = .ok p
  routed : r.transports p.mailbox.transport = some (graphBackend o s)
  alive : ctx.done .dial = false
  sent : (Graph.send o s ctx p).1 = some request
  answer : s.respond request = .ok answer

theorem done_of_le {ctx : Ctx} {stage later : Stage} (hle : stage.idx ≤ later.idx)
    (h : ctx.done later = false) : ctx.done stage = false := by
  unfold Ctx.done at h ⊢
  cases hc : ctx.cancelled with
  | none => rfl
  | some at_ =>
  rw [hc] at h
  simp only [any_some, decide_eq_false_iff_not] at h ⊢
  omega

section
variable {r : Runner} {env : Env} {ctx : Ctx} {m : Store.Message} {o : Graph.Options}
  {s : Graph.Service} {p : Transport.Message} {request : Graph.Request} {answer : Response}

theorem Answered.send_eq (h : Answered r env ctx m o s p request answer) :
    (Graph.send o s ctx p).2 = Graph.classify o answer p := by
  have hsent := h.sent
  unfold Graph.send at hsent ⊢
  split
  · next hlarge => simp [hlarge] at hsent
  next hsmall =>
  rw [if_neg hsmall] at hsent
  split
  · next htoken =>
    rw [htoken] at hsent
    cases hsent
  next token htoken =>
  rw [htoken] at hsent
  dsimp only at hsent
  split
  · next hbuild =>
    rw [hbuild] at hsent
    cases hsent
  next built hbuild =>
  rw [hbuild] at hsent
  simp only [h.alive, Bool.false_eq_true, if_false] at hsent ⊢
  have hthis : built = request := by
    cases hrespond : s.respond built with
    | error e =>
      rw [hrespond] at hsent
      exact some.inj hsent
    | ok response =>
      rw [hrespond] at hsent
      exact some.inj hsent
  rw [hthis, h.answer]

theorem Answered.outcome (h : Answered r env ctx m o s p request answer) {e : Err}
    (he : Graph.classify o answer p = some e) :
    (deliver r env ctx m).outcome = some (recordFailure r.backoff env.random env.now m e) := by
  have hacquire : ctx.done .acquire = false := done_of_le (by decide) h.alive
  have hsend : (graphBackend o s).send ctx p = some e := h.send_eq.trans he
  unfold deliver
  simp [h.prepared, hacquire, h.routed, hsend]

end

theorem classify_error {o : Graph.Options} {answer : Response} {m : Transport.Message}
    (h : answer.status ≠ 202) : ∃ e, Graph.classify o answer m = some e := by
  unfold Graph.classify
  dsimp only
  rw [if_neg h]
  split
  · exact ⟨_, rfl⟩
  split
  · exact ⟨_, rfl⟩
  split
  · exact ⟨_, rfl⟩
  split <;> exact ⟨_, rfl⟩

theorem classify_retryAfter {o : Graph.Options} {answer : Response} {m : Transport.Message} {e : Err}
    (h : Graph.classify o answer m = some e) :
    retryAfter e = if answer.status = 429 then answer.retryAfter else 0 := by
  have htrans : ∀ (t : TransportError) (causes : List ErrNode),
      retryAfter ⟨.transport t, causes⟩ = t.retryAfter := by
    intro t causes
    rw [retryAfter, Err.asTransport_transport]
    rfl
  unfold Graph.classify at h
  dsimp only at h
  split at h
  · cases h
  split at h
  · next h429 =>
    cases h
    rw [if_pos h429]
    exact htrans _ _
  next h429 =>
  rw [if_neg h429]
  split at h
  · cases h
    exact htrans _ _
  split at h
  · cases h
    exact htrans _ _
  split at h <;>
  · cases h
    exact htrans _ _

theorem retryAfter_seconds (rd : Graph.Reader) {response : HTTPResponse} {seconds : Int}
    (h : atoi (trimSpace response.retryAfter) = some seconds) (hpos : 0 < seconds) :
    Graph.retryAfter rd response = int64 (seconds * second) := by
  have hne : response.retryAfter ≠ [] := by
    intro hnil
    have hnone : atoi (trimSpace []) = none := by decide
    rw [hnil, hnone] at h
    cases h
  unfold Graph.retryAfter
  rw [if_neg hne, h, filter_some, if_pos (by simpa using hpos)]

theorem recordFailure_retryAt {b : Backoff} {random : ℚ} {now : Int} {m : Store.Message} {e : Err}
    {f : Failure} {retryAt : Int} (h : recordFailure b random now m e = .deferred f retryAt) :
    ∃ next, b.nextAttempt random now (m.attempts + 1) m.receivedAt = some next ∧
      retryAt = if retryAfter e > 0 ∧ now + retryAfter e > next then now + retryAfter e else next := by
  unfold recordFailure at h
  dsimp only at h
  split at h
  · cases h
  split at h
  · cases h
  next t ht =>
  obtain ⟨next, hnext, rfl⟩ := map_eq_some_iff.1 ht
  exact ⟨next, hnext, (Outcome.deferred.inj h).2.symm⟩

/-- **A number of seconds that Graph asks for is kept to exactly if the status is 429 and
the number fits in a duration**, or the schedule is that late by itself. -/
theorem retryAfter_kept_iff {r : Runner} {env : Env} {ctx : Ctx} {m : Store.Message}
    {o : Graph.Options} {s : Graph.Service} {p : Transport.Message} {request : Graph.Request}
    {rd : Graph.Reader} {response : HTTPResponse}
    (hanswered : Answered r env ctx m o s p request (response.read rd))
    (hstatus : response.status ≠ 202) {seconds : Int}
    (hheader : atoi (trimSpace response.retryAfter) = some seconds) (hpos : 0 < seconds)
    {db : DB} {at_ : Int} (hok : (deliverAndCommit r env ctx m db at_).1 = .ok ())
    {row : Store.Message} (hrow : (deliverAndCommit r env ctx m db at_).2.get m.id = some row)
    (hdefer : row.status = .deferred) :
    env.now + seconds * second ≤ row.nextAttemptAt ↔
      (response.status = 429 ∧ seconds * second < 2 ^ 63) ∨
      ∃ next, r.backoff.nextAttempt env.random env.now (m.attempts + 1) m.receivedAt = some next ∧
        env.now + seconds * second ≤ next := by
  obtain ⟨e, he⟩ : ∃ e, Graph.classify o (response.read rd) p = some e := classify_error hstatus
  have hwait : retryAfter e = if response.status = 429 then int64 (seconds * second) else 0 := by
    rw [← retryAfter_seconds rd hheader hpos]
    exact classify_retryAfter he
  unfold deliverAndCommit at hok hrow
  rw [hanswered.outcome he] at hok hrow
  obtain ⟨before, -, hafter⟩ := commit_row hok
  cases hrow.symm.trans hafter
  rw [Outcome.set_status] at hdefer
  cases hw : recordFailure r.backoff env.random env.now m e with
  | sent | failed => rw [hw] at hdefer; simp [Outcome.status] at hdefer
  | deferred f retryAt =>
  obtain ⟨next, hnext, hretryAt⟩ := recordFailure_retryAt hw
  show env.now + seconds * second ≤ retryAt ↔ _
  rw [hnext]
  simp only [Option.some.injEq, exists_eq_left']
  have hsecond : 0 < seconds * second := Int.mul_pos hpos (by decide)
  by_cases h429 : response.status = 429
  · rw [if_pos h429] at hwait
    by_cases hfits : seconds * second < 2 ^ 63
    · -- the product is exact, and the retry comes no earlier
      rw [int64_eq (by omega) hfits] at hwait
      rw [hwait] at hretryAt
      refine ⟨fun _ => .inl ⟨h429, hfits⟩, fun _ => ?_⟩
      rw [hretryAt]
      split <;> omega
    · -- it wrapped around: what is left of it is always less
      have hless := int64_lt (seconds * second)
      rw [← hwait] at hless
      have hcut : ¬ (response.status = 429 ∧ seconds * second < 2 ^ 63) := fun h => hfits h.2
      simp only [hcut, false_or]
      rw [hretryAt]
      split <;> omega
  rw [if_neg h429] at hwait
  rw [hwait, if_neg (by omega)] at hretryAt
  rw [hretryAt]
  simp [h429]

def plainReader : Graph.Reader := { unmarshal := fun _ => none }

def bareAnswer (status : Int) (retryAfter : String) : HTTPResponse :=
  { status, retryAfter := ascii retryAfter }

def graphOptions : Graph.Options := { endpoint := ascii "https://g" }

def answering (response : HTTPResponse) : Graph.Service where
  token := fun _ => .ok (ascii "t")
  respond := fun _ => .ok (response.read plainReader)

def graphRunner (response : HTTPResponse) : Runner where
  workerID := ascii "w"
  transports := fun
    | .smtp => none
    | .graph => some (graphBackend graphOptions (answering response))
  backoff := {}

/-- All three rows are there, and the mailbox goes out through Graph. -/
def graphEnv : Env :=
  { healthyEnv with
    mailbox := fun id => .ok { id, address := ascii "a@x", transport := .graph } }

def deliverOn (response : HTTPResponse) : Except Err Unit × DB :=
  deliverAndCommit (graphRunner response) graphEnv {} claimedMessage claimedDB 5

def rowOn (response : HTTPResponse) : Option (MessageStatus × Int) :=
  ((deliverOn response).2.get claimedMessage.id).map fun row => (row.status, row.nextAttemptAt)

theorem graphRunner_answered (response : HTTPResponse) :
    ∃ p request, Answered (graphRunner response) graphEnv {} claimedMessage graphOptions
      (answering response) p request (response.read plainReader) :=
  ⟨_, _, rfl, rfl, rfl, rfl, rfl⟩

/-- 429 and an hour: the hour is kept to. -/
theorem hour_kept_on_429 :
    ∃ row, (deliverOn (bareAnswer 429 "3600")).2.get claimedMessage.id = some row ∧
      graphEnv.now + 3600 * second ≤ row.nextAttemptAt := by
  have hstatus : rowOn (bareAnswer 429 "3600") = some (.deferred, 3600 * second) := by
    decide +kernel
  obtain ⟨row, hrow, hdefer⟩ := map_eq_some_iff.1 hstatus
  obtain ⟨p, request, hanswered⟩ := graphRunner_answered (bareAnswer 429 "3600")
  refine ⟨row, hrow, ?_⟩
  exact (retryAfter_kept_iff hanswered (by decide) (by decide) (by decide) rfl hrow
    (Prod.mk.inj hdefer).1).2 (.inl (by decide))

/-- **A busy server that asks for an hour is asked again after a minute**, and so is one
that asks for more seconds than fit in a duration. -/
theorem hour_lost_on_503 :
    rowOn (bareAnswer 503 "3600") = some (.deferred, minute) ∧ minute < 3600 * second ∧
    rowOn (bareAnswer 429 "9223372037") = some (.deferred, minute) ∧
    (9223372037 : Int) < 2 ^ 63 ∧ minute < 9223372037 * second := by
  decide +kernel

end SmtpProxy.Queue
