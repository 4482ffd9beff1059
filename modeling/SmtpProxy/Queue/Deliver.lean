import SmtpProxy.Queue.Backoff
import SmtpProxy.Store.RowLaws
import SmtpProxy.Transport.Relay

/-!
# One delivery

`Runner.deliver`, `prepare` and `recordFailure` of `internal/queue/worker.go`.
An execution loads what it needs, waits for the mailbox's budget, sends, and
records the outcome. What the database and the transport answer is a parameter
(`Env`), and so is the moment at which the context is cancelled; the outcome
write acts on whatever the tables hold when it is made. Log lines and metrics are left out.
-/

namespace SmtpProxy.Queue

open Lib Store Transport

/-- A transport as the worker sees it. -/
structure Backend where
  name : Bytes
  send : Ctx → Transport.Message → Option Err

/-- The parts of the runner's options a delivery uses. -/
structure Runner where
  workerID : Bytes
  transports : Store.Transport → Option Backend
  backoff : Backoff

/-- What a delivery meets: the answers of the three loads, whether `Acquire` gets
through although the context is done (its `select` may take either ready case),
the clock when the outcome is decided, and the jitter's random value. -/
structure Env where
  mailbox : Bytes → Except DBError Mailbox
  credential : Bytes → Except DBError OAuthCredential
  body : Bytes → Except DBError Bytes
  acquireAnyway : Bool := false
  now : Int := 0
  random : ℚ := 0

def healthyEnv : Env where
  mailbox := fun id => .ok { id, address := ascii "a@x" }
  credential := fun id => .ok { id }
  body := fun _ => .ok (ascii "To: r@y\r\n\r\nhi")

/-- A query: `database/sql` returns the context's error without executing it
when the context is done. -/
def query {α : Type} (ctx : Ctx) (stage : Stage) (what : Bytes) (result : Except DBError α) :
    Except Err α :=
  if ctx.done stage then .error (translateError (.other errCanceled) what)
  else result.mapError fun e => translateError e what

def Env.getMailbox (env : Env) (ctx : Ctx) (id : Bytes) : Except Err Mailbox :=
  query ctx .mailbox (ascii "mailbox " ++ id) (env.mailbox id)

def Env.getCredential (env : Env) (ctx : Ctx) (id : Bytes) : Except Err OAuthCredential :=
  query ctx .credential (ascii "credential " ++ id) (env.credential id)

def Env.getBody (env : Env) (ctx : Ctx) (id : Bytes) : Except Err Bytes :=
  query ctx .body (ascii "body of message " ++ id) (env.body id)

def prepare (env : Env) (ctx : Ctx) (m : Store.Message) : Except Err Transport.Message :=
  match m.mailboxID with
  | none => .error (.new (ascii "the message is not associated with a mailbox"))
  | some mailboxID =>
    match env.getMailbox ctx mailboxID with
    | .error e => .error (.wrap (ascii "loading the mailbox: " ++ e.text) e)
    | .ok mailbox =>
      if ¬ mailbox.enabled then
        .error (.new (ascii "the mailbox " ++ mailbox.address ++ ascii " is disabled"))
      else
        match env.getCredential ctx mailbox.oauthCredentialID with
        | .error e =>
          .error (.wrap
            (ascii "loading the credential for " ++ mailbox.address ++ ascii ": " ++ e.text) e)
        | .ok credential =>
          match env.getBody ctx m.id with
          | .error e => .error (.wrap (ascii "loading the message body: " ++ e.text) e)
          | .ok body => .ok ⟨m.id, mailbox, credential, m.recipients, body⟩

/-! ## Recording the outcome -/

inductive Outcome where
  | sent
  | deferred (f : Failure) (retryAt : Int)
  | failed (f : Failure)
  deriving DecidableEq

def Outcome.status : Outcome → MessageStatus
  | .sent => .sent
  | .deferred _ _ => .deferred
  | .failed _ => .failed

def Outcome.op (id owner : Bytes) : Outcome → Op
  | .sent => .markSent id owner
  | .deferred f retryAt => .defer id owner f retryAt
  | .failed f => .fail id owner f

/-- `Runner.recordFailure`: permanent, out of attempts or time, or another try. -/
def recordFailure (b : Backoff) (random : ℚ) (now : Int) (m : Store.Message) (sendErr : Err) :
    Outcome :=
  let failure := asFailure sendErr
  let attempts : Int := m.attempts + 1
  if isPermanent sendErr then .failed failure
  else
    match b.nextAttemptAfter random now attempts m.receivedAt (retryAfter sendErr) with
    | none =>
      .failed { failure with
        permanent := true
        message := ascii "giving up after " ++ itoa attempts ++ ascii " attempts: " ++
          failure.message }
    | some retryAt => .deferred failure retryAt

/-- The label `deliver` hands to the metrics recorder after a `Send`. -/
inductive DeliveryLabel where
  | sent
  | failed
  | deferred
  deriving DecidableEq

def outcomeFor (e : Err) : DeliveryLabel := if isPermanent e then .failed else .deferred

def prepareFailure (e : Err) : Err := newPermanent (ascii "proxy") e.text (some e)

/-- The text of a mailbox's transport, quoted as `%q` does. -/
def quotedTransport : Store.Transport → Bytes
  | .smtp => ascii "\"smtp\""
  | .graph => ascii "\"graph\""

/-- The error for a mailbox whose transport is not configured. -/
def noTransport (t : Store.Transport) : Err :=
  newPermanent (ascii "proxy") (ascii "no transport is configured for " ++ quotedTransport t) none

/-- What one execution did: the result of `Send`, if it was called, the outcome
it goes on to write, and the metric it reports. -/
structure Delivered where
  sendResult : Option (Option Err) := none
  outcome : Option Outcome := none
  metric : Option DeliveryLabel := none

def deliver (r : Runner) (env : Env) (ctx : Ctx) (m : Store.Message) : Delivered :=
  let failure := recordFailure r.backoff env.random env.now m
  match prepare env ctx m with
  | .error e => { outcome := some (failure (prepareFailure e)) }
  | .ok prepared =>
    -- shutting down: the message stays claimed and its lease runs out
    if ctx.done .acquire && !env.acquireAnyway then {}
    else
      match r.transports prepared.mailbox.transport with
      | none => { outcome := some (failure (noTransport prepared.mailbox.transport)) }
      | some backend =>
        match backend.send ctx prepared with
        | none => { sendResult := some none, outcome := some .sent, metric := some .sent }
        | some e =>
          { sendResult := some (some e), outcome := some (failure e), metric := some (outcomeFor e) }

def Outcome.exec (db : DB) (now : Int) (id owner : Bytes) : Outcome → Except Err Unit × DB
  | .sent => markSent db now id owner
  | .deferred f retryAt => deferMessage db now id owner f retryAt
  | .failed f => failMessage db now id owner f

/-- The outcome write, on the tables as they are when it is made. -/
def commit (ctx : Ctx) (db : DB) (now : Int) (id owner : Bytes) (outcome : Option Outcome) :
    Except Err Unit × DB :=
  match outcome with
  | none => (.ok (), db)
  | some w => if ctx.done .outcome then (.error errCanceled, db) else w.exec db now id owner

/-! ## What `commit` does -/

def Owns (db : DB) (id owner : Bytes) : Prop :=
  ∃ row, db.get id = some row ∧ row.leaseOwner = some owner

def Outcome.set (now : Int) : Outcome → Store.Message → Store.Message
  | .sent => sentSet now
  | .deferred f retryAt => deferSet now f retryAt
  | .failed f => failSet now f

theorem Outcome.set_id (now : Int) (w : Outcome) (m : Store.Message) : (w.set now m).id = m.id := by
  cases w <;> rfl

theorem Outcome.set_status (now : Int) (w : Outcome) (m : Store.Message) :
    (w.set now m).status = w.status := by
  cases w <;> rfl

theorem Outcome.exec_eq (db : DB) (now : Int) (id owner : Bytes) (w : Outcome) :
    w.exec db now id owner = updateLeased db id owner (w.set now) (w.set_id now) := by
  cases w <;> rfl

theorem Outcome.exec_op (o : RowOrder) (db : DB) (now : Int) (id owner : Bytes) (w : Outcome) :
    (w.exec db now id owner).2 = (Store.exec o db now (w.op id owner)).2 := by
  cases w <;> rfl

variable {now : Int}

theorem commit_ok_iff {ctx : Ctx} {db : DB} {id owner : Bytes} {w : Outcome} :
    (commit ctx db now id owner (some w)).1 = .ok () ↔
      ctx.done .outcome = false ∧ Owns db id owner := by
  unfold commit
  cases hc : ctx.done .outcome with
  | true => simp
  | false =>
    simp only [Bool.false_eq_true, if_false, true_and, w.exec_eq]
    exact updateLeased_ok_iff

theorem commit_row {ctx : Ctx} {db : DB} {id owner : Bytes} {w : Outcome}
    (h : (commit ctx db now id owner (some w)).1 = .ok ()) :
    ∃ row, db.get id = some row ∧
      (commit ctx db now id owner (some w)).2.get id = some (w.set now row) := by
  obtain ⟨hc, row, hrow, hown⟩ := commit_ok_iff.1 h
  refine ⟨row, hrow, ?_⟩
  simp only [commit, hc, Bool.false_eq_true, if_false, w.exec_eq]
  rw [updateLeased_get, hrow, Option.map_some, whenLeased, if_pos ⟨get_id hrow, hown⟩]

theorem commit_unchanged {ctx : Ctx} {db : DB} {id owner : Bytes} {w : Outcome}
    (h : (commit ctx db now id owner (some w)).1 ≠ .ok ()) (k : Bytes) :
    (commit ctx db now id owner (some w)).2.get k = db.get k := by
  rw [Ne, commit_ok_iff] at h
  unfold commit
  cases hc : ctx.done .outcome with
  | true => rfl
  | false =>
    simp only [Bool.false_eq_true, if_false, w.exec_eq]
    exact updateLeased_lost (fun hown => h ⟨hc, hown⟩) k

/-! ## The courses of a delivery -/

/-- The ways an execution of `deliver` can go. -/
inductive Course (r : Runner) (env : Env) (ctx : Ctx) (m : Store.Message) : Delivered → Prop where
  | unprepared {e : Err} (hp : prepare env ctx m = .error e) :
      Course r env ctx m
        { outcome := some (recordFailure r.backoff env.random env.now m (prepareFailure e)) }
  | shutDown {p : Transport.Message} (hp : prepare env ctx m = .ok p)
      (hdone : ctx.done .acquire = true) : Course r env ctx m {}
  | unroutable {p : Transport.Message} (hp : prepare env ctx m = .ok p)
      (hb : r.transports p.mailbox.transport = none) :
      Course r env ctx m
        { outcome := some
            (recordFailure r.backoff env.random env.now m (noTransport p.mailbox.transport)) }
  | accepted {p : Transport.Message} {b : Backend} (hp : prepare env ctx m = .ok p)
      (hb : r.transports p.mailbox.transport = some b) (hs : b.send ctx p = none) :
      Course r env ctx m
        { sendResult := some none, outcome := some .sent, metric := some .sent }
  | refused {p : Transport.Message} {b : Backend} {e : Err} (hp : prepare env ctx m = .ok p)
      (hb : r.transports p.mailbox.transport = some b) (hs : b.send ctx p = some e) :
      Course r env ctx m
        { sendResult := some (some e)
          outcome := some (recordFailure r.backoff env.random env.now m e)
          metric := some (outcomeFor e) }

theorem deliver_course (r : Runner) (env : Env) (ctx : Ctx) (m : Store.Message) :
    Course r env ctx m (deliver r env ctx m) := by
  unfold deliver
  dsimp only
  split
  · next hp => exact .unprepared hp
  next hp =>
  split
  · next hacq => exact .shutDown hp (Bool.and_eq_true_iff.1 hacq).1
  split
  · next hb => exact .unroutable hp hb
  next hb =>
  split
  · next hs => exact .accepted hp hb hs
  · next hs => exact .refused hp hb hs

theorem recordFailure_permanent {b : Backoff} {random : ℚ} {m : Store.Message} {e : Err}
    (h : isPermanent e = true) : recordFailure b random now m e = .failed (asFailure e) := by
  simp [recordFailure, h]

theorem recordFailure_cases (b : Backoff) (random : ℚ) (now : Int) (m : Store.Message) (e : Err) :
    ((recordFailure b random now m e).status = .failed ∧ (isPermanent e = true ∨
      b.nextAttemptAfter random now (m.attempts + 1) m.receivedAt (retryAfter e) = none)) ∨
    (recordFailure b random now m e).status = .deferred := by
  unfold recordFailure
  dsimp only
  split
  · next h => exact .inl ⟨rfl, .inl h⟩
  split
  · next h => exact .inl ⟨rfl, .inr h⟩
  · exact .inr rfl

theorem recordFailure_deferred {b : Backoff} (random : ℚ) (now : Int) {m : Store.Message} (e : Err)
    (hpos : 0 < b.maxAttempts) (h : (recordFailure b random now m e).status = .deferred) :
    (m.attempts : Int) + 1 < b.maxAttempts := by
  by_contra hge
  have hgive : b.nextAttemptAfter random now (m.attempts + 1) m.receivedAt (retryAfter e) = none :=
    Backoff.nextAttemptAfter_exhausted hpos (by omega)
  unfold recordFailure at h
  simp only [hgive] at h
  split at h <;> simp [Outcome.status] at h

end SmtpProxy.Queue
