import Mathlib.Data.List.Sort
import SmtpProxy.Store.Models

/-!
# The delivery queue's statements

`internal/store/messages.go` as functions on the two tables it writes. Every
operation is one SQL statement (or one transaction), executed atomically with
the clock reading it was given; it returns what the Go method returns and the
tables afterwards.

The lease operations (`ExtendLease`, `MarkSent`, `Defer`, `Fail`) share one `WHERE id =
? AND lease_owner = ?`, and the operator actions (`Requeue`, `Hold`) one `WHERE id = ?
AND status IN (…)`; each is that statement applied to its own assignment.
-/

namespace SmtpProxy.Store

open Lib

structure DB where
  messages : Table Bytes Message Message.id
  blobs : Table Bytes Blob Blob.messageID

def DB.empty : DB := ⟨.empty, .empty⟩

/-- The row of one message, `MessageRepo.Get` before error translation. -/
def DB.get (db : DB) (id : Bytes) : Option Message := db.messages.get id

def DB.update (db : DB) (p : Message → Bool) (set : Message → Message)
    (hset : ∀ m, (set m).id = m.id) : DB :=
  { db with messages := db.messages.updateWhere p set hset }

/-- `DELETE FROM messages WHERE p`; bodies follow through `ON DELETE CASCADE`. -/
def DB.delete (db : DB) (p : Message → Bool) : DB where
  messages := db.messages.deleteWhere p
  blobs := db.blobs.deleteWhere fun b => (db.get b.messageID).any p

/-- How many rows a condition selects, which is what `RowsAffected` reports. -/
def DB.count (db : DB) (p : Message → Bool) : Nat := (db.messages.rows.filter p).length

def requireOneRow (n : Nat) (what : Bytes) : Except Err Unit :=
  if n = 0 then .error (sentinelFor errNotFound what) else .ok ()

/-- `MessageRepo.requireAction`, on the tables after the statement: an operator
action that matched no row is a missing message or one in the wrong state. -/
def requireAction (db : DB) (n : Nat) (id : Bytes) : Except Err Unit :=
  if n > 0 then .ok ()
  else match db.get id with
    | none => .error (sentinelFor errNotFound (ascii "message " ++ id))
    | some _ => .error ⟨.sentinel errStateConflict, []⟩

/-! ## Enqueue -/

/-- The columns a caller of `Enqueue` fills in; `app.Submit` and
`EnqueueDiagnostic` leave every other field of the Go struct at its zero value. -/
structure Draft where
  id : Bytes := []
  smtpAccountID : Option Bytes := none
  mailboxID : Option Bytes := none
  accountUsername : Bytes := []
  mailboxAddress : Bytes := []
  envelopeFrom : Bytes := []
  headerFrom : Bytes := []
  recipients : List Bytes := []
  sizeBytes : Nat := 0
  subject : Bytes := []
  messageID : Bytes := []
  clientIP : Bytes := []
  receivedAt : Int := 0
  origin : Origin := .smtp

/-- The Go struct literal the caller builds. -/
def Draft.message (d : Draft) : Message where
  id := d.id
  smtpAccountID := d.smtpAccountID
  mailboxID := d.mailboxID
  accountUsername := d.accountUsername
  mailboxAddress := d.mailboxAddress
  envelopeFrom := d.envelopeFrom
  headerFrom := d.headerFrom
  recipients := d.recipients
  sizeBytes := d.sizeBytes
  subject := d.subject
  messageID := d.messageID
  clientIP := d.clientIP
  receivedAt := d.receivedAt
  origin := d.origin

/-- The defaults `enqueueTx` fills in before the insert. `status` is `none` for
an empty `Status`; `newID` is the identifier `NewID` would generate. -/
def enqueueDefaults (now : Int) (newID : Bytes) (status : Option MessageStatus)
    (m : Message) : Message :=
  { m with
    id := if m.id = [] then newID else m.id
    receivedAt := if m.receivedAt = 0 then now else m.receivedAt
    nextAttemptAt := if m.nextAttemptAt = 0 then now else m.nextAttemptAt
    updatedAt := now
    status := status.getD .queued
    recipientCount := m.recipients.length }

/-- `MessageRepo.Enqueue`: the row and its body in one transaction, rolled back
as a whole. -/
def enqueue (db : DB) (now : Int) (newID : Bytes) (status : Option MessageStatus)
    (m : Message) (body : Option Bytes) : Except Err Bytes × DB :=
  let row := enqueueDefaults now newID status m
  match db.messages.insert row with
  | none => (.error (sentinelFor errConflict (ascii "message " ++ row.id)), db)
  | some messages =>
    match body with
    | none => (.ok row.id, { db with messages := messages })
    | some content =>
      match db.blobs.insert ⟨row.id, content⟩ with
      | none => (.error (.new (ascii "store: storing the message body")), db)
      | some blobs => (.ok row.id, ⟨messages, blobs⟩)

/-! ## Claiming -/

def claimable (now : Int) (m : Message) : Bool :=
  ((decide (m.status = .queued ∨ m.status = .deferred) && decide (m.nextAttemptAt ≤ now))
    || (decide (m.status = .sending) && m.leaseExpiresAt.any fun e => decide (e < now)))
  && (m.leaseOwner.isNone || m.leaseExpiresAt.isNone
    || m.leaseExpiresAt.any fun e => decide (e < now))

/-- An implementation of `ORDER BY next_attempt_at`: SQL leaves the order of
rows with equal keys open, so the engine's choice is a parameter. -/
structure RowOrder where
  sort : List Message → List Message
  perm : ∀ l, (sort l).Perm l
  sorted : ∀ l, (sort l).Pairwise fun a b => a.nextAttemptAt ≤ b.nextAttemptAt

/-- Ordering by `next_attempt_at` with ties in table order. -/
def byNextAttempt : RowOrder where
  sort := List.insertionSort fun a b => a.nextAttemptAt ≤ b.nextAttemptAt
  perm := List.perm_insertionSort _
  sorted := by
    intro l
    have : Std.Total fun a b : Message => a.nextAttemptAt ≤ b.nextAttemptAt :=
      ⟨fun a b => Int.le_total _ _⟩
    have : IsTrans Message fun a b => a.nextAttemptAt ≤ b.nextAttemptAt :=
      ⟨fun a b c => Int.le_trans⟩
    exact List.pairwise_insertionSort _ l

/-- The ids the sub-select returns: `ORDER BY next_attempt_at LIMIT limit`. -/
def claimIDs (o : RowOrder) (db : DB) (now : Int) (limit : Int) : List Bytes :=
  ((o.sort (db.messages.rows.filter (claimable now))).take limit.toNat).map Message.id

def leaseTo (owner : Bytes) (until_ now : Int) (m : Message) : Message :=
  { m with
    status := .sending
    leaseOwner := some owner
    leaseExpiresAt := some until_
    updatedAt := now }

def claimUpdate (o : RowOrder) (db : DB) (now : Int) (owner : Bytes) (limit : Int)
    (leaseFor : Int) : DB :=
  db.update (fun m => (claimIDs o db now limit).contains m.id)
    (leaseTo owner (now + leaseFor) now) fun _ => rfl

/-- The `WHERE` of the second statement: `lease_owner = ? AND lease_expires_at = ?
AND status = 'sending'`. -/
def holdsLease (owner : Bytes) (until_ : Int) (m : Message) : Bool :=
  decide (m.leaseOwner = some owner) && decide (m.leaseExpiresAt = some until_)
    && decide (m.status = .sending)

/-- The second statement, which reads back what the worker now owns. -/
def readBack (o : RowOrder) (db : DB) (owner : Bytes) (until_ : Int) : List Message :=
  o.sort (db.messages.rows.filter (holdsLease owner until_))

def claimMessages (o : RowOrder) (db : DB) (now : Int) (owner : Bytes) (limit : Int)
    (leaseFor : Int) : Except Err (List Message) × DB :=
  if owner = [] then
    (.error (.new (ascii "store: claiming requires a worker identity")), db)
  else if limit ≤ 0 then (.ok [], db)
  else
    let db' := claimUpdate o db now owner limit leaseFor
    -- nothing claimed: the read-back is skipped
    if db.count (fun m => (claimIDs o db now limit).contains m.id) = 0 then (.ok [], db')
    else (.ok (readBack o db' owner (now + leaseFor)), db')

/-! ## Statements guarded by the lease owner -/

def updateLeased (db : DB) (id owner : Bytes) (set : Message → Message)
    (hset : ∀ m, (set m).id = m.id) : Except Err Unit × DB :=
  let p := fun m : Message => decide (m.id = id) && decide (m.leaseOwner = some owner)
  (requireOneRow (db.count p) (ascii "lease on message " ++ id), db.update p set hset)

def extendSet (now : Int) (leaseFor : Int) (m : Message) : Message :=
  { m with leaseExpiresAt := some (now + leaseFor), updatedAt := now }

def sentSet (now : Int) (m : Message) : Message :=
  { m with
    status := .sent
    sentAt := some now
    updatedAt := now
    attempts := m.attempts + 1
    leaseOwner := none
    leaseExpiresAt := none
    lastError := []
    lastErrorCode := [] }

/-- The assignment of `Defer`; the failure's own `Permanent` is not stored. -/
def deferSet (now : Int) (f : Failure) (retryAt : Int) (m : Message) : Message :=
  { m with
    status := .deferred
    attempts := m.attempts + 1
    nextAttemptAt := retryAt
    lastError := f.message
    lastErrorCode := f.code
    lastErrorPermanent := false
    leaseOwner := none
    leaseExpiresAt := none
    updatedAt := now }

def failSet (now : Int) (f : Failure) (m : Message) : Message :=
  { m with
    status := .failed
    attempts := m.attempts + 1
    lastError := f.message
    lastErrorCode := f.code
    lastErrorPermanent := f.permanent
    leaseOwner := none
    leaseExpiresAt := none
    updatedAt := now }

def extendLease (db : DB) (now : Int) (id owner : Bytes) (leaseFor : Int) :
    Except Err Unit × DB :=
  updateLeased db id owner (extendSet now leaseFor) fun _ => rfl

def markSent (db : DB) (now : Int) (id owner : Bytes) : Except Err Unit × DB :=
  updateLeased db id owner (sentSet now) fun _ => rfl

def deferMessage (db : DB) (now : Int) (id owner : Bytes) (f : Failure) (retryAt : Int) :
    Except Err Unit × DB :=
  updateLeased db id owner (deferSet now f retryAt) fun _ => rfl

def failMessage (db : DB) (now : Int) (id owner : Bytes) (f : Failure) :
    Except Err Unit × DB :=
  updateLeased db id owner (failSet now f) fun _ => rfl

/-! ## Operator actions -/

/-- `UPDATE messages SET … WHERE id = ? AND status IN (…)`. -/
def updateInStatus (db : DB) (id : Bytes) (statuses : List MessageStatus)
    (set : Message → Message) (hset : ∀ m, (set m).id = m.id) : Except Err Unit × DB :=
  let p := fun m : Message => decide (m.id = id) && statuses.contains m.status
  let db' := db.update p set hset
  (requireAction db' (db.count p) id, db')

def requeueSet (now : Int) (m : Message) : Message :=
  { m with
    status := .queued
    nextAttemptAt := now
    updatedAt := now
    leaseOwner := none
    leaseExpiresAt := none }

def holdSet (now : Int) (m : Message) : Message :=
  { m with
    status := .held
    updatedAt := now
    leaseOwner := none
    leaseExpiresAt := none }

def requeue (db : DB) (now : Int) (id : Bytes) : Except Err Unit × DB :=
  updateInStatus db id [.failed, .deferred, .held] (requeueSet now) fun _ => rfl

def hold (db : DB) (now : Int) (id : Bytes) : Except Err Unit × DB :=
  updateInStatus db id [.queued, .deferred, .failed] (holdSet now) fun _ => rfl

def deleteMessage (db : DB) (id : Bytes) : Except Err Unit × DB :=
  let p := fun m : Message => decide (m.id = id) && decide (m.status ≠ .sending)
  let db' := db.delete p
  (requireAction db' (db.count p) id, db')

/-! ## Housekeeping -/

def leaseExpired (now : Int) (m : Message) : Bool :=
  decide (m.status = .sending) && m.leaseExpiresAt.any fun e => decide (e < now)

def releaseSet (now : Int) (m : Message) : Message :=
  { m with
    status := .queued
    leaseOwner := none
    leaseExpiresAt := none
    updatedAt := now }

def releaseExpiredLeases (db : DB) (now : Int) : Nat × DB :=
  (db.count (leaseExpired now), db.update (leaseExpired now) (releaseSet now) fun _ => rfl)

def purgeable (sentBefore failedBefore : Int) (m : Message) : Bool :=
  (decide (m.status = .sent) && decide (m.updatedAt < sentBefore))
    || (decide (m.status = .failed) && decide (m.updatedAt < failedBefore))

def purge (db : DB) (sentBefore failedBefore : Int) : Nat × DB :=
  (db.count (purgeable sentBefore failedBefore), db.delete (purgeable sentBefore failedBefore))

/-! ## Listings -/

/-- The status as the column holds it. -/
def MessageStatus.text : MessageStatus → Bytes
  | .queued => ascii "queued"
  | .sending => ascii "sending"
  | .sent => ascii "sent"
  | .deferred => ascii "deferred"
  | .failed => ascii "failed"
  | .held => ascii "held"

/-- `MessageFilter`. Statuses that there are not match nothing. -/
structure MessageFilter where
  status : List Bytes := []
  mailboxID : Bytes := []
  accountID : Bytes := []
  search : Bytes := []
  since : Int := 0
  until_ : Int := 0
  limit : Int := 0
  offset : Int := 0
  deriving DecidableEq

/-- What the database makes of texts: `LIKE`, and the column of recipients. -/
structure SQLText where
  like : (column pattern : Bytes) → Bool
  recipients : List Bytes → Bytes

def MessageFilter.selects (f : MessageFilter) (sql : SQLText) (m : Message) : Bool :=
  let pattern := ascii "%" ++ f.search ++ ascii "%"
  (f.status.isEmpty || f.status.contains m.status.text) &&
  (f.mailboxID.isEmpty || decide (m.mailboxID = some f.mailboxID)) &&
  (f.accountID.isEmpty || decide (m.smtpAccountID = some f.accountID)) &&
  (f.search.isEmpty || sql.like m.envelopeFrom pattern || sql.like m.headerFrom pattern ||
    sql.like (sql.recipients m.recipients) pattern) &&
  (decide (f.since = 0) || decide (f.since ≤ m.receivedAt)) &&
  (decide (f.until_ = 0) || decide (m.receivedAt ≤ f.until_))

/-- How many entries a page has, whatever was asked for. -/
def pageSize (limit : Int) : Int := if limit ≤ 0 ∨ limit > 500 then 100 else limit

/-- `MessageRepo.List`: the newest first. No caller gives a negative offset. -/
def listMessages (db : DB) (sql : SQLText) (f : MessageFilter) : List Message :=
  (((db.messages.rows.filter (f.selects sql)).insertionSort fun a b =>
    b.receivedAt < a.receivedAt ∨ a.receivedAt = b.receivedAt ∧ b.id ≤ a.id).drop f.offset.toNat).take
      (pageSize f.limit).toNat

def countMessages (db : DB) (sql : SQLText) (f : MessageFilter) : Nat := db.count (f.selects sql)

end SmtpProxy.Store
