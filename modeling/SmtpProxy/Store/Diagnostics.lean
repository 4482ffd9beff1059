import SmtpProxy.Store.Config
import SmtpProxy.Store.Rows
import SmtpProxy.Store.Users

/-!
# Test sends

`EnqueueDiagnostic` of `internal/store/diagnostics.go`: one transaction that reserves the pair
of an actor and a request id, puts a message in the queue, and writes the audit row. A
repeated request finds the reservation and is given the message it made.

Each statement of the transaction may fail; then all of it is rolled back. A reservation is
never deleted, but it forgets its message when that is deleted from the queue
(`ON DELETE SET NULL`).

`History` keeps, beside the tables, what the calls returned and which messages were removed. The
ledger of a pair (`Ledger`) says what its reservation has to do with that: there is none while
no call has succeeded; from the call that created the message on, there is one with its mailbox
and recipient, and every call that succeeds returns its id.
-/

namespace SmtpProxy.Store

open Lib List Option Table

structure DiagnosticRequest where
  actorID : Bytes
  requestID : Bytes
  mailboxID : Bytes
  recipient : Bytes
  messageID : Option Bytes := none
  createdAt : Int
  deriving DecidableEq

def DiagnosticRequest.key (r : DiagnosticRequest) : Bytes × Bytes := (r.actorID, r.requestID)

def DiagnosticRequest.setMessage (id : Option Bytes) (r : DiagnosticRequest) : DiagnosticRequest :=
  { r with messageID := id }

theorem DiagnosticRequest.setMessage_key (id : Option Bytes) (r : DiagnosticRequest) :
    (r.setMessage id).key = r.key := rfl

structure AuditEntry where
  id : Bytes
  at_ : Int
  actorType : Bytes
  actorID : Bytes
  actorName : Bytes
  action : Bytes
  targetType : Bytes
  targetID : Bytes
  targetName : Bytes
  details : Bytes
  result : Bytes
  ip : Bytes
  userAgent : Bytes
  deriving DecidableEq

abbrev RequestTable := Table (Bytes × Bytes) DiagnosticRequest DiagnosticRequest.key

/-- The tables the transaction reads and writes. -/
structure DiagnosticsDB where
  queue : DB
  requests : RequestTable
  audit : Table Bytes AuditEntry AuditEntry.id
  config : Config
  admin : AdminDB

/-- What can fail in the transaction. -/
inductive DiagnosticStatement where
  | begin
  | reserve
  | readReservation
  | recheckMailbox
  | insertMessage
  | insertBody
  | linkMessage
  | readActor
  | insertAudit
  | commit
  deriving DecidableEq

/-- The arguments of a call, and the identifiers `NewID` generates in it. -/
structure DiagnosticCall where
  actorID : Bytes
  requestID : Bytes
  mailboxID : Bytes
  recipient : Bytes
  draft : Draft
  body : Option Bytes
  newID : Bytes
  auditID : Bytes

def DiagnosticCall.key (c : DiagnosticCall) : Bytes × Bytes := (c.actorID, c.requestID)

def DiagnosticCall.message (c : DiagnosticCall) : Message :=
  { c.draft.message with
    origin := .diagnostic
    smtpAccountID := none
    accountUsername := []
    mailboxID := nullString c.mailboxID }

def stateConflict : Err := ⟨.sentinel errStateConflict, []⟩

/-- The mailbox and its credential, joined. -/
def Config.mailboxCredential (config : Config) (mailboxID : Bytes) :
    Option (MailboxRow × CredentialRow) := do
  let m ← config.mailboxes.get mailboxID
  let c ← config.credentials.get m.oauthCredentialID
  some (m, c)

/-- Whether the recheck of the mailbox lets a message through. The transport is one of the two
the code asks for, as the column holds no other. -/
def usable (m : MailboxRow) (c : CredentialRow) (mailboxAddress : Bytes) : Bool :=
  m.enabled && decide (m.address = mailboxAddress) &&
    match c.authType with
    | .secret => decide (c.clientSecretEnc ≠ [])
    | .certificate => decide (c.certificatePEM ≠ [] ∧ c.certificateKeyEnc ≠ [])

/-- `MaskSecrets`, on the details of a test send. -/
abbrev MaskSecrets := List (Bytes × Bytes) → Bytes

variable (maskSecrets : MaskSecrets) (env : DiagnosticStatement → Fate)

/-- The outcome of a statement that does not depend on the tables. -/
def attempt (stmt : DiagnosticStatement) (what : Err → Err) : Except Err Unit :=
  match (env stmt).failure with
  | some e => .error (what e)
  | none => .ok ()

def DiagnosticCall.auditEntry (c : DiagnosticCall) (now : Int) (actorName address messageID : Bytes) :
    AuditEntry where
  id := c.auditID
  at_ := now
  actorType := ascii "user"
  actorID := c.actorID
  actorName := actorName
  action := ascii "mailbox.test_send"
  targetType := ascii "mailbox"
  targetID := c.mailboxID
  targetName := address
  details := maskSecrets [(ascii "messageId", messageID), (ascii "requestId", c.requestID),
    (ascii "recipient", c.recipient)]
  result := ascii "success"
  ip := []
  userAgent := []

/-- What a call finds when the pair is reserved already. -/
def repeated (c : DiagnosticCall) (db : DiagnosticsDB) :
    Except Err ((Bytes × Bool) × DiagnosticsDB) :=
  attempt env .readReservation id >>= fun _ =>
  match db.requests.get c.key with
  | none => .error (.new (ascii "sql: no rows in result set"))
  | some saved =>
    if saved.mailboxID ≠ c.mailboxID ∨ saved.recipient ≠ c.recipient then .error stateConflict
    else
      match saved.messageID with
      | none => .error stateConflict
      | some id => .ok ((id, false), db)

def recheckMailbox (c : DiagnosticCall) (db : DiagnosticsDB) : Except Err MailboxRow :=
  attempt env .recheckMailbox id >>= fun _ =>
  match db.config.mailboxCredential c.mailboxID with
  | none => .error (translateError .noRows (ascii "diagnostic mailbox"))
  | some (mailbox, credential) =>
    if usable mailbox credential c.message.mailboxAddress then .ok mailbox
    else .error stateConflict

def enqueueTx (c : DiagnosticCall) (queue : DB) : Except Err (Bytes × DB) :=
  attempt env .insertMessage id >>= fun _ =>
  (if c.body.isSome then
    attempt env .insertBody (wrapping (ascii "store: storing the message body"))
  else .ok ()) >>= fun _ =>
  match enqueue queue (env .insertMessage).now c.newID none c.message c.body with
  | (.error e, _) => .error e
  | (.ok id, queue') => .ok (id, queue')

def linkMessage (c : DiagnosticCall) (id : Bytes) (requests : RequestTable) :
    Except Err RequestTable :=
  attempt env .linkMessage (fun e => e) >>= fun _ =>
  .ok (requests.updateWhere (fun r => decide (r.key = c.key))
    (DiagnosticRequest.setMessage (some id)) (DiagnosticRequest.setMessage_key (some id)))

/-- The audit row, under the actor's name if there is such a user. -/
def auditSend (c : DiagnosticCall) (db : DiagnosticsDB) (address id : Bytes) :
    Except Err (Table Bytes AuditEntry AuditEntry.id) :=
  attempt env .readActor (fun e => e) >>= fun _ =>
  attempt env .insertAudit (fun e => e) >>= fun _ =>
  let actorName := ((db.admin.users.get c.actorID).map AdminUser.username).getD c.actorID
  match db.audit.insert (c.auditEntry maskSecrets (env .insertAudit).now actorName address id) with
  | none => .error (.new (ascii "UNIQUE constraint failed: audit_logs.id"))
  | some audit => .ok audit

def reserved (c : DiagnosticCall) (db : DiagnosticsDB) (requests : RequestTable) :
    Except Err ((Bytes × Bool) × DiagnosticsDB) := do
  let mailbox ← recheckMailbox env c db
  let queued ← enqueueTx env c db.queue
  let requests ← linkMessage env c queued.1 requests
  let audit ← auditSend maskSecrets env c db mailbox.address queued.1
  pure ((queued.1, true), { db with queue := queued.2, requests, audit })

def DiagnosticCall.request (c : DiagnosticCall) (now : Int) : DiagnosticRequest where
  actorID := c.actorID
  requestID := c.requestID
  mailboxID := c.mailboxID
  recipient := c.recipient
  createdAt := now

/-- The function `EnqueueDiagnostic` runs in its transaction. -/
def enqueueDiagnosticTx (c : DiagnosticCall) (db : DiagnosticsDB) :
    Except Err ((Bytes × Bool) × DiagnosticsDB) :=
  attempt env .reserve id >>= fun _ =>
  match db.requests.insert (c.request (env .reserve).now) with
  | none => repeated env c db
  | some requests => reserved maskSecrets env c db requests

def inTx {α : Type} (fn : DiagnosticsDB → Except Err (α × DiagnosticsDB)) (db : DiagnosticsDB) :
    Except Err (α × DiagnosticsDB) := do
  attempt env .begin (wrapping (ascii "store: begin transaction"))
  let done ← fn db
  attempt env .commit (wrapping (ascii "store: commit"))
  pure done

/-- `EnqueueDiagnostic`: the id and whether the message was created, and the tables
afterwards. -/
def enqueueDiagnostic (c : DiagnosticCall) (db : DiagnosticsDB) :
    Except Err (Bytes × Bool) × DiagnosticsDB :=
  match inTx env (enqueueDiagnosticTx maskSecrets env c) db with
  | .error e => (.error e, db)
  | .ok (result, db') => (.ok result, db')

/-! ## What a call can do -/

/-- The bodies after a message with this body, if it has one, was stored. -/
def BodyStored (blobs blobs' : Table Bytes Blob Blob.messageID) (id : Bytes) : Option Bytes → Prop
  | none => blobs' = blobs
  | some content => blobs.insert ⟨id, content⟩ = some blobs'

structure Created (c : DiagnosticCall) (id : Bytes) (db db' : DiagnosticsDB) : Prop where
  /-- The pair was free. -/
  free : db.requests.get c.key = none
  /-- The message is the only change to the queue. -/
  message : ∃ now, (enqueueDefaults now c.newID none c.message).id = id ∧
    db.queue.messages.insert (enqueueDefaults now c.newID none c.message) =
      some db'.queue.messages
  body : BodyStored db.queue.blobs db'.queue.blobs id c.body
  /-- The reservation is the only change to the reservations. -/
  reservation : ∃ now, db'.requests.get c.key = some ⟨c.actorID, c.requestID, c.mailboxID,
    c.recipient, some id, now⟩
  others : ∀ key, key ≠ c.key → db'.requests.get key = db.requests.get key
  /-- The audit row is the only change to the audit log. -/
  audited : ∃ now actorName address, db.audit.insert
    (c.auditEntry maskSecrets now actorName address id) = some db'.audit
  config : db'.config = db.config
  admin : db'.admin = db.admin

variable {maskSecrets env} {c : DiagnosticCall} {db db' : DiagnosticsDB}

theorem attempt_undisturbed {stmt : DiagnosticStatement} (what : Err → Err)
    (h : (env stmt).failure = none) : attempt env stmt what = .ok () := by
  unfold attempt
  rw [h]

variable {result : (Bytes × Bool) × DiagnosticsDB}

theorem repeated_ok (h : repeated env c db = .ok result) :
    ∃ saved id, db.requests.get c.key = some saved ∧ saved.mailboxID = c.mailboxID ∧
      saved.recipient = c.recipient ∧ saved.messageID = some id ∧ result = ((id, false), db) := by
  obtain ⟨-, -, h⟩ := Err.bind_ok.1 h
  split at h
  · cases h
  next saved hsaved =>
  split at h
  · cases h
  next hsame =>
  simp only [not_or, not_not] at hsame
  split at h
  · cases h
  next id hid => exact ⟨saved, id, hsaved, hsame.1, hsame.2, hid, (Except.ok.inj h).symm⟩

theorem enqueue_ok {queue queue' : DB} {now : Int} {newID id : Bytes} {m : Message}
    {body : Option Bytes} (h : enqueue queue now newID none m body = (.ok id, queue')) :
    (enqueueDefaults now newID none m).id = id ∧
      queue.messages.insert (enqueueDefaults now newID none m) = some queue'.messages ∧
      BodyStored queue.blobs queue'.blobs id body := by
  unfold enqueue at h
  dsimp only at h
  split at h
  · cases h
  next messages hmessages =>
  split at h
  · cases h
    exact ⟨rfl, hmessages, rfl⟩
  next content =>
  split at h
  · cases h
  next blobs hblobs =>
  cases h
  exact ⟨rfl, hmessages, hblobs⟩

theorem enqueueTx_ok {queue : DB} {queued : Bytes × DB} (h : enqueueTx env c queue = .ok queued) :
    enqueue queue (env .insertMessage).now c.newID none c.message c.body = (.ok queued.1, queued.2) := by
  obtain ⟨-, -, h⟩ := Err.bind_ok.1 h
  obtain ⟨-, -, h⟩ := Err.bind_ok.1 h
  split at h
  · cases h
  next hqueued =>
  cases h
  exact hqueued

variable {requests : RequestTable}

theorem linkMessage_ok {id : Bytes} {linked : RequestTable}
    (h : linkMessage env c id requests = .ok linked) (key : Bytes × Bytes) :
    linked.get key = (requests.get key).map fun r =>
      if r.key = c.key then r.setMessage (some id) else r := by
  obtain ⟨-, -, h⟩ := Err.bind_ok.1 h
  cases h
  rw [get_updateWhere]
  simp

theorem auditSend_ok {address id : Bytes} {audit : Table Bytes AuditEntry AuditEntry.id}
    (h : auditSend maskSecrets env c db address id = .ok audit) :
    ∃ now actorName, db.audit.insert (c.auditEntry maskSecrets now actorName address id) =
      some audit := by
  obtain ⟨-, -, h⟩ := Err.bind_ok.1 h
  obtain ⟨-, -, h⟩ := Err.bind_ok.1 h
  dsimp only at h
  split at h
  · cases h
  next haudit =>
  cases h
  exact ⟨_, _, haudit⟩

theorem reserved_ok {now : Int} (hinsert : db.requests.insert (c.request now) = some requests)
    (h : reserved maskSecrets env c db requests = .ok result) :
    ∃ id, result.1 = (id, true) ∧ Created maskSecrets c id db result.2 := by
  obtain ⟨mailbox, -, h⟩ := Err.bind_ok.1 h
  obtain ⟨⟨id, queue⟩, hqueued, h⟩ := Err.bind_ok.1 h
  obtain ⟨linked, hlinked, h⟩ := Err.bind_ok.1 h
  obtain ⟨audit, haudit, h⟩ := Err.bind_ok.1 h
  cases h
  obtain ⟨hid, hmsg, hbody⟩ := enqueue_ok (enqueueTx_ok hqueued)
  obtain ⟨at_, actorName, haudit⟩ := auditSend_ok haudit
  refine ⟨id, rfl, ?_⟩
  exact {
    free := insert_free hinsert
    message := ⟨_, hid, hmsg⟩
    body := hbody
    reservation := by
      refine ⟨now, (linkMessage_ok hlinked _).trans ?_⟩
      have hkey : (c.request now).key = c.key := rfl
      rw [get_insert hinsert, if_pos hkey, map_some, if_pos hkey]
      rfl
    others := by
      intro key hne
      have hne' : (c.request now).key ≠ key := fun h => hne h.symm
      refine (linkMessage_ok hlinked _).trans ?_
      rw [get_insert hinsert, if_neg hne']
      cases hget : db.requests.get key with
      | none => rfl
      | some r =>
        have hr : r.key ≠ c.key := key_of_get hget ▸ hne
        rw [map_some, if_neg hr]
    audited := ⟨at_, actorName, _, haudit⟩
    config := rfl
    admin := rfl }

/-- **Everything a call can do**: it fails and changes nothing, it returns the message of the
reservation and changes nothing, or it creates one. -/
theorem enqueueDiagnostic_cases (maskSecrets : MaskSecrets) (env : DiagnosticStatement → Fate)
    (c : DiagnosticCall) (db : DiagnosticsDB) :
    (∃ e, enqueueDiagnostic maskSecrets env c db = (.error e, db)) ∨
    (∃ saved id, db.requests.get c.key = some saved ∧ saved.mailboxID = c.mailboxID ∧
      saved.recipient = c.recipient ∧ saved.messageID = some id ∧
      enqueueDiagnostic maskSecrets env c db = (.ok (id, false), db)) ∨
    (∃ id db', Created maskSecrets c id db db' ∧
      enqueueDiagnostic maskSecrets env c db = (.ok (id, true), db')) := by
  unfold enqueueDiagnostic
  cases htx : inTx env (enqueueDiagnosticTx maskSecrets env c) db with
  | error e => exact .inl ⟨e, rfl⟩
  | ok result =>
  right
  obtain ⟨-, -, htx⟩ := Err.bind_ok.1 htx
  obtain ⟨done, hdone, htx⟩ := Err.bind_ok.1 htx
  obtain ⟨-, -, htx⟩ := Err.bind_ok.1 htx
  obtain rfl := Except.ok.inj htx
  obtain ⟨-, -, hdone⟩ := Err.bind_ok.1 hdone
  split at hdone
  · obtain ⟨saved, id, hsaved, hmailbox, hrecipient, hid, rfl⟩ := repeated_ok hdone
    exact .inl ⟨saved, id, hsaved, hmailbox, hrecipient, hid, rfl⟩
  next requests hinsert =>
  obtain ⟨result, db'⟩ := done
  obtain ⟨id, rfl, hcreated⟩ := reserved_ok hinsert hdone
  exact .inr ⟨id, db', hcreated, rfl⟩

/-- A reservation for something else, or for a message that is gone, is a conflict, unless a
statement fails before that is found out. -/
theorem enqueueDiagnostic_conflict {saved : DiagnosticRequest}
    (hfree : ∀ stmt, (env stmt).failure = none) (hsaved : db.requests.get c.key = some saved)
    (hother : saved.mailboxID ≠ c.mailboxID ∨ saved.recipient ≠ c.recipient ∨
      saved.messageID = none) :
    enqueueDiagnostic maskSecrets env c db = (.error stateConflict, db) := by
  have hinsert : db.requests.insert (c.request (env .reserve).now) = none := by
    cases h : db.requests.insert (c.request (env .reserve).now) with
    | none => rfl
    | some requests =>
    have hnone : db.requests.get c.key = none := insert_free h
    rw [hsaved] at hnone
    cases hnone
  have hrepeated : repeated env c db = .error stateConflict := by
    unfold repeated
    rw [attempt_undisturbed id (hfree _)]
    show (match db.requests.get c.key with
      | none => _
      | some saved => _) = _
    rw [hsaved]
    dsimp only
    split
    · rfl
    next hsame =>
    simp only [not_or, not_not] at hsame
    obtain h | h | h := hother
    · exact absurd hsame.1 h
    · exact absurd hsame.2 h
    · rw [h]
  have htx : inTx env (enqueueDiagnosticTx maskSecrets env c) db = .error stateConflict := by
    unfold inTx enqueueDiagnosticTx
    rw [attempt_undisturbed _ (hfree _), attempt_undisturbed id (hfree _), hinsert]
    rw [hrepeated]
    rfl
  rw [enqueueDiagnostic, htx]

/-! ## Histories -/

inductive DiagnosticEvent where
  | called (c : DiagnosticCall) (outcome : Except Err (Bytes × Bool))
  | removed (id : Bytes)

structure History where
  db : DiagnosticsDB
  log : List DiagnosticEvent := []

/-- What can happen: a test send, an operation of the queue, a row for the audit log, and any
change of the configuration or of the users. -/
inductive DiagnosticAction where
  | send (env : DiagnosticStatement → Fate) (c : DiagnosticCall)
  | queue (now : Int) (op : Op)
  | audit (entry : AuditEntry)
  | configure (config : Config) (admin : AdminDB)

def removedBy (queue queue' : DB) : List Bytes :=
  (queue.messages.rows.map Message.id).filter fun id => (queue'.get id).isNone

/-- `ON DELETE SET NULL`. -/
def forget (removed : List Bytes) (requests : RequestTable) : RequestTable :=
  requests.updateWhere (fun r => r.messageID.any removed.contains)
    (DiagnosticRequest.setMessage none) (DiagnosticRequest.setMessage_key none)

variable (maskSecrets) (o : RowOrder)

def History.step (s : History) : DiagnosticAction → Option History
  | .send env c =>
    let result := enqueueDiagnostic maskSecrets env c s.db
    some ⟨result.2, s.log ++ [.called c result.1]⟩
  | .queue now op =>
    let queue := (exec o s.db.queue now op).2
    let removed := removedBy s.db.queue queue
    some ⟨{ s.db with queue, requests := forget removed s.db.requests },
      s.log ++ removed.map .removed⟩
  | .audit entry => (s.db.audit.insert entry).map fun audit => { s with db := { s.db with audit } }
  | .configure config admin => some { s with db := { s.db with config, admin } }

abbrev Happens (db₀ : DiagnosticsDB) (s : History) : Prop :=
  Reach (History.step maskSecrets o) (fun _ _ => True) ⟨db₀, []⟩ s

/-! ## The ledger of a pair -/

def Gone (log : List DiagnosticEvent) (c : DiagnosticCall) (id : Bytes) : Prop :=
  List.Sublist [.called c (.ok (id, true)), .removed id] log

def creates (key : Bytes × Bytes) : DiagnosticEvent → Bool
  | .called c (.ok (_, true)) => decide (c.key = key)
  | _ => false

theorem creates_iff {key : Bytes × Bytes} {e : DiagnosticEvent} :
    creates key e = true ↔ ∃ c id, e = .called c (.ok (id, true)) ∧ c.key = key := by
  match e with
  | .called c (.ok (id, true)) => simp [creates]
  | .called c (.ok (id, false)) => simp [creates]
  | .called c (.error e) => simp [creates]
  | .removed id => simp [creates]

/-- What the reservation `r` of a pair has to do with the calls for it, of which `c` created
the message `id`. -/
structure Reserved (key : Bytes × Bytes) (s : History) (r : DiagnosticRequest) (c : DiagnosticCall)
    (id : Bytes) : Prop where
  created : .called c (.ok (id, true)) ∈ s.log
  pair : c.key = key
  mailbox : c.mailboxID = r.mailboxID
  recipient : c.recipient = r.recipient
  once : s.log.countP (creates key) = 1
  only : ∀ c' id', .called c' (.ok (id', true)) ∈ s.log → c'.key = key → c' = c
  same : ∀ c' id' b, .called c' (.ok (id', b)) ∈ s.log → c'.key = key → id' = id
  gone : Gone s.log c id → r.messageID = none
  kept : ¬ Gone s.log c id → r.messageID = some id ∧ (s.db.queue.get id).isSome

/-- The ledger of a pair: no call has succeeded, or its reservation says which did. -/
def Ledger (key : Bytes × Bytes) (s : History) : Prop :=
  match s.db.requests.get key with
  | none => ∀ c id b, .called c (.ok (id, b)) ∈ s.log → c.key ≠ key
  | some r => ∃ c id, Reserved key s r c id

section

variable {maskSecrets : MaskSecrets} {o : RowOrder} {s s' : History} {key : Bytes × Bytes}
  {r : DiagnosticRequest} {id : Bytes} {log : List DiagnosticEvent}

theorem gone_append {events : List DiagnosticEvent} : Gone (log ++ events) c id ↔
      Gone log c id ∨ (.called c (.ok (id, true)) ∈ log ∧ .removed id ∈ events) ∨
        Gone events c id := by
  unfold Gone
  rw [sublist_append_iff]
  constructor
  · rintro ⟨front, back, hsplit, hfront, hback⟩
    match front, back with
    | [], back =>
      obtain rfl : back = _ := hsplit.symm
      exact .inr (.inr hback)
    | [e], back =>
      obtain ⟨rfl, rfl⟩ := List.cons.inj hsplit
      exact .inr (.inl ⟨singleton_sublist.1 hfront, singleton_sublist.1 hback⟩)
    | e :: f :: front, back =>
      obtain ⟨rfl, hrest⟩ := List.cons.inj hsplit
      obtain ⟨rfl, hnil⟩ := List.cons.inj hrest
      obtain ⟨rfl, rfl⟩ := append_eq_nil_iff.1 hnil.symm
      exact .inl hfront
  rintro (h | ⟨hcalled, hremoved⟩ | h)
  · exact ⟨_, [], by simp, h, nil_sublist _⟩
  · exact ⟨[_], [_], rfl, singleton_sublist.2 hcalled, singleton_sublist.2 hremoved⟩
  · exact ⟨[], _, rfl, nil_sublist _, h⟩

variable {c' : DiagnosticCall} {outcome : Except Err (Bytes × Bool)}

theorem gone_called : Gone (log ++ [.called c' outcome]) c id ↔ Gone log c id := by
  have hshort : ¬ Gone [.called c' outcome] c id := fun h => absurd h.length_le (by simp)
  rw [gone_append]
  simp [hshort]

theorem gone_removed {removed : List Bytes} : Gone (log ++ removed.map .removed) c id ↔
      Gone log c id ∨ (.called c (.ok (id, true)) ∈ log ∧ id ∈ removed) := by
  have hnone : ¬ Gone (removed.map .removed) c id := fun h => by
    have hmem := h.subset (.head _)
    simp at hmem
  rw [gone_append]
  simp [hnone]

theorem Reserved.called (h : Reserved key s r c id) (hlog : s'.log = s.log ++ [.called c' outcome])
    (houtcome : ∀ out, outcome = .ok out → c'.key = key → out = (id, false))
    (hqueue : (s.db.queue.get id).isSome → (s'.db.queue.get id).isSome) :
    Reserved key s' r c id where
  created := by
    rw [hlog]
    exact mem_append_left _ h.created
  pair := h.pair
  mailbox := h.mailbox
  recipient := h.recipient
  once := by
    have hno : ¬ creates key (.called c' outcome) = true := by
      rw [creates_iff]
      rintro ⟨c'', id', heq, hkey⟩
      injection heq with hc ho
      subst hc
      cases houtcome _ ho hkey
    rw [hlog, countP_append, h.once, countP_singleton, if_neg hno]
  only := by
    intro c'' id' hmem hkey
    rw [hlog, mem_append, mem_singleton] at hmem
    obtain hmem | heq := hmem
    · exact h.only c'' id' hmem hkey
    injection heq with hc ho
    subst hc
    cases houtcome _ ho.symm hkey
  same := by
    intro c'' id' b hmem hkey
    rw [hlog, mem_append, mem_singleton] at hmem
    obtain hmem | heq := hmem
    · exact h.same c'' id' b hmem hkey
    injection heq with hc ho
    subst hc
    exact (Prod.mk.inj (houtcome _ ho.symm hkey)).1
  gone := by
    rw [hlog, gone_called]
    exact h.gone
  kept := by
    rw [hlog, gone_called]
    exact fun hgone => ⟨(h.kept hgone).1, hqueue (h.kept hgone).2⟩

theorem Ledger.of_free (h : Ledger key s) (hget : s.db.requests.get key = none) :
    ∀ c id b, .called c (.ok (id, b)) ∈ s.log → c.key ≠ key := by
  unfold Ledger at h
  rw [hget] at h
  exact h

theorem Ledger.of_reserved (h : Ledger key s) (hget : s.db.requests.get key = some r) :
    ∃ c id, Reserved key s r c id := by
  unfold Ledger at h
  rw [hget] at h
  exact h

theorem countP_creates_zero (h : ∀ c id b, .called c (.ok (id, b)) ∈ s.log → c.key ≠ key) :
    s.log.countP (creates key) = 0 := by
  rw [countP_eq_zero]
  intro e he hcreates
  obtain ⟨c, id, rfl, hkey⟩ := creates_iff.1 hcreates
  exact h c id true he hkey

theorem Ledger.called (h : Ledger key s) (hlog : s'.log = s.log ++ [.called c' outcome])
    (hrequests : s'.db.requests.get key = s.db.requests.get key)
    (hfree : ∀ out, outcome = .ok out → c'.key = key → s.db.requests.get key ≠ none)
    (houtcome : ∀ out r c id, outcome = .ok out → c'.key = key → s.db.requests.get key = some r →
      Reserved key s r c id → out = (id, false))
    (hqueue : ∀ id, (s.db.queue.get id).isSome → (s'.db.queue.get id).isSome) : Ledger key s' := by
  unfold Ledger
  rw [hrequests]
  cases hget : s.db.requests.get key with
  | none =>
    intro c id b hmem hkey
    rw [hlog, mem_append, mem_singleton] at hmem
    obtain hmem | heq := hmem
    · exact h.of_free hget c id b hmem hkey
    injection heq with hc ho
    exact hfree _ ho.symm (hc ▸ hkey) hget
  | some r =>
  obtain ⟨c, id, hres⟩ := h.of_reserved hget
  exact ⟨c, id, hres.called hlog
    (fun out ho hkey => houtcome out r c id ho hkey hget hres) (hqueue id)⟩

theorem Created.get_isSome {c : DiagnosticCall} (h : Created maskSecrets c id db db') {k : Bytes}
    (hk : (db.queue.get k).isSome) : (db'.queue.get k).isSome := by
  obtain ⟨now, -, hinsert⟩ := h.message
  show (db'.queue.messages.get k).isSome
  rw [get_insert hinsert]
  split
  · rfl
  · exact hk

theorem Created.get_new {c : DiagnosticCall} (h : Created maskSecrets c id db db') :
    (db'.queue.get id).isSome := by
  obtain ⟨now, hid, hinsert⟩ := h.message
  show (db'.queue.messages.get id).isSome
  rw [get_insert hinsert, if_pos hid]
  rfl

/-- **A test send keeps the ledger of every pair.** -/
theorem Ledger.send (h : Ledger key s) (env : DiagnosticStatement → Fate) (c : DiagnosticCall)
    (hs : s' = ⟨(enqueueDiagnostic maskSecrets env c s.db).2,
      s.log ++ [.called c (enqueueDiagnostic maskSecrets env c s.db).1]⟩) : Ledger key s' := by
  obtain ⟨e, hresult⟩ | ⟨saved, id, hsaved, hmailbox, hrecipient, hid, hresult⟩ |
    ⟨id, db', hcreated, hresult⟩ := enqueueDiagnostic_cases maskSecrets env c s.db
  · rw [hresult] at hs
    subst hs
    exact h.called rfl rfl nofun nofun fun _ hk => hk
  · rw [hresult] at hs
    subst hs
    refine h.called rfl rfl (fun out ho hkey => ?_) (fun out r c' id' ho hkey hget hres => ?_)
      fun _ hk => hk
    · rw [← hkey, hsaved]
      simp
    · -- what is returned is the message of the reservation, so it is the one that was created
      rw [← hkey, hsaved] at hget
      cases hget
      cases ho
      by_cases hgone : Gone s.log c' id'
      · rw [hres.gone hgone] at hid
        cases hid
      rw [(hres.kept hgone).1] at hid
      rw [some.inj hid]
  rw [hresult] at hs
  subst hs
  by_cases hkey : key = c.key
  · subst hkey
    have hfree := h.of_free hcreated.free
    obtain ⟨now, hreservation⟩ := hcreated.reservation
    unfold Ledger
    rw [hreservation]
    refine ⟨c, id, ?_⟩
    have hnew : ¬ Gone (s.log ++ [.called c (.ok (id, true))]) c id := by
      rw [gone_called]
      exact fun hgone => hfree c id true (hgone.subset (.head _)) rfl
    have hcases : ∀ {c' : DiagnosticCall} {out : Bytes × Bool},
        .called c' (.ok out) ∈ s.log ++ [.called c (.ok (id, true))] → c'.key = c.key →
          c' = c ∧ out = (id, true) := by
      intro c' out hmem hkey
      obtain hmem | heq := mem_append.1 hmem
      · exact absurd hkey (hfree c' out.1 out.2 hmem)
      injection mem_singleton.1 heq with hc ho
      exact ⟨hc, Except.ok.inj ho⟩
    exact {
      created := mem_append_right _ (mem_singleton.2 rfl)
      pair := rfl
      mailbox := rfl
      recipient := rfl
      once := by
        rw [countP_append, countP_creates_zero hfree, countP_singleton]
        simp [creates]
      only := fun c' id' hmem hkey => (hcases hmem hkey).1
      same := fun c' id' b hmem hkey => (Prod.mk.inj (hcases hmem hkey).2).1
      gone := fun hgone => absurd hgone hnew
      kept := fun _ => ⟨rfl, hcreated.get_new⟩ }
  · refine h.called rfl (hcreated.others key hkey) (fun out _ hk => absurd hk.symm hkey)
      (fun out _ _ _ _ hk => absurd hk.symm hkey) fun _ hk => hcreated.get_isSome hk

theorem mem_removedBy {queue queue' : DB} {k : Bytes} :
    k ∈ removedBy queue queue' ↔ (queue.get k).isSome ∧ (queue'.get k).isNone := by
  unfold removedBy
  rw [mem_filter, List.mem_map]
  refine and_congr_left fun _ => ?_
  rw [isSome_iff_exists]
  constructor
  · rintro ⟨m, hm, rfl⟩
    exact ⟨m, mem_rows_iff.1 hm⟩
  rintro ⟨m, hm⟩
  exact ⟨m, mem_of_get hm, get_id hm⟩

/-- **An operation of the queue keeps the ledger of every pair.** -/
theorem Ledger.queue (h : Ledger key s) {queue' : DB} (hs : s' = ⟨{ s.db with
        queue := queue', requests := forget (removedBy s.db.queue queue') s.db.requests },
      s.log ++ (removedBy s.db.queue queue').map .removed⟩) : Ledger key s' := by
  subst hs
  generalize hremoved : removedBy s.db.queue queue' = removed
  have hcalls : ∀ {c : DiagnosticCall} {outcome : Except Err (Bytes × Bool)},
      .called c outcome ∈ s.log ++ removed.map .removed → .called c outcome ∈ s.log := by
    intro c outcome hmem
    obtain hmem | hmem := mem_append.1 hmem
    · exact hmem
    · simp at hmem
  unfold Ledger forget
  rw [get_updateWhere]
  cases hget : s.db.requests.get key with
  | none => exact fun c id b hmem => h.of_free hget c id b (hcalls hmem)
  | some r =>
  obtain ⟨c, id, hr⟩ := h.of_reserved hget
  refine ⟨c, id, ?_⟩
  have hmsg : (if r.messageID.any removed.contains then r.setMessage none else r).messageID =
      r.messageID.filter fun id => !removed.contains id := by
    cases hid : r.messageID with
    | none => simp [hid]
    | some k =>
    by_cases hk : k ∈ removed
    · simp [hk, DiagnosticRequest.setMessage, filter_some]
    · simp [hk, hid, filter_some]
  have hrest : (if r.messageID.any removed.contains then r.setMessage none else r).mailboxID =
      r.mailboxID ∧ (if r.messageID.any removed.contains then r.setMessage none else r).recipient =
      r.recipient := by
    split <;> exact ⟨rfl, rfl⟩
  exact {
    created := mem_append_left _ hr.created
    pair := hr.pair
    mailbox := hr.mailbox.trans hrest.1.symm
    recipient := hr.recipient.trans hrest.2.symm
    once := by
      have hzero : (removed.map DiagnosticEvent.removed).countP (creates key) = 0 := by
        rw [countP_eq_zero]
        intro e he
        obtain ⟨k, -, rfl⟩ := List.mem_map.1 he
        simp [creates]
      rw [countP_append, hr.once, hzero]
    only := fun c' id' hmem => hr.only c' id' (hcalls hmem)
    same := fun c' id' b hmem => hr.same c' id' b (hcalls hmem)
    gone := by
      rw [gone_removed, hmsg]
      by_cases hgone : Gone s.log c id
      · intro _
        rw [hr.gone hgone]
        rfl
      rintro (h | ⟨-, hin⟩)
      · exact absurd h hgone
      rw [(hr.kept hgone).1]
      simp [hin]
    kept := by
      rw [gone_removed, hmsg, not_or, not_and]
      rintro ⟨hgone, hnotin⟩
      have hnotin := hnotin hr.created
      rw [(hr.kept hgone).1]
      refine ⟨by simp [hnotin], ?_⟩
      rw [← hremoved, mem_removedBy, not_and] at hnotin
      exact isSome_iff_ne_none.2 (by simpa using hnotin (hr.kept hgone).2) }

theorem Ledger.congr (h : Ledger key s) (hlog : s'.log = s.log) (hqueue : s'.db.queue = s.db.queue)
    (hrequests : s'.db.requests = s.db.requests) : Ledger key s' := by
  obtain ⟨db', log'⟩ := s'
  subst hlog
  unfold Ledger at h ⊢
  dsimp only at hqueue hrequests ⊢
  rw [hrequests]
  cases hget : s.db.requests.get key with
  | none =>
    rw [hget] at h
    exact h
  | some r =>
  rw [hget] at h
  obtain ⟨c, id, hr⟩ := h
  exact ⟨c, id, { hr with kept := fun hgone => by rw [hqueue]; exact hr.kept hgone }⟩

/-- **Every step keeps the ledger of every pair.** -/
theorem Ledger.step (h : Ledger key s) {a : DiagnosticAction}
    (hstep : History.step maskSecrets o s a = some s') : Ledger key s' := by
  cases a with
  | send env c => exact h.send env c (some.inj hstep).symm
  | queue now op => exact h.queue (some.inj hstep).symm
  | audit entry =>
    obtain ⟨audit, -, rfl⟩ := map_eq_some_iff.1 hstep
    exact h.congr rfl rfl rfl
  | configure config admin =>
    cases hstep
    exact h.congr rfl rfl rfl

theorem Happens.ledger {db₀ : DiagnosticsDB} (hnew : db₀.requests = .empty)
    (h : Happens maskSecrets o db₀ s) (key : Bytes × Bytes) : Ledger key s := by
  refine Reach.invariant ?_ (fun s a t hs _ ht => hs.step ht) h
  unfold Ledger
  rw [hnew]
  simp

/-! ## The audit log -/

/-- Every created message has its audit row. -/
def Audited (maskSecrets : MaskSecrets) (s : History) : Prop :=
  ∀ c id, .called c (.ok (id, true)) ∈ s.log →
    ∃ now actorName address, c.auditEntry maskSecrets now actorName address id ∈ s.db.audit.rows

theorem Audited.step (h : Audited maskSecrets s) {a : DiagnosticAction}
    (hstep : History.step maskSecrets o s a = some s') : Audited maskSecrets s' := by
  cases a with
  | send env c =>
    obtain rfl := (some.inj hstep).symm
    intro c' id hmem
    obtain hmem | heq := mem_append.1 hmem
    · obtain ⟨now, actorName, address, hrow⟩ := h c' id hmem
      refine ⟨now, actorName, address, ?_⟩
      obtain ⟨e, hr⟩ | ⟨saved, id', -, -, -, -, hr⟩ | ⟨id', db', hcreated, hr⟩ :=
        enqueueDiagnostic_cases maskSecrets env c s.db
      · rw [hr]
        exact hrow
      · rw [hr]
        exact hrow
      rw [hr]
      obtain ⟨now', actorName', address', hinsert⟩ := hcreated.audited
      exact (mem_insert hinsert).2 (.inl hrow)
    injection mem_singleton.1 heq with hc ho
    subst hc
    obtain ⟨e, hr⟩ | ⟨saved, id', -, -, -, -, hr⟩ | ⟨id', db', hcreated, hr⟩ :=
      enqueueDiagnostic_cases maskSecrets env c' s.db
    · rw [hr] at ho
      cases ho
    · rw [hr] at ho
      cases ho
    rw [hr] at ho ⊢
    cases ho
    obtain ⟨now, actorName, address, hinsert⟩ := hcreated.audited
    exact ⟨now, actorName, address, (mem_insert hinsert).2 (.inr rfl)⟩
  | queue now op =>
    obtain rfl := (some.inj hstep).symm
    intro c id hmem
    obtain hmem | hmem := mem_append.1 hmem
    · exact h c id hmem
    · simp at hmem
  | audit entry =>
    obtain ⟨audit, hinsert, rfl⟩ := map_eq_some_iff.1 hstep
    intro c id hmem
    obtain ⟨now, actorName, address, hrow⟩ := h c id hmem
    exact ⟨now, actorName, address, (mem_insert hinsert).2 (.inl hrow)⟩
  | configure config admin =>
    obtain rfl := (some.inj hstep).symm
    exact h

theorem Happens.audited {db₀ : DiagnosticsDB} (h : Happens maskSecrets o db₀ s) :
    Audited maskSecrets s :=
  Reach.invariant (fun _ _ hmem => absurd hmem not_mem_nil) (fun _ _ _ hs _ ht => hs.step ht) h

/-! ## Idempotence -/

/-- **Test sends are idempotent.** In every history that begins without reservations:

* at most one call for a pair created a message;
* if calls for a pair returned ids, exactly one of them created the message and they all
  returned its id;
* a call for another mailbox or recipient than the one that created the message, and a call
  after that message was removed, is a conflict, unless a statement of it fails;
* a call that fails, and one that is repeated, changes nothing; one that creates a message
  adds the reservation, the message, its body and the audit row, and nothing else;
* every created message has its audit row. -/
theorem test_sends_idempotent (maskSecrets : MaskSecrets) (o : RowOrder) {db₀ : DiagnosticsDB}
    (hnew : db₀.requests = .empty) {s : History} (h : Happens maskSecrets o db₀ s) :
    (∀ key, s.log.countP (creates key) ≤ 1) ∧
    (∀ c id b, .called c (.ok (id, b)) ∈ s.log → s.log.countP (creates c.key) = 1 ∧
      ∃ c', .called c' (.ok (id, true)) ∈ s.log ∧ c'.key = c.key) ∧
    (∀ env c, (∀ stmt, (env stmt).failure = none) →
      ∀ c' id, .called c' (.ok (id, true)) ∈ s.log → c'.key = c.key →
        c'.mailboxID ≠ c.mailboxID ∨ c'.recipient ≠ c.recipient ∨ Gone s.log c' id →
        enqueueDiagnostic maskSecrets env c s.db = (.error stateConflict, s.db)) ∧
    (∀ env c, match enqueueDiagnostic maskSecrets env c s.db with
      | (.error _, db') => db' = s.db
      | (.ok (_, false), db') => db' = s.db
      | (.ok (id, true), db') => Created maskSecrets c id s.db db') ∧
    (∀ c id, .called c (.ok (id, true)) ∈ s.log → ∃ now actorName address,
        c.auditEntry maskSecrets now actorName address id ∈ s.db.audit.rows) := by
  have hledger := Happens.ledger hnew h
  -- a call that succeeded leaves a reservation
  have hres : ∀ c id b, .called c (.ok (id, b)) ∈ s.log →
      ∃ r c' id', s.db.requests.get c.key = some r ∧ Reserved c.key s r c' id' := by
    intro c id b hmem
    cases hget : s.db.requests.get c.key with
    | none => exact absurd rfl ((hledger c.key).of_free hget c id b hmem)
    | some r =>
      obtain ⟨c', id', hr⟩ := (hledger c.key).of_reserved hget
      exact ⟨r, c', id', rfl, hr⟩
  refine ⟨fun key => ?_, fun c id b hmem => ?_, fun env c hfree c' id hmem hkey hother => ?_,
    fun env c => ?_, h.audited⟩
  · cases hget : s.db.requests.get key with
    | none =>
      rw [countP_creates_zero ((hledger key).of_free hget)]
      exact Nat.zero_le 1
    | some r =>
      obtain ⟨c, id, hr⟩ := (hledger key).of_reserved hget
      exact hr.once.le
  · obtain ⟨r, c', id', -, hr⟩ := hres c id b hmem
    refine ⟨hr.once, c', ?_, hr.pair⟩
    rw [hr.same c id b hmem rfl]
    exact hr.created
  · obtain ⟨r, c'', id', hget, hr⟩ := hres c' id true hmem
    obtain rfl := hr.only c' id hmem rfl
    obtain rfl := hr.same c' id true hmem rfl
    rw [hkey] at hget
    refine enqueueDiagnostic_conflict hfree hget ?_
    rw [← hr.mailbox, ← hr.recipient]
    obtain hne | hne | hgone := hother
    · exact .inl hne
    · exact .inr (.inl hne)
    · exact .inr (.inr (hr.gone hgone))
  obtain ⟨e, hr⟩ | ⟨saved, id, -, -, -, -, hr⟩ | ⟨id, db', hcreated, hr⟩ :=
    enqueueDiagnostic_cases maskSecrets env c s.db
  · rw [hr]
  · rw [hr]
  rw [hr]
  exact hcreated

end

def sampleDiagnostics : DiagnosticsDB where
  queue := .empty
  requests := .empty
  audit := .empty
  config :=
    { credentials := ⟨[{ id := [1], authType := .secret, clientSecretEnc := [9] }],
        nodup_singleton _⟩
      mailboxes := ⟨[{ id := [2], address := ascii "it@x.org", oauthCredentialID := [1] }],
        nodup_singleton _⟩
      accounts := .empty }
  admin := ⟨.empty, .empty⟩

def sampleCall (newID auditID : UInt8) : DiagnosticCall where
  actorID := [7]
  requestID := [8]
  mailboxID := [2]
  recipient := ascii "me@y.org"
  draft := { mailboxAddress := ascii "it@x.org" }
  body := some [1, 2]
  newID := [newID]
  auditID := [auditID]

/-- The same request twice: the second call is given the message of the first. -/
theorem repeated_request : ∃ s, Happens (fun _ => []) byNextAttempt sampleDiagnostics s ∧
      s.log = [.called (sampleCall 3 4) (.ok ([3], true)),
        .called (sampleCall 5 6) (.ok ([3], false))] ∧
      s.log.countP (creates ([7], [8])) = 1 := by
  have hreach : ∃ s, Happens (fun _ => []) byNextAttempt sampleDiagnostics s ∧
      s.log = [.called (sampleCall 3 4) (.ok ([3], true)),
        .called (sampleCall 5 6) (.ok ([3], false))] :=
    ⟨_, .tail (.tail .refl trivial (a := .send (fun _ => {}) (sampleCall 3 4)) rfl) trivial
      (a := .send (fun _ => {}) (sampleCall 5 6)) rfl, rfl⟩
  obtain ⟨s, hs, hlog⟩ := hreach
  obtain ⟨-, hcalls, -⟩ := test_sends_idempotent (fun _ => []) byNextAttempt rfl hs
  exact ⟨s, hs, hlog, (hcalls (sampleCall 3 4) [3] true (by rw [hlog]; simp)).1⟩

end SmtpProxy.Store
