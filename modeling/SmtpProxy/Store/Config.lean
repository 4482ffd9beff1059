import SmtpProxy.Store.Statement

/-!
# The configuration an administrator keeps

The repositories of `internal/store/credentials.go`, `internal/store/mailboxes.go`
and `internal/store/accounts.go`, on whole rows. `Config` is a committed state of
the five tables they work on; `Config.directory` is the part of it the SMTP path
reads. The columns `id` and `created_at` of `allowed_senders`, which nothing reads,
are left out.

The schema's foreign keys are part of what a statement does: a mailbox needs its
credential and keeps it from being deleted (`RESTRICT`); a deleted mailbox is taken
out of every account that had it as its default (`SET NULL`) and out of the links;
a deleted account takes its links and allowed senders along (`CASCADE`). A
constraint that is violated fails the statement, a unique one before a foreign key.
-/

namespace SmtpProxy.Store

open Lib

/-- Where an object came from. The schema restricts the column to these. -/
inductive ManagedBy where
  | ui
  | bootstrap
  deriving DecidableEq

/-- How a credential proves itself. The schema restricts the column to these. -/
inductive AuthType where
  | secret
  | certificate
  deriving DecidableEq

structure CredentialRow extends OAuthCredential where
  authType : AuthType
  clientSecretEnc : Bytes := []
  certificatePEM : Bytes := []
  certificateKeyEnc : Bytes := []
  certificateThumbprint : Bytes := []
  authorityHost : Bytes := []
  expiresAt : Option Int := none
  managedBy : ManagedBy := .ui
  createdAt : Int := 0
  updatedAt : Int := 0
  deriving DecidableEq

def CredentialRow.secretContext (c : CredentialRow) : Bytes :=
  ascii "oauth_credentials/client_secret/" ++ c.id

def CredentialRow.certificateKeyContext (c : CredentialRow) : Bytes :=
  ascii "oauth_credentials/certificate_key/" ++ c.id

structure MailboxRow extends Mailbox where
  managedBy : ManagedBy := .ui
  createdAt : Int := 0
  updatedAt : Int := 0
  deriving DecidableEq

structure AccountRow extends SMTPAccount where
  description : Bytes := []
  rateLimitPerMin : Option Int := none
  lastUsedAt : Option Int := none
  managedBy : ManagedBy := .ui
  createdAt : Int := 0
  updatedAt : Int := 0
  deriving DecidableEq

/-- The row as `CredentialRepo.Create` inserts it. -/
def CredentialRow.created (c : CredentialRow) (newID : Bytes) (now : Int) : CredentialRow :=
  { c with id := if c.id = [] then newID else c.id, createdAt := now, updatedAt := now }

def MailboxRow.created (m : MailboxRow) (newID : Bytes) (now : Int) : MailboxRow :=
  { m with id := if m.id = [] then newID else m.id, createdAt := now, updatedAt := now }

def AccountRow.created (a : AccountRow) (newID : Bytes) (now : Int) : AccountRow :=
  { a with id := if a.id = [] then newID else a.id, createdAt := now, updatedAt := now }

/-- The row `r` after `CredentialRepo.Update` has written `c` over it. -/
def CredentialRow.assign (c : CredentialRow) (now : Int) (r : CredentialRow) : CredentialRow :=
  { c with id := r.id, createdAt := r.createdAt, updatedAt := now }

def MailboxRow.assign (m : MailboxRow) (now : Int) (r : MailboxRow) : MailboxRow :=
  { m with id := r.id, createdAt := r.createdAt, updatedAt := now }

/-- The row `r` after `AccountRepo.Update` has written `a` over it. When the account was
last used is not written. -/
def AccountRow.assign (a : AccountRow) (now : Int) (r : AccountRow) : AccountRow :=
  { a with id := r.id, lastUsedAt := r.lastUsedAt, createdAt := r.createdAt, updatedAt := now }

theorem CredentialRow.assign_id (c : CredentialRow) (now : Int) (r : CredentialRow) :
    (c.assign now r).id = r.id := rfl

theorem MailboxRow.assign_id (m : MailboxRow) (now : Int) (r : MailboxRow) :
    (m.assign now r).id = r.id := rfl

theorem AccountRow.assign_id (a : AccountRow) (now : Int) (r : AccountRow) :
    (a.assign now r).id = r.id := rfl

def nullInt (n : Int) : Option Int := if 0 < n then some n else none

/-! ## Writing one row -/

section

variable {ρ : Type} {key : ρ → Bytes}

/-- `INSERT` of a row. No other row may `clash` with it, and the rows it names must be
there (`refers`). -/
def insertRow (t : Table Bytes ρ key) (clash : ρ → Bool) (refers : Bool) (r : ρ) :
    Except DBError (Table Bytes ρ key) :=
  if t.rows.any clash then .error .uniqueViolation
  else
    match t.insert r with
    | none => .error .uniqueViolation
    | some t => if refers then .ok t else .error .foreignKeyViolation

/-- What stands in the way of `UPDATE … WHERE id = ?`: there must be a row to write
(`requireOneRow`), and what is written must not violate a constraint. -/
def checkUpdate (t : Table Bytes ρ key) (id : Bytes) (clash : ρ → Bool) (refers : Bool) :
    Except DBError Unit :=
  if (t.get id).isNone then .error .noRows
  else if t.rows.any (fun r => decide (key r ≠ id) && clash r) then .error .uniqueViolation
  else if refers then .ok ()
  else .error .foreignKeyViolation

/-- What `Update` reports of an object of this kind. -/
def updateError (kind id name : Bytes) : DBError → Err
  | .noRows => sentinelFor errNotFound (kind ++ id)
  | e => translateError e (kind ++ name)

variable {t t' : Table Bytes ρ key} {clash : ρ → Bool} {refers : Bool} {r : ρ} {id : Bytes}

theorem insertRow_ok (h : insertRow t clash refers r = .ok t') :
    t.insert r = some t' ∧ (∀ x ∈ t.rows, clash x = false) ∧ refers = true := by
  unfold insertRow at h
  split at h
  · cases h
  next hfree =>
  split at h
  · cases h
  next hinsert =>
  split at h
  · next hrefers =>
    exact ⟨hinsert.trans (congrArg some (Except.ok.inj h)), by simpa using hfree, hrefers⟩
  · cases h

theorem insertRow_error {e : DBError} (h : insertRow t clash refers r = .error e) :
    (∃ x ∈ t.rows, clash x = true) ∨ (t.get (key r)).isSome ∨ refers = false := by
  unfold insertRow at h
  split at h
  · next hany => exact .inl (List.any_eq_true.1 hany)
  split at h
  · next hnone => exact .inr (.inl (Table.insert_taken hnone))
  split at h
  · cases h
  · next hrefers => exact .inr (.inr (by simpa using hrefers))

theorem checkUpdate_error {e : DBError} (h : checkUpdate t id clash refers = .error e) :
    t.get id = none ∨ (∃ x ∈ t.rows, key x ≠ id ∧ clash x = true) ∨ refers = false := by
  unfold checkUpdate at h
  split at h
  · next hnone => exact .inl (by simpa using hnone)
  split at h
  · next hany =>
    obtain ⟨x, hx, hclash⟩ := List.any_eq_true.1 hany
    exact .inr (.inl ⟨x, hx, by simpa using hclash⟩)
  split at h
  · cases h
  · next hrefers => exact .inr (.inr (by simpa using hrefers))

theorem checkUpdate_ok (h : checkUpdate t id clash refers = .ok ()) :
    (∃ row, t.get id = some row) ∧ (∀ x ∈ t.rows, key x ≠ id → clash x = false) ∧ refers = true := by
  unfold checkUpdate at h
  split at h
  · cases h
  next hsome =>
  split at h
  · cases h
  next hfree =>
  split at h
  · next hrefers =>
    exact ⟨Option.ne_none_iff_exists'.1 (by simpa using hsome), by simpa using hfree, hrefers⟩
  · cases h

end

/-! ## The tables -/

/-- A committed state of the tables. A link is an account and a mailbox. -/
structure Config where
  credentials : Table Bytes CredentialRow fun c => c.id
  mailboxes : Table Bytes MailboxRow fun m => m.id
  accounts : Table Bytes AccountRow fun a => a.id
  links : List (Bytes × Bytes) := []
  senders : List AllowedSender := []

inductive ConfigOp where
  | credentialCreate
  | credentialGet
  | credentialGetByName
  | credentialList
  | credentialUpdate
  | credentialDelete
  | mailboxCreate
  | mailboxGet
  | mailboxGetByAddress
  | mailboxList
  | mailboxListForAccount
  | mailboxUpdate
  | mailboxDelete
  | accountCreate
  | accountGet
  | accountGetByUsername
  | accountList
  | accountUpdate
  | accountTouchLastUsed
  | accountDelete
  | accountSetMailboxes
  | accountAllowedSenders
  | accountSetAllowedSenders
  deriving DecidableEq

abbrev ConfigProg := Prog ConfigOp Fate Config

namespace Config

variable (db : Config)

def directory : Directory where
  accounts := ⟨db.accounts.rows.map (·.toSMTPAccount), by simpa [Function.comp_def] using db.accounts.nodup⟩
  mailboxes := ⟨db.mailboxes.rows.map (·.toMailbox), by simpa [Function.comp_def] using db.mailboxes.nodup⟩
  links := db.links
  senders := db.senders

def hasMailbox (id : Option Bytes) : Bool := id.all fun m => (db.mailboxes.get m).isSome

def hasCredential (id : Bytes) : Bool := (db.credentials.get id).isSome

def insertCredential (c : CredentialRow) : Except Err Unit × Config :=
  match insertRow db.credentials (fun r => r.name = c.name) true c with
  | .error e => (.error (translateError e (ascii "credential " ++ c.name)), db)
  | .ok credentials => (.ok (), { db with credentials })

def writeCredential (now : Int) (c : CredentialRow) : Config :=
  { db with
    credentials := db.credentials.updateWhere (fun r => r.id = c.id) (c.assign now) (c.assign_id now) }

def updateCredential (now : Int) (c : CredentialRow) : Except Err Unit × Config :=
  match checkUpdate db.credentials c.id (fun r => r.name = c.name) true with
  | .error e => (.error (updateError (ascii "credential ") c.id c.name e), db)
  | .ok () => (.ok (), db.writeCredential now c)

/-- `DELETE FROM oauth_credentials`, restricted while a mailbox uses the credential. -/
def deleteCredential (id : Bytes) : Except Err Unit × Config :=
  if (db.credentials.get id).isNone then
    (.error (sentinelFor errNotFound (ascii "credential " ++ id)), db)
  else if db.mailboxes.rows.any fun m => m.oauthCredentialID = id then
    (.error (translateError .foreignKeyViolation (ascii "credential " ++ id)), db)
  else (.ok (), { db with credentials := db.credentials.deleteWhere fun c => c.id = id })

def insertMailbox (m : MailboxRow) : Except Err Unit × Config :=
  match insertRow db.mailboxes (fun r => r.address = m.address)
      (db.hasCredential m.oauthCredentialID) m with
  | .error e => (.error (translateError e (ascii "mailbox " ++ m.address)), db)
  | .ok mailboxes => (.ok (), { db with mailboxes })

def writeMailbox (now : Int) (m : MailboxRow) : Config :=
  { db with
    mailboxes := db.mailboxes.updateWhere (fun r => r.id = m.id) (m.assign now) (m.assign_id now) }

def updateMailbox (now : Int) (m : MailboxRow) : Except Err Unit × Config :=
  match checkUpdate db.mailboxes m.id (fun r => r.address = m.address)
      (db.hasCredential m.oauthCredentialID) with
  | .error e => (.error (updateError (ascii "mailbox ") m.id m.address e), db)
  | .ok () => (.ok (), db.writeMailbox now m)

/-- The account after a mailbox has been deleted. -/
def withoutMailbox (id : Bytes) (a : AccountRow) : AccountRow :=
  if a.defaultMailboxID = some id then { a with defaultMailboxID := none } else a

theorem withoutMailbox_id (id : Bytes) (a : AccountRow) : (withoutMailbox id a).id = a.id := by
  unfold withoutMailbox
  split <;> rfl

/-- A mailbox is gone: defaults are set to null, links are deleted. -/
def dropMailbox (id : Bytes) : Config :=
  { db with
    mailboxes := db.mailboxes.deleteWhere fun m => m.id = id
    accounts := db.accounts.updateWhere (fun _ => true) (withoutMailbox id) (withoutMailbox_id id)
    links := db.links.filter fun l => l.2 ≠ id }

def deleteMailbox (id : Bytes) : Except Err Unit × Config :=
  if (db.mailboxes.get id).isNone then
    (.error (sentinelFor errNotFound (ascii "mailbox " ++ id)), db)
  else (.ok (), db.dropMailbox id)

def insertAccount (a : AccountRow) : Except Err Unit × Config :=
  match insertRow db.accounts (fun r => r.username = a.username)
      (db.hasMailbox a.defaultMailboxID) a with
  | .error e => (.error (translateError e (ascii "SMTP account " ++ a.username)), db)
  | .ok accounts => (.ok (), { db with accounts })

def writeAccount (now : Int) (a : AccountRow) : Config :=
  { db with
    accounts := db.accounts.updateWhere (fun r => r.id = a.id) (a.assign now) (a.assign_id now) }

def updateAccount (now : Int) (a : AccountRow) : Except Err Unit × Config :=
  match checkUpdate db.accounts a.id (fun r => r.username = a.username) (db.hasMailbox a.defaultMailboxID) with
  | .error e => (.error (updateError (ascii "SMTP account ") a.id a.username e), db)
  | .ok () => (.ok (), db.writeAccount now a)

def touchAccount (id : Bytes) (at_ : Int) : Config :=
  let accounts :=
    db.accounts.updateWhere (fun r => r.id = id) (fun r => { r with lastUsedAt := some at_ })
      fun _ => rfl
  { db with accounts }

/-- An account is gone, with its links and its allowed senders. -/
def dropAccount (id : Bytes) : Config :=
  { db with
    accounts := db.accounts.deleteWhere fun a => a.id = id
    links := db.links.filter fun l => l.1 ≠ id
    senders := db.senders.filter fun s => s.smtpAccountID ≠ id }

def deleteAccount (id : Bytes) : Except Err Unit × Config :=
  if (db.accounts.get id).isNone then
    (.error (sentinelFor errNotFound (ascii "SMTP account " ++ id)), db)
  else (.ok (), db.dropAccount id)

def linkable (accountID mailboxID : Bytes) : Bool :=
  (db.accounts.get accountID).isSome && (db.mailboxes.get mailboxID).isSome

/-- The transaction of `SetMailboxes`: the first link that cannot be inserted undoes all
of it. -/
def setMailboxes (accountID : Bytes) (mailboxIDs : List Bytes) : Except Err Unit × Config :=
  match mailboxIDs.eraseDups.find? fun id => !db.linkable accountID id with
  | some id => (.error (translateError .foreignKeyViolation (ascii "mailbox link " ++ id)), db)
  | none =>
    (.ok (), { db with
      links := (db.links.filter fun l => l.1 ≠ accountID) ++
        mailboxIDs.eraseDups.map fun id => (accountID, id) })

def setAllowedSenders (accountID : Bytes) (patterns : List Bytes) : Except Err Unit × Config :=
  match patterns.eraseDups.find? fun _ => (db.accounts.get accountID).isNone with
  | some p => (.error (translateError .foreignKeyViolation (ascii "allowed sender " ++ p)), db)
  | none =>
    (.ok (), { db with
      senders := (db.senders.filter fun s => s.smtpAccountID ≠ accountID) ++
        patterns.eraseDups.map fun p => ⟨accountID, p⟩ })

/-! ## What each statement can do -/

section

variable {db} {db' : Config} {now : Int} {c : CredentialRow} {m : MailboxRow} {a : AccountRow}

theorem insertCredential_ok (h : db.insertCredential c = (.ok (), db')) :
    ∃ credentials, db' = { db with credentials } ∧ db.credentials.insert c = some credentials ∧
      ∀ r ∈ db.credentials.rows, r.name ≠ c.name := by
  unfold insertCredential at h
  split at h
  · cases h
  next hok =>
  obtain ⟨hinsert, hclash, -⟩ := insertRow_ok hok
  exact ⟨_, (Prod.mk.inj h).2.symm, hinsert, by simpa using hclash⟩

theorem updateCredential_ok (h : db.updateCredential now c = (.ok (), db')) :
    db' = db.writeCredential now c ∧ (∃ row, db.credentials.get c.id = some row) ∧
      ∀ r ∈ db.credentials.rows, r.id ≠ c.id → r.name ≠ c.name := by
  unfold updateCredential at h
  split at h
  · cases h
  next hok =>
  obtain ⟨hrow, hclash, -⟩ := checkUpdate_ok hok
  exact ⟨(Prod.mk.inj h).2.symm, hrow, by simpa using hclash⟩

theorem insertMailbox_ok (h : db.insertMailbox m = (.ok (), db')) :
    ∃ mailboxes, db' = { db with mailboxes } ∧ db.mailboxes.insert m = some mailboxes ∧
      (∀ r ∈ db.mailboxes.rows, r.address ≠ m.address) ∧
      db.hasCredential m.oauthCredentialID = true := by
  unfold insertMailbox at h
  split at h
  · cases h
  next hok =>
  obtain ⟨hinsert, hclash, hrefers⟩ := insertRow_ok hok
  exact ⟨_, (Prod.mk.inj h).2.symm, hinsert, by simpa using hclash, hrefers⟩

theorem updateMailbox_ok (h : db.updateMailbox now m = (.ok (), db')) :
    db' = db.writeMailbox now m ∧ (∃ row, db.mailboxes.get m.id = some row) ∧
      (∀ r ∈ db.mailboxes.rows, r.id ≠ m.id → r.address ≠ m.address) ∧
      db.hasCredential m.oauthCredentialID = true := by
  unfold updateMailbox at h
  split at h
  · cases h
  next hok =>
  obtain ⟨hrow, hclash, hrefers⟩ := checkUpdate_ok hok
  exact ⟨(Prod.mk.inj h).2.symm, hrow, by simpa using hclash, hrefers⟩

theorem updateAccount_ok (h : db.updateAccount now a = (.ok (), db')) :
    db' = db.writeAccount now a ∧ (∃ row, db.accounts.get a.id = some row) ∧
      (∀ r ∈ db.accounts.rows, r.id ≠ a.id → r.username ≠ a.username) ∧
      db.hasMailbox a.defaultMailboxID = true := by
  unfold updateAccount at h
  split at h
  · cases h
  next hok =>
  obtain ⟨hrow, hclash, hrefers⟩ := checkUpdate_ok hok
  exact ⟨(Prod.mk.inj h).2.symm, hrow, by simpa using hclash, hrefers⟩

end

theorem deleteCredential_cases (id : Bytes) : (∃ e, db.deleteCredential id = (.error e, db)) ∨
      db.deleteCredential id =
        (.ok (), { db with credentials := db.credentials.deleteWhere fun c => c.id = id }) := by
  unfold deleteCredential
  split
  · exact .inl ⟨_, rfl⟩
  split
  · exact .inl ⟨_, rfl⟩
  · exact .inr rfl

theorem deleteMailbox_cases (id : Bytes) : (∃ e, db.deleteMailbox id = (.error e, db)) ∨
      db.deleteMailbox id = (.ok (), db.dropMailbox id) := by
  unfold deleteMailbox
  split
  · exact .inl ⟨_, rfl⟩
  · exact .inr rfl

theorem answer_updateAccount (c : Fate) (a : AccountRow) :
    (∃ e, c.answer (fun now db => updateAccount db now a) db = (.error e, db)) ∨
      (∃ row, db.accounts.get a.id = some row) ∧
        c.answer (fun now db => updateAccount db now a) db = (.ok (), db.writeAccount c.now a) := by
  obtain ⟨e, he⟩ | he := c.answer_cases (fun now db => updateAccount db now a) db
  · exact .inl ⟨e, he⟩
  rw [he]
  unfold updateAccount
  split
  · exact .inl ⟨_, rfl⟩
  · next hok => exact .inr ⟨(checkUpdate_ok hok).1, rfl⟩

theorem get_writeAccount (now : Int) (a : AccountRow) (k : Bytes) :
    (db.writeAccount now a).accounts.get k =
      (db.accounts.get k).map fun r => if r.id = a.id then a.assign now r else r := by
  rw [writeAccount, Table.get_updateWhere]
  simp

theorem deleteAccount_cases (id : Bytes) : (∃ e, db.deleteAccount id = (.error e, db)) ∨
      db.deleteAccount id = (.ok (), db.dropAccount id) := by
  unfold deleteAccount
  split
  · exact .inl ⟨_, rfl⟩
  · exact .inr rfl

theorem setMailboxes_cases (accountID : Bytes) (mailboxIDs : List Bytes) :
    (∃ e, db.setMailboxes accountID mailboxIDs = (.error e, db)) ∨
      (∀ id ∈ mailboxIDs, db.linkable accountID id = true) ∧
        db.setMailboxes accountID mailboxIDs = (.ok (), { db with
          links := (db.links.filter fun l => l.1 ≠ accountID) ++
            mailboxIDs.eraseDups.map fun id => (accountID, id) }) := by
  unfold setMailboxes
  split
  · exact .inl ⟨_, rfl⟩
  next hnone =>
  refine .inr ⟨?_, rfl⟩
  intro id hid
  simpa using List.find?_eq_none.1 hnone id (List.mem_eraseDups.2 hid)

theorem setAllowedSenders_cases (accountID : Bytes) (patterns : List Bytes) :
    (∃ e, db.setAllowedSenders accountID patterns = (.error e, db)) ∨
      db.setAllowedSenders accountID patterns = (.ok (), { db with
        senders := (db.senders.filter fun s => s.smtpAccountID ≠ accountID) ++
          patterns.eraseDups.map fun p => ⟨accountID, p⟩ }) := by
  unfold setAllowedSenders
  split
  · exact .inl ⟨_, rfl⟩
  · exact .inr rfl

end Config

/-! ## `CredentialRepo` -/

namespace CredentialRepo

/-- `CredentialRepo.Create`, with the caller's copy of the row. -/
def create (newID : Bytes) (c : CredentialRow) : ConfigProg (CredentialRow × Except Err Unit) :=
  stamping .credentialCreate (c.created newID) fun now db => db.insertCredential (c.created newID now)

def get (id : Bytes) : ConfigProg (Except Err CredentialRow) :=
  query .credentialGet fun db =>
    match db.credentials.get id with
    | some c => .ok c
    | none => .error (translateError .noRows (ascii "credential " ++ id))

def getByName (name : Bytes) : ConfigProg (Except Err CredentialRow) :=
  query .credentialGetByName fun db =>
    match db.credentials.lookupBy (·.name) name with
    | some c => .ok c
    | none => .error (translateError .noRows (ascii "credential " ++ name))

def list : ConfigProg (Except Err (List CredentialRow)) := do
  let found ← query .credentialList fun db =>
    .ok (db.credentials.rows.insertionSort fun a b => a.name ≤ b.name)
  return found.mapError (wrapping (ascii "store: listing credentials"))

/-- `CredentialRepo.Update`, with the caller's copy of the row. -/
def update (c : CredentialRow) : ConfigProg (CredentialRow × Except Err Unit) :=
  stamping .credentialUpdate (fun now => { c with updatedAt := now }) fun now db =>
    db.updateCredential now c

def delete (id : Bytes) : ConfigProg (Except Err Unit) :=
  statement .credentialDelete fun _ db => db.deleteCredential id

end CredentialRepo

/-! ## `MailboxRepo` -/

namespace MailboxRepo

def create (newID : Bytes) (m : MailboxRow) : ConfigProg (MailboxRow × Except Err Unit) :=
  stamping .mailboxCreate (m.created newID) fun now db => db.insertMailbox (m.created newID now)

def get (id : Bytes) : ConfigProg (Except Err MailboxRow) :=
  query .mailboxGet fun db =>
    match db.mailboxes.get id with
    | some m => .ok m
    | none => .error (translateError .noRows (ascii "mailbox " ++ id))

def getByAddress (address : Bytes) : ConfigProg (Except Err MailboxRow) :=
  query .mailboxGetByAddress fun db =>
    match db.mailboxes.lookupBy (·.address) address with
    | some m => .ok m
    | none => .error (translateError .noRows (ascii "mailbox " ++ address))

def list : ConfigProg (Except Err (List MailboxRow)) := do
  let found ← query .mailboxList fun db =>
    .ok (db.mailboxes.rows.insertionSort fun a b => a.address ≤ b.address)
  return found.mapError (wrapping (ascii "store: listing mailboxes"))

def listForAccount (accountID : Bytes) : ConfigProg (Except Err (List Mailbox)) := do
  let found ← query .mailboxListForAccount fun db => .ok (db.directory.listForAccount accountID)
  return found.mapError (wrapping (ascii "store: listing mailboxes"))

def update (m : MailboxRow) : ConfigProg (MailboxRow × Except Err Unit) :=
  stamping .mailboxUpdate (fun now => { m with updatedAt := now }) fun now db =>
    db.updateMailbox now m

def delete (id : Bytes) : ConfigProg (Except Err Unit) :=
  statement .mailboxDelete fun _ db => db.deleteMailbox id

end MailboxRepo

/-! ## `AccountRepo` -/

namespace AccountRepo

def create (newID : Bytes) (a : AccountRow) : ConfigProg (AccountRow × Except Err Unit) :=
  stamping .accountCreate (a.created newID) fun now db => db.insertAccount (a.created newID now)

def get (id : Bytes) : ConfigProg (Except Err AccountRow) :=
  query .accountGet fun db =>
    match db.accounts.get id with
    | some a => .ok a
    | none => .error (translateError .noRows (ascii "SMTP account " ++ id))

theorem get_keeps {I : Config → Prop} {Q : Except Err AccountRow → Prop} (id : Bytes)
    (herror : ∀ e, Q (.error e)) (hok : ∀ a, a.id = id → Q (.ok a)) : (get id).Keeps I Q := by
  apply query_keeps herror
  intro db _
  cases hget : db.accounts.get id with
  | none => exact herror _
  | some a => exact hok a (Table.get_eq_some_iff.1 hget).2

def getByUsername (username : Bytes) : ConfigProg (Except Err AccountRow) :=
  query .accountGetByUsername fun db =>
    match db.accounts.rows.find? fun a => a.username = username with
    | some a => .ok a
    | none => .error (translateError .noRows (ascii "SMTP account " ++ username))

def list : ConfigProg (Except Err (List AccountRow)) := do
  let found ← query .accountList fun db =>
    .ok (db.accounts.rows.insertionSort fun a b => a.username ≤ b.username)
  return found.mapError (wrapping (ascii "store: listing SMTP accounts"))

def update (a : AccountRow) : ConfigProg (AccountRow × Except Err Unit) :=
  stamping .accountUpdate (fun now => { a with updatedAt := now }) fun now db =>
    db.updateAccount now a

def touchLastUsed (id : Bytes) : ConfigProg (Except Err Unit) :=
  statement .accountTouchLastUsed fun now db => (.ok (), db.touchAccount id now)

def delete (id : Bytes) : ConfigProg (Except Err Unit) :=
  statement .accountDelete fun _ db => db.deleteAccount id

def setMailboxes (accountID : Bytes) (mailboxIDs : List Bytes) : ConfigProg (Except Err Unit) :=
  statement .accountSetMailboxes fun _ db => db.setMailboxes accountID mailboxIDs

def allowedSenders (accountID : Bytes) : ConfigProg (Except Err (List AllowedSender)) := do
  let found ← query .accountAllowedSenders fun db => .ok (db.directory.allowedSenders accountID)
  return found.mapError (wrapping (ascii "store: listing allowed senders"))

def setAllowedSenders (accountID : Bytes) (patterns : List Bytes) : ConfigProg (Except Err Unit) :=
  statement .accountSetAllowedSenders fun _ db => db.setAllowedSenders accountID patterns

end AccountRepo

end SmtpProxy.Store
