import SmtpProxy.Bootstrap.File

/-!
# Applying the bootstrap file

`Applier.Apply` of `internal/bootstrap/bootstrap.go`, as a program on the store's tables:
credentials, then the mailboxes that name them, then the accounts that name mailboxes. An
object is written in one statement, an account in three: its row, its links and its allowed
senders. Entries in the audit log, which no failure of theirs undoes, and log lines are left
out.

Keys are drawn from `store.NewID` for each object that is created. No object is declared
twice, so what is drawn is a function of the object's kind and name.
-/

namespace SmtpProxy.Bootstrap

open Lib Policy Store

inductive Kind where
  | credential
  | mailbox
  | account
  deriving DecidableEq

/-- `Applier`, with the keys one run of it draws. -/
structure Applier where
  reconcile : Bool
  keyring : Option Adminapi.Keyring
  newID : Kind → Bytes → { id : Bytes // id ≠ [] }

structure Result where
  created : Nat := 0
  updated : Nat := 0
  skipped : Nat := 0
  deriving DecidableEq

/-- What `Apply` keeps while it goes through the file: the keys of the credentials and the
mailboxes it has come across, and its result so far. -/
structure Progress where
  credentialIDs : List (Bytes × Bytes) := []
  mailboxIDs : List (Bytes × Bytes) := []
  result : Result := {}
  deriving DecidableEq

namespace Progress

variable (p : Progress)

def credential (name id : Bytes) : Progress := { p with credentialIDs := (name, id) :: p.credentialIDs }

def mailbox (address id : Bytes) : Progress := { p with mailboxIDs := (address, id) :: p.mailboxIDs }

def created : Progress := { p with result := { p.result with created := p.result.created + 1 } }

def updated : Progress := { p with result := { p.result with updated := p.result.updated + 1 } }

def skipped : Progress := { p with result := { p.result with skipped := p.result.skipped + 1 } }

end Progress

abbrev Step := ConfigProg (Progress × Except Err Unit)

def applyEach {α : Type} (one : α → Progress → Step) : List α → Progress → Step
  | [], p => return (p, .ok ())
  | x :: xs, p => do
    let (p, done) ← one x p
    match done with
    | .error e => return (p, .error e)
    | .ok () => applyEach one xs p

variable (g : GoText) (a : Applier)

def failedTo (what : String) (name : Bytes) (e : Err) : Err :=
  wrapping (ascii "bootstrap: " ++ ascii what ++ ascii " " ++ g.quote name) e

def missing (what : String) (name : Bytes) (kind : String) (reference : Bytes) : Err :=
  .new (ascii "bootstrap: " ++ ascii what ++ ascii " " ++ g.quote name ++ ascii " references the " ++
    ascii kind ++ ascii " " ++ g.quote reference ++
    ascii ", which is neither in this file nor in the database")

def Applier.managedBy : ManagedBy := if a.reconcile then .bootstrap else .ui

/-! ## Credentials -/

def credentialAuthType (c : Credential) : AuthType :=
  if c.authType = ascii "certificate" then .certificate else .secret

/-- A declared text, sealed; the column as it is where none is declared. -/
def sealDeclared (k : Adminapi.Keyring) (stored declared context : Bytes) : Except Err Bytes :=
  if declared = [] then .ok stored else k.encryptString declared context

def Applier.sealInto (stored : CredentialRow) (c : Credential) : Except Err CredentialRow :=
  match a.keyring with
  | none =>
    .error (.new (ascii "bootstrap: no encryption keys are configured, so secrets cannot be stored"))
  | some k =>
    match sealDeclared k stored.clientSecretEnc c.clientSecret stored.secretContext with
    | .error e => .error (failedTo g "sealing the secret for" c.name e)
    | .ok secret =>
      match sealDeclared k stored.certificateKeyEnc c.certificateKeyPEM
          stored.certificateKeyContext with
      | .error e => .error (failedTo g "sealing the certificate key for" c.name e)
      | .ok key =>
        .ok { stored with
          clientSecretEnc := secret
          certificatePEM := if c.certificatePEM = [] then stored.certificatePEM else c.certificatePEM
          certificateKeyEnc := key }

/-- A credential as it is created, before its material is put in. -/
def Applier.newCredential (c : Credential) : CredentialRow where
  id := (a.newID .credential c.name).1
  name := c.name
  tenantID := c.tenantID
  clientID := c.clientID
  authType := credentialAuthType c
  authorityHost := c.authorityHost
  managedBy := a.managedBy

/-- An existing credential with what the file says of it, its material aside. -/
def Credential.over (c : Credential) (stored : CredentialRow) : CredentialRow :=
  { stored with
    tenantID := c.tenantID
    clientID := c.clientID
    authType := credentialAuthType c
    authorityHost := c.authorityHost
    managedBy := .bootstrap }

def Applier.createCredential (c : Credential) (p : Progress) : Step :=
  match a.sealInto g (a.newCredential c) c with
  | .error e => return (p, .error e)
  | .ok stored => do
    let (_, created) ← CredentialRepo.create stored.id stored
    match created with
    | .error e => return (p, .error (failedTo g "creating credential" c.name e))
    | .ok () => return ((p.credential c.name stored.id).created, .ok ())

def Applier.updateCredential (stored : CredentialRow) (c : Credential) (p : Progress) : Step :=
  match a.sealInto g (c.over stored) c with
  | .error e => return (p, .error e)
  | .ok stored => do
    let (_, updated) ← CredentialRepo.update stored
    match updated with
    | .error e => return (p, .error (failedTo g "updating credential" c.name e))
    | .ok () => return (p.updated, .ok ())

def Applier.applyCredential (c : Credential) (p : Progress) : Step := do
  let found ← CredentialRepo.getByName c.name
  match found with
  | .ok existing =>
    if !a.reconcile then return ((p.credential c.name existing.id).skipped, .ok ())
    else a.updateCredential g existing c (p.credential c.name existing.id)
  | .error e => if !e.is errNotFound then return (p, .error e) else a.createCredential g c p

/-! ## Mailboxes -/

def mailboxTransport (m : Mailbox) : Transport :=
  if m.transport = ascii "graph" then .graph else .smtp

def Applier.newMailbox (m : Mailbox) (credentialID : Bytes) : MailboxRow where
  id := (a.newID .mailbox (g.toLower m.address)).1
  address := g.toLower m.address
  displayName := m.displayName
  oauthCredentialID := credentialID
  transport := mailboxTransport m
  rateLimitPerMin := nullInt m.rateLimitPerMin
  maxConcurrent := nullInt m.maxConcurrent
  enabled := !m.disabled
  managedBy := a.managedBy

def Mailbox.over (m : Mailbox) (credentialID : Bytes) (stored : MailboxRow) : MailboxRow :=
  { stored with
    displayName := m.displayName
    oauthCredentialID := credentialID
    transport := mailboxTransport m
    rateLimitPerMin := nullInt m.rateLimitPerMin
    maxConcurrent := nullInt m.maxConcurrent
    enabled := !m.disabled
    managedBy := .bootstrap }

/-- The key of the credential a mailbox names, which may predate the file. -/
def credentialIDFor (m : Mailbox) (p : Progress) : ConfigProg (Except Err (Bytes × Progress)) :=
  match p.credentialIDs.lookup m.credential with
  | some id => return .ok (id, p)
  | none => do
    let found ← CredentialRepo.getByName m.credential
    match found with
    | .error _ => return .error (missing g "mailbox" m.address "credential" m.credential)
    | .ok existing => return .ok (existing.id, p.credential m.credential existing.id)

def Applier.createMailbox (m : Mailbox) (credentialID : Bytes) (p : Progress) : Step := do
  let stored := a.newMailbox g m credentialID
  let (_, created) ← MailboxRepo.create stored.id stored
  match created with
  | .error e => return (p, .error (failedTo g "creating mailbox" m.address e))
  | .ok () => return ((p.mailbox stored.address stored.id).created, .ok ())

def updateMailbox (m : Mailbox) (credentialID : Bytes) (existing : MailboxRow) (p : Progress) :
    Step := do
  let (_, updated) ← MailboxRepo.update (m.over credentialID existing)
  match updated with
  | .error e => return (p, .error (failedTo g "updating mailbox" m.address e))
  | .ok () => return (p.updated, .ok ())

def Applier.applyMailbox (m : Mailbox) (p : Progress) : Step := do
  let credential ← credentialIDFor g m p
  match credential with
  | .error e => return (p, .error e)
  | .ok (credentialID, p) =>
    let found ← MailboxRepo.getByAddress (g.toLower m.address)
    match found with
    | .ok existing =>
      let p := p.mailbox (g.toLower m.address) existing.id
      if !a.reconcile then return (p.skipped, .ok ())
      else updateMailbox g m credentialID existing p
    | .error e =>
      if !e.is errNotFound then return (p, .error e) else a.createMailbox g m credentialID p

/-! ## Accounts -/

def accountPolicy (acc : Account) : FromPolicy :=
  if acc.fromPolicy = ascii "rewrite" then .rewrite
  else if acc.fromPolicy = ascii "passthrough" then .passthrough
  else .reject

/-- The key of a mailbox an account names, which may predate the file. -/
def mailboxIDFor (username address : Bytes) (p : Progress) :
    ConfigProg (Except Err (Bytes × Progress)) :=
  match p.mailboxIDs.lookup (g.toLower address) with
  | some id => return .ok (id, p)
  | none => do
    let found ← MailboxRepo.getByAddress (g.toLower address)
    match found with
    | .error _ => return .error (missing g "account" username "mailbox" address)
    | .ok existing => return .ok (existing.id, p.mailbox (g.toLower address) existing.id)

def mailboxIDsFor (username : Bytes) :
    List Bytes → Progress → ConfigProg (Except Err (List Bytes × Progress))
  | [], p => return .ok ([], p)
  | address :: addresses, p => do
    let one ← mailboxIDFor g username address p
    match one with
    | .error e => return .error e
    | .ok (id, p) =>
      let others ← mailboxIDsFor username addresses p
      match others with
      | .error e => return .error e
      | .ok (ids, p) => return .ok (id :: ids, p)

/-- The key of the default mailbox, or the empty text. Unlike the mailboxes of the list, a
default that is named is not looked for in the database. -/
def defaultIDFor (acc : Account) (ids : List Bytes) (p : Progress) : Bytes :=
  if acc.defaultMailbox ≠ [] then (p.mailboxIDs.lookup (g.toLower acc.defaultMailbox)).getD []
  else ids.head?.getD []

def Applier.newAccount (acc : Account) (defaultID : Bytes) : AccountRow where
  id := (a.newID .account acc.username).1
  username := acc.username
  passwordHash := acc.passwordHash
  description := acc.description
  defaultMailboxID := nullString defaultID
  fromPolicy := accountPolicy acc
  allowCIDRs := acc.allowCIDRs
  rateLimitPerMin := nullInt acc.rateLimitPerMin
  enabled := !acc.disabled
  managedBy := a.managedBy

def Account.over (acc : Account) (defaultID : Bytes) (stored : AccountRow) : AccountRow :=
  { stored with
    description := acc.description
    passwordHash := acc.passwordHash
    defaultMailboxID := nullString defaultID
    fromPolicy := accountPolicy acc
    allowCIDRs := acc.allowCIDRs
    rateLimitPerMin := nullInt acc.rateLimitPerMin
    enabled := !acc.disabled
    managedBy := .bootstrap }

def linkAccount (accountID : Bytes) (mailboxIDs allowedSenders : List Bytes) :
    ConfigProg (Except Err Unit) := do
  let linked ← AccountRepo.setMailboxes accountID mailboxIDs
  match linked with
  | .error e => return .error (wrapping (ascii "bootstrap: linking mailboxes") e)
  | .ok () =>
    let allowed ← AccountRepo.setAllowedSenders accountID allowedSenders
    match allowed with
    | .error e => return .error (wrapping (ascii "bootstrap: setting allowed senders") e)
    | .ok () => return .ok ()

def Applier.createAccount (acc : Account) (ids : List Bytes) (p : Progress) : Step := do
  let stored := a.newAccount acc (defaultIDFor g acc ids p)
  let (_, created) ← AccountRepo.create stored.id stored
  match created with
  | .error e => return (p, .error (failedTo g "creating account" acc.username e))
  | .ok () =>
    let linked ← linkAccount stored.id ids acc.allowedSenders
    match linked with
    | .error e => return (p, .error e)
    | .ok () => return (p.created, .ok ())

def updateAccount (acc : Account) (ids : List Bytes) (existing : AccountRow) (p : Progress) :
    Step := do
  let (_, updated) ← AccountRepo.update (acc.over (defaultIDFor g acc ids p) existing)
  match updated with
  | .error e => return (p, .error (failedTo g "updating account" acc.username e))
  | .ok () =>
    let linked ← linkAccount existing.id ids acc.allowedSenders
    match linked with
    | .error e => return (p, .error e)
    | .ok () => return (p.updated, .ok ())

def Applier.applyAccount (acc : Account) (p : Progress) : Step := do
  let mailboxes ← mailboxIDsFor g acc.username acc.mailboxes p
  match mailboxes with
  | .error e => return (p, .error e)
  | .ok (ids, p) =>
    let found ← AccountRepo.getByUsername acc.username
    match found with
    | .ok existing =>
      if !a.reconcile then return (p.skipped, .ok ()) else updateAccount g acc ids existing p
    | .error e => if !e.is errNotFound then return (p, .error e) else a.createAccount g acc ids p

/-! ## `Apply` -/

def andThen (first : Step) (next : Progress → Step) : Step := do
  let (p, done) ← first
  match done with
  | .error e => return (p, .error e)
  | .ok () => next p

def Applier.apply (f : File) : ConfigProg (Result × Except Err Unit) := do
  let (p, done) ← andThen
    (andThen (applyEach (a.applyCredential g) f.credentials {})
      (applyEach (a.applyMailbox g) f.mailboxes))
    (applyEach (a.applyAccount g) f.accounts)
  return (p.result, done)

end SmtpProxy.Bootstrap
