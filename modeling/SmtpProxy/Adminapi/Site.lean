import SmtpProxy.Adminapi.Credentials
import SmtpProxy.Adminapi.Mailboxes
import SmtpProxy.Crypto.Password
import SmtpProxy.Store.Audit
import SmtpProxy.Store.Erasure

/-!
# Requests on the whole store

What a request of the management interface works with: the tables of the configuration, of the
users, of the queue and of the audit log together (`DiagnosticsDB`), what the server is set up
with (`Api`), and what is decided for one request (`Ctx`: who makes it, what is drawn at random,
how the transaction of a test send goes). The repositories' programs run on their part of the
store (`onConfig`, `onAdmin`); a deleted mailbox or account is also taken out of the messages
that name it (`ON DELETE SET NULL`).

Where the model departs from the source: headers, cookies, log lines and the token provider's
cache are left out, and the days a credential is good for, a `float64` in the code, are a
parameter (`Api.daysUntil`).
-/

namespace SmtpProxy.Adminapi

open Lib Store Policy Adminauth

inductive SiteOp where
  | config (op : ConfigOp)
  | admin (op : AdminOp)
  | messageGet
  | messageList
  | messageCount
  | messageAction
  | enqueueDiagnostic
  | auditAppend
  | auditList
  | auditCount
  /-- `time.Now`. -/
  | clock
  deriving DecidableEq

abbrev SiteProg := Prog SiteOp Fate DiagnosticsDB

/-- The configuration in the whole store. -/
def configLens : Lens DiagnosticsDB Config where
  get db := db.config
  set config db := { db with config }
  get_set _ _ := rfl
  set_get _ := rfl
  set_set _ _ _ := rfl

def adminLens : Lens DiagnosticsDB AdminDB where
  get db := db.admin
  set admin db := { db with admin }
  get_set _ _ := rfl
  set_get _ := rfl
  set_set _ _ _ := rfl

section

variable {α : Type}

def onConfig (p : ConfigProg α) : SiteProg α := p.zoom .config configLens

def onAdmin (p : AdminProg α) : SiteProg α := p.zoom .admin adminLens

def withoutMailbox (queue : DB) (id : Bytes) : DB :=
  queue.update (fun m => decide (m.mailboxID = some id)) (fun m => { m with mailboxID := none })
    fun _ => rfl

def withoutAccount (queue : DB) (id : Bytes) : DB :=
  queue.update (fun m => decide (m.smtpAccountID = some id))
    (fun m => { m with smtpAccountID := none }) fun _ => rfl

/-- A deletion in the configuration, and what it does to the messages. -/
def deleting (op : ConfigOp) (delete : Config → Except Err Unit × Config) (detach : DB → DB) :
    SiteProg (Except Err Unit) :=
  statement (.config op) fun _ db =>
    let done := delete db.config
    (done.1, { db with
      config := done.2
      queue := if done.1.isOk then detach db.queue else db.queue })

def deleteMailbox (id : Bytes) : SiteProg (Except Err Unit) :=
  deleting .mailboxDelete (fun config => config.deleteMailbox id) fun queue => withoutMailbox queue id

def deleteAccount (id : Bytes) : SiteProg (Except Err Unit) :=
  deleting .accountDelete (fun config => config.deleteAccount id) fun queue => withoutAccount queue id

def getMessage (id : Bytes) : SiteProg (Except Err Message) :=
  query .messageGet fun db =>
    match db.queue.get id with
    | some m => .ok m
    | none => .error (translateError .noRows (ascii "message " ++ id))

/-- An action of an operator on the queue. A message that is removed is taken out of the
reservations. -/
def queueStatement (act : DB → Int → Except Err Unit × DB) : SiteProg (Except Err Unit) :=
  statement .messageAction fun now db =>
    let done := act db.queue now
    (done.1, { db with
      queue := done.2
      requests := forget (removedBy db.queue done.2) db.requests })

def now : SiteProg Int := .exec .clock fun c db => (c.now, db)

/-! ## One request -/

/-- What the server is set up with, and what it needs of Go and of the database. -/
structure Api extends Server where
  text : GoText
  /-- `json.Marshal`, of the details of an entry. -/
  marshal : Details → Option Bytes
  sql : SQLText
  aead : Crypto.Aead
  keyring : Option Crypto.Keyring := none
  /-- `argon2.IDKey`, with the cost parameters of `DefaultArgon2Params`. -/
  idKey : (password salt : Bytes) → Bytes
  parallelism : Nat := 2
  /-- `int(time.Until(t).Hours() / 24)`, which is computed in `float64`. -/
  daysUntil : (t now : Int) → Int
  trustedProxies : List IPNet := []
  smtpEndpoint : Bytes := []
  graphEndpoint : Bytes := []
  smtpScope : Bytes := []
  graphScope : Bytes := []
  /-- A URL without userinfo, query and fragment, if it has a host. -/
  destination : Bytes → Option Bytes := fun _ => none
  /-- `uuid.Parse`, printed again. -/
  parseUUID : Bytes → Option Bytes := some
  /-- `Format(time.RFC1123Z)`. -/
  date : Int → Bytes := itoa
  /-- `Format(time.RFC3339)`. -/
  timestamp : Int → Bytes := itoa

def Api.auditText (api : Api) : AuditText := ⟨api.text.toLower, api.marshal⟩

def saltLength : Nat := 16

/-- What is drawn at random for one request: its identifiers, and what `rand.Read` came to for
a generated password, for the salt of a hash and for the nonce of a text that is sealed. -/
structure Draws where
  id : Bytes := []
  auditID : Bytes := []
  random : Except Err Entropy
  salt : Except Err { b : Bytes // b.length = saltLength }
  nonce : (context : Bytes) → Except Err { b : Bytes // b.length = Crypto.nonceSize }

structure Ctx where
  api : Api
  http : HTTPRequest
  draws : Draws
  /-- How the statements in the transaction of a test send go. -/
  tx : DiagnosticStatement → Fate
  actorID : Bytes
  actorName : Bytes

def rawStdEncoding (s : Bytes) : Bytes := (Base64.encode s).rdropWhile (· = Base64.pad)

/-- `HashPasswordWith`, of a password that is not too long. -/
def hashPasswordWith (api : Api) (salt : Except Err { b : Bytes // b.length = saltLength })
    (password : Bytes) : Except Err Bytes :=
  match salt with
  | .error e => .error (wrapping (ascii "crypto: read random salt") e)
  | .ok salt =>
    .ok (ascii "$argon2id$v=19$m=65536,t=3,p=" ++ itoa api.parallelism ++ ascii "$" ++
      rawStdEncoding salt.val ++ ascii "$" ++ rawStdEncoding (api.idKey password salt.val))

def Ctx.passwords (x : Ctx) : App.Passwords :=
  { x.api.passwords with hash := hashPasswordWith x.api x.draws.salt }

def Ctx.keyring (x : Ctx) : Option Keyring :=
  x.api.keyring.map (keyringOf x.api.text.quote x.api.aead x.draws.nonce)

/-- What a handler says of a change. -/
structure Change where
  action : String
  targetType : String
  targetID : Bytes
  targetName : Bytes
  details : Details := []

variable (x : Ctx)

def auditEntry (e : Change) (at_ : Int) : AuditEntry where
  id := x.draws.auditID
  at_ := at_
  actorType := ascii "user"
  actorID := x.actorID
  actorName := x.actorName
  action := ascii e.action
  targetType := ascii e.targetType
  targetID := e.targetID
  targetName := e.targetName
  details := if e.details.isEmpty then ascii "\x7b\x7d" else maskSecrets x.api.auditText e.details
  result := ascii "success"
  ip := clientIP x.api.net x.http x.api.trustedProxies
  userAgent := x.http.userAgent.take 512

def audit (e : Change) : SiteProg Unit := do
  let _ ← statement .auditAppend fun now db =>
    let appended := AuditLog.append db.audit (auditEntry x e now)
    (appended.1, { db with audit := appended.2 })

def Response.map {β β' : Type} (f : β → β') (r : Response β) : Response β' :=
  ⟨r.status, r.body.map fun body => body.map f⟩

end

/-! ## Credentials, mailboxes and accounts

All handlers of `internal/adminapi/credentials.go`, `mailboxes.go` (without the token test),
`diagnostics.go` and `accounts.go`, with the entries they write to the audit log, whose details
are printed in the order of their names. -/

def authTypeText : AuthType → Bytes
  | .secret => ascii "secret"
  | .certificate => ascii "certificate"

def transportText : Transport → Bytes
  | .smtp => ascii "smtp"
  | .graph => ascii "graph"

def fromPolicyText : FromPolicy → Bytes
  | .reject => ascii "reject"
  | .rewrite => ascii "rewrite"
  | .passthrough => ascii "passthrough"
  | .unknown text => text

/-- `credentialResponse`, with the days a credential is still good for. -/
structure CredentialView where
  credential : CredentialResponse
  expiresInDays : Option Int
  deriving DecidableEq

structure SetupResponse where
  summary : Bytes
  steps : List Bytes
  commands : Bytes
  docs : Bytes
  deriving DecidableEq

structure MailboxDiagnostics where
  mailbox : MailboxResponse
  credential : CredentialView
  endpoint : Bytes
  scope : Bytes
  verificationScope : Bytes
  deriving DecidableEq

structure MessageResponse where
  id : Bytes
  smtpAccountID : Bytes
  mailboxID : Bytes
  origin : Origin
  accountUsername : Bytes
  mailboxAddress : Bytes
  envelopeFrom : Bytes
  headerFrom : Bytes
  recipients : List Bytes
  recipientCount : Nat
  sizeBytes : Nat
  subject : Bytes
  messageID : Bytes
  status : MessageStatus
  attempts : Nat
  nextAttemptAt : Option Int
  lastError : Bytes
  lastErrorCode : Bytes
  lastErrorPermanent : Bool
  clientIP : Bytes
  receivedAt : Int
  sentAt : Option Int
  deriving DecidableEq

structure AuditResponse where
  id : Bytes
  at_ : Bytes
  actorType : Bytes
  actorID : Bytes
  actorName : Bytes
  action : Bytes
  targetType : Bytes
  targetID : Bytes
  targetName : Bytes
  details : Bytes
  result : Bytes
  ip : Bytes
  userAgent : Bytes
  deriving DecidableEq

/-- What a request is answered with. A `listResponse` has its items and their total. -/
inductive Answer where
  | credential (c : CredentialView)
  | credentials (items : List CredentialView) (total : Nat)
  | setup (s : SetupResponse)
  | mailbox (m : MailboxResponse)
  | mailboxes (items : List MailboxResponse) (total : Nat)
  | diagnostics (d : MailboxDiagnostics)
  | testSend (messageID : Bytes) (created : Bool)
  | account (a : AccountResponse)
  | accounts (items : List AccountResponse) (total : Nat)
  | createdAccount (a : AccountResponse) (password : Bytes)
  | password (password : Bytes)
  | message (m : MessageResponse)
  | messages (items : List MessageResponse) (total : Nat)
  | user (u : UserResponse)
  | users (items : List UserResponse) (total : Nat)
  | audit (items : List AuditResponse) (total : Nat)
  deriving DecidableEq

abbrev Handler := SiteProg (Response Answer)

def detail (name : String) (v : Detail) : Bytes × Detail := (ascii name, v)

/-- A field of the details, if the request has it. -/
def detailOf {α : Type} (name : String) (given : Option α) (v : α → Detail) : Details :=
  (given.map fun a => detail name (v a)).toList

def named (text : Bytes) : Option Bytes := if text = [] then none else some text

namespace Site

variable (x : Ctx)

/-! ## `credentials.go` -/

def toCredentialResponse (c : CredentialRow) (mailboxes : Nat) : SiteProg CredentialView :=
  match c.expiresAt with
  | none => return ⟨Adminapi.toCredentialResponse c mailboxes, none⟩
  | some t => do
    let at_ ← now
    return ⟨Adminapi.toCredentialResponse c mailboxes, some (x.api.daysUntil t at_)⟩

def toCredentialResponses (perCredential : Bytes → Nat) :
    List CredentialRow → SiteProg (List CredentialView)
  | [] => return []
  | c :: rest => do
    let view ← toCredentialResponse x c (perCredential c.id)
    let views ← toCredentialResponses perCredential rest
    return view :: views

def handleListCredentials : Handler :=
  orFail (onConfig CredentialRepo.list) fun credentials =>
  orFail (onConfig MailboxRepo.list) fun mailboxes => do
    let items ← toCredentialResponses x
      (fun id => mailboxes.countP fun m => m.oauthCredentialID = id) credentials
    return .json 200 (.credentials items items.length)

def handleGetCredential (id : Bytes) : Handler :=
  orFail (onConfig (CredentialRepo.get id)) fun c => do
    let mailboxes ← onConfig (countMailboxes c.id)
    let view ← toCredentialResponse x c mailboxes
    return .json 200 (.credential view)

def handleCreateCredential (body : Decoded CredentialRequest) : Handler :=
  createCredential x.keyring onConfig x.draws.id body fun c => do
    audit x {
      action := "credential.create", targetType := "credential"
      targetID := c.id, targetName := c.name
      details := [detail "authType" (.text (authTypeText c.authType)),
        detail "clientId" (.text c.clientID), detail "tenantId" (.text c.tenantID)] }
    let view ← toCredentialResponse x c 0
    return .json 201 (.credential view)

def handleUpdateCredential (id : Bytes) (body : Decoded CredentialRequest) : Handler :=
  updateCredential x.keyring onConfig id body fun req c => do
    audit x {
      action := "credential.update", targetType := "credential"
      targetID := c.id, targetName := c.name
      details := [detail "authType" (.text (authTypeText c.authType)),
        detail "clientId" (.text c.clientID),
        detail "secretChanged" (.flag (req.clientSecret.isSome || req.certificateKeyPEM.isSome)),
        detail "tenantId" (.text c.tenantID)] }
    let mailboxes ← onConfig (countMailboxes c.id)
    let view ← toCredentialResponse x c mailboxes
    return .json 200 (.credential view)

def handleDeleteCredential (id : Bytes) : Handler :=
  deleteCredential onConfig id fun c => do
    audit x {
      action := "credential.delete", targetType := "credential"
      targetID := c.id, targetName := c.name }
    return .noContent

def setupSteps (mailboxAddresses : List Bytes) : List Bytes :=
  [ascii "In Microsoft Entra ID, open this application's API permissions and add the " ++
      ascii "application permission SMTP.SendAsApp under \"Office 365 Exchange Online\".",
    ascii "Grant admin consent for that permission. Without consent the token is issued but " ++
      ascii "Exchange refuses it with 535 5.7.3.",
    ascii "Copy the Object ID from the Enterprise applications page " ++ [0xE2, 0x80, 0x94] ++
      ascii " not from App registrations. " ++
      ascii "Using the wrong one is the single most common cause of a 535 with everything else correct.",
    ascii "Run the PowerShell below as an Exchange administrator."] ++
  if mailboxAddresses.isEmpty then
    [ascii "Add a mailbox to this credential, then run Add-MailboxPermission for it."]
  else []

def setupGrants (g : GoText) (mailboxAddresses : List Bytes) : Bytes :=
  if mailboxAddresses.isEmpty then
    ascii "# Once a mailbox is added to this credential, grant access to it:\n" ++
    ascii "# Add-MailboxPermission -Identity \"shared@example.com\" -User $sp.Identity " ++
    ascii "-AccessRights FullAccess\n"
  else
    ascii "# Grant access to each mailbox this credential sends as.\n" ++
    mailboxAddresses.flatMap (fun address =>
      ascii "Add-MailboxPermission -Identity " ++ g.quote address ++
        ascii " -User $sp.Identity -AccessRights FullAccess\n") ++
    ascii "\n# Only needed if a message's envelope sender differs from the mailbox:\n" ++
    mailboxAddresses.flatMap fun address =>
      ascii "# Add-RecipientPermission -Identity " ++ g.quote address ++
        ascii " -Trustee $sp.Identity -AccessRights SendAs\n"

def setupCommands (g : GoText) (c : CredentialRow) (mailboxAddresses : List Bytes) : Bytes :=
  ascii "# Run in Exchange Online PowerShell, as an Exchange administrator.\n" ++
  ascii "Install-Module -Name ExchangeOnlineManagement -Scope CurrentUser\n" ++
  ascii "Import-Module ExchangeOnlineManagement\n" ++
  ascii "Connect-ExchangeOnline -Organization " ++ c.tenantID ++ ascii "\n\n" ++
  ascii "# The Object ID below must come from Entra ID > Enterprise applications,\n" ++
  ascii "# NOT from App registrations. They are different values.\n" ++
  ascii "$objectId = \"<Object ID from Enterprise applications>\"\n\n" ++
  ascii "New-ServicePrincipal -AppId " ++ c.clientID ++ ascii " -ObjectId $objectId `\n" ++
  ascii "  -DisplayName \"smtp-auth-proxy (" ++ c.name ++ ascii ")\"\n\n" ++
  ascii "$sp = Get-ServicePrincipal -Identity \"smtp-auth-proxy (" ++ c.name ++ ascii ")\"\n\n" ++
  setupGrants g mailboxAddresses ++
  ascii "\n# The proxy requests tokens for the scope https://outlook.office365.com/.default\n"

def buildSetup (g : GoText) (c : CredentialRow) (mailboxAddresses : List Bytes) : SetupResponse where
  summary := ascii "Exchange Online needs three things before it will accept this credential: " ++
    ascii "admin consent for SMTP.SendAsApp, a registered service principal, and a mailbox " ++
    ascii "permission for each of the " ++ itoa mailboxAddresses.length ++
    ascii " mailbox(es) it sends as."
  steps := setupSteps mailboxAddresses
  commands := setupCommands g c mailboxAddresses
  docs := ascii "https://learn.microsoft.com/exchange/client-developer/legacy-protocols/" ++
    ascii "how-to-authenticate-an-imap-pop-smtp-application-by-using-oauth"

def handleCredentialSetup (id : Bytes) : Handler :=
  orFail (onConfig (CredentialRepo.get id)) fun c =>
  orFail (onConfig MailboxRepo.list) fun mailboxes =>
    let mine := mailboxes.filter fun m => m.oauthCredentialID = c.id
    return .json 200 (.setup (buildSetup x.api.text c (mine.map (·.address))))

/-! ## `mailboxes.go` -/

/-- `credentialNames`: no names, if the credentials cannot be listed. -/
def credentialNames : ConfigProg (Bytes → Bytes) := do
  let credentials ← CredentialRepo.list
  match credentials with
  | .error _ => return fun _ => []
  | .ok credentials =>
    return fun id => ((credentials.find? fun c => c.id = id).map (·.name)).getD []

def handleListMailboxes : Handler :=
  orFail (onConfig MailboxRepo.list) fun mailboxes => do
    let names ← onConfig credentialNames
    let items := mailboxes.map fun m => toMailboxResponse m (names m.oauthCredentialID)
    return .json 200 (.mailboxes items items.length)

def handleGetMailbox (id : Bytes) : Handler :=
  orFail (onConfig (MailboxRepo.get id)) fun m => do
    let names ← onConfig credentialNames
    return .json 200 (.mailbox (toMailboxResponse m (names m.oauthCredentialID)))

def handleCreateMailbox (body : Decoded MailboxRequest) : Handler :=
  createMailbox x.api.text onConfig x.draws.id body fun m => do
    audit x {
      action := "mailbox.create", targetType := "mailbox", targetID := m.id, targetName := m.address
      details := [detail "credentialId" (.text m.oauthCredentialID),
        detail "transport" (.text (transportText m.transport))] }
    let names ← onConfig credentialNames
    return .json 201 (.mailbox (toMailboxResponse m (names m.oauthCredentialID)))

def mailboxChanges (req : MailboxRequest) (m : MailboxRow) : Details :=
  detailOf "address" (named req.address) (fun _ => .text m.address) ++
  detailOf "credentialId" (named req.oauthCredentialID) (fun _ => .text m.oauthCredentialID) ++
  detailOf "enabled" req.enabled .flag ++
  detailOf "maxConcurrent" req.maxConcurrent .number ++
  detailOf "rateLimitPerMin" req.rateLimitPerMin .number ++
  detailOf "transport" (named req.transport) fun _ => .text (transportText m.transport)

def handleUpdateMailbox (id : Bytes) (body : Decoded MailboxRequest) : Handler :=
  updateMailbox x.api.text onConfig id body fun req m => do
    audit x {
      action := "mailbox.update", targetType := "mailbox", targetID := m.id, targetName := m.address
      details := mailboxChanges req m }
    let names ← onConfig credentialNames
    return .json 200 (.mailbox (toMailboxResponse m (names m.oauthCredentialID)))

def handleDeleteMailbox (id : Bytes) : Handler :=
  deleteObject onConfig (MailboxRepo.get id) MailboxRow.managedBy
    "this mailbox is declared in the bootstrap file; remove it there"
    (fun m => deleteMailbox m.id) fun m => do
    audit x {
      action := "mailbox.delete", targetType := "mailbox", targetID := m.id, targetName := m.address }
    return .noContent

/-! ## `diagnostics.go` -/

def scopeFor : Transport → Bytes
  | .graph => x.api.graphScope
  | .smtp => x.api.smtpScope

/-- Where a transport delivers to, as far as it is shown. -/
def endpointFor (transport : Transport) : Bytes :=
  let endpoint := match transport with
    | .graph => x.api.graphEndpoint
    | .smtp => x.api.smtpEndpoint
  (x.api.destination endpoint).getD endpoint

def handleMailboxDiagnostics (id : Bytes) : Handler :=
  orFail (onConfig (MailboxRepo.get id)) fun m =>
  orFail (onConfig (CredentialRepo.get m.oauthCredentialID)) fun c =>
  orFail (onConfig MailboxRepo.list) fun related => do
    let view ← toCredentialResponse x c (related.countP fun mailbox => mailbox.oauthCredentialID = c.id)
    return .json 200 (.diagnostics {
      mailbox := toMailboxResponse m c.name
      credential := view
      endpoint := endpointFor x m.transport
      scope := scopeFor x m.transport
      verificationScope :=
        ascii "Token acquisition checks authentication only. A queued test checks " ++
        ascii "Microsoft 365 acceptance, not inbox arrival or device SMTP login." })

structure TestRequest where
  requestID : Bytes := []
  recipient : Bytes := []
  deriving DecidableEq

def testSubject : Bytes := ascii "smtp-auth-proxy diagnostic test"

def testBody (from_ to_ messageID : Bytes) (at_ : Int) : Bytes :=
  ascii "From: " ++ x.api.text.format { address := from_ } ++
  ascii "\r\nTo: " ++ x.api.text.format { address := to_ } ++
  ascii "\r\nDate: " ++ x.api.date at_ ++ ascii "\r\nMessage-ID: " ++ messageID ++
  ascii "\r\nSubject: " ++ testSubject ++
  ascii "\r\nMIME-Version: 1.0\r\nContent-Type: text/plain; charset=utf-8\r\n\r\n" ++
  ascii "This is a diagnostic test sent through the normal smtp-auth-proxy delivery queue.\r\n" ++
  ascii "Microsoft 365 acceptance does not prove inbox arrival or device SMTP login.\r\n"

def testCall (m : MailboxRow) (from_ recipient requestID : Bytes) (at_ : Int) : DiagnosticCall :=
  let messageID := ascii "<" ++ x.draws.id ++ ascii "@smtp-auth-proxy.invalid>"
  let body := testBody x from_ recipient messageID at_
  { actorID := x.actorID
    requestID
    mailboxID := m.id
    recipient
    draft := {
      id := x.draws.id, mailboxAddress := m.address, envelopeFrom := from_, headerFrom := from_
      recipients := [recipient], sizeBytes := body.length, subject := testSubject, messageID }
    body := some body
    newID := x.draws.id
    auditID := x.draws.auditID }

/-- `EnqueueDiagnostic`, with the masking of the log. -/
def enqueueDiagnostic (call : DiagnosticCall) : SiteProg (Except Err (Bytes × Bool)) :=
  .exec .enqueueDiagnostic fun _ db =>
    Store.enqueueDiagnostic
      (fun fields => maskSecrets x.api.auditText (fields.map fun f => (f.1, .text f.2))) x.tx call db

def badRecipient : Handler :=
  return .validation [Response.field "recipient" "specify one valid recipient"]

def handleSendMailboxTest (id : Bytes) (body : Decoded TestRequest) : Handler :=
  withBody body fun req =>
    match x.api.parseUUID req.requestID with
    | none => return .validation [Response.field "requestId" "must be a UUID"]
    | some requestID =>
      match parseAddress x.api.text req.recipient with
      | .error _ => badRecipient
      | .ok address =>
        if address.normalized = [] ∨ cr ∈ req.recipient ∨ lf ∈ req.recipient then badRecipient
        else
          orFail (onConfig (MailboxRepo.get id)) fun m =>
            match parseAddress x.api.text m.address with
            | .error _ => return .error 409 "conflict" "mailbox address is invalid"
            | .ok from_ =>
              if from_.normalized = [] then
                return .error 409 "conflict" "mailbox address is invalid"
              else do
                let at_ ← now
                orFail (enqueueDiagnostic x
                  (testCall x m from_.normalized address.normalized requestID at_)) fun sent =>
                  return .json 202 (.testSend sent.1 sent.2)

/-! ## `accounts.go` -/

def toAccountResponses : List AccountRow → ConfigProg (Except Err (List AccountResponse))
  | [] => return .ok []
  | a :: rest => do
    let resp ← toAccountResponse a
    match resp with
    | .error e => return .error e
    | .ok resp =>
      let others ← toAccountResponses rest
      return others.map fun others => resp :: others

def handleListAccounts : Handler :=
  orFail (onConfig AccountRepo.list) fun accounts =>
  orFail (onConfig (toAccountResponses accounts)) fun items =>
    return .json 200 (.accounts items items.length)

def handleGetAccount (id : Bytes) : Handler :=
  orFail (onConfig (AccountRepo.get id)) fun a =>
  orFail (onConfig (toAccountResponse a)) fun resp => return .json 200 (.account resp)

def handleCreateAccount (body : Decoded AccountRequest) : Handler :=
  createAccount onConfig x.api.net x.passwords x.api.text ⟨x.draws.id, x.draws.random⟩ body
    fun a password generated => do
    audit x {
      action := "account.create", targetType := "smtp_account"
      targetID := a.id, targetName := a.username
      details := [detail "fromPolicy" (.text (fromPolicyText a.fromPolicy)),
        detail "password" (.text password), detail "passwordGenerated" (.flag generated)] }
    orFail (onConfig (toAccountResponse a)) fun resp =>
      return .json 201 (.createdAccount resp password)

def accountChanges (req : AccountRequest) (a : AccountRow) : Details :=
  detailOf "allowCidrs" req.allowCIDRs .texts ++
  detailOf "defaultMailboxId" req.defaultMailboxID .text ++
  detailOf "enabled" req.enabled .flag ++
  detailOf "fromPolicy" (named req.fromPolicy) (fun _ => .text (fromPolicyText a.fromPolicy)) ++
  detailOf "rateLimitPerMin" req.rateLimitPerMin .number ++
  detailOf "username" (named req.username) fun _ => .text a.username

def handleUpdateAccount (id : Bytes) (body : Decoded AccountRequest) : Handler :=
  updateAccount onConfig x.api.net x.api.text id body fun req a => do
    audit x {
      action := "account.update", targetType := "smtp_account"
      targetID := a.id, targetName := a.username, details := accountChanges req a }
    orFail (onConfig (toAccountResponse a)) fun resp => return .json 200 (.account resp)

def handleDeleteAccount (id : Bytes) : Handler :=
  deleteObject onConfig (AccountRepo.get id) AccountRow.managedBy
    "this account is declared in the bootstrap file; remove it there"
    (fun a => deleteAccount a.id) fun a => do
    audit x {
      action := "account.delete", targetType := "smtp_account"
      targetID := a.id, targetName := a.username }
    return .noContent

def handleResetAccountPassword (id : Bytes) (body : Decoded (Option Bytes)) : Handler :=
  resetAccountPassword onConfig x.passwords x.draws.random id body fun a password generated => do
    audit x {
      action := "account.reset_password", targetType := "smtp_account"
      targetID := a.id, targetName := a.username
      details := [detail "passwordGenerated" (.flag generated)] }
    return .json 200 (.password password)

end Site

end SmtpProxy.Adminapi
