import SmtpProxy.Adminapi.Site

/-!
# Users, messages and the audit log on the whole store

All handlers of `internal/adminapi/users.go`, of `messages.go` (without the download of a body)
and of `audit.go`, with the entries they write to the audit log. How the query of a list request
is read is left out; a request has the filter that was read from it.
-/

namespace SmtpProxy.Adminapi

open Lib Store Adminauth

def roleText : Role → Bytes
  | .admin => ascii "admin"
  | .operator => ascii "operator"
  | .viewer => ascii "viewer"

structure CreateUserRequest where
  username : Bytes := []
  email : Bytes := []
  displayName : Bytes := []
  role : Bytes := []
  password : Bytes := []
  deriving DecidableEq

def CreateUserRequest.fields (req : CreateUserRequest) : List (Bytes × Bytes) :=
  userPasswordField req.password ++
  fieldIf (parseRole req.role).isNone "role" "must be admin, operator or viewer" ++
  fieldIf (trimSpace req.username = []) "username" "required"

def CreateUserRequest.newUser (req : CreateUserRequest) (role : Role) (hash : Bytes) : AdminUser where
  id := []
  username := trimSpace req.username
  email := trimSpace req.email
  displayName := trimSpace req.displayName
  passwordHash := nullString hash
  role := role
  source := .sourceLocal

/-- `toMessageResponse`. A retry time is shown while the message is waiting. -/
def toMessageResponse (m : Message) : MessageResponse where
  id := m.id
  smtpAccountID := m.smtpAccountID.getD []
  mailboxID := m.mailboxID.getD []
  origin := m.origin
  accountUsername := m.accountUsername
  mailboxAddress := m.mailboxAddress
  envelopeFrom := m.envelopeFrom
  headerFrom := m.headerFrom
  recipients := m.recipients
  recipientCount := m.recipientCount
  sizeBytes := m.sizeBytes
  subject := m.subject
  messageID := m.messageID
  status := m.status
  attempts := m.attempts
  nextAttemptAt := if m.status = .queued ∨ m.status = .deferred then some m.nextAttemptAt else none
  lastError := m.lastError
  lastErrorCode := m.lastErrorCode
  lastErrorPermanent := m.lastErrorPermanent
  clientIP := m.clientIP
  receivedAt := m.receivedAt
  sentAt := m.sentAt

def toAuditResponse (timestamp : Int → Bytes) (e : AuditEntry) : AuditResponse where
  id := e.id
  at_ := timestamp e.at_
  actorType := e.actorType
  actorID := e.actorID
  actorName := e.actorName
  action := e.action
  targetType := e.targetType
  targetID := e.targetID
  targetName := e.targetName
  details := e.details
  result := e.result
  ip := e.ip
  userAgent := e.userAgent

namespace Site

variable (x : Ctx)

/-! ## `users.go` -/

def handleListUsers : Handler :=
  orFail (onAdmin UserRepo.list) fun users =>
    let items := users.map toUserResponse
    return .json 200 (.users items items.length)

def handleGetUser (id : Bytes) : Handler :=
  orFail (onAdmin (UserRepo.get id)) fun user => return .json 200 (.user (toUserResponse user))

def handleCreateUser (body : Decoded CreateUserRequest) : Handler :=
  withBody body fun req =>
    match parseRole req.role with
    | none => return .validation req.fields
    | some role =>
      ifValid req.fields <|
      orFail (return x.passwords.hashPassword req.password) fun hash =>
      whenStored (onAdmin (UserRepo.create x.draws.id (req.newUser role hash))) fun user => do
        audit x {
          action := "user.create", targetType := "user"
          targetID := user.id, targetName := user.username
          details := [detail "password" (.text req.password), detail "role" (.text (roleText role))] }
        return .json 201 (.user (toUserResponse user))

def userChanges (req : UpdateUserRequest) (user : AdminUser) : Details :=
  detailOf "disabled" req.disabled .flag ++
  detailOf "displayName" req.displayName (fun _ => .text user.displayName) ++
  detailOf "email" req.email (fun _ => .text user.email) ++
  detailOf "role" req.role fun _ => .text (roleText user.role)

def handleUpdateUser (id : Bytes) (body : Decoded UpdateUserRequest) : Handler :=
  updateUser onAdmin id body fun req user => do
    audit x {
      action := "user.update", targetType := "user"
      targetID := user.id, targetName := user.username, details := userChanges req user }
    return .json 200 (.user (toUserResponse user))

def handleDeleteUser (id : Bytes) : Handler :=
  deleteUser onAdmin x.actorID id fun user => do
    audit x {
      action := "user.delete", targetType := "user", targetID := user.id, targetName := user.username }
    return .noContent

def handleSetUserPassword (id : Bytes) (body : Decoded Bytes) : Handler :=
  setUserPassword onAdmin x.api.localAuth x.passwords id body fun user => do
    audit x {
      action := "user.set_password", targetType := "user"
      targetID := user.id, targetName := user.username }
    return .noContent

/-! ## `messages.go` -/

def handleListMessages (filter : MessageFilter) : Handler :=
  orFail (query .messageList fun db => .ok (listMessages db.queue x.api.sql filter)) fun messages =>
  orFail (query .messageCount fun db => .ok (countMessages db.queue x.api.sql filter)) fun total =>
    return .json 200 (.messages (messages.map toMessageResponse) total)

def handleGetMessage (id : Bytes) : Handler :=
  orFail (getMessage id) fun m => return .json 200 (.message (toMessageResponse m))

def queueAction (action : String) (id : Bytes) (act : DB → Int → Except Err Unit × DB) : Handler :=
  orFail (getMessage id) fun m =>
  orFail (queueStatement act) fun _ => do
    audit x {
      action, targetType := "message", targetID := m.id, targetName := m.mailboxAddress
      details := [detail "attempts" (.number m.attempts),
        detail "previousStatus" (.text m.status.text)] }
    return .noContent

def handleRetryMessage (id : Bytes) : Handler :=
  queueAction x "message.retry" id fun db now => requeue db now id

def handleHoldMessage (id : Bytes) : Handler :=
  queueAction x "message.hold" id fun db now => hold db now id

def handleDeleteMessage (id : Bytes) : Handler :=
  queueAction x "message.delete" id fun db _ => deleteMessage db id

/-! ## `audit.go` -/

def handleListAudit (filter : AuditFilter) : Handler :=
  orFail (query .auditList fun db => .ok (AuditLog.list db.audit filter)) fun entries =>
  orFail (query .auditCount fun db => .ok (AuditLog.count db.audit filter)) fun total =>
    return .json 200 (.audit (entries.map (toAuditResponse x.api.timestamp)) total)

end Site

/-! ## Serving

What stands before the handlers: `requireSession` and `require` of
`internal/adminapi/middleware.go`, and which permission the router asks for. -/

/-- The requests about credentials, mailboxes, accounts, users, messages and the audit log. Not
among them are the download of a message's body and the token test of a mailbox. -/
inductive ApiRequest where
  | listCredentials
  | getCredential (id : Bytes)
  | credentialSetup (id : Bytes)
  | createCredential (body : Decoded CredentialRequest)
  | updateCredential (id : Bytes) (body : Decoded CredentialRequest)
  | deleteCredential (id : Bytes)
  | listMailboxes
  | getMailbox (id : Bytes)
  | createMailbox (body : Decoded MailboxRequest)
  | updateMailbox (id : Bytes) (body : Decoded MailboxRequest)
  | deleteMailbox (id : Bytes)
  | mailboxDiagnostics (id : Bytes)
  | sendMailboxTest (id : Bytes) (body : Decoded Site.TestRequest)
  | listAccounts
  | getAccount (id : Bytes)
  | createAccount (body : Decoded AccountRequest)
  | updateAccount (id : Bytes) (body : Decoded AccountRequest)
  | deleteAccount (id : Bytes)
  | resetAccountPassword (id : Bytes) (body : Decoded (Option Bytes))
  | listUsers
  | createUser (body : Decoded CreateUserRequest)
  | getUser (id : Bytes)
  | updateUser (id : Bytes) (body : Decoded UpdateUserRequest)
  | deleteUser (id : Bytes)
  | setUserPassword (id : Bytes) (body : Decoded Bytes)
  | listMessages (filter : MessageFilter)
  | getMessage (id : Bytes)
  | retryMessage (id : Bytes)
  | holdMessage (id : Bytes)
  | deleteMessage (id : Bytes)
  | listAudit (filter : AuditFilter)

inductive Method where
  | get
  | post
  | patch
  | delete
  deriving DecidableEq

/-- `isSafeMethod`, of the methods the router knows. -/
def isSafeMethod (m : Method) : Bool := m = .get

namespace ApiRequest

def method : ApiRequest → Method
  | listCredentials | getCredential _ | credentialSetup _ | listMailboxes | getMailbox _
  | mailboxDiagnostics _ | listAccounts | getAccount _ | listUsers | getUser _ | listMessages _
  | getMessage _ | listAudit _ => .get
  | createCredential _ | createMailbox _ | sendMailboxTest _ _ | createAccount _
  | resetAccountPassword _ _ | createUser _ | setUserPassword _ _ | retryMessage _
  | holdMessage _ => .post
  | updateCredential _ _ | updateMailbox _ _ | updateAccount _ _ | updateUser _ _ => .patch
  | deleteCredential _ | deleteMailbox _ | deleteAccount _ | deleteUser _ | deleteMessage _ => .delete

def permission : ApiRequest → Permission
  | listCredentials | getCredential _ | credentialSetup _ | listMailboxes | getMailbox _
  | mailboxDiagnostics _ | listAccounts | getAccount _ => .viewConfig
  | createCredential _ | updateCredential _ _ | deleteCredential _ => .manageCredentials
  | createMailbox _ | updateMailbox _ _ | deleteMailbox _ => .manageMailboxes
  | sendMailboxTest _ _ => .runDiagnostics
  | createAccount _ | updateAccount _ _ | deleteAccount _ | resetAccountPassword _ _ =>
    .manageAccounts
  | listUsers | createUser _ | getUser _ | updateUser _ _ | deleteUser _ | setUserPassword _ _ =>
    .manageUsers
  | listMessages _ | getMessage _ => .viewStatus
  | retryMessage _ | holdMessage _ | deleteMessage _ => .manageQueue
  | listAudit _ => .viewAudit

def handler (x : Ctx) : ApiRequest → Handler
  | listCredentials => Site.handleListCredentials x
  | getCredential id => Site.handleGetCredential x id
  | credentialSetup id => Site.handleCredentialSetup x id
  | createCredential body => Site.handleCreateCredential x body
  | updateCredential id body => Site.handleUpdateCredential x id body
  | deleteCredential id => Site.handleDeleteCredential x id
  | listMailboxes => Site.handleListMailboxes
  | getMailbox id => Site.handleGetMailbox id
  | createMailbox body => Site.handleCreateMailbox x body
  | updateMailbox id body => Site.handleUpdateMailbox x id body
  | deleteMailbox id => Site.handleDeleteMailbox x id
  | mailboxDiagnostics id => Site.handleMailboxDiagnostics x id
  | sendMailboxTest id body => Site.handleSendMailboxTest x id body
  | listAccounts => Site.handleListAccounts
  | getAccount id => Site.handleGetAccount id
  | createAccount body => Site.handleCreateAccount x body
  | updateAccount id body => Site.handleUpdateAccount x id body
  | deleteAccount id => Site.handleDeleteAccount x id
  | resetAccountPassword id body => Site.handleResetAccountPassword x id body
  | listUsers => Site.handleListUsers
  | createUser body => Site.handleCreateUser x body
  | getUser id => Site.handleGetUser id
  | updateUser id body => Site.handleUpdateUser x id body
  | deleteUser id => Site.handleDeleteUser x id
  | setUserPassword id body => Site.handleSetUserPassword x id body
  | listMessages filter => Site.handleListMessages x filter
  | getMessage id => Site.handleGetMessage id
  | retryMessage id => Site.handleRetryMessage x id
  | holdMessage id => Site.handleHoldMessage x id
  | deleteMessage id => Site.handleDeleteMessage x id
  | listAudit filter => Site.handleListAudit x filter

end ApiRequest

/-- A request as it arrives, with what is drawn at random while it is served. -/
structure Call where
  /-- The value of the session cookie. -/
  token : Bytes
  /-- The value of the CSRF header. -/
  csrfToken : Bytes := []
  http : HTTPRequest
  draws : Draws
  /-- How the statements in the transaction of a test send go. -/
  tx : DiagnosticStatement → Fate
  request : ApiRequest

def checkCSRF (session : Session) (call : Call) : Bool :=
  isSafeMethod call.request.method ||
    decide (call.csrfToken ≠ [] ∧ call.csrfToken = session.csrfToken)

def can (role : Role) (perm : Permission) : Bool := (permissionsFor role).contains perm

def sessionFailure (e : Err) : Response Answer :=
  if e.is errNoSession.text then .error 401 "unauthorized" "sign in to continue" else .ofStore e

/-- `require`, and the handler behind it. -/
def dispatch (api : Api) (call : Call) (user : AdminUser) : Handler :=
  if can user.role call.request.permission then
    call.request.handler {
      api, http := call.http, draws := call.draws, tx := call.tx
      actorID := user.id, actorName := user.username }
  else return .error 403 "forbidden" "your role does not allow this"

/-- `requireSession`, and what is behind it. -/
def serveHTTP (api : Api) (call : Call) : Handler := do
  let auth ← onAdmin (resolve api.hashSessionToken api.sessions call.token)
  match auth with
  | .error e => return sessionFailure e
  | .ok (session, user) =>
    if checkCSRF session call then dispatch api call user
    else
      return .error 403 "csrf_failed"
        "this request could not be verified; reload the page and try again"

def serveAll (api : Api) : List Call → SiteProg (List (Response Answer))
  | [] => return []
  | call :: rest => do
    let answer ← serveHTTP api call
    let answers ← serveAll api rest
    return answer :: answers

end SmtpProxy.Adminapi
