import SmtpProxy.Adminapi.Accounts

/-!
# Managing mailboxes

The handlers of `internal/adminapi/mailboxes.go` that change a mailbox. Entries in the
audit log, log lines and the test of a mailbox's token are left out.
-/

namespace SmtpProxy.Adminapi

open Lib Policy Store

structure MailboxRequest where
  address : Bytes := []
  displayName : Bytes := []
  oauthCredentialID : Bytes := []
  transport : Bytes := []
  rateLimitPerMin : Option Int := none
  maxConcurrent : Option Int := none
  enabled : Option Bool := none
  deriving DecidableEq

structure MailboxResponse where
  id : Bytes
  address : Bytes
  displayName : Bytes
  oauthCredentialID : Bytes
  credentialName : Bytes
  transport : Transport
  rateLimitPerMin : Option Int
  maxConcurrent : Option Int
  enabled : Bool
  managedBy : ManagedBy
  createdAt : Int
  updatedAt : Int
  deriving DecidableEq

def toMailboxResponse (m : MailboxRow) (credentialName : Bytes) : MailboxResponse where
  id := m.id
  address := m.address
  displayName := m.displayName
  oauthCredentialID := m.oauthCredentialID
  credentialName := credentialName
  transport := m.transport
  rateLimitPerMin := m.rateLimitPerMin
  maxConcurrent := m.maxConcurrent
  enabled := m.enabled
  managedBy := m.managedBy
  createdAt := m.createdAt
  updatedAt := m.updatedAt

/-- `store.Transport(text)`; `none` is a text the schema does not accept. -/
def parseTransport (text : Bytes) : Option Transport :=
  if text = ascii "smtp" then some .smtp
  else if text = ascii "graph" then some .graph
  else none

variable (g : GoText)

def addressField (req : MailboxRequest) (creating : Bool) : List (Bytes × Bytes) :=
  if creating ∨ req.address ≠ [] then
    if trimSpace req.address = [] then [Response.field "address" "required"]
    else
      match parseAddress g (trimSpace req.address) with
      | .error _ => [Response.field "address" "must be a valid email address"]
      | .ok _ => []
  else []

def transportField (req : MailboxRequest) (creating : Bool) : List (Bytes × Bytes) :=
  if req.transport = [] then fieldIf creating "transport" "required"
  else fieldIf (parseTransport req.transport).isNone "transport" "must be smtp or graph"

def validateMailbox (req : MailboxRequest) (creating : Bool) : List (Bytes × Bytes) :=
  addressField g req creating ++
  limitField "maxConcurrent" Queue.exchangeConcurrentConnections
    "Exchange Online allows at most 3 concurrent connections per mailbox" req.maxConcurrent ++
  fieldIf (creating && trimSpace req.oauthCredentialID = []) "oauthCredentialId" "required" ++
  limitField "rateLimitPerMin" Queue.exchangeMessagesPerMinute
    "Exchange Online allows at most 30 messages per minute per mailbox" req.rateLimitPerMin ++
  transportField req creating

variable {g} in
variable {req : MailboxRequest} {creating : Bool}

theorem addressField_eq_nil :
    addressField g req creating = [] ↔ (creating = true ∨ req.address ≠ [] →
      trimSpace req.address ≠ [] ∧ (parseAddress g (trimSpace req.address)).isOk = true) := by
  unfold addressField
  split
  · next hnamed =>
    split
    · next hblank => simp [hnamed, hblank]
    next hne =>
    cases parseAddress g (trimSpace req.address) with
    | error e => simp [hnamed, Except.isOk, Except.toBool]
    | ok a => simp [hne, Except.isOk, Except.toBool]
  · next hnamed => simp [hnamed]

theorem transportField_eq_nil : transportField req creating = [] ↔
      (creating = true ∨ req.transport ≠ [] → (parseTransport req.transport).isSome = true) := by
  unfold transportField
  split
  · next hempty =>
    have hnone : parseTransport [] = none := by decide
    cases creating <;> simp [hempty, hnone]
  · next hne => simp [hne]

variable {g} in
theorem validateMailbox_eq_nil : validateMailbox g req creating = [] ↔
      (creating = true ∨ req.address ≠ [] →
        trimSpace req.address ≠ [] ∧ (parseAddress g (trimSpace req.address)).isOk = true) ∧
      (∀ v, req.maxConcurrent = some v → 0 ≤ v ∧ v ≤ Queue.exchangeConcurrentConnections) ∧
      (creating = true → trimSpace req.oauthCredentialID ≠ []) ∧
      (∀ v, req.rateLimitPerMin = some v → 0 ≤ v ∧ v ≤ Queue.exchangeMessagesPerMinute) ∧
      (creating = true ∨ req.transport ≠ [] → (parseTransport req.transport).isSome = true) := by
  have hcred : (creating && trimSpace req.oauthCredentialID = []) = false ↔
      (creating = true → trimSpace req.oauthCredentialID ≠ []) := by
    cases creating <;> simp
  simp [validateMailbox, addressField_eq_nil, transportField_eq_nil, limitField_eq_nil,
    fieldIf_eq_nil, hcred]

theorem validateMailbox_nil {g : GoText} (h : validateMailbox g req creating = [])
    (hnamed : creating = true ∨ req.address ≠ []) : trimSpace req.address ≠ [] :=
  ((validateMailbox_eq_nil.1 h).1 hnamed).1

def storedAddress (address : Bytes) : Bytes := g.toLower (trimSpace address)

def MailboxRequest.newMailbox (req : MailboxRequest) : MailboxRow where
  id := []
  address := storedAddress g req.address
  displayName := trimSpace req.displayName
  oauthCredentialID := req.oauthCredentialID
  transport := (parseTransport req.transport).getD .smtp
  rateLimitPerMin := req.rateLimitPerMin.bind nullInt
  maxConcurrent := req.maxConcurrent.bind nullInt
  enabled := req.enabled.getD true

def MailboxRequest.apply (req : MailboxRequest) (m : MailboxRow) : MailboxRow :=
  { m with
    address := if req.address = [] then m.address else storedAddress g req.address
    displayName := if req.displayName = [] then m.displayName else trimSpace req.displayName
    oauthCredentialID :=
      if req.oauthCredentialID = [] then m.oauthCredentialID else req.oauthCredentialID
    transport := if req.transport = [] then m.transport else (parseTransport req.transport).getD m.transport
    rateLimitPerMin :=
      match req.rateLimitPerMin with
      | none => m.rateLimitPerMin
      | some limit => nullInt limit
    maxConcurrent :=
      match req.maxConcurrent with
      | none => m.maxConcurrent
      | some limit => nullInt limit
    enabled := req.enabled.getD m.enabled }

/-- `credentialNames(ctx)[id]`: nothing, if the credentials cannot be listed. -/
def credentialName (id : Bytes) : ConfigProg Bytes := do
  let credentials ← CredentialRepo.list
  match credentials with
  | .error _ => return []
  | .ok credentials =>
    match credentials.find? fun c => c.id = id with
    | none => return []
    | some c => return c.name

def finishMailbox (status : Nat) (m : MailboxRow) : ConfigProg (Response MailboxResponse) := do
  let name ← credentialName m.oauthCredentialID
  return .json status (toMailboxResponse m name)

theorem finishMailbox_reads (status : Nat) (m : MailboxRow) (I : Config → Prop) :
    (finishMailbox status m).Keeps I fun _ => True := by
  unfold finishMailbox credentialName CredentialRepo.list
  simp only [bind_assoc, pure_bind]
  refine .bind ?_
  apply query_reads.mono
  intro found _
  split
  · exact trivial
  · split <;> exact trivial

section

variable {m : Type → Type} [Monad m] {β : Type} (on : {α : Type} → ConfigProg α → m α)

def createMailbox (newID : Bytes) (body : Decoded MailboxRequest)
    (done : MailboxRow → m (Response β)) : m (Response β) :=
  withBody body fun req =>
  ifValid (validateMailbox g req true) <|
  whenStored (on (MailboxRepo.create newID (req.newMailbox g))) done

def updateMailbox (id : Bytes) (body : Decoded MailboxRequest)
    (done : MailboxRequest → MailboxRow → m (Response β)) : m (Response β) :=
  withBody body fun req =>
  orFail (on (MailboxRepo.get id)) fun m =>
  unlessDeclared m.managedBy "this mailbox is declared in the bootstrap file; change it there" <|
  ifValid (validateMailbox g req false) <|
  whenStored (on (MailboxRepo.update (req.apply g m))) (done req)

end

def handleCreateMailbox (newID : Bytes) (body : Decoded MailboxRequest) :
    ConfigProg (Response MailboxResponse) :=
  createMailbox g (fun p => p) newID body (finishMailbox 201)

def handleUpdateMailbox (id : Bytes) (body : Decoded MailboxRequest) :
    ConfigProg (Response MailboxResponse) :=
  updateMailbox g (fun p => p) id body fun _ => finishMailbox 200

/-- `handleDeleteMailbox`. Whether an account declared in the bootstrap file uses the
mailbox is not looked at. -/
def handleDeleteMailbox (id : Bytes) : ConfigProg (Response MailboxResponse) :=
  deleteObject (fun p => p) (MailboxRepo.get id) MailboxRow.managedBy
    "this mailbox is declared in the bootstrap file; remove it there"
    (fun m => MailboxRepo.delete m.id) fun _ => return .noContent

end SmtpProxy.Adminapi
