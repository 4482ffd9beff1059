import SmtpProxy.Adminapi.Users
import SmtpProxy.Lib.Base64
import SmtpProxy.Lib.Utf8
import SmtpProxy.Queue.RateLimit
import SmtpProxy.Store.Config

/-!
# Managing SMTP accounts

The handlers of `internal/adminapi/accounts.go` that change an account. A request
is carried out in several statements: the row is written first, then the links and
the allowed senders in a transaction each, and at last the answer is read back.
Entries in the audit log and log lines are left out.
-/

namespace SmtpProxy.Adminapi

open Lib Policy Store App

structure AccountRequest where
  username : Bytes := []
  description : Bytes := []
  password : Option Bytes := none
  defaultMailboxID : Option Bytes := none
  mailboxIDs : Option (List Bytes) := none
  allowedSenders : Option (List Bytes) := none
  fromPolicy : Bytes := []
  allowCIDRs : Option (List Bytes) := none
  rateLimitPerMin : Option Int := none
  enabled : Option Bool := none
  deriving DecidableEq

structure AccountResponse where
  id : Bytes
  username : Bytes
  description : Bytes
  defaultMailboxID : Bytes
  mailboxIDs : List Bytes
  mailboxAddresses : List Bytes
  allowedSenders : List Bytes
  fromPolicy : FromPolicy
  allowCIDRs : List Bytes
  rateLimitPerMin : Option Int
  enabled : Bool
  lastUsedAt : Option Int
  managedBy : ManagedBy
  createdAt : Int
  updatedAt : Int
  deriving DecidableEq

/-- What these handlers answer with: an account, one with its new password
(`createdAccountResponse`), or a new password alone. -/
inductive AccountPayload where
  | account (a : AccountResponse)
  | created (a : AccountResponse) (password : Bytes)
  | password (password : Bytes)
  deriving DecidableEq

/-! ## Passwords -/

def passwordEntropyBytes : Nat := 24

/-- What `rand.Read` filled in for a password. -/
def Entropy : Type := { b : Bytes // b.length = passwordEntropyBytes }

/-- `GeneratePassword`, from what `rand.Read` returned. -/
def generatePassword (random : Except Err Entropy) : Except Err Bytes :=
  match random with
  | .error e => .error (wrapping (ascii "crypto: read random bytes") e)
  | .ok b => .ok (Base64.encodeRawURL b.1)

/-- `passwordFor`: the password, and whether it was generated. -/
def passwordFor (given : Option Bytes) (random : Except Err Entropy) : Except Err (Bytes × Bool) :=
  match given with
  | some (c :: password) => .ok (c :: password, false)
  | _ => (generatePassword random).map fun password => (password, true)

/-- What is generated is ASCII, a character in each byte. -/
theorem runeCount_encodeRawURL (b : Bytes) :
    Utf8.runeCount (Base64.encodeRawURL b) = (Base64.encodeRawURL b).length := by
  have hdigit : ∀ c, Base64.valueURL c ≠ none → Utf8.runeStart c = true := forall_byte (by decide +kernel)
  exact List.countP_eq_length.2 fun c hc =>
    hdigit c fun hnone => Base64.not_mem_encodeRawURL hnone b hc

theorem passwordFor_count {given : Option Bytes} {random : Except Err Entropy} {password : Bytes}
    {generated : Bool} (h : passwordFor given random = .ok (password, generated)) :
    given = some password ∧ password ≠ [] ∨ passwordEntropyBytes ≤ Utf8.runeCount password := by
  unfold passwordFor at h
  split at h
  · cases Except.ok.inj h
    exact .inl ⟨rfl, by simp⟩
  cases random with
  | error e => simp [generatePassword, Except.map] at h
  | ok b =>
  cases Except.ok.inj h
  right
  calc passwordEntropyBytes
      = b.1.length := b.2.symm
    _ ≤ (Base64.encodeRawURL b.1).length := Base64.length_le_encodeRawURL b.1
    _ = _ := (runeCount_encodeRawURL b.1).symm

/-- The password of a request, whether it was generated, and its hash. -/
def hashedPassword (p : Passwords) (given : Option Bytes) (random : Except Err Entropy) :
    Except Err (Bytes × Bool × Bytes) := do
  let (password, generated) ← passwordFor given random
  let hash ← p.hashPassword password
  return (password, generated, hash)

theorem hashedPassword_ok {p : Passwords} {given : Option Bytes} {random : Except Err Entropy}
    {password hash : Bytes} {generated : Bool}
    (h : hashedPassword p given random = .ok (password, generated, hash)) :
    passwordFor given random = .ok (password, generated) ∧ p.hashPassword password = .ok hash := by
  unfold hashedPassword at h
  cases hfor : passwordFor given random with
  | error e =>
    rw [hfor] at h
    cases h
  | ok drawn =>
  obtain ⟨password', generated'⟩ := drawn
  rw [hfor] at h
  simp only [bind, Except.bind] at h
  cases hhash : p.hashPassword password' with
  | error e =>
    rw [hhash] at h
    cases h
  | ok hash' =>
    rw [hhash] at h
    cases h
    exact ⟨rfl, hhash⟩

/-! ## `validateAccount` -/

/-- A message about a field, if something is wrong with it. -/
def fieldIf (bad : Bool) (name message : String) : List (Bytes × Bytes) :=
  if bad then [Response.field name message] else []

/-- The first message about an entry of a list. -/
def firstBad (name : String) (message : Bytes → Option Bytes) (entries : Option (List Bytes)) :
    List (Bytes × Bytes) :=
  match (entries.getD []).findSome? message with
  | none => []
  | some text => [(ascii name, text)]

@[simp] theorem fieldIf_eq_nil {bad : Bool} {name message : String} :
    fieldIf bad name message = [] ↔ bad = false := by
  cases bad <;> simp [fieldIf]

@[simp] theorem firstBad_eq_nil {name : String} {message : Bytes → Option Bytes}
    {entries : Option (List Bytes)} :
    firstBad name message entries = [] ↔ ∀ e ∈ entries.getD [], message e = none := by
  unfold firstBad
  split
  · next h => simpa using h
  next h =>
  obtain ⟨e, he, hbad⟩ := List.exists_of_findSome?_eq_some h
  refine ⟨by simp, fun hall => ?_⟩
  cases (hall e he).symm.trans hbad

/-- A limit that must lie between zero and what Exchange Online allows. -/
def limitField (name : String) (most : Int) (tooMany : String) (limit : Option Int) :
    List (Bytes × Bytes) :=
  fieldIf (limit.any fun v => v < 0) name "must not be negative" ++
    fieldIf (limit.any fun v => most < v) name tooMany

/-- `store.FromPolicy(text)`. -/
def fromPolicyOf (text : Bytes) : FromPolicy :=
  if text = ascii "reject" then .reject
  else if text = ascii "rewrite" then .rewrite
  else if text = ascii "passthrough" then .passthrough
  else .unknown text

def knownFromPolicy (text : Bytes) : Bool :=
  text = ascii "reject" || text = ascii "rewrite" || text = ascii "passthrough"

def patternError (g : GoText) (pattern : Bytes) : Option Bytes :=
  match validatePattern g pattern with
  | .error e => some e.text
  | .ok () => none

def cidrError (n : NetText) (cidr : Bytes) : Option Bytes :=
  match n.parseCIDR cidr with
  | none => some (cidr ++ ascii " is not a CIDR (use /32 for a single address)")
  | some _ => none

def minAccountPasswordLength : Nat := 8

def validateAccount (n : NetText) (g : GoText) (req : AccountRequest) (creating : Bool) :
    List (Bytes × Bytes) :=
  firstBad "allowCidrs" (cidrError n) req.allowCIDRs ++
  firstBad "allowedSenders" (patternError g) req.allowedSenders ++
  fieldIf (req.fromPolicy ≠ [] && !knownFromPolicy req.fromPolicy) "fromPolicy"
    "must be reject, rewrite or passthrough" ++
  fieldIf (req.password.any fun p => p ≠ [] && p.length < minAccountPasswordLength) "password"
    "must be at least 8 characters" ++
  limitField "rateLimitPerMin" Queue.exchangeMessagesPerMinute
    "Exchange Online allows at most 30 messages per minute per mailbox" req.rateLimitPerMin ++
  fieldIf (creating && trimSpace req.username = []) "username" "required"

/-- What an account request that passes the check is like. -/
structure AccountRequest.Valid (n : NetText) (g : GoText) (req : AccountRequest) : Prop where
  cidrs : ∀ cidr ∈ req.allowCIDRs.getD [], (n.parseCIDR cidr).isSome
  senders : ∀ pattern ∈ req.allowedSenders.getD [], validatePattern g pattern = .ok ()
  password : ∀ p, req.password = some p → p ≠ [] → minAccountPasswordLength ≤ p.length

theorem limitField_eq_nil {name tooMany : String} {most : Int} {limit : Option Int} :
    limitField name most tooMany limit = [] ↔ ∀ v, limit = some v → 0 ≤ v ∧ v ≤ most := by
  cases limit <;> simp [limitField]

theorem patternError_eq_none {g : GoText} {pattern : Bytes} :
    patternError g pattern = none ↔ validatePattern g pattern = .ok () := by
  unfold patternError
  split <;> simp [*]

theorem cidrError_eq_none {n : NetText} {cidr : Bytes} :
    cidrError n cidr = none ↔ (n.parseCIDR cidr).isSome = true := by
  unfold cidrError
  split <;> simp [*]

theorem validateAccount_eq_nil {n : NetText} {g : GoText} {req : AccountRequest} {creating : Bool} :
    validateAccount n g req creating = [] ↔
      req.Valid n g ∧ (req.fromPolicy = [] ∨ knownFromPolicy req.fromPolicy = true) ∧
      (∀ v, req.rateLimitPerMin = some v → 0 ≤ v ∧ v ≤ Queue.exchangeMessagesPerMinute) ∧
      (creating = true → trimSpace req.username ≠ []) := by
  have hpolicy : (req.fromPolicy ≠ [] && !knownFromPolicy req.fromPolicy) = false ↔
      req.fromPolicy = [] ∨ knownFromPolicy req.fromPolicy = true := by
    simp [or_iff_not_imp_left]
  have hpassword :
      (req.password.any fun p => p ≠ [] && p.length < minAccountPasswordLength) = false ↔
        ∀ p, req.password = some p → p ≠ [] → minAccountPasswordLength ≤ p.length := by
    cases req.password <;> simp
  have huser : (creating && trimSpace req.username = []) = false ↔
      (creating = true → trimSpace req.username ≠ []) := by
    cases creating <;> simp
  simp only [validateAccount, List.append_eq_nil_iff, fieldIf_eq_nil, firstBad_eq_nil,
    limitField_eq_nil, patternError_eq_none, cidrError_eq_none, hpolicy, hpassword, huser]
  constructor
  · rintro ⟨⟨⟨⟨⟨hcidrs, hsenders⟩, hknown⟩, hlong⟩, hrate⟩, hnamed⟩
    exact ⟨⟨hcidrs, hsenders, hlong⟩, hknown, hrate, hnamed⟩
  rintro ⟨⟨hcidrs, hsenders, hlong⟩, hknown, hrate, hnamed⟩
  exact ⟨⟨⟨⟨⟨hcidrs, hsenders⟩, hknown⟩, hlong⟩, hrate⟩, hnamed⟩

theorem validateAccount_nil {n : NetText} {g : GoText} {req : AccountRequest} {creating : Bool}
    (h : validateAccount n g req creating = []) :
    req.Valid n g ∧ (creating = true → trimSpace req.username ≠ []) := by
  obtain ⟨hvalid, -, -, huser⟩ := validateAccount_eq_nil.1 h
  exact ⟨hvalid, huser⟩

/-! ## The handlers -/

/-- The row a request asks for, which has no key yet. -/
def AccountRequest.newAccount (req : AccountRequest) (hash : Bytes) : AccountRow where
  id := []
  username := trimSpace req.username
  passwordHash := hash
  description := trimSpace req.description
  fromPolicy := if req.fromPolicy = [] then .reject else fromPolicyOf req.fromPolicy
  enabled := req.enabled.getD true
  defaultMailboxID := req.defaultMailboxID.bind nullString
  allowCIDRs := req.allowCIDRs.getD []
  rateLimitPerMin := req.rateLimitPerMin.bind nullInt

/-- The row with the fields a request names. The password is not among them. -/
def AccountRequest.apply (req : AccountRequest) (a : AccountRow) : AccountRow :=
  { a with
    username := if req.username = [] then a.username else trimSpace req.username
    description := if req.description = [] then a.description else trimSpace req.description
    defaultMailboxID :=
      match req.defaultMailboxID with
      | none => a.defaultMailboxID
      | some id => nullString id
    fromPolicy := if req.fromPolicy = [] then a.fromPolicy else fromPolicyOf req.fromPolicy
    allowCIDRs := req.allowCIDRs.getD a.allowCIDRs
    rateLimitPerMin :=
      match req.rateLimitPerMin with
      | none => a.rateLimitPerMin
      | some limit => nullInt limit
    enabled := req.enabled.getD a.enabled }

def toAccountResponse (a : AccountRow) : ConfigProg (Except Err AccountResponse) := do
  let mailboxes ← MailboxRepo.listForAccount a.id
  match mailboxes with
  | .error e => return .error e
  | .ok mailboxes =>
    let senders ← AccountRepo.allowedSenders a.id
    match senders with
    | .error e => return .error e
    | .ok senders =>
      return .ok {
        id := a.id, username := a.username, description := a.description
        defaultMailboxID := a.defaultMailboxID.getD []
        mailboxIDs := mailboxes.map (·.id), mailboxAddresses := mailboxes.map (·.address)
        allowedSenders := senders.map (·.pattern), fromPolicy := a.fromPolicy
        allowCIDRs := a.allowCIDRs, rateLimitPerMin := a.rateLimitPerMin, enabled := a.enabled
        lastUsedAt := a.lastUsedAt, managedBy := a.managedBy
        createdAt := a.createdAt, updatedAt := a.updatedAt }

theorem toAccountResponse_readOnly (a : AccountRow) : (toAccountResponse a).ReadOnly := by
  refine .bind (.bind query_readOnly fun _ => trivial) fun mailboxes => ?_
  split
  · trivial
  refine .bind (.bind query_readOnly fun _ => trivial) fun senders => ?_
  split <;> trivial

def applyMailboxes (accountID : Bytes) (mailboxIDs : Option (List Bytes)) :
    ConfigProg (Except Err Unit) :=
  match mailboxIDs with
  | none => return .ok ()
  | some ids => AccountRepo.setMailboxes accountID ids

def applySenders (accountID : Bytes) (allowedSenders : Option (List Bytes)) :
    ConfigProg (Except Err Unit) :=
  match allowedSenders with
  | none => return .ok ()
  | some patterns => AccountRepo.setAllowedSenders accountID patterns

def applyAccountLinks (accountID : Bytes) (req : AccountRequest) : ConfigProg (Except Err Unit) := do
  let linked ← applyMailboxes accountID req.mailboxIDs
  match linked with
  | .error e => return .error e
  | .ok () => applySenders accountID req.allowedSenders

/-- The change of an object that is declared in the bootstrap file is refused. -/
def unlessDeclared {m : Type → Type} [Monad m] {β : Type} (managedBy : ManagedBy) (message : String)
    (k : m (Response β)) : m (Response β) :=
  if managedBy = .bootstrap then return .error 409 "managed_externally" message else k

/-- What a request that creates an account draws. -/
structure AccountDraw where
  id : Bytes
  random : Except Err Entropy

section

variable {m : Type → Type} [Monad m] {β : Type} (on : {α : Type} → ConfigProg α → m α)

/-- The deletion of a credential, a mailbox or an account. -/
def deleteObject {ρ : Type} (found : ConfigProg (Except Err ρ)) (managedBy : ρ → ManagedBy)
    (message : String) (delete : ρ → m (Except Err Unit)) (done : ρ → m (Response β)) :
    m (Response β) :=
  orFail (on found) fun row =>
  unlessDeclared (managedBy row) message <|
  orFail (delete row) fun _ => done row

def withPassword (p : Passwords) (given : Option Bytes) (random : Except Err Entropy)
    (k : (password : Bytes) → (generated : Bool) → (hash : Bytes) → m (Response β)) : m (Response β) :=
  match hashedPassword p given random with
  | .error e => return .ofStore e
  | .ok (password, generated, hash) => k password generated hash

def createAccount (n : NetText) (p : Passwords) (g : GoText) (draw : AccountDraw)
    (body : Decoded AccountRequest)
    (done : AccountRow → (password : Bytes) → (generated : Bool) → m (Response β)) : m (Response β) :=
  withBody body fun req =>
  ifValid (validateAccount n g req true) <|
  withPassword p req.password draw.random fun password generated hash =>
  whenStored (on (AccountRepo.create draw.id (req.newAccount hash))) fun a =>
  orFail (on (applyAccountLinks a.id req)) fun _ => done a password generated

def updateAccount (n : NetText) (g : GoText) (id : Bytes) (body : Decoded AccountRequest)
    (done : AccountRequest → AccountRow → m (Response β)) : m (Response β) :=
  withBody body fun req =>
  orFail (on (AccountRepo.get id)) fun a =>
  unlessDeclared a.managedBy "this account is declared in the bootstrap file; change it there" <|
  ifValid (validateAccount n g req false) <|
  whenStored (on (AccountRepo.update (req.apply a))) fun a =>
  orFail (on (applyAccountLinks a.id req)) fun _ => done req a

/-- Neither who manages the account nor how long the password is is looked at. -/
def resetAccountPassword (p : Passwords) (random : Except Err Entropy) (id : Bytes)
    (body : Decoded (Option Bytes))
    (done : AccountRow → (password : Bytes) → (generated : Bool) → m (Response β)) : m (Response β) :=
  withBody body fun given =>
  orFail (on (AccountRepo.get id)) fun a =>
  withPassword p given random fun password generated hash =>
  whenStored (on (AccountRepo.update { a with passwordHash := hash })) fun _ =>
    done a password generated

end

/-- The answer to a request whose row and links have been written. -/
def answerAccount (a : AccountRow) (answer : AccountResponse → Response AccountPayload) :
    ConfigProg (Response AccountPayload) :=
  orFail (toAccountResponse a) fun resp => return answer resp

/-- The end of a request whose row has been written. -/
def finishAccount (a : AccountRow) (req : AccountRequest)
    (answer : AccountResponse → Response AccountPayload) : ConfigProg (Response AccountPayload) :=
  orFail (applyAccountLinks a.id req) fun _ => answerAccount a answer

variable (srv : Server) (g : GoText)

def handleCreateAccount (draw : AccountDraw) (body : Decoded AccountRequest) :
    ConfigProg (Response AccountPayload) :=
  createAccount (fun p => p) srv.net srv.passwords g draw body fun a password _ =>
    answerAccount a fun resp => .json 201 (.created resp password)

def handleUpdateAccount (id : Bytes) (body : Decoded AccountRequest) :
    ConfigProg (Response AccountPayload) :=
  updateAccount (fun p => p) srv.net g id body fun _ a =>
    answerAccount a fun resp => .json 200 (.account resp)

def handleDeleteAccount (id : Bytes) : ConfigProg (Response AccountPayload) :=
  deleteObject (fun p => p) (AccountRepo.get id) AccountRow.managedBy
    "this account is declared in the bootstrap file; remove it there"
    (fun a => AccountRepo.delete a.id) fun _ => return .noContent

def handleResetAccountPassword (random : Except Err Entropy) (id : Bytes)
    (body : Decoded (Option Bytes)) : ConfigProg (Response AccountPayload) :=
  resetAccountPassword (fun p => p) srv.passwords random id body fun _ password _ =>
    return .json 200 (.password password)

end SmtpProxy.Adminapi
