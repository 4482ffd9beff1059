import SmtpProxy.Adminapi.Accounts
import SmtpProxy.Crypto.Keyring

/-!
# Managing credentials

The handlers of `internal/adminapi/credentials.go` that change an application
registration. How the keyring seals a secret is a parameter, which a keyring of
`internal/crypto` meets (`keyringOf_lawful`). The days a credential
is still good for, which an answer counts from the clock, and the token provider's
cache are left out.
-/

namespace SmtpProxy.Adminapi

open Lib Store

/-- `Keyring` of `internal/crypto/keyring.go`: sealing a text for a context, and opening
it again. -/
structure Keyring where
  encryptString : Bytes → Bytes → Except Err Bytes
  decryptString : Bytes → Bytes → Except Err Bytes

/-- What was sealed opens to itself. -/
def Keyring.Lawful (k : Keyring) : Prop :=
  ∀ plaintext context sealed, k.encryptString plaintext context = .ok sealed →
    k.decryptString sealed context = .ok plaintext

/-- The keyring of `internal/crypto`, with the nonces that are drawn for it. -/
def keyringOf (quote : Bytes → Bytes) (aead : Crypto.Aead)
    (nonce : Bytes → Except Err { b : Bytes // b.length = Crypto.nonceSize }) (k : Crypto.Keyring) :
    Keyring where
  encryptString text context := k.encrypt aead (nonce context) text context
  decryptString := k.decrypt quote aead

theorem keyringOf_lawful {quote : Bytes → Bytes} {aead : Crypto.Aead} (hideal : aead.Ideal)
    (nonce : Bytes → Except Err { b : Bytes // b.length = Crypto.nonceSize })
    {specs : List Bytes} {k : Crypto.Keyring} (hnew : Crypto.newKeyring quote specs = .ok k) :
    (keyringOf quote aead nonce k).Lawful :=
  fun _ _ _ h => (Crypto.decrypt_encrypt hideal hnew h).2

structure CredentialRequest where
  name : Bytes := []
  tenantID : Bytes := []
  clientID : Bytes := []
  authType : Bytes := []
  clientSecret : Option Bytes := none
  certificatePEM : Option Bytes := none
  certificateKeyPEM : Option Bytes := none
  authorityHost : Bytes := []
  expiresAt : Option Int := none
  deriving DecidableEq

structure CredentialResponse where
  id : Bytes
  name : Bytes
  tenantID : Bytes
  clientID : Bytes
  authType : AuthType
  hasSecret : Bool
  certificateThumbprint : Bytes
  authorityHost : Bytes
  expiresAt : Option Int
  managedBy : ManagedBy
  mailboxCount : Nat
  createdAt : Int
  updatedAt : Int
  deriving DecidableEq

def toCredentialResponse (c : CredentialRow) (mailboxes : Nat) : CredentialResponse where
  id := c.id
  name := c.name
  tenantID := c.tenantID
  clientID := c.clientID
  authType := c.authType
  hasSecret := c.clientSecretEnc ≠ [] || c.certificateKeyEnc ≠ []
  certificateThumbprint := c.certificateThumbprint
  authorityHost := c.authorityHost
  expiresAt := c.expiresAt
  managedBy := c.managedBy
  mailboxCount := mailboxes
  createdAt := c.createdAt
  updatedAt := c.updatedAt

/-- `store.AuthType(text)`; `none` is a text the schema does not accept. -/
def parseAuthType (text : Bytes) : Option AuthType :=
  if text = ascii "secret" then some .secret
  else if text = ascii "certificate" then some .certificate
  else none

/-- A new credential needs this text, for its kind of authentication. -/
def requiredMaterial (needed : Bool) (value : Option Bytes) (name message : String) :
    List (Bytes × Bytes) :=
  fieldIf (needed && value.all fun v => v = []) name message

def validateCredential (req : CredentialRequest) (creating : Bool) : List (Bytes × Bytes) :=
  let secret := creating && decide (parseAuthType req.authType = some .secret)
  let certificate := creating && decide (parseAuthType req.authType = some .certificate)
  (if req.authType = [] then fieldIf creating "authType" "required"
    else fieldIf (parseAuthType req.authType).isNone "authType" "must be secret or certificate") ++
  fieldIf (req.authorityHost ≠ [] && !(ascii "https://").isPrefixOf req.authorityHost)
    "authorityHost" "must start with https://" ++
  requiredMaterial certificate req.certificateKeyPEM "certificateKeyPem"
    "required for a certificate credential" ++
  requiredMaterial certificate req.certificatePEM "certificatePem"
    "required for a certificate credential" ++
  fieldIf (creating && trimSpace req.clientID = []) "clientId" "required" ++
  requiredMaterial secret req.clientSecret "clientSecret" "required for a secret credential" ++
  fieldIf (creating && trimSpace req.name = []) "name" "required" ++
  fieldIf (creating && trimSpace req.tenantID = []) "tenantId" "required"

/-- What a request for a new credential that passes the check is like. -/
structure CredentialRequest.Complete (req : CredentialRequest) : Prop where
  name : trimSpace req.name ≠ []
  tenantID : trimSpace req.tenantID ≠ []
  clientID : trimSpace req.clientID ≠ []
  material :
    (parseAuthType req.authType = some .secret ∧ ∃ s, req.clientSecret = some s ∧ s ≠ []) ∨
    (parseAuthType req.authType = some .certificate ∧
      (∃ s, req.certificatePEM = some s ∧ s ≠ []) ∧ ∃ s, req.certificateKeyPEM = some s ∧ s ≠ [])

theorem requiredMaterial_eq_nil {needed : Bool} {value : Option Bytes} {name message : String} :
    requiredMaterial needed value name message = [] ↔
      (needed = true → ∃ s, value = some s ∧ s ≠ []) := by
  cases needed <;> cases value <;> simp [requiredMaterial]

variable {req : CredentialRequest}

theorem validateCredential_eq_nil : validateCredential req true = [] ↔
      (parseAuthType req.authType).isSome = true ∧
      (req.authorityHost = [] ∨ (ascii "https://").isPrefixOf req.authorityHost = true) ∧
      (parseAuthType req.authType = some .certificate →
        (∃ s, req.certificatePEM = some s ∧ s ≠ []) ∧ ∃ s, req.certificateKeyPEM = some s ∧ s ≠ []) ∧
      (parseAuthType req.authType = some .secret → ∃ s, req.clientSecret = some s ∧ s ≠ []) ∧
      trimSpace req.clientID ≠ [] ∧ trimSpace req.name ≠ [] ∧ trimSpace req.tenantID ≠ [] := by
  have htype : (if req.authType = [] then fieldIf true "authType" "required"
      else fieldIf (parseAuthType req.authType).isNone "authType" "must be secret or certificate")
        = [] ↔ (parseAuthType req.authType).isSome = true := by
    split
    · next hempty =>
      rw [hempty]
      decide
    · rw [fieldIf_eq_nil, Option.isNone_eq_false_iff]
  simp only [validateCredential, List.append_eq_nil_iff, Bool.true_and, htype, fieldIf_eq_nil,
    requiredMaterial_eq_nil, decide_eq_true_eq, decide_eq_false_iff_not]
  have hhost : (req.authorityHost ≠ [] && !(ascii "https://").isPrefixOf req.authorityHost) = false ↔
      req.authorityHost = [] ∨ (ascii "https://").isPrefixOf req.authorityHost = true := by
    simp [or_iff_not_imp_left]
  rw [hhost]
  constructor
  · rintro ⟨⟨⟨⟨⟨⟨⟨htype, hhost⟩, hkey⟩, hpem⟩, hclient⟩, hsecret⟩, hname⟩, htenant⟩
    exact ⟨htype, hhost, fun h => ⟨hpem h, hkey h⟩, hsecret, hclient, hname, htenant⟩
  rintro ⟨htype, hhost, hcert, hsecret, hclient, hname, htenant⟩
  exact ⟨⟨⟨⟨⟨⟨⟨htype, hhost⟩, fun h => (hcert h).2⟩, fun h => (hcert h).1⟩, hclient⟩,
    hsecret⟩, hname⟩, htenant⟩

theorem validateCredential_nil (h : validateCredential req true = []) : req.Complete := by
  obtain ⟨htype, -, hcert, hsecret, hclient, hname, htenant⟩ := validateCredential_eq_nil.1 h
  refine ⟨hname, htenant, hclient, ?_⟩
  cases hparsed : parseAuthType req.authType with
  | none =>
    rw [hparsed] at htype
    cases htype
  | some authType =>
  cases authType with
  | secret => exact .inl ⟨rfl, hsecret hparsed⟩
  | certificate => exact .inr ⟨rfl, hcert hparsed⟩

def errNoKeyring : Err :=
  .new (ascii "the proxy has no encryption keys configured, so a secret cannot be stored")

variable (keyring : Option Keyring)

/-- One text, sealed if the request has it. -/
def sealText (k : Keyring) (stored : Bytes) (given : Option Bytes) (context : Bytes) :
    Except Err Bytes :=
  match given with
  | none => .ok stored
  | some text => k.encryptString text context

/-- `sealCredential`: the row with the material a request supplies. -/
def sealCredential (c : CredentialRow) (req : CredentialRequest) : Except Err CredentialRow :=
  match keyring with
  | none => .error errNoKeyring
  | some k => do
    let clientSecretEnc ← sealText k c.clientSecretEnc req.clientSecret c.secretContext
    let certificateKeyEnc ←
      sealText k c.certificateKeyEnc req.certificateKeyPEM c.certificateKeyContext
    return { c with
      clientSecretEnc
      certificatePEM := req.certificatePEM.getD c.certificatePEM
      certificateKeyEnc }

theorem sealCredential_ok {keyring : Option Keyring} {c c' : CredentialRow}
    (h : sealCredential keyring c req = .ok c') :
    ∃ k secret certificateKey, keyring = some k ∧
      sealText k c.clientSecretEnc req.clientSecret c.secretContext = .ok secret ∧
      sealText k c.certificateKeyEnc req.certificateKeyPEM c.certificateKeyContext =
        .ok certificateKey ∧
      c' = { c with
        clientSecretEnc := secret
        certificatePEM := req.certificatePEM.getD c.certificatePEM
        certificateKeyEnc := certificateKey } := by
  unfold sealCredential at h
  cases hkeyring : keyring with
  | none =>
    rw [hkeyring] at h
    cases h
  | some k =>
  rw [hkeyring] at h
  dsimp only at h
  cases hsecret : sealText k c.clientSecretEnc req.clientSecret c.secretContext with
  | error e =>
    rw [hsecret] at h
    simp [bind, Except.bind] at h
  | ok secret =>
  cases hkey : sealText k c.certificateKeyEnc req.certificateKeyPEM c.certificateKeyContext with
  | error e =>
    rw [hsecret, hkey] at h
    simp [bind, Except.bind] at h
  | ok certificateKey =>
    rw [hsecret, hkey] at h
    exact ⟨k, secret, certificateKey, rfl, hsecret, hkey, (Except.ok.inj h).symm⟩

/-- The row a request asks for, before its secrets are sealed. -/
def CredentialRequest.newCredential (req : CredentialRequest) (newID : Bytes) : CredentialRow where
  id := newID
  name := trimSpace req.name
  tenantID := trimSpace req.tenantID
  clientID := trimSpace req.clientID
  authType := (parseAuthType req.authType).getD .secret
  authorityHost := trimSpace req.authorityHost
  expiresAt := req.expiresAt.bind nullTime

/-- The row with the fields a request names, before its secrets are sealed. -/
def CredentialRequest.apply (req : CredentialRequest) (c : CredentialRow) : CredentialRow :=
  { c with
    name := if req.name = [] then c.name else trimSpace req.name
    tenantID := if req.tenantID = [] then c.tenantID else trimSpace req.tenantID
    clientID := if req.clientID = [] then c.clientID else trimSpace req.clientID
    authType :=
      if req.authType = [] then c.authType else (parseAuthType req.authType).getD c.authType
    authorityHost :=
      if req.authorityHost = [] then c.authorityHost else trimSpace req.authorityHost
    expiresAt :=
      match req.expiresAt with
      | none => c.expiresAt
      | some t => nullTime t }

/-- `countMailboxes`: none, if the mailboxes cannot be listed. -/
def countMailboxes (credentialID : Bytes) : ConfigProg Nat := do
  let mailboxes ← MailboxRepo.list
  match mailboxes with
  | .error _ => return 0
  | .ok mailboxes => return mailboxes.countP fun m => m.oauthCredentialID = credentialID

theorem countMailboxes_reads (credentialID : Bytes) (I : Config → Prop) :
    (countMailboxes credentialID).Keeps I fun _ => True := by
  unfold countMailboxes MailboxRepo.list
  rw [bind_assoc]
  refine .bind ?_
  apply query_reads.mono
  intro found _
  rw [pure_bind]
  split <;> exact trivial

section

variable {m : Type → Type} [Monad m] {β : Type} (on : {α : Type} → ConfigProg α → m α)

def whenSealed (sealed : Except Err CredentialRow) (k : CredentialRow → m (Response β)) :
    m (Response β) :=
  match sealed with
  | .error e => return .validation [(ascii "clientSecret", e.text)]
  | .ok c => k c

def createCredential (newID : Bytes) (body : Decoded CredentialRequest)
    (done : CredentialRow → m (Response β)) : m (Response β) :=
  withBody body fun req =>
  ifValid (validateCredential req true) <|
  whenSealed (sealCredential keyring (req.newCredential newID) req) fun c =>
  whenStored (on (CredentialRepo.create newID c)) done

/-- What the kind of authentication needs is not looked at. -/
def updateCredential (id : Bytes) (body : Decoded CredentialRequest)
    (done : CredentialRequest → CredentialRow → m (Response β)) : m (Response β) :=
  withBody body fun req =>
  orFail (on (CredentialRepo.get id)) fun c =>
  unlessDeclared c.managedBy "this credential is declared in the bootstrap file; change it there" <|
  ifValid (validateCredential req false) <|
  whenSealed (sealCredential keyring (req.apply c) req) fun c =>
  whenStored (on (CredentialRepo.update c)) (done req)

def deleteCredential (id : Bytes) (done : CredentialRow → m (Response β)) : m (Response β) :=
  deleteObject on (CredentialRepo.get id) CredentialRow.managedBy
    "this credential is declared in the bootstrap file; remove it there"
    (fun _ => on (CredentialRepo.delete id)) done

end

def handleCreateCredential (newID : Bytes) (body : Decoded CredentialRequest) :
    ConfigProg (Response CredentialResponse) :=
  createCredential keyring (fun p => p) newID body fun c =>
    return .json 201 (toCredentialResponse c 0)

def handleUpdateCredential (id : Bytes) (body : Decoded CredentialRequest) :
    ConfigProg (Response CredentialResponse) :=
  updateCredential keyring (fun p => p) id body fun _ c => do
    let mailboxes ← countMailboxes c.id
    return .json 200 (toCredentialResponse c mailboxes)

def handleDeleteCredential (id : Bytes) : ConfigProg (Response CredentialResponse) :=
  deleteCredential (fun p => p) id fun _ => return .noContent

end SmtpProxy.Adminapi
