import SmtpProxy.Adminapi.Credentials
import SmtpProxy.Adminapi.Mailboxes

/-!
# The bootstrap file

The document of `internal/bootstrap/bootstrap.go` and the check `Load` makes of it. Reading the
document from YAML and the expansion of variables in it are left out.

The check of the management interface is another one. `file_held_to_admin_rules` says what a
file that passes still needs for each object to pass that check as well.
-/

namespace SmtpProxy.Bootstrap

open Lib Policy Adminapi List

structure Credential where
  name : Bytes := []
  tenantID : Bytes := []
  clientID : Bytes := []
  authType : Bytes := []
  clientSecret : Bytes := []
  certificatePEM : Bytes := []
  certificateKeyPEM : Bytes := []
  authorityHost : Bytes := []
  deriving DecidableEq

structure Mailbox where
  address : Bytes := []
  displayName : Bytes := []
  credential : Bytes := []
  transport : Bytes := []
  rateLimitPerMin : Int := 0
  maxConcurrent : Int := 0
  disabled : Bool := false
  deriving DecidableEq

structure Account where
  username : Bytes := []
  description : Bytes := []
  passwordHash : Bytes := []
  mailboxes : List Bytes := []
  defaultMailbox : Bytes := []
  allowedSenders : List Bytes := []
  fromPolicy : Bytes := []
  allowCIDRs : List Bytes := []
  rateLimitPerMin : Int := 0
  disabled : Bool := false
  deriving DecidableEq

structure File where
  credentials : List Credential := []
  mailboxes : List Mailbox := []
  accounts : List Account := []
  deriving DecidableEq

/-! ## `validate` -/

def problemIf (bad : Bool) (text : Bytes) : List Bytes := if bad then [text] else []

@[simp] theorem problemIf_eq_nil {bad : Bool} {text : Bytes} :
    problemIf bad text = [] ↔ bad = false := by
  cases bad <;> simp [problemIf]

/-- The objects of one kind, each with its place in the file and the names before it. -/
def collect {α : Type} (kind : String) (mark : α → Option Bytes)
    (problems : Bytes → List Bytes → α → List Bytes) : Nat → List Bytes → List α → List Bytes
  | _, _, [] => []
  | i, seen, x :: xs =>
    problems (ascii kind ++ ascii "[" ++ itoa i ++ ascii "]") seen x ++
      collect kind mark problems (i + 1) ((mark x).toList ++ seen) xs

def placed (place name : Bytes) : Bytes := place ++ ascii " (" ++ name ++ ascii "): "

def materialProblems (at_ : Bytes) (c : Credential) : List Bytes :=
  if c.authType = [] ∨ c.authType = ascii "secret" then
    problemIf (c.clientSecret = [])
      (at_ ++ ascii "client_secret is required (use $\x7bENV\x7d or $\x7bfile:...\x7d)")
  else if c.authType = ascii "certificate" then
    problemIf (c.certificatePEM = [] || c.certificateKeyPEM = [])
      (at_ ++ ascii "certificate_pem and certificate_key_pem are required")
  else [at_ ++ ascii "auth_type must be secret or certificate"]

variable (g : GoText)

def credentialProblems (place : Bytes) (seen : List Bytes) (c : Credential) : List Bytes :=
  (if c.name = [] then [place ++ ascii ": name is required"]
    else problemIf (seen.contains c.name)
      (place ++ ascii ": the name " ++ g.quote c.name ++ ascii " is declared twice")) ++
  problemIf (c.tenantID = []) (placed place c.name ++ ascii "tenant_id is required") ++
  problemIf (c.clientID = []) (placed place c.name ++ ascii "client_id is required") ++
  materialProblems (placed place c.name) c

/-- A transport the file may name; the empty text means SMTP. -/
def knownTransport (transport : Bytes) : Bool :=
  transport = [] || transport = ascii "smtp" || transport = ascii "graph"

def mailboxProblems (place : Bytes) (seen : List Bytes) (m : Mailbox) : List Bytes :=
  if m.address = [] then [place ++ ascii ": address is required"]
  else
    problemIf (seen.contains (g.toLower m.address))
      (place ++ ascii ": the address " ++ g.quote m.address ++ ascii " is declared twice") ++
    problemIf (!(parseAddress g m.address).isOk)
      (place ++ ascii ": " ++ g.quote m.address ++ ascii " is not a valid address") ++
    problemIf (m.credential = []) (placed place m.address ++ ascii "credential is required") ++
    problemIf (!knownTransport m.transport)
      (placed place m.address ++ ascii "transport must be smtp or graph") ++
    problemIf (m.rateLimitPerMin > 30)
      (placed place m.address ++
        ascii "rate_limit_per_min exceeds the 30/minute Exchange Online allows") ++
    problemIf (m.maxConcurrent > 3)
      (placed place m.address ++
        ascii "max_concurrent exceeds the 3 connections Exchange Online allows")

def hashProblems (at_ hash : Bytes) : List Bytes :=
  if hash = [] then
    [at_ ++ ascii "password_hash is required; generate one with 'smtp-auth-proxy passwd'"]
  else problemIf (!(ascii "$argon2id$").isPrefixOf hash)
    (at_ ++ ascii ("password_hash is not an Argon2id hash; this field takes the output of " ++
      "'smtp-auth-proxy passwd', never the password itself"))

/-- What is wrong with the default mailbox: it must be in the list, if there is one. -/
def defaultProblems (at_ : Bytes) (a : Account) : List Bytes :=
  problemIf (a.defaultMailbox ≠ [] && a.mailboxes ≠ [] &&
      !a.mailboxes.any fun mailbox => g.equalFold mailbox a.defaultMailbox)
    (at_ ++ ascii "default_mailbox " ++ g.quote a.defaultMailbox ++
      ascii " is not in this account's mailboxes list")

/-- What is wrong with a declared account. That its mailboxes are declared is not asked for:
they may be in the database. -/
def accountProblems (place : Bytes) (seen : List Bytes) (a : Account) : List Bytes :=
  if a.username = [] then [place ++ ascii ": username is required"]
  else
    let at_ := placed place a.username
    problemIf (seen.contains a.username)
      (place ++ ascii ": the username " ++ g.quote a.username ++ ascii " is declared twice") ++
    hashProblems at_ a.passwordHash ++
    problemIf (a.fromPolicy ≠ [] && !knownFromPolicy a.fromPolicy)
      (at_ ++ ascii "from_policy must be reject, rewrite or passthrough") ++
    a.allowedSenders.flatMap (fun pattern =>
      (patternError g pattern).toList.map fun text => at_ ++ text) ++
    defaultProblems g at_ a

/-- The name under which a declared object is marked as seen, unless it is skipped. -/
def markName (name : Bytes) : Option Bytes := if name = [] then none else some name

def File.problems (f : File) : List Bytes :=
  collect "credentials" (fun c : Credential => some c.name) (credentialProblems g) 0 []
    f.credentials ++
  collect "mailboxes" (fun m : Mailbox => (markName m.address).map g.toLower) (mailboxProblems g)
    0 [] f.mailboxes ++
  collect "accounts" (fun a : Account => markName a.username) (accountProblems g) 0 [] f.accounts

def File.validate (f : File) : Except Err Unit :=
  let problems := f.problems g
  if problems ≠ [] then
    .error (.new (itoa problems.length ++ ascii " problem(s):\n  " ++
      joinWith (ascii "\n  ") problems))
  else .ok ()

/-! ## What an accepted file is like -/

structure Credential.Valid (c : Credential) : Prop where
  name : c.name ≠ []
  tenantID : c.tenantID ≠ []
  clientID : c.clientID ≠ []
  material : (c.authType = [] ∨ c.authType = ascii "secret") ∧ c.clientSecret ≠ [] ∨
    c.authType = ascii "certificate" ∧ c.certificatePEM ≠ [] ∧ c.certificateKeyPEM ≠ []

structure Mailbox.Valid (m : Mailbox) : Prop where
  address : m.address ≠ []
  parses : (parseAddress g m.address).isOk = true
  credential : m.credential ≠ []
  transport : knownTransport m.transport = true
  rateLimit : m.rateLimitPerMin ≤ 30
  concurrent : m.maxConcurrent ≤ 3

structure Account.Valid (a : Account) : Prop where
  username : a.username ≠ []
  passwordHash : ascii "$argon2id$" <+: a.passwordHash
  fromPolicy : a.fromPolicy = [] ∨ knownFromPolicy a.fromPolicy = true
  senders : ∀ pattern ∈ a.allowedSenders, patternError g pattern = none
  default : a.defaultMailbox ≠ [] → a.mailboxes ≠ [] →
    ∃ mailbox ∈ a.mailboxes, g.equalFold mailbox a.defaultMailbox = true

/-- An accepted file: each object passes, and no two of a kind have one name. -/
structure File.Valid (f : File) : Prop where
  credentials : ∀ c ∈ f.credentials, c.Valid
  names : (f.credentials.map (·.name)).Nodup
  mailboxes : ∀ m ∈ f.mailboxes, m.Valid g
  addresses : (f.mailboxes.map fun m => g.toLower m.address).Nodup
  accounts : ∀ a ∈ f.accounts, a.Valid g
  usernames : (f.accounts.map (·.username)).Nodup

variable {g} {c : Credential}

theorem materialProblems_nil {at_ : Bytes} (h : materialProblems at_ c = []) :
    (c.authType = [] ∨ c.authType = ascii "secret") ∧ c.clientSecret ≠ [] ∨
      c.authType = ascii "certificate" ∧ c.certificatePEM ≠ [] ∧ c.certificateKeyPEM ≠ [] := by
  unfold materialProblems at h
  split at h
  · next htype => exact .inl ⟨htype, by simpa using h⟩
  split at h
  · next htype => exact .inr ⟨htype, by simpa using h⟩
  · cases h

variable {seen : List Bytes}

theorem credentialProblems_nil {place : Bytes} (h : credentialProblems g place seen c = []) :
    c.Valid ∧ c.name ∉ seen := by
  simp only [credentialProblems, append_eq_nil_iff, problemIf_eq_nil] at h
  obtain ⟨⟨⟨hname, htenant⟩, hclient⟩, hmat⟩ := h
  split at hname
  · cases hname
  next hne =>
  exact ⟨⟨hne, by simpa using htenant, by simpa using hclient, materialProblems_nil hmat⟩,
    by simpa using hname⟩

theorem mailboxProblems_nil {place : Bytes} {m : Mailbox}
    (h : mailboxProblems g place seen m = []) : m.Valid g ∧ g.toLower m.address ∉ seen := by
  unfold mailboxProblems at h
  split at h
  · cases h
  next hne =>
  simp only [append_eq_nil_iff, problemIf_eq_nil] at h
  obtain ⟨⟨⟨⟨⟨hseen, hparses⟩, hcred⟩, htrans⟩, hrate⟩, hconc⟩ := h
  exact ⟨⟨hne, by simpa using hparses, by simpa using hcred, by simpa using htrans,
    by simpa using hrate, by simpa using hconc⟩, by simpa using hseen⟩

theorem hashProblems_nil {at_ hash : Bytes} (h : hashProblems at_ hash = []) :
    ascii "$argon2id$" <+: hash := by
  unfold hashProblems at h
  split at h
  · cases h
  rw [← isPrefixOf_iff_prefix]
  simpa using h

theorem accountProblems_nil {place : Bytes} {a : Account}
    (h : accountProblems g place seen a = []) : a.Valid g ∧ a.username ∉ seen := by
  unfold accountProblems at h
  split at h
  · cases h
  next hne =>
  simp only [append_eq_nil_iff, problemIf_eq_nil, defaultProblems] at h
  obtain ⟨⟨⟨⟨hseen, hhash⟩, hpolicy⟩, hsenders⟩, hdefault⟩ := h
  refine ⟨⟨hne, hashProblems_nil hhash, ?_, ?_, ?_⟩, by simpa using hseen⟩
  · simpa [or_iff_not_imp_left] using hpolicy
  · simpa [flatMap_eq_nil_iff] using hsenders
  · simpa using hdefault

section
variable {α : Type} {kind : String} {mark : α → Option Bytes} {name : α → Bytes}
  {problems : Bytes → List Bytes → α → List Bytes} {ok : α → Prop}

/-- A loop that finds no problem: every object passes, and no name comes twice. -/
theorem collect_nil (hone : ∀ place seen x, problems place seen x = [] →
      ok x ∧ mark x = some (name x) ∧ name x ∉ seen) :
    ∀ {i : Nat} {seen : List Bytes} {xs : List α}, collect kind mark problems i seen xs = [] →
      (∀ x ∈ xs, ok x ∧ name x ∉ seen) ∧ (xs.map name).Nodup
  | _, _, [], _ => by simp
  | i, seen, x :: xs, h => by
    obtain ⟨hx, hxs⟩ := append_eq_nil_iff.1 h
    obtain ⟨hok, hmark, hfresh⟩ := hone _ _ _ hx
    rw [hmark] at hxs
    obtain ⟨hrest, hnodup⟩ := collect_nil hone hxs
    constructor
    · intro y hy
      rcases mem_cons.1 hy with rfl | hy
      · exact ⟨hok, hfresh⟩
      · exact ⟨(hrest y hy).1, fun hseen => (hrest y hy).2 (by simp [hseen])⟩
    rw [map_cons, nodup_cons]
    refine ⟨fun hmem => ?_, hnodup⟩
    obtain ⟨y, hy, hyx⟩ := mem_map.1 hmem
    exact (hrest y hy).2 (by simp [hyx])

end

theorem File.validate_ok {f : File} (h : f.validate g = .ok ()) : f.Valid g := by
  have hnone : f.problems g = [] := by
    by_contra hsome
    rw [File.validate, if_pos hsome] at h
    cases h
  simp only [File.problems, append_eq_nil_iff] at hnone
  obtain ⟨⟨hcreds, hmail⟩, haccs⟩ := hnone
  obtain ⟨hcred, hnames⟩ := collect_nil (fun place seen c h => by
    obtain ⟨hvalid, hfresh⟩ := credentialProblems_nil h
    exact ⟨hvalid, rfl, hfresh⟩) hcreds
  obtain ⟨hmailbox, haddresses⟩ := collect_nil (fun place seen m h => by
    obtain ⟨hvalid, hfresh⟩ := mailboxProblems_nil h
    exact ⟨hvalid, by simp [markName, hvalid.address], hfresh⟩) hmail
  obtain ⟨haccount, husernames⟩ := collect_nil (fun place seen a h => by
    obtain ⟨hvalid, hfresh⟩ := accountProblems_nil h
    exact ⟨hvalid, by simp [markName, hvalid.username], hfresh⟩) haccs
  exact ⟨fun c hc => (hcred c hc).1, hnames, fun m hm => (hmailbox m hm).1, haddresses,
    fun a ha => (haccount a ha).1, husernames⟩

/-! ## The rules of the management interface -/

def Credential.request (c : Credential) : CredentialRequest where
  name := c.name
  tenantID := c.tenantID
  clientID := c.clientID
  authType := c.authType
  clientSecret := some c.clientSecret
  certificatePEM := some c.certificatePEM
  certificateKeyPEM := some c.certificateKeyPEM
  authorityHost := c.authorityHost

/-- The request that asks for a declared mailbox; it names its credential by name. -/
def Mailbox.request (m : Mailbox) : MailboxRequest where
  address := m.address
  displayName := m.displayName
  oauthCredentialID := m.credential
  transport := m.transport
  rateLimitPerMin := some m.rateLimitPerMin
  maxConcurrent := some m.maxConcurrent
  enabled := some !m.disabled

/-- The request that asks for a declared account, its password aside; it names mailboxes by
address. -/
def Account.request (a : Account) : AccountRequest where
  username := a.username
  description := a.description
  defaultMailboxID := some a.defaultMailbox
  mailboxIDs := some a.mailboxes
  allowedSenders := some a.allowedSenders
  fromPolicy := a.fromPolicy
  allowCIDRs := some a.allowCIDRs
  rateLimitPerMin := some a.rateLimitPerMin
  enabled := some !a.disabled

/-- What the file's check leaves open about a credential. -/
structure Credential.MeetsAdminRules (c : Credential) : Prop where
  name : trimSpace c.name ≠ []
  tenantID : trimSpace c.tenantID ≠ []
  clientID : trimSpace c.clientID ≠ []
  authType : c.authType ≠ []
  authorityHost : c.authorityHost = [] ∨ ascii "https://" <+: c.authorityHost

structure Mailbox.MeetsAdminRules (m : Mailbox) : Prop where
  address : trimSpace m.address ≠ []
  credential : trimSpace m.credential ≠ []
  transport : m.transport ≠ []
  rateLimit : 0 ≤ m.rateLimitPerMin
  concurrent : 0 ≤ m.maxConcurrent

structure Account.MeetsAdminRules (n : NetText) (a : Account) : Prop where
  username : trimSpace a.username ≠ []
  rateLimit : 0 ≤ a.rateLimitPerMin ∧ a.rateLimitPerMin ≤ 30
  cidrs : ∀ cidr ∈ a.allowCIDRs, (n.parseCIDR cidr).isSome = true

theorem Credential.Valid.supplied (h : c.Valid) :
    (parseAuthType c.authType = some .secret → c.clientSecret ≠ []) ∧
    (parseAuthType c.authType = some .certificate →
      c.certificatePEM ≠ [] ∧ c.certificateKeyPEM ≠ []) ∧
    ((parseAuthType c.authType).isSome = true ↔ c.authType ≠ []) := by
  rcases h.material with ⟨htype | htype, hsecret⟩ | ⟨htype, hpem, hkey⟩
  · rw [htype]
    have hparse : parseAuthType [] = none := by decide
    simp [hparse]
  · have hparse : parseAuthType c.authType = some .secret := by rw [htype]; decide
    have hne : c.authType ≠ [] := by rw [htype]; decide
    simp [hparse, hsecret, hne]
  have hparse : parseAuthType c.authType = some .certificate := by rw [htype]; decide
  have hne : c.authType ≠ [] := by rw [htype]; decide
  simp [hparse, hpem, hkey, hne]

theorem Credential.Valid.admin_iff (h : c.Valid) :
    validateCredential c.request true = [] ↔ c.MeetsAdminRules := by
  obtain ⟨hsecret, hcert, hknown⟩ := h.supplied
  rw [validateCredential_eq_nil]
  constructor
  · rintro ⟨htype, hhost, -, -, hclient, hname, htenant⟩
    exact ⟨hname, htenant, hclient, hknown.1 htype, hhost.imp_right isPrefixOf_iff_prefix.1⟩
  rintro ⟨hname, htenant, hclient, htype, hhost⟩
  refine ⟨hknown.2 htype, hhost.imp_right isPrefixOf_iff_prefix.2, ?_, ?_, hclient, hname, htenant⟩
  · intro hparse
    obtain ⟨hpem, hkey⟩ := hcert hparse
    exact ⟨⟨_, rfl, hpem⟩, ⟨_, rfl, hkey⟩⟩
  · exact fun hparse => ⟨_, rfl, hsecret hparse⟩

theorem Mailbox.Valid.parseTransport_iff {m : Mailbox} (h : m.Valid g) :
    (parseTransport m.transport).isSome = true ↔ m.transport ≠ [] := by
  have hknown := h.transport
  simp only [knownTransport, Bool.or_eq_true, decide_eq_true_eq] at hknown
  rcases hknown with (hempty | hsmtp) | hgraph
  · rw [hempty]; decide
  · rw [hsmtp]; decide
  · rw [hgraph]; decide

theorem Mailbox.Valid.admin_iff {m : Mailbox} (h : m.Valid g) :
    validateMailbox g m.request true = [] ↔ m.MeetsAdminRules := by
  rw [validateMailbox_eq_nil]
  constructor
  · rintro ⟨haddr, hconc, hcred, hrate, htrans⟩
    exact ⟨(haddr (.inl rfl)).1, hcred rfl,
      h.parseTransport_iff.1 (htrans (.inl rfl)), (hrate _ rfl).1, (hconc _ rfl).1⟩
  rintro ⟨haddr, hcred, htrans, hrate, hconc⟩
  refine ⟨fun _ => ⟨haddr, ?_⟩, ?_, fun _ => hcred, ?_, fun _ => h.parseTransport_iff.2 htrans⟩
  · exact (parseAddress_trimSpace_isOk g m.address).trans h.parses
  · rintro v ⟨⟩
    exact ⟨hconc, h.concurrent⟩
  rintro v ⟨⟩
  exact ⟨hrate, h.rateLimit⟩

theorem Account.Valid.admin_iff (n : NetText) {a : Account} (h : a.Valid g) :
    validateAccount n g a.request true = [] ↔ a.MeetsAdminRules n := by
  rw [validateAccount_eq_nil]
  constructor
  · rintro ⟨⟨hcidrs, -, -⟩, -, hrate, huser⟩
    exact ⟨huser rfl, hrate _ rfl, hcidrs⟩
  rintro ⟨huser, hrate, hcidrs⟩
  refine ⟨⟨hcidrs, ?_, nofun⟩, h.fromPolicy, ?_, fun _ => huser⟩
  · exact fun pattern hpattern => patternError_eq_none.1 (h.senders pattern hpattern)
  rintro v ⟨⟩
  exact hrate

/-- Each object of an accepted file passes the check of the management interface exactly if it
meets the rules the file's own check leaves open. -/
theorem file_held_to_admin_rules (n : NetText) (g : GoText) (f : File)
    (hload : f.validate g = .ok ()) :
    (∀ c ∈ f.credentials, validateCredential c.request true = [] ↔ c.MeetsAdminRules) ∧
    (∀ m ∈ f.mailboxes, validateMailbox g m.request true = [] ↔ m.MeetsAdminRules) ∧
    (∀ a ∈ f.accounts, validateAccount n g a.request true = [] ↔ a.MeetsAdminRules n) := by
  have hvalid := File.validate_ok hload
  exact ⟨fun c hc => (hvalid.credentials c hc).admin_iff,
    fun m hm => (hvalid.mailboxes m hm).admin_iff,
    fun a ha => (hvalid.accounts a ha).admin_iff n⟩

def tenNet : NetText :=
  { dottedText with
    parseCIDR := fun s => if s = ascii "10.0.0.0/8" then some ⟨[10, 0, 0, 0], [255, 0, 0, 0]⟩ else none }

def plainFile : File where
  credentials := [
    { name := ascii "main", tenantID := ascii "contoso", clientID := ascii "app"
      authType := ascii "secret", clientSecret := ascii "s3cret"
      authorityHost := ascii "https://login.microsoftonline.com" }]
  mailboxes := [
    { address := ascii "alerts@example.com", credential := ascii "main"
      transport := ascii "smtp", rateLimitPerMin := 10 }]
  accounts := [
    { username := ascii "printer", passwordHash := ascii "$argon2id$v=19$"
      mailboxes := [ascii "alerts@example.com"], defaultMailbox := ascii "Alerts@example.com"
      allowedSenders := [ascii "*@example.com"], allowCIDRs := [ascii "10.0.0.0/8"] }]

/-- The management interface would accept every object of `plainFile`. -/
theorem plainFile_meets_rules : plainFile.validate bareText = .ok () ∧
    (∀ c ∈ plainFile.credentials, validateCredential c.request true = []) ∧
    (∀ m ∈ plainFile.mailboxes, validateMailbox bareText m.request true = []) ∧
    ∀ a ∈ plainFile.accounts, validateAccount tenNet bareText a.request true = [] := by
  have hload : plainFile.validate bareText = .ok () := by decide +kernel
  obtain ⟨hcreds, hmail, haccs⟩ := file_held_to_admin_rules tenNet bareText _ hload
  refine ⟨hload, fun c hc => ?_, fun m hm => ?_, fun a ha => ?_⟩
  · rw [hcreds c hc, mem_singleton.1 hc]
    exact ⟨by decide, by decide, by decide, by decide, .inr (by decide)⟩
  · rw [hmail m hm, mem_singleton.1 hm]
    exact ⟨by decide, by decide, by decide, by decide, by decide⟩
  rw [haccs a ha, mem_singleton.1 ha]
  exact ⟨by decide, by decide, by decide⟩

/-- An authority host without TLS, a negative limit, and a network that is none. -/
def looseFile : File where
  credentials := [
    { name := ascii "main", tenantID := ascii "contoso", clientID := ascii "app"
      authType := ascii "secret", clientSecret := ascii "s3cret"
      authorityHost := ascii "http://login.example.com" }]
  mailboxes := [
    { address := ascii "alerts@example.com", credential := ascii "main"
      transport := ascii "smtp", rateLimitPerMin := -1 }]
  accounts := [
    { username := ascii "printer", passwordHash := ascii "$argon2id$v=19$"
      allowCIDRs := [ascii "everywhere"] }]

/-- `looseFile` is accepted, and the management interface would refuse every object in it. -/
theorem looseFile_breaks_rules : looseFile.validate bareText = .ok () ∧
    (∀ c ∈ looseFile.credentials, validateCredential c.request true =
      [Response.field "authorityHost" "must start with https://"]) ∧
    (∀ m ∈ looseFile.mailboxes, validateMailbox bareText m.request true =
      [Response.field "rateLimitPerMin" "must not be negative"]) ∧
    ∀ a ∈ looseFile.accounts, validateAccount tenNet bareText a.request true =
      [(ascii "allowCidrs", ascii "everywhere is not a CIDR (use /32 for a single address)")] := by
  decide +kernel

end SmtpProxy.Bootstrap
