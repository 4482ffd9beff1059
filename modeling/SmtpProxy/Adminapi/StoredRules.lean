import SmtpProxy.Adminapi.Requests

/-!
# The rules of a new object, for every stored one

A credential, a mailbox or an account is created only if the request passes a list of
checks. An update makes fewer: a name of blanks is trimmed to nothing and stored, the
kind of authentication can be changed without what it needs, a secret can be replaced
by the empty text, and a password that is reset may be of any length. One that is given
with a new account is measured in bytes, though it should have 8 characters.

`stored_rules` says that these are the only ways around the rules.
-/

namespace SmtpProxy.Adminapi

open Lib Policy Store App List Table

def NonBlank (s : Bytes) : Prop := trimSpace s ≠ []

instance (s : Bytes) : Decidable (NonBlank s) := inferInstanceAs (Decidable (_ ≠ _))

theorem NonBlank.trimmed {s : Bytes} (h : NonBlank s) : NonBlank (trimSpace s) := by
  unfold NonBlank
  rw [trimSpace_trimSpace]
  exact h

variable (srv : ConfigServer)

def opensNonEmpty (text context : Bytes) : Bool :=
  match srv.keyring with
  | none => false
  | some k =>
    match k.decryptString text context with
    | .ok plaintext => plaintext ≠ []
    | .error _ => false

/-- The credential has the material its kind of authentication needs. -/
def hasMaterial (c : CredentialRow) : Bool :=
  match c.authType with
  | .secret => opensNonEmpty srv c.clientSecretEnc c.secretContext
  | .certificate =>
    c.certificatePEM ≠ [] && opensNonEmpty srv c.certificateKeyEnc c.certificateKeyContext

structure CredentialRules (c : CredentialRow) : Prop where
  name : NonBlank c.name
  tenantID : NonBlank c.tenantID
  clientID : NonBlank c.clientID
  material : hasMaterial srv c = true

/-- The hash of a password with 8 characters; what is read from JSON has whole ones only. -/
def LongPassword (hash : Bytes) : Prop :=
  ∃ password weak, srv.passwords.IsHashOf hash password weak ∧
    minAccountPasswordLength ≤ Utf8.runeCount password

structure AccountRules (a : AccountRow) : Prop where
  username : NonBlank a.username
  password : LongPassword srv a.passwordHash
  cidrs : ∀ cidr ∈ a.allowCIDRs, (srv.net.parseCIDR cidr).isSome

structure StoredRules (db : Config) : Prop where
  credentials : ∀ c ∈ db.credentials.rows, CredentialRules srv c
  mailboxes : ∀ m ∈ db.mailboxes.rows, m.address ≠ []
  accounts : ∀ a ∈ db.accounts.rows, AccountRules srv a
  senders : ∀ s ∈ db.senders, validatePattern srv.text s.pattern = .ok ()

/-- What is assumed of hashing, of sealing and of `strings.ToLower`. -/
structure ConfigServer.Lawful : Prop where
  passwords : srv.passwords.Lawful
  keyring : ∀ k, srv.keyring = some k → k.Lawful
  toLower : ∀ s, srv.text.toLower s = [] → s = []

/-! ## What an update must not do -/

/-- A name that is given is not blank. -/
def Named (s : Bytes) : Prop := s = [] ∨ NonBlank s

instance (s : Bytes) : Decidable (Named s) := inferInstanceAs (Decidable (_ ∨ _))

/-- A text that is given is not empty; one that is not given is there already. -/
def suppliedOr (given : Option Bytes) (stored : Bool) : Bool :=
  match given with
  | some text => text ≠ []
  | none => stored

/-- The material a credential needs is supplied, or there already. -/
def supplies (req : CredentialRequest) (c : CredentialRow) : Bool :=
  match c.authType with
  | .secret => suppliedOr req.clientSecret (opensNonEmpty srv c.clientSecretEnc c.secretContext)
  | .certificate =>
    suppliedOr req.certificatePEM (c.certificatePEM ≠ []) &&
      suppliedOr req.certificateKeyPEM
        (opensNonEmpty srv c.certificateKeyEnc c.certificateKeyContext)

/-- A password that is given has 8 characters. -/
def LongEnough (given : Option Bytes) : Prop :=
  given.getD [] = [] ∨ minAccountPasswordLength ≤ Utf8.runeCount (given.getD [])

instance (given : Option Bytes) : Decidable (LongEnough given) := inferInstanceAs (Decidable (_ ∨ _))

/-- The request does what a request that creates the object should have to: it gives no
blank name, leaves a credential with the material it needs, and gives no short password. -/
def AsOnCreate (db : Config) (call : ConfigCall) : Prop :=
  match call.request with
  | .updateCredential id (.ok req) =>
    (Named req.name ∧ Named req.tenantID ∧ Named req.clientID) ∧
      ∀ c ∈ db.credentials.rows, c.id = id → supplies srv req (req.apply c) = true
  | .updateAccount _ (.ok req) => Named req.username
  | .createAccount _ (.ok req) => LongEnough req.password
  | .resetAccountPassword _ _ (.ok given) => LongEnough given
  | _ => True

instance (db : Config) : (call : ConfigCall) → Decidable (AsOnCreate srv db call)
  | ⟨.updateCredential id (.ok req), _⟩ =>
    inferInstanceAs (Decidable ((Named req.name ∧ Named req.tenantID ∧ Named req.clientID) ∧
      ∀ c ∈ db.credentials.rows, c.id = id → supplies srv req (req.apply c) = true))
  | ⟨.updateAccount _ (.ok req), _⟩ => inferInstanceAs (Decidable (Named req.username))
  | ⟨.createAccount _ (.ok req), _⟩ => inferInstanceAs (Decidable (LongEnough req.password))
  | ⟨.resetAccountPassword _ _ (.ok given), _⟩ => inferInstanceAs (Decidable (LongEnough given))
  | ⟨.updateCredential _ (.error _), _⟩ | ⟨.updateAccount _ (.error _), _⟩
  | ⟨.createAccount _ (.error _), _⟩ | ⟨.resetAccountPassword _ _ (.error _), _⟩
  | ⟨.createCredential .., _⟩ | ⟨.deleteCredential .., _⟩ | ⟨.createMailbox .., _⟩
  | ⟨.updateMailbox .., _⟩ | ⟨.deleteMailbox .., _⟩ | ⟨.deleteAccount .., _⟩ => isTrue trivial

variable {srv} {db db' : Config}

/-! ## Credentials -/

theorem opensNonEmpty_sealed (hlaw : srv.Lawful) {k : Keyring} (hk : srv.keyring = some k)
    {text context sealed : Bytes} (h : k.encryptString text context = .ok sealed) (hne : text ≠ []) :
    opensNonEmpty srv sealed context = true := by
  simp only [opensNonEmpty, hk, hlaw.keyring k hk text context sealed h]
  exact decide_eq_true hne

theorem opensNonEmpty_sealText (hlaw : srv.Lawful) {k : Keyring} (hk : srv.keyring = some k)
    {stored : Bytes} {given : Option Bytes} {context sealed : Bytes}
    (h : sealText k stored given context = .ok sealed)
    (hmat : suppliedOr given (opensNonEmpty srv stored context) = true) :
    opensNonEmpty srv sealed context = true := by
  cases given with
  | none =>
    cases h
    exact hmat
  | some text => exact opensNonEmpty_sealed hlaw hk h (of_decide_eq_true hmat)

variable {c : CredentialRow} {req : CredentialRequest}

theorem hasMaterial_sealed (hlaw : srv.Lawful) {c' : CredentialRow}
    (hsealed : sealCredential srv.keyring c req = .ok c') (hmat : supplies srv req c = true) :
    hasMaterial srv c' = true := by
  obtain ⟨k, secret, certificateKey, hk, hsecret, hkey, rfl⟩ := sealCredential_ok hsealed
  unfold supplies at hmat
  unfold hasMaterial
  dsimp only
  cases htype : c.authType with
  | secret =>
    rw [htype] at hmat
    exact opensNonEmpty_sealText hlaw hk hsecret hmat
  | certificate =>
  rw [htype] at hmat
  obtain ⟨hpem, hopens⟩ := Bool.and_eq_true_iff.1 hmat
  apply Bool.and_eq_true_iff.2
  refine ⟨?_, opensNonEmpty_sealText hlaw hk hkey hopens⟩
  cases hgiven : req.certificatePEM with
  | none =>
    rw [hgiven] at hpem
    exact hpem
  | some text =>
    rw [hgiven] at hpem
    exact hpem

theorem CredentialRules.stamped (h : CredentialRules srv c) (createdAt updatedAt : Int) :
    CredentialRules srv { c with createdAt, updatedAt } :=
  ⟨h.name, h.tenantID, h.clientID, h.material⟩

theorem createdCredential_rules (hlaw : srv.Lawful) {newID : Bytes}
    (hvalid : validateCredential req true = [])
    (hsealed : sealCredential srv.keyring (req.newCredential newID) req = .ok c) (now : Int) :
    CredentialRules srv (c.created newID now) := by
  have hcomplete := validateCredential_nil hvalid
  have hmat : hasMaterial srv c = true := by
    apply hasMaterial_sealed hlaw hsealed
    obtain ⟨htype, s, hs, hne⟩ | ⟨htype, ⟨s, hs, hne⟩, s', hs', hne'⟩ := hcomplete.material
    · simp [supplies, CredentialRequest.newCredential, htype, hs, suppliedOr, hne]
    · simp [supplies, CredentialRequest.newCredential, htype, hs, hs', suppliedOr, hne, hne']
  obtain ⟨k, secret, certificateKey, -, -, -, hc⟩ := sealCredential_ok hsealed
  have hrules : CredentialRules srv c := by
    refine ⟨?_, ?_, ?_, hmat⟩
    · rw [hc]
      exact NonBlank.trimmed hcomplete.name
    · rw [hc]
      exact NonBlank.trimmed hcomplete.tenantID
    rw [hc]
    exact NonBlank.trimmed hcomplete.clientID
  have hid : c.id = newID := by
    rw [hc]
    rfl
  have hcreated : c.created newID now = { c with createdAt := now, updatedAt := now } := by
    unfold CredentialRow.created
    rw [← hid, ite_self]
  rw [hcreated]
  exact hrules.stamped now now

theorem NonBlank.named {given stored : Bytes} (hnamed : Named given) (h : NonBlank stored) :
    NonBlank (if given = [] then stored else trimSpace given) := by
  split
  · exact h
  · next hne => exact (hnamed.resolve_left hne).trimmed

theorem updatedCredential_rules (hlaw : srv.Lawful) {c' r : CredentialRow}
    (hold : CredentialRules srv c) (hname : Named req.name) (htenant : Named req.tenantID)
    (hclient : Named req.clientID) (hsupplies : supplies srv req (req.apply c) = true)
    (hsealed : sealCredential srv.keyring (req.apply c) req = .ok c') (hid : r.id = c'.id)
    (now : Int) : CredentialRules srv (c'.assign now r) := by
  have hmat := hasMaterial_sealed hlaw hsealed hsupplies
  obtain ⟨k, secret, certificateKey, -, -, -, hc⟩ := sealCredential_ok hsealed
  have hrules : CredentialRules srv c' := by
    refine ⟨?_, ?_, ?_, hmat⟩
    · rw [hc]
      exact NonBlank.named hname hold.name
    · rw [hc]
      exact NonBlank.named htenant hold.tenantID
    rw [hc]
    exact NonBlank.named hclient hold.clientID
  have hassign : c'.assign now r = { c' with createdAt := r.createdAt, updatedAt := now } := by
    unfold CredentialRow.assign
    rw [hid]
  rw [hassign]
  exact hrules.stamped r.createdAt now

/-! ## Accounts -/

theorem hashedPassword_rules (hlaw : srv.Lawful) {given : Option Bytes}
    {random : Except Err Entropy} {password hash : Bytes} {generated : Bool}
    (h : hashedPassword srv.passwords given random = .ok (password, generated, hash))
    (hgiven : LongEnough given) : LongPassword srv hash := by
  obtain ⟨hfor, hhash⟩ := hashedPassword_ok h
  refine ⟨password, false, (hlaw.passwords.hashPassword hhash).2, ?_⟩
  obtain ⟨rfl, hne⟩ | hlong := passwordFor_count hfor
  · exact hgiven.resolve_left hne
  · exact le_trans (by decide) hlong

theorem createdAccount_rules (hlaw : srv.Lawful) {req : AccountRequest} {draw : AccountDraw}
    {password hash : Bytes} {generated : Bool}
    (hvalid : validateAccount srv.net srv.text req true = [])
    (hhashed : hashedPassword srv.passwords req.password draw.random =
      .ok (password, generated, hash))
    (hlong : LongEnough req.password) (now : Int) :
    AccountRules srv ((req.newAccount hash).created draw.id now) := by
  obtain ⟨hreq, huser⟩ := validateAccount_nil hvalid
  exact ⟨NonBlank.trimmed (huser rfl), hashedPassword_rules hlaw hhashed hlong, hreq.cidrs⟩

theorem updatedAccount_rules {req : AccountRequest} {a : AccountRow} (hold : AccountRules srv a)
    (hvalid : validateAccount srv.net srv.text req false = []) (hnamed : Named req.username)
    (now : Int) (r : AccountRow) : AccountRules srv ((req.apply a).assign now r) := by
  obtain ⟨hreq, -⟩ := validateAccount_nil hvalid
  refine ⟨NonBlank.named hnamed hold.username, hold.password, ?_⟩
  show ∀ cidr ∈ req.allowCIDRs.getD a.allowCIDRs, _
  cases hcidrs : req.allowCIDRs with
  | none => exact hold.cidrs
  | some cidrs =>
  have hall := hreq.cidrs
  rw [hcidrs] at hall
  exact hall

theorem senders_rules {id : Bytes} {patterns : Option (List Bytes)} {senders : List AllowedSender}
    (hsenders : senders = db.senders ∨ senders = sendersAfter db id patterns)
    (hold : ∀ s ∈ db.senders, validatePattern srv.text s.pattern = .ok ())
    (hnew : ∀ p ∈ patterns.getD [], validatePattern srv.text p = .ok ()) :
    ∀ s ∈ senders, validatePattern srv.text s.pattern = .ok () := by
  obtain rfl | rfl := hsenders
  · exact hold
  cases patterns with
  | none => exact hold
  | some patterns =>
  intro s hs
  obtain hs | hs := mem_append.1 hs
  · exact hold s (mem_filter.1 hs).1
  obtain ⟨p, hp, rfl⟩ := mem_map.1 hs
  exact hnew p (mem_eraseDups.1 hp)

/-! ## One request, and every sequence of them -/

/-- **A request that does as on creation keeps the rules.** -/
theorem ConfigStep.rules (hlaw : srv.Lawful) {call : ConfigCall}
    (h : ConfigStep srv db call.request db') (hcall : AsOnCreate srv db call)
    (hdb : StoredRules srv db) : StoredRules srv db' := by
  obtain ⟨request, env⟩ := call
  cases h with
  | nothing => exact hdb
  | createdCredential hbody hvalid hsealed hinsert =>
    exact { hdb with
      credentials :=
        forall_insert hdb.credentials (createdCredential_rules hlaw hvalid hsealed _) hinsert }
  | @updatedCredential id body req c c' now hbody hget hmanaged hvalid hsealed =>
    obtain rfl := hbody
    obtain ⟨⟨hname, htenant, hclient⟩, hsupplies⟩ := hcall
    obtain ⟨hmem, hid⟩ := get_eq_some_iff.1 hget
    refine { hdb with credentials := forall_updateWhere (c'.assign_id now) hdb.credentials ?_ }
    intro r hr hkey
    exact updatedCredential_rules hlaw (hdb.credentials c hmem) hname htenant hclient
      (hsupplies c hmem hid) hsealed (of_decide_eq_true hkey) now
  | deletedCredential hget hmanaged =>
    exact { hdb with credentials := forall_deleteWhere hdb.credentials }
  | createdMailbox hbody hvalid hinsert =>
    refine { hdb with mailboxes := forall_insert hdb.mailboxes ?_ hinsert }
    exact fun hempty => validateMailbox_nil hvalid (.inl rfl) (hlaw.toLower _ hempty)
  | @updatedMailbox id body req m now hbody hget hmanaged hvalid =>
    refine { hdb with
      mailboxes := forall_updateWhere ((req.apply srv.text m).assign_id now) hdb.mailboxes ?_ }
    intro r hr hkey
    show (if req.address = [] then m.address else storedAddress srv.text req.address) ≠ []
    split
    · exact hdb.mailboxes m (mem_of_get hget)
    · next hgiven => exact fun hempty => validateMailbox_nil hvalid (.inr hgiven) (hlaw.toLower _ hempty)
  | @deletedMailbox id m hget hmanaged =>
    refine { hdb with
      mailboxes := forall_deleteWhere hdb.mailboxes
      accounts := forall_updateWhere (Config.withoutMailbox_id id) hdb.accounts ?_ }
    intro a ha _
    unfold Config.withoutMailbox
    split
    · exact { hdb.accounts a ha with }
    · exact hdb.accounts a ha
  | createdAccount hbody hvalid hhashed hinsert hlinks hsenders =>
    obtain rfl := hbody
    exact { hdb with
      accounts := forall_insert hdb.accounts (createdAccount_rules hlaw hvalid hhashed hcall _) hinsert
      senders := senders_rules hsenders hdb.senders (validateAccount_nil hvalid).1.senders }
  | @updatedAccount id body req a links senders now hbody hget hmanaged hvalid hlinks hsenders =>
    obtain rfl := hbody
    refine { hdb with
      accounts := forall_updateWhere ((req.apply a).assign_id now) hdb.accounts ?_
      senders := senders_rules hsenders hdb.senders (validateAccount_nil hvalid).1.senders }
    intro r hr hkey
    exact updatedAccount_rules (hdb.accounts a (mem_of_get hget)) hvalid hcall now r
  | deletedAccount hget hmanaged =>
    exact { hdb with
      accounts := forall_deleteWhere hdb.accounts
      senders := fun s hs => hdb.senders s (mem_filter.1 hs).1 }
  | @resetPassword random id body given password hash _ a now hbody hget hhashed =>
  obtain rfl := hbody
  refine { hdb with
    accounts := forall_updateWhere (AccountRow.assign_id _ now) hdb.accounts ?_ }
  intro r hr hkey
  have hold := hdb.accounts a (mem_of_get hget)
  exact ⟨hold.username, hashedPassword_rules hlaw hhashed hcall, hold.cidrs⟩

def Config.empty : Config where
  credentials := .empty
  mailboxes := .empty
  accounts := .empty

/-- **The rules of a new object hold for every stored one**, if every request does as a
request that creates the object should have to. -/
theorem stored_rules (hlaw : srv.Lawful) (h : Reach (serveConfig srv) (AsOnCreate srv) Config.empty db) :
    StoredRules srv db := by
  apply Reach.invariant (I := StoredRules srv) _ _ h
  · exact ⟨fun _ hc => absurd hc not_mem_nil, fun _ hm => absurd hm not_mem_nil,
      fun _ ha => absurd ha not_mem_nil, fun _ hs => absurd hs not_mem_nil⟩
  intro db₁ call db₂ hdb hcall hstep
  exact (serveConfig_step hstep).rules hlaw hcall hdb

theorem plainConfigServer_lawful : plainConfigServer.Lawful where
  passwords := plainPasswords_lawful
  keyring := by
    intro k hk text context sealed hsealed
    cases hk
    cases hsealed
    rfl
  toLower := fun _ h => map_eq_nil_iff.1 h

def firstObjects : List ConfigCall :=
  [⟨.createCredential (ascii "c") (.ok
      { name := ascii "main", tenantID := ascii "t", clientID := ascii "i", authType := ascii "secret",
        clientSecret := some (ascii "s") }), fun _ => {}⟩,
    ⟨.createMailbox (ascii "m") (.ok
      { address := ascii "m@x", oauthCredentialID := ascii "c", transport := ascii "smtp" }), fun _ => {}⟩,
    ⟨.createAccount ⟨ascii "p", .error (.new [])⟩ (.ok
      { username := ascii "printer", password := some (ascii "12345678") }), fun _ => {}⟩]

/-- They are changed as they could have been created. -/
def renamed : List ConfigCall := firstObjects ++
  [⟨.updateCredential (ascii "c") (.ok { name := ascii "other" }), fun _ => {}⟩,
    ⟨.updateAccount (ascii "p") (.ok { username := ascii "scanner" }), fun _ => {}⟩]

theorem firstObjects_renamed :
    ∃ db, runActions (serveConfig plainConfigServer) Config.empty renamed = some db ∧
      (db.credentials.rows.map (·.name), db.mailboxes.rows.map (·.address),
        db.accounts.rows.map (·.username)) = ([ascii "other"], [ascii "m@x"], [ascii "scanner"]) ∧
      StoredRules plainConfigServer db := by
  obtain ⟨db, hrun, hafter⟩ := Option.map_eq_some_iff.1
    (show (runActions (serveConfig plainConfigServer) Config.empty renamed).map
        (fun db => (db.credentials.rows.map (·.name), db.mailboxes.rows.map (·.address),
          db.accounts.rows.map (·.username))) =
        some ([ascii "other"], [ascii "m@x"], [ascii "scanner"]) by decide +kernel)
  exact ⟨db, hrun, hafter, stored_rules plainConfigServer_lawful
    (reach_of_runActions _ (by decide +kernel) hrun)⟩

/-- Updates take the name of the credential and its secret away, and leave the account without
a username and with a password of one letter. -/
def emptied : List ConfigCall := firstObjects ++
  [⟨.updateCredential (ascii "c") (.ok { name := ascii " ", clientSecret := some [] }), fun _ => {}⟩,
    ⟨.updateAccount (ascii "p") (.ok { username := ascii " " }), fun _ => {}⟩,
    ⟨.resetAccountPassword (.error (.new [])) (ascii "p") (.ok (some (ascii "x"))), fun _ => {}⟩]

theorem firstObjects_emptied :
    ∃ db, runActions (serveConfig plainConfigServer) Config.empty emptied = some db ∧
      db.credentials.rows.map (fun c => (c.name, hasMaterial plainConfigServer c)) = [([], false)] ∧
      db.accounts.rows.map (fun a => (a.username, a.passwordHash)) = [([], ascii "#x")] ∧
      db.mailboxes.rows.map (·.address) = [ascii "m@x"] ∧ ¬ StoredRules plainConfigServer db := by
  obtain ⟨db, hrun, hafter⟩ := Option.map_eq_some_iff.1
    (show (runActions (serveConfig plainConfigServer) Config.empty emptied).map (fun db =>
        (db.credentials.rows.map (fun c => (c.name, hasMaterial plainConfigServer c)),
          db.accounts.rows.map (fun a => (a.username, a.passwordHash)),
          db.mailboxes.rows.map (·.address))) =
        some ([([], false)], [([], ascii "#x")], [ascii "m@x"]) by decide +kernel)
  obtain ⟨hcreds, haccs, hmailboxes⟩ := Prod.mk.inj hafter |>.imp_right Prod.mk.inj
  refine ⟨db, hrun, hcreds, haccs, hmailboxes, ?_⟩
  intro hrules
  obtain ⟨a, ha, hname⟩ : ∃ a ∈ db.accounts.rows, (a.username, a.passwordHash) = ([], ascii "#x") :=
    mem_map.1 (haccs ▸ mem_singleton_self _)
  obtain ⟨huser, -⟩ := Prod.mk.inj hname
  apply (hrules.accounts a ha).username
  rw [huser]
  rfl

end SmtpProxy.Adminapi
