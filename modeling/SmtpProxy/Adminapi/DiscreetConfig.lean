import SmtpProxy.Adminapi.Discreet

/-!
# Credentials, mailboxes and accounts without their secrets

Each handler of `Adminapi.Site` is `Discreet`: row by row the two sides agree except in
their secrets, so every statement answers the same on both.
-/

namespace SmtpProxy.Adminapi

open Lib Store Policy Adminauth

/-! ## Credentials -/

theorem toCredentialResponse_erased (c : CredentialRow) (mailboxes : Nat) :
    toCredentialResponse c.erased mailboxes = toCredentialResponse c mailboxes := by
  simp [toCredentialResponse, CredentialRow.erased, mark_eq_nil]

variable {x : Ctx}

theorem credentialView_twin {c c' : CredentialRow} (h : c.erased = c'.erased) (mailboxes : Nat) :
    (Site.toCredentialResponse x c mailboxes).Twin DiagnosticsDB.Agree (· = ·)
      (Site.toCredentialResponse x c' mailboxes) := by
  have hsite : ∀ r : CredentialRow,
      Site.toCredentialResponse x r.erased mailboxes = Site.toCredentialResponse x r mailboxes := by
    intro r
    unfold Site.toCredentialResponse
    rw [toCredentialResponse_erased]
    rfl
  rw [← hsite c, ← hsite c', h]
  unfold Site.toCredentialResponse
  cases c'.erased.expiresAt with
  | none => exact .pure rfl
  | some t =>
  refine .bind now_twin ?_
  rintro at_ _ rfl
  exact .pure rfl

theorem credentialViews_twin (perCredential : Bytes → Nat) {l l' : List CredentialRow}
    (h : l.map CredentialRow.erased = l'.map CredentialRow.erased) :
    (Site.toCredentialResponses x perCredential l).Twin DiagnosticsDB.Agree (· = ·)
      (Site.toCredentialResponses x perCredential l') := by
  induction l generalizing l' with
  | nil =>
    obtain rfl := List.map_eq_nil_iff.1 h.symm
    exact .pure rfl
  | cons c l ih =>
  cases l' with
  | nil => cases h
  | cons c' l' =>
  obtain ⟨hc, hl⟩ := List.cons_eq_cons.1 h
  obtain ⟨secret, key, rfl, -, -⟩ := CredentialRow.of_erased hc
  refine .bind (credentialView_twin hc (perCredential c.id)) ?_
  rintro view _ rfl
  refine .bind (ih hl) ?_
  rintro views _ rfl
  exact .pure rfl

theorem countMailboxes_twin (id : Bytes) :
    (countMailboxes id).Twin Config.Agree (· = ·) (countMailboxes id) := by
  refine .bindOk MailboxRepo.list_twin (fun e => .pure rfl) ?_
  rintro mailboxes _ rfl
  exact .pure rfl

namespace CredentialRequest.Alike

variable {req req' : CredentialRequest} (h : req.Alike req')
include h

theorem validate (creating : Bool) : validateCredential req creating = validateCredential req' creating := by
  have hall : ∀ {a b : Option Bytes}, Concealed (· ≠ []) a b →
      (a.all fun v => v = []) = (b.all fun v => v = []) := by
    intro a b hab
    cases hab with
    | same => rfl
    | given ha hb => simp [ha, hb]
  rw [h.rest]
  simp only [validateCredential, requiredMaterial, hall h.clientSecret, hall h.certificateKeyPEM]

theorem changesSecret : (req.clientSecret.isSome || req.certificateKeyPEM.isSome) =
    (req'.clientSecret.isSome || req'.certificateKeyPEM.isSome) := by
  have hsome : ∀ {a b : Option Bytes}, Concealed (· ≠ []) a b → a.isSome = b.isSome := by
    intro a b hab
    cases hab <;> rfl
  rw [hsome h.clientSecret, hsome h.certificateKeyPEM]

theorem newCredential (newID : Bytes) : req.newCredential newID = req'.newCredential newID := by
  rw [h.rest]
  rfl

theorem apply {c c' : CredentialRow} (hc : c.erased = c'.erased) :
    (req.apply c).erased = (req'.apply c').erased := by
  rw [h.rest]
  exact congrArg req.apply hc

end CredentialRequest.Alike

namespace Site

variable (x : Ctx)

theorem listCredentials_discreet : Discreet (handleListCredentials x) (handleListCredentials x) := by
  refine .orFail (onConfig_twin CredentialRepo.list_twin) ?_
  intro credentials credentials' hcreds
  refine .orFail (onConfig_twin MailboxRepo.list_twin) ?_
  rintro mailboxes _ rfl
  refine .bind (credentialViews_twin _ hcreds) ?_
  rintro items _ rfl
  exact .answer _

theorem getCredential_discreet (id : Bytes) :
    Discreet (handleGetCredential x id) (handleGetCredential x id) := by
  refine .orFail (onConfig_twin (CredentialRepo.get_twin id)) ?_
  intro c c' hc
  obtain ⟨secret, key, rfl, -, -⟩ := CredentialRow.of_erased hc
  refine .bind (onConfig_twin (countMailboxes_twin c.id)) ?_
  rintro mailboxes _ rfl
  refine .bind (credentialView_twin hc mailboxes) ?_
  rintro view _ rfl
  exact .answer _

theorem credentialSetup_discreet (id : Bytes) :
    Discreet (handleCredentialSetup x id) (handleCredentialSetup x id) := by
  refine .orFail (onConfig_twin (CredentialRepo.get_twin id)) ?_
  intro c c' hc
  obtain ⟨secret, key, rfl, -, -⟩ := CredentialRow.of_erased hc
  refine .orFail (onConfig_twin MailboxRepo.list_twin) ?_
  rintro mailboxes _ rfl
  exact .answer _

variable {body body' : Decoded CredentialRequest}

theorem createCredential_discreet (h : SameOutcome CredentialRequest.Alike body body') :
    Discreet (handleCreateCredential x body) (handleCreateCredential x body') := by
  refine .withBody h ?_
  intro req req' hreq
  refine .ifValid (hreq.validate true) ?_
  rw [hreq.newCredential]
  refine .whenSealed (sealCredential_outcome x rfl hreq) ?_
  intro c c' hc
  refine .whenStored (S := fun c c' => c.erased = c'.erased)
    (onConfig_twin (CredentialRepo.create_twin x.draws.id hc)) ?_
  intro c c' hc
  obtain ⟨secret, key, rfl, -, -⟩ := CredentialRow.of_erased hc
  refine .audited x rfl ?_
  refine .bind (credentialView_twin hc 0) ?_
  rintro view _ rfl
  exact .answer _

theorem updateCredential_discreet (id : Bytes)
    (h : SameOutcome CredentialRequest.Alike body body') :
    Discreet (handleUpdateCredential x id body) (handleUpdateCredential x id body') := by
  refine .withBody h ?_
  intro req req' hreq
  refine .orFail (onConfig_twin (CredentialRepo.get_twin id)) ?_
  intro c c' hc
  have happly := hreq.apply hc
  obtain ⟨secret, key, rfl, -, -⟩ := CredentialRow.of_erased hc
  refine .unlessDeclared _ _ ?_
  refine .ifValid (hreq.validate false) ?_
  refine .whenSealed (sealCredential_outcome x happly hreq) ?_
  intro c c' hc
  refine .whenStored (S := fun c c' => c.erased = c'.erased)
    (onConfig_twin (CredentialRepo.update_twin hc)) ?_
  intro c c' hc
  obtain ⟨secret, key, rfl, -, -⟩ := CredentialRow.of_erased hc
  dsimp only
  rw [hreq.changesSecret]
  refine .audited x rfl ?_
  refine .bind (onConfig_twin (countMailboxes_twin c.id)) ?_
  rintro mailboxes _ rfl
  refine .bind (credentialView_twin hc mailboxes) ?_
  rintro view _ rfl
  exact .answer _

theorem deleteCredential_discreet (id : Bytes) :
    Discreet (handleDeleteCredential x id) (handleDeleteCredential x id) := by
  refine .orFail (onConfig_twin (CredentialRepo.get_twin id)) ?_
  intro c c' hc
  obtain ⟨secret, key, rfl, -, -⟩ := CredentialRow.of_erased hc
  refine .unlessDeclared _ _ ?_
  refine .orFail (onConfig_twin (CredentialRepo.delete_twin id)) ?_
  rintro - - -
  refine .audited x rfl ?_
  exact .answer _

end Site

/-! ## Mailboxes -/

theorem credentialNames_twin :
    Site.credentialNames.Twin Config.Agree (· = ·) Site.credentialNames := by
  refine .bindOk CredentialRepo.list_twin (fun e => .pure rfl) ?_
  intro credentials credentials' h
  refine .pure ?_
  funext id
  have hname : ∀ l : List CredentialRow, (l.find? fun c => c.id = id).map (·.name) =
      ((l.map CredentialRow.erased).find? fun c => c.id = id).map (·.name) := by
    intro l
    rw [List.find?_map, Option.map_map]
    rfl
  rw [hname, h, ← hname]

namespace Site

variable (x : Ctx)

theorem namedMailbox_discreet (status : Nat) (m : MailboxRow) : Discreet (do
        let names ← onConfig credentialNames
        return .json status (.mailbox (toMailboxResponse m (names m.oauthCredentialID))))
      (do
        let names ← onConfig credentialNames
        return .json status (.mailbox (toMailboxResponse m (names m.oauthCredentialID)))) := by
  refine .bind (onConfig_twin credentialNames_twin) ?_
  rintro names _ rfl
  exact .answer _

theorem listMailboxes_discreet : Discreet handleListMailboxes handleListMailboxes := by
  refine .orFail (onConfig_twin MailboxRepo.list_twin) ?_
  rintro mailboxes _ rfl
  refine .bind (onConfig_twin credentialNames_twin) ?_
  rintro names _ rfl
  exact .answer _

theorem getMailbox_discreet (id : Bytes) : Discreet (handleGetMailbox id) (handleGetMailbox id) := by
  refine .orFail (onConfig_twin (MailboxRepo.get_twin id)) ?_
  rintro m _ rfl
  exact namedMailbox_discreet 200 m

theorem createMailbox_discreet (body : Decoded MailboxRequest) :
    Discreet (handleCreateMailbox x body) (handleCreateMailbox x body) := by
  refine .withBody (.refl _) ?_
  rintro req _ rfl
  refine .ifValid rfl ?_
  refine .whenStored (S := (· = ·)) (onConfig_twin (MailboxRepo.create_twin x.draws.id _)) ?_
  rintro m _ rfl
  refine .audited x rfl ?_
  exact namedMailbox_discreet 201 m

theorem updateMailbox_discreet (id : Bytes) (body : Decoded MailboxRequest) :
    Discreet (handleUpdateMailbox x id body) (handleUpdateMailbox x id body) := by
  refine .withBody (.refl _) ?_
  rintro req _ rfl
  refine .orFail (onConfig_twin (MailboxRepo.get_twin id)) ?_
  rintro m _ rfl
  refine .unlessDeclared _ _ ?_
  refine .ifValid rfl ?_
  refine .whenStored (S := (· = ·)) (onConfig_twin (MailboxRepo.update_twin _)) ?_
  rintro m _ rfl
  refine .audited x rfl ?_
  exact namedMailbox_discreet 200 m

theorem deleteMailbox_discreet (id : Bytes) :
    Discreet (handleDeleteMailbox x id) (handleDeleteMailbox x id) := by
  refine .orFail (onConfig_twin (MailboxRepo.get_twin id)) ?_
  rintro m _ rfl
  refine .unlessDeclared _ _ ?_
  refine .orFail (deleting_twin .mailboxDelete _ fun db => db.deleteMailbox_erased m.id) ?_
  rintro - - -
  refine .audited x rfl ?_
  exact .answer _

theorem mailboxDiagnostics_discreet (id : Bytes) :
    Discreet (handleMailboxDiagnostics x id) (handleMailboxDiagnostics x id) := by
  refine .orFail (onConfig_twin (MailboxRepo.get_twin id)) ?_
  rintro m _ rfl
  refine .orFail (onConfig_twin (CredentialRepo.get_twin m.oauthCredentialID)) ?_
  intro c c' hc
  obtain ⟨secret, key, rfl, -, -⟩ := CredentialRow.of_erased hc
  refine .orFail (onConfig_twin MailboxRepo.list_twin) ?_
  rintro related _ rfl
  refine .bind (credentialView_twin hc (related.countP fun m => m.oauthCredentialID = c.id)) ?_
  rintro view _ rfl
  exact .answer _

end Site

/-! ### A test send -/

section

variable {mask : MaskSecrets} {env : DiagnosticStatement → Fate} {c : DiagnosticCall}
  (db : DiagnosticsDB)

theorem recheckMailbox_erased : recheckMailbox env c db.erased = recheckMailbox env c db := by
  have hjoin : db.erased.config.mailboxCredential c.mailboxID =
      (db.config.mailboxCredential c.mailboxID).map fun p => (p.1, p.2.erased) := by
    unfold Config.mailboxCredential
    show (db.config.mailboxes.get _).bind _ = _
    cases db.config.mailboxes.get c.mailboxID with
    | none => rfl
    | some m =>
    show (db.config.erased.credentials.get _).bind _ =
      ((db.config.credentials.get m.oauthCredentialID).bind _).map _
    rw [Config.get_credentials_erased]
    cases db.config.credentials.get m.oauthCredentialID <;> rfl
  have husable : ∀ m (credential : CredentialRow) address,
      usable m credential.erased address = usable m credential address := by
    intro m credential address
    simp [usable, CredentialRow.erased, mark_eq_nil]
  unfold recheckMailbox
  rw [hjoin]
  cases db.config.mailboxCredential c.mailboxID with
  | none => rfl
  | some found =>
    dsimp only [Option.map_some]
    rw [husable]

theorem auditSend_erased (address id : Bytes) :
    auditSend mask env c db.erased address id = auditSend mask env c db address id := by
  have hname : (db.erased.admin.users.get c.actorID).map AdminUser.username =
      (db.admin.users.get c.actorID).map AdminUser.username := by
    show (db.admin.erased.users.get c.actorID).map AdminUser.username = _
    rw [AdminDB.get_users_erased, Option.map_map]
    rfl
  unfold auditSend
  rw [hname]
  rfl

theorem repeated_erased : repeated env c db.erased =
    (repeated env c db).map (Prod.map id DiagnosticsDB.erased) := by
  have hrequests : db.erased.requests = db.requests := rfl
  unfold repeated
  rw [hrequests]
  cases Store.attempt env .readReservation id with
  | error e => rfl
  | ok u =>
  simp only [bind, Except.bind]
  cases db.requests.get c.key with
  | none => rfl
  | some saved =>
  dsimp only
  split
  · rfl
  · cases saved.messageID <;> rfl

theorem reserved_erased (requests : RequestTable) :
    reserved mask env c db.erased requests =
      (reserved mask env c db requests).map (Prod.map id DiagnosticsDB.erased) := by
  unfold reserved
  rw [recheckMailbox_erased]
  simp only [auditSend_erased]
  show (recheckMailbox env c db >>= fun _ => enqueueTx env c db.queue >>= _) = _
  cases recheckMailbox env c db with
  | error e => rfl
  | ok mailbox =>
  simp only [bind, Except.bind]
  cases enqueueTx env c db.queue with
  | error e => rfl
  | ok queued =>
  dsimp only
  cases linkMessage env c queued.1 requests with
  | error e => rfl
  | ok requests =>
    dsimp only
    cases auditSend mask env c db mailbox.address queued.1 <;> rfl

theorem enqueueDiagnosticTx_erased : enqueueDiagnosticTx mask env c db.erased =
      (enqueueDiagnosticTx mask env c db).map (Prod.map id DiagnosticsDB.erased) := by
  have hrequests : db.erased.requests = db.requests := rfl
  unfold enqueueDiagnosticTx
  rw [hrequests]
  cases Store.attempt env .reserve id with
  | error e => rfl
  | ok u =>
  simp only [bind, Except.bind]
  cases db.requests.insert (c.request (env .reserve).now) with
  | none => exact repeated_erased db
  | some requests => exact reserved_erased db requests

theorem enqueueDiagnostic_erased :
    Prod.map id DiagnosticsDB.erased (Store.enqueueDiagnostic mask env c db) =
      Store.enqueueDiagnostic mask env c db.erased := by
  unfold Store.enqueueDiagnostic inTx
  rw [enqueueDiagnosticTx_erased]
  cases Store.attempt env .begin (wrapping (ascii "store: begin transaction")) with
  | error e => rfl
  | ok u =>
  simp only [bind, Except.bind]
  cases enqueueDiagnosticTx mask env c db with
  | error e => rfl
  | ok done =>
    dsimp only [Except.map]
    cases Store.attempt env .commit (wrapping (ascii "store: commit")) <;> rfl

end

namespace Site

variable (x : Ctx)

theorem enqueueDiagnostic_twin (call : DiagnosticCall) :
    (enqueueDiagnostic x call).Twin DiagnosticsDB.Agree (SameOutcome (· = ·))
      (enqueueDiagnostic x call) := by
  apply Prog.twin_exec
  intro _ s t hst
  refine same_view (enqueueDiagnostic_erased s) ((enqueueDiagnostic_erased t).trans ?_)
  rw [show s.erased = t.erased from hst]

theorem sendMailboxTest_discreet (id : Bytes) (body : Decoded TestRequest) :
    Discreet (handleSendMailboxTest x id body) (handleSendMailboxTest x id body) := by
  refine .withBody (.refl _) ?_
  rintro req _ rfl
  cases x.api.parseUUID req.requestID with
  | none => exact .answer _
  | some requestID =>
  dsimp only
  cases parseAddress x.api.text req.recipient with
  | error e => exact .answer _
  | ok address =>
  dsimp only
  split
  · exact .answer _
  refine .orFail (onConfig_twin (MailboxRepo.get_twin id)) ?_
  rintro m _ rfl
  cases parseAddress x.api.text m.address with
  | error e => exact .answer _
  | ok from_ =>
  dsimp only
  split
  · exact .answer _
  refine .bind now_twin ?_
  rintro at_ _ rfl
  refine .orFail (enqueueDiagnostic_twin x _) ?_
  rintro sent _ rfl
  exact .answer _

end Site

/-! ## Accounts -/

theorem toAccountResponse_twin {a a' : AccountRow} (h : a.erased = a'.erased) :
    (toAccountResponse a).Twin Config.Agree (SameOutcome (· = ·)) (toAccountResponse a') := by
  obtain ⟨hash, rfl⟩ := AccountRow.of_erased h
  refine .bindOk (MailboxRepo.listForAccount_twin a.id)
    (fun e => .pure (.error e)) ?_
  rintro mailboxes _ rfl
  refine .bindOk (AccountRepo.allowedSenders_twin a.id)
    (fun e => .pure (.error e)) ?_
  rintro senders _ rfl
  exact .pure (.ok rfl)

theorem toAccountResponses_twin {l l' : List AccountRow}
    (h : l.map AccountRow.erased = l'.map AccountRow.erased) :
    (Site.toAccountResponses l).Twin Config.Agree (SameOutcome (· = ·)) (Site.toAccountResponses l') := by
  induction l generalizing l' with
  | nil =>
    obtain rfl := List.map_eq_nil_iff.1 h.symm
    exact .pure (.ok rfl)
  | cons a l ih =>
  cases l' with
  | nil => cases h
  | cons a' l' =>
  obtain ⟨ha, hl⟩ := List.cons_eq_cons.1 h
  refine .bindOk (toAccountResponse_twin ha) (fun e => .pure (.error e)) ?_
  rintro resp _ rfl
  refine .bindOk (ih hl) (fun e => .pure (.error e)) ?_
  rintro others _ rfl
  exact .pure (.ok rfl)

theorem applyAccountLinks_twin (accountID : Bytes) {req req' : AccountRequest} (h : req.Alike req') :
    (applyAccountLinks accountID req).Twin Config.Agree (SameOutcome (· = ·))
      (applyAccountLinks accountID req') := by
  have hmail : (applyMailboxes accountID req.mailboxIDs).Twin Config.Agree (SameOutcome (· = ·))
      (applyMailboxes accountID req.mailboxIDs) := by
    cases req.mailboxIDs with
    | none => exact .pure (.ok rfl)
    | some ids => exact statement_commutes Config.erased fun _ db => db.setMailboxes_erased accountID ids
  have hsenders : (applySenders accountID req.allowedSenders).Twin Config.Agree (SameOutcome (· = ·))
      (applySenders accountID req.allowedSenders) := by
    cases req.allowedSenders with
    | none => exact .pure (.ok rfl)
    | some patterns =>
      exact statement_commutes Config.erased fun _ db => db.setAllowedSenders_erased accountID patterns
  rw [h.rest]
  exact .bindOk hmail (fun e => .pure (.error e)) fun _ _ _ => hsenders

namespace AccountRequest.Alike

variable {req req' : AccountRequest} (h : req.Alike req')
include h

theorem validate (n : NetText) (g : GoText) (creating : Bool) :
    validateAccount n g req creating = validateAccount n g req' creating := by
  have hshort : ∀ {a b : Option Bytes}, Concealed AccountPassword a b →
      (a.any fun p => p ≠ [] && p.length < minAccountPasswordLength) =
        (b.any fun p => p ≠ [] && p.length < minAccountPasswordLength) := by
    intro a b hab
    cases hab with
    | same => rfl
    | given hp hp' => simp [Nat.not_lt.2 hp.2, Nat.not_lt.2 hp'.2]
  rw [h.rest]
  simp only [validateAccount, hshort h.password]

theorem newAccount (hash hash' : Bytes) :
    (req.newAccount hash).erased = (req'.newAccount hash').erased := by
  rw [h.rest]
  rfl

theorem apply {a a' : AccountRow} (ha : a.erased = a'.erased) :
    (req.apply a).erased = (req'.apply a').erased := by
  rw [h.rest]
  exact congrArg req.apply ha

end AccountRequest.Alike

namespace Site

variable (x : Ctx)

theorem listAccounts_discreet : Discreet handleListAccounts handleListAccounts := by
  refine .orFail (onConfig_twin AccountRepo.list_twin) ?_
  intro accounts accounts' haccs
  refine .orFail (onConfig_twin (toAccountResponses_twin haccs)) ?_
  rintro items _ rfl
  exact .answer _

theorem getAccount_discreet (id : Bytes) : Discreet (handleGetAccount id) (handleGetAccount id) := by
  refine .orFail (onConfig_twin (AccountRepo.get_twin id)) ?_
  intro a a' ha
  refine .orFail (onConfig_twin (toAccountResponse_twin ha)) ?_
  rintro resp _ rfl
  exact .answer _

theorem hashedPassword_outcome {given given' : Option Bytes} (h : Concealed Hashable given given') :
    SameOutcome (fun d d' => d.2.1 = d'.2.1 ∧ Concealed Hashable (some d.1) (some d'.1))
      (hashedPassword x.passwords given x.draws.random)
      (hashedPassword x.passwords given' x.draws.random) := by
  have htaken : ∀ {text : Bytes}, text ≠ [] →
      passwordFor (some text) x.draws.random = .ok (text, false) := by
    intro text htext
    obtain ⟨c, rest, rfl⟩ := List.exists_cons_of_ne_nil htext
    rfl
  have hpassword : SameOutcome (fun d d' => d.2 = d'.2 ∧ Concealed Hashable (some d.1) (some d'.1))
      (passwordFor given x.draws.random) (passwordFor given' x.draws.random) := by
    cases h with
    | same => exact .of_eq (fun d => ⟨rfl, .same _⟩) rfl
    | given ht ht' =>
      rw [htaken ht.1, htaken ht'.1]
      exact .ok ⟨rfl, .given ht ht'⟩
  refine .bind hpassword ?_
  rintro ⟨password, generated⟩ ⟨password', _⟩ ⟨rfl, hconcealed⟩
  refine .bind (hashPassword_outcome x hconcealed) ?_
  intro hash hash' _
  exact .ok ⟨rfl, hconcealed⟩

theorem withPassword_discreet {given given' : Option Bytes} (h : Concealed Hashable given given')
    {k k' : Bytes → Bool → Bytes → Handler}
    (hk : ∀ password password' generated hash hash',
      Concealed Hashable (some password) (some password') →
        Discreet (k password generated hash) (k' password' generated hash')) :
    Discreet (withPassword x.passwords given x.draws.random k)
      (withPassword x.passwords given' x.draws.random k') := by
  have hdrawn := hashedPassword_outcome x h
  unfold withPassword
  generalize hashedPassword x.passwords given x.draws.random = drawn at hdrawn
  generalize hashedPassword x.passwords given' x.draws.random = drawn' at hdrawn
  cases hdrawn with
  | error e => exact .answer _
  | @ok d d' hsame =>
  obtain ⟨password, generated, hash⟩ := d
  obtain ⟨password', _, hash'⟩ := d'
  obtain ⟨rfl, hconcealed⟩ := hsame
  exact hk password password' generated hash hash' hconcealed

theorem createAccount_discreet (hlower : Lowers x.api.text.toLower)
    {body body' : Decoded AccountRequest} (h : SameOutcome AccountRequest.Alike body body') :
    Discreet (handleCreateAccount x body) (handleCreateAccount x body') := by
  refine .withBody h ?_
  intro req req' hreq
  refine .ifValid (hreq.validate x.api.net x.api.text true) ?_
  refine withPassword_discreet x (hreq.password.mono fun _ hp => hp.1) ?_
  intro password password' generated hash hash' hpassword
  refine .whenStored (S := fun a a' => a.erased = a'.erased)
    (onConfig_twin (AccountRepo.create_twin x.draws.id (hreq.newAccount hash hash'))) ?_
  intro a a' ha
  obtain ⟨stored, rfl⟩ := AccountRow.of_erased ha
  refine .orFail (onConfig_twin (applyAccountLinks_twin a.id hreq)) ?_
  rintro - - -
  refine .audited x ?_ ?_
  · exact auditEntry_password hlower
      { action := "account.create", targetType := "smtp_account"
        targetID := a.id, targetName := a.username }
      [detail "fromPolicy" (.text (fromPolicyText a.fromPolicy))]
      [detail "passwordGenerated" (.flag generated)] hpassword
  refine .orFail (onConfig_twin (toAccountResponse_twin ha)) ?_
  rintro resp _ rfl
  exact .pure rfl

theorem updateAccount_discreet (id : Bytes) {body body' : Decoded AccountRequest}
    (h : SameOutcome AccountRequest.Alike body body') :
    Discreet (handleUpdateAccount x id body) (handleUpdateAccount x id body') := by
  refine .withBody h ?_
  intro req req' hreq
  refine .orFail (onConfig_twin (AccountRepo.get_twin id)) ?_
  intro a a' ha
  have happly := hreq.apply ha
  obtain ⟨stored, rfl⟩ := AccountRow.of_erased ha
  refine .unlessDeclared _ _ ?_
  refine .ifValid (hreq.validate x.api.net x.api.text false) ?_
  refine .whenStored (S := fun a a' => a.erased = a'.erased)
    (onConfig_twin (AccountRepo.update_twin happly)) ?_
  intro a a' ha
  obtain ⟨stored, rfl⟩ := AccountRow.of_erased ha
  refine .orFail (onConfig_twin (applyAccountLinks_twin a.id hreq)) ?_
  rintro - - -
  refine .audited x ?_ ?_
  · rw [hreq.rest]
    rfl
  refine .orFail (onConfig_twin (toAccountResponse_twin ha)) ?_
  rintro resp _ rfl
  exact .answer _

theorem deleteAccount_discreet (id : Bytes) :
    Discreet (handleDeleteAccount x id) (handleDeleteAccount x id) := by
  refine .orFail (onConfig_twin (AccountRepo.get_twin id)) ?_
  intro a a' ha
  obtain ⟨stored, rfl⟩ := AccountRow.of_erased ha
  refine .unlessDeclared _ _ ?_
  refine .orFail (deleting_twin .accountDelete _ fun db => db.deleteAccount_erased a.id) ?_
  rintro - - -
  refine .audited x rfl ?_
  exact .answer _

theorem resetAccountPassword_discreet (id : Bytes) {body body' : Decoded (Option Bytes)}
    (h : SameOutcome (Concealed Hashable) body body') :
    Discreet (handleResetAccountPassword x id body) (handleResetAccountPassword x id body') := by
  refine .withBody h ?_
  intro given given' hgiven
  refine .orFail (onConfig_twin (AccountRepo.get_twin id)) ?_
  intro a a' ha
  obtain ⟨stored, rfl⟩ := AccountRow.of_erased ha
  refine withPassword_discreet x hgiven ?_
  intro password password' generated hash hash' _
  have hset : { a with passwordHash := hash }.erased = { a with passwordHash := hash' }.erased := rfl
  refine .whenStored (S := fun a a' => a.erased = a'.erased)
    (onConfig_twin (AccountRepo.update_twin hset)) ?_
  rintro - - -
  refine .audited x rfl ?_
  exact .pure rfl

end Site

end SmtpProxy.Adminapi
