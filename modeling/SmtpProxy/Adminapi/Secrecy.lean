import SmtpProxy.Adminapi.DiscreetConfig

/-!
# Secrets do not come out

Two runs of the management interface, on stores that agree except in their secrets and with
requests that agree except in the secrets they supply: the same sessions are found, the same
checks pass, and each handler is `Discreet`, so the answers are the same, but for a password
that is given out, and so is the audit log (`secrets_stay_in`).
-/

namespace SmtpProxy.Adminapi

open Lib Store Policy Adminauth

/-! ## Users -/

theorem toUserResponse_erased (u : AdminUser) : toUserResponse u.erased = toUserResponse u := by
  have hmark : (nullString (mark (u.passwordHash.getD []))).getD [] ≠ [] ↔
      u.passwordHash.getD [] ≠ [] := by
    rw [nullString_getD, ne_eq, mark_eq_nil]
  simp only [toUserResponse, AdminUser.erased, hmark]

theorem toUserResponse_congr {u u' : AdminUser} (h : u.erased = u'.erased) :
    toUserResponse u = toUserResponse u' := by
  rw [← toUserResponse_erased u, h, toUserResponse_erased]

theorem toUserResponses_congr {l l' : List AdminUser}
    (h : l.map AdminUser.erased = l'.map AdminUser.erased) :
    l.map toUserResponse = l'.map toUserResponse := by
  have hmap : ∀ l : List AdminUser, (l.map AdminUser.erased).map toUserResponse = l.map toUserResponse := by
    intro l
    rw [List.map_map]
    exact List.map_congr_left fun u _ => toUserResponse_erased u
  rw [← hmap l, h, hmap]

theorem requireAnotherAdmin_twin (excludingID : Bytes) :
    (requireAnotherAdmin excludingID).Twin AdminDB.Agree (· = ·) (requireAnotherAdmin excludingID) := by
  refine .bindOk UserRepo.list_twin (fun e => .pure rfl) ?_
  intro users users' h
  have hany : ∀ l : List AdminUser, l.any (isOtherAdmin excludingID) =
      (l.map AdminUser.erased).any (isOtherAdmin excludingID) := by
    intro l
    rw [List.any_map]
    rfl
  dsimp only
  rw [hany users, h, ← hany users']
  split <;> exact .pure rfl

theorem endSessions_twin (needed : Bool) (id : Bytes) :
    (endSessions needed id).Twin AdminDB.Agree (fun _ _ => True) (endSessions needed id) := by
  unfold endSessions
  split
  · exact .bind (SessionRepo.deleteForUser_twin id) fun _ _ _ => .pure trivial
  · exact .pure trivial

theorem setPassword_twin (x : Ctx) {u u' : AdminUser} (hu : u.erased = u'.erased)
    {password password' : Bytes} (h : Concealed Hashable (some password) (some password')) :
    (setPassword x.passwords u password).Twin AdminDB.Agree (SameOutcome (· = ·))
      (setPassword x.passwords u' password') := by
  have hhash := hashPassword_outcome x h
  unfold setPassword
  revert hhash
  generalize x.passwords.hashPassword password = hashed
  generalize x.passwords.hashPassword password' = hashed'
  intro hhash
  cases hhash with
  | error e => exact .pure (.error _)
  | @ok hash hash' hmark =>
  have hset : { u with passwordHash := nullString hash }.erased =
      { u' with passwordHash := nullString hash' }.erased := by
    obtain ⟨stored, rfl⟩ := AdminUser.of_erased hu
    simp only [AdminUser.erased, nullString_getD, hmark]
  refine .bind (UserRepo.update_twin hset) ?_
  rintro ⟨user, updated⟩ ⟨user', updated'⟩ ⟨huser, hupdated⟩
  cases hupdated with
  | error e => exact .pure (.error _)
  | ok _ =>
  obtain ⟨stored, rfl⟩ := AdminUser.of_erased huser
  refine .bind (SessionRepo.deleteForUser_twin user.id) ?_
  intro deleted deleted' hdeleted
  exact .pure (hdeleted.mapError _)

theorem UpdateUserRequest.apply_erased (req : UpdateUserRequest) (u : AdminUser) :
    (req.apply u).map AdminUser.erased = req.apply u.erased := by
  unfold UpdateUserRequest.apply
  cases req.role with
  | none => rfl
  | some text =>
  dsimp only
  rw [Option.map_map]
  rfl

namespace CreateUserRequest.Alike

variable {req req' : CreateUserRequest} (h : req.Alike req')
include h

theorem hashable : Concealed Hashable (some req.password) (some req'.password) :=
  h.password.mono fun _ hp => hp.1

theorem fields : req.fields = req'.fields := by
  have hshort : ∀ {p p' : Bytes}, Concealed UserPassword (some p) (some p') →
      userPasswordField p = userPasswordField p' := by
    intro p p' hpp
    cases hpp with
    | same => rfl
    | given hp hp' => simp [userPasswordField, Nat.not_lt.2 hp.2, Nat.not_lt.2 hp'.2]
  unfold CreateUserRequest.fields
  rw [hshort h.password, h.rest]

theorem newUser (role : Role) {hash hash' : Bytes} (hhash : mark hash = mark hash') :
    (req.newUser role hash).erased = (req'.newUser role hash').erased := by
  rw [h.rest]
  simp only [CreateUserRequest.newUser, AdminUser.erased, nullString_getD, hhash]

end CreateUserRequest.Alike

namespace Site

variable (x : Ctx)

theorem listUsers_discreet : Discreet handleListUsers handleListUsers := by
  refine .orFail (onAdmin_twin UserRepo.list_twin) ?_
  intro users users' husers
  rw [toUserResponses_congr husers]
  exact .answer _

theorem getUser_discreet (id : Bytes) : Discreet (handleGetUser id) (handleGetUser id) := by
  refine .orFail (onAdmin_twin (UserRepo.get_twin id)) ?_
  intro u u' hu
  rw [toUserResponse_congr hu]
  exact .answer _

theorem createUser_discreet (hlower : Lowers x.api.text.toLower)
    {body body' : Decoded CreateUserRequest} (h : SameOutcome CreateUserRequest.Alike body body') :
    Discreet (handleCreateUser x body) (handleCreateUser x body') := by
  refine .withBody h ?_
  intro req req' hreq
  have hrole : req'.role = req.role := by rw [hreq.rest]
  rw [hrole, hreq.fields]
  cases parseRole req.role with
  | none => exact .answer _
  | some role =>
  refine .ifValid rfl ?_
  refine .orFail (.pure (hashPassword_outcome x hreq.hashable)) ?_
  intro hash hash' hhash
  refine .whenStored (S := fun u u' => u.erased = u'.erased)
    (onAdmin_twin (UserRepo.create_twin x.draws.id (hreq.newUser role hhash))) ?_
  intro u u' hu
  rw [toUserResponse_congr hu]
  obtain ⟨stored, rfl⟩ := AdminUser.of_erased hu
  refine .audited x ?_ (.answer _)
  exact auditEntry_password hlower
    { action := "user.create", targetType := "user", targetID := u.id, targetName := u.username }
    [] [detail "role" (.text (roleText role))] hreq.hashable

theorem unlessLast_discreet (needed : Bool) (id : Bytes) {k k' : Handler} (hk : Discreet k k') :
    Discreet (unlessLast onAdmin needed id k) (unlessLast onAdmin needed id k') := by
  unfold unlessLast
  split
  · refine .bind (onAdmin_twin (requireAnotherAdmin_twin id)) ?_
    rintro checked _ rfl
    cases checked with
    | error why => exact .answer _
    | ok _ => exact hk
  · exact hk

theorem updateUser_discreet (id : Bytes) (body : Decoded UpdateUserRequest) :
    Discreet (handleUpdateUser x id body) (handleUpdateUser x id body) := by
  refine .withBody (.refl _) ?_
  rintro req _ rfl
  refine .orFail (onAdmin_twin (UserRepo.get_twin id)) ?_
  intro u u' hu
  have happly : (req.apply u).map AdminUser.erased = (req.apply u').map AdminUser.erased := by
    rw [req.apply_erased, req.apply_erased, hu]
  obtain ⟨hnone, hnone'⟩ | ⟨v, v', hv, hv', hvv⟩ := found_cases happly
  · rw [hnone, hnone']
    exact .answer _
  rw [hv, hv']
  obtain ⟨stored, rfl⟩ := AdminUser.of_erased hu
  have htwin := onAdmin_twin (UserRepo.update_twin hvv)
  obtain ⟨stored', rfl⟩ := AdminUser.of_erased hvv
  refine unlessLast_discreet (losingAdmin v u.role) v.id ?_
  refine .whenStored (S := fun u u' => u.erased = u'.erased) htwin ?_
  intro w w' hw
  dsimp only
  rw [toUserResponse_congr hw]
  obtain ⟨stored', rfl⟩ := AdminUser.of_erased hw
  refine .bind (onAdmin_twin (endSessions_twin _ w.id)) ?_
  rintro - - -
  refine .audited x rfl ?_
  exact .answer _

theorem deleteUser_discreet (id : Bytes) :
    Discreet (handleDeleteUser x id) (handleDeleteUser x id) := by
  refine .orFail (onAdmin_twin (UserRepo.get_twin id)) ?_
  intro u u' hu
  obtain ⟨stored, rfl⟩ := AdminUser.of_erased hu
  dsimp only
  split
  · exact .answer _
  refine unlessLast_discreet _ u.id ?_
  refine .orFail (onAdmin_twin (UserRepo.delete_twin id)) ?_
  rintro - - -
  refine .audited x rfl ?_
  exact .answer _

theorem setUserPassword_discreet (id : Bytes) {body body' : Decoded Bytes}
    (h : SameOutcome (fun p p' => Concealed UserPassword (some p) (some p')) body body') :
    Discreet (handleSetUserPassword x id body) (handleSetUserPassword x id body') := by
  unfold handleSetUserPassword setUserPassword
  split
  · exact .answer _
  refine .withBody h ?_
  intro password password' hpassword
  refine .ifValid ?_ ?_
  · cases hpassword with
    | same => rfl
    | given hp hp' => simp [userPasswordField, Nat.not_lt.2 hp.2, Nat.not_lt.2 hp'.2]
  refine .orFail (onAdmin_twin (UserRepo.get_twin id)) ?_
  intro u u' hu
  have hset := setPassword_twin x hu (hpassword.mono fun _ hp => hp.1)
  obtain ⟨stored, rfl⟩ := AdminUser.of_erased hu
  dsimp only
  split
  · exact .answer _
  refine .orFail (onAdmin_twin hset) ?_
  rintro - - -
  refine .audited x rfl ?_
  exact .answer _

end Site

/-! ## Messages and the audit log -/

theorem getMessage_twin (id : Bytes) :
    (getMessage id).Twin DiagnosticsDB.Agree (SameOutcome (· = ·)) (getMessage id) := by
  apply plainQuery_twin
  intro s t hst
  rw [hst.queue]

theorem queueStatement_twin (act : DB → Int → Except Err Unit × DB) :
    (queueStatement act).Twin DiagnosticsDB.Agree (SameOutcome (· = ·)) (queueStatement act) := by
  apply statement_twin
  intro now s t hst
  dsimp only
  rw [hst.queue, hst.requests]
  refine ⟨.refl _, ?_⟩
  exact congrArg (fun db : DiagnosticsDB =>
    { db with
      queue := (act t.queue now).2
      requests := forget (removedBy t.queue (act t.queue now).2) t.requests }) hst

namespace Site

variable (x : Ctx)

theorem listMessages_discreet (filter : MessageFilter) :
    Discreet (handleListMessages x filter) (handleListMessages x filter) := by
  refine .orFail (plainQuery_twin _ _ fun s t hst => by rw [hst.queue]) ?_
  rintro messages _ rfl
  refine .orFail (plainQuery_twin _ _ fun s t hst => by rw [hst.queue]) ?_
  rintro total _ rfl
  exact .answer _

theorem getMessage_discreet (id : Bytes) : Discreet (handleGetMessage id) (handleGetMessage id) := by
  refine .orFail (getMessage_twin id) ?_
  rintro m _ rfl
  exact .answer _

theorem queueAction_discreet (action : String) (id : Bytes)
    (act : DB → Int → Except Err Unit × DB) :
    Discreet (queueAction x action id act) (queueAction x action id act) := by
  refine .orFail (getMessage_twin id) ?_
  rintro m _ rfl
  refine .orFail (queueStatement_twin act) ?_
  rintro - - -
  refine .audited x rfl ?_
  exact .answer _

theorem listAudit_discreet (filter : AuditFilter) :
    Discreet (handleListAudit x filter) (handleListAudit x filter) := by
  refine .orFail (plainQuery_twin _ _ fun s t hst => by rw [hst.audit]) ?_
  rintro entries _ rfl
  refine .orFail (plainQuery_twin _ _ fun s t hst => by rw [hst.audit]) ?_
  rintro total _ rfl
  exact .answer _

end Site

/-! ## Every request -/

/-- The requests agree, except for secrets that are supplied in both. -/
inductive ApiRequest.Alike : ApiRequest → ApiRequest → Prop where
  | same (r : ApiRequest) : Alike r r
  | createCredential {body body' : Decoded CredentialRequest}
      (h : SameOutcome CredentialRequest.Alike body body') :
      Alike (.createCredential body) (.createCredential body')
  | updateCredential (id : Bytes) {body body' : Decoded CredentialRequest}
      (h : SameOutcome CredentialRequest.Alike body body') :
      Alike (.updateCredential id body) (.updateCredential id body')
  | createAccount {body body' : Decoded AccountRequest} (h : SameOutcome AccountRequest.Alike body body') :
      Alike (.createAccount body) (.createAccount body')
  | updateAccount (id : Bytes) {body body' : Decoded AccountRequest}
      (h : SameOutcome AccountRequest.Alike body body') :
      Alike (.updateAccount id body) (.updateAccount id body')
  | resetAccountPassword (id : Bytes) {body body' : Decoded (Option Bytes)}
      (h : SameOutcome (Concealed Hashable) body body') :
      Alike (.resetAccountPassword id body) (.resetAccountPassword id body')
  | createUser {body body' : Decoded CreateUserRequest}
      (h : SameOutcome CreateUserRequest.Alike body body') :
      Alike (.createUser body) (.createUser body')
  | setUserPassword (id : Bytes) {body body' : Decoded Bytes}
      (h : SameOutcome (fun p p' => Concealed UserPassword (some p) (some p')) body body') :
      Alike (.setUserPassword id body) (.setUserPassword id body')

theorem ApiRequest.Alike.method {r r' : ApiRequest} (h : r.Alike r') : r.method = r'.method := by
  cases h <;> rfl

theorem ApiRequest.Alike.permission {r r' : ApiRequest} (h : r.Alike r') :
    r.permission = r'.permission := by
  cases h <;> rfl

theorem handler_self (x : Ctx) (hlower : Lowers x.api.text.toLower) (r : ApiRequest) :
    Discreet (r.handler x) (r.handler x) := by
  cases r with
  | listCredentials => exact Site.listCredentials_discreet x
  | getCredential id => exact Site.getCredential_discreet x id
  | credentialSetup id => exact Site.credentialSetup_discreet x id
  | createCredential body =>
    exact Site.createCredential_discreet x (.of_eq (fun req => ⟨rfl, .same _, .same _⟩) rfl)
  | updateCredential id body =>
    exact Site.updateCredential_discreet x id (.of_eq (fun req => ⟨rfl, .same _, .same _⟩) rfl)
  | deleteCredential id => exact Site.deleteCredential_discreet x id
  | listMailboxes => exact Site.listMailboxes_discreet
  | getMailbox id => exact Site.getMailbox_discreet id
  | createMailbox body => exact Site.createMailbox_discreet x body
  | updateMailbox id body => exact Site.updateMailbox_discreet x id body
  | deleteMailbox id => exact Site.deleteMailbox_discreet x id
  | mailboxDiagnostics id => exact Site.mailboxDiagnostics_discreet x id
  | sendMailboxTest id body => exact Site.sendMailboxTest_discreet x id body
  | listAccounts => exact Site.listAccounts_discreet
  | getAccount id => exact Site.getAccount_discreet id
  | createAccount body =>
    exact Site.createAccount_discreet x hlower (.of_eq (fun req => ⟨rfl, .same _⟩) rfl)
  | updateAccount id body =>
    exact Site.updateAccount_discreet x id (.of_eq (fun req => ⟨rfl, .same _⟩) rfl)
  | deleteAccount id => exact Site.deleteAccount_discreet x id
  | resetAccountPassword id body =>
    exact Site.resetAccountPassword_discreet x id (.of_eq (fun given => .same given) rfl)
  | listUsers => exact Site.listUsers_discreet
  | createUser body =>
    exact Site.createUser_discreet x hlower (.of_eq (fun req => ⟨rfl, .same _⟩) rfl)
  | getUser id => exact Site.getUser_discreet id
  | updateUser id body => exact Site.updateUser_discreet x id body
  | deleteUser id => exact Site.deleteUser_discreet x id
  | setUserPassword id body =>
    exact Site.setUserPassword_discreet x id (.of_eq (fun _ => .same _) rfl)
  | listMessages filter => exact Site.listMessages_discreet x filter
  | getMessage id => exact Site.getMessage_discreet id
  | retryMessage id => exact Site.queueAction_discreet x _ id _
  | holdMessage id => exact Site.queueAction_discreet x _ id _
  | deleteMessage id => exact Site.queueAction_discreet x _ id _
  | listAudit filter => exact Site.listAudit_discreet x filter

theorem handler_discreet (x : Ctx) (hlower : Lowers x.api.text.toLower) {r r' : ApiRequest}
    (h : r.Alike r') : Discreet (r.handler x) (r'.handler x) := by
  cases h with
  | same => exact handler_self x hlower r
  | createCredential h => exact Site.createCredential_discreet x h
  | updateCredential id h => exact Site.updateCredential_discreet x id h
  | createAccount h => exact Site.createAccount_discreet x hlower h
  | updateAccount id h => exact Site.updateAccount_discreet x id h
  | resetAccountPassword id h => exact Site.resetAccountPassword_discreet x id h
  | createUser h => exact Site.createUser_discreet x hlower h
  | setUserPassword id h => exact Site.setUserPassword_discreet x id h

/-! ## Serving -/

structure Call.Alike (call call' : Call) : Prop where
  rest : call' = { call with request := call'.request }
  request : call.request.Alike call'.request

theorem lookup_twin (hashSessionToken : Bytes → Bytes) (token : Bytes) (idleTimeout : Int) :
    (SessionRepo.lookup hashSessionToken token idleTimeout).Twin AdminDB.Agree
      (SameOutcome fun a b => a.1 = b.1 ∧ a.2.erased = b.2.erased)
      (SessionRepo.lookup hashSessionToken token idleTimeout) := by
  refine .bind (timedQuery_twin
    (S := fun a b : Session × AdminUser => a.1 = b.1 ∧ a.2.erased = b.2.erased) ?_) ?_
  · intro s t hst
    have hfind := (s.findSession_erased (hashSessionToken token)).symm.trans
      ((congrArg (fun db => AdminDB.findSession db (hashSessionToken token)) hst).trans
        (t.findSession_erased (hashSessionToken token)))
    obtain ⟨hs, ht⟩ | ⟨a, b, hs, ht, hab⟩ := found_cases hfind
    · rw [hs, ht]
      exact .error _
    rw [hs, ht]
    exact .ok (Prod.mk.inj hab)
  rintro ⟨now, found⟩ ⟨_, found'⟩ ⟨rfl, h⟩
  cases h with
  | error e => exact .pure (.error e)
  | @ok a b h =>
  obtain ⟨session, u⟩ := a
  obtain ⟨_, u'⟩ := b
  obtain ⟨rfl, hu⟩ := h
  have hoff : u.disabled = u'.disabled := by
    obtain ⟨stored, rfl⟩ := AdminUser.of_erased hu
    rfl
  dsimp only
  rw [hoff]
  split
  · exact .bind (SessionRepo.delete_twin session.id)
      fun _ _ _ => .pure (.error _)
  split
  · exact .bind (SessionRepo.delete_twin session.id)
      fun _ _ _ => .pure (.error _)
  split
  · exact .pure (.error _)
  · exact .pure (.ok ⟨rfl, hu⟩)

theorem resolve_twin (hashSessionToken : Bytes → Bytes) (m : SessionConfig) (token : Bytes) :
    (Adminauth.resolve hashSessionToken m token).Twin AdminDB.Agree
      (SameOutcome fun a b => a.1 = b.1 ∧ a.2.erased = b.2.erased)
      (Adminauth.resolve hashSessionToken m token) := by
  unfold Adminauth.resolve
  split
  · exact .pure (.error _)
  refine .bindOk (lookup_twin hashSessionToken token m.idleTimeout)
    (fun e => .pure (.error _)) ?_
  rintro ⟨session, u⟩ ⟨_, u'⟩ ⟨rfl, hu⟩
  exact .bind (SessionRepo.touch_twin session.id)
    fun _ _ _ => .pure (.ok ⟨rfl, hu⟩)

section

variable {api : Api} (hlower : Lowers api.text.toLower)
include hlower

theorem dispatch_discreet {call call' : Call} (h : call.Alike call') {u u' : AdminUser}
    (hu : u.erased = u'.erased) : Discreet (dispatch api call u) (dispatch api call' u') := by
  obtain ⟨stored, rfl⟩ := AdminUser.of_erased hu
  obtain ⟨hrest, hrequest⟩ := h
  have hpermission := hrequest.permission
  generalize call'.request = request at hrest hrequest hpermission
  subst hrest
  unfold dispatch
  dsimp only
  rw [hpermission]
  split
  · exact handler_discreet _ hlower hrequest
  · exact .answer _

theorem serveHTTP_discreet {call call' : Call} (h : call.Alike call') :
    Discreet (serveHTTP api call) (serveHTTP api call') := by
  have htoken : call'.token = call.token := by rw [h.rest]
  have hcsrf : ∀ session, checkCSRF session call = checkCSRF session call' := by
    intro session
    have hpresented : call'.csrfToken = call.csrfToken := by rw [h.rest]
    unfold checkCSRF
    rw [h.request.method, hpresented]
  unfold serveHTTP
  rw [htoken]
  refine .bindOk (onAdmin_twin (resolve_twin api.hashSessionToken api.sessions call.token))
    (fun e => .pure rfl) ?_
  rintro ⟨session, u⟩ ⟨_, u'⟩ ⟨rfl, hu⟩
  dsimp only
  rw [hcsrf]
  split
  · exact dispatch_discreet hlower h hu
  · exact Discreet.answer _

theorem serveAll_twin {calls calls' : List Call} (h : List.Forall₂ Call.Alike calls calls') :
    (serveAll api calls).Twin DiagnosticsDB.Agree (List.Forall₂ SameAnswer) (serveAll api calls') := by
  induction h with
  | nil => exact .pure .nil
  | cons hcall _ ih =>
  refine .bind (serveHTTP_discreet hlower hcall) ?_
  intro answer answer' hanswer
  refine .bind ih ?_
  intro answers answers' hanswers
  exact .pure (.cons hanswer hanswers)

/-- **Secrets go in and do not come out.** On stores that agree except in their secrets, requests
that agree except in the secrets they supply get the same answers, but for a password that is
given out, and write the same entries to the audit log. -/
theorem secrets_stay_in {calls calls' : List Call} (hcalls : List.Forall₂ Call.Alike calls calls')
    {db db' : DiagnosticsDB} (hdb : db.Agree db') (env : Nat → Fate) :
    List.Forall₂ SameAnswer ((serveAll api calls).course env db).1
        ((serveAll api calls').course env db').1 ∧
      ((serveAll api calls).course env db).2.audit = ((serveAll api calls').course env db').2.audit := by
  obtain ⟨hanswers, hstores⟩ := (serveAll_twin hlower hcalls).course hdb env
  exact ⟨hanswers, hstores.audit⟩

end

/-! ### Two runs -/

/-- A server with one key, whose audit log writes its details out. -/
def keyedApi : Api where
  toServer := plainServer {}
  text := bareText
  marshal details := some (details.flatMap fun field =>
    field.1 ++ match field.2 with
      | .text s => s
      | _ => [])
  sql := ⟨fun _ _ => false, fun _ => []⟩
  aead := Crypto.recordingAead
  keyring := some ⟨[1], ⟨[([1], [7])], by decide⟩⟩
  idKey := fun password salt => password ++ salt
  daysUntil := fun t now => (t - now).tdiv (24 * 3600 * 1000000000)

/-- A store with an administrator who is signed in, and a credential. -/
def keyedSite (hash secret : Bytes) : DiagnosticsDB where
  queue := .empty
  requests := .empty
  audit := .empty
  config := {
    credentials := ⟨[{ id := [3], name := ascii "m365", authType := .secret, clientSecretEnc := secret }],
      by simp⟩
    mailboxes := .empty, accounts := .empty, links := [], senders := [] }
  admin := {
    users := ⟨[{ id := [1], username := ascii "root", role := .admin, passwordHash := some hash }],
      by simp⟩
    sessions := ⟨[{ id := [2], userID := [1], tokenHash := ascii "t", csrfToken := ascii "c",
                    createdAt := 0, expiresAt := 9 }], by simp⟩ }

def rootCall (n : UInt8) (request : ApiRequest) : Call where
  token := ascii "t"
  csrfToken := ascii "c"
  http := { remoteAddr := [] }
  draws := {
    id := [10, n], auditID := [20, n], random := .error (.new [])
    salt := .ok ⟨List.replicate 16 n, by simp [saltLength]⟩
    nonce := fun _ => .ok ⟨List.replicate 12 n, by simp [Crypto.nonceSize]⟩ }
  tx := fun _ => { now := 0 }
  request := request

/-- A new account with this password, another secret for the credential, and a look at the log. -/
def rootCalls (password secret : Bytes) : List Call :=
  [rootCall 1 (.createAccount (.ok { username := ascii "printer", password := some password })),
    rootCall 2 (.updateCredential [3] (.ok { clientSecret := some secret })),
    rootCall 3 (.listAudit {})]

def rootAnswers (password secret : Bytes) (site : DiagnosticsDB) : List (Response Answer) :=
  ((serveAll keyedApi (rootCalls password secret)).course (fun _ => { now := 1 }) site).1

/-- The answers differ, in the password that is given out, and in nothing else. -/
theorem rootCalls_stay_in :
    rootAnswers (ascii "first password") (ascii "s") (keyedSite (ascii "#a") (ascii "x")) ≠
      rootAnswers (ascii "other password") (ascii "longer") (keyedSite (ascii "#b") (ascii "yz")) ∧
    List.Forall₂ SameAnswer
      (rootAnswers (ascii "first password") (ascii "s") (keyedSite (ascii "#a") (ascii "x")))
      (rootAnswers (ascii "other password") (ascii "longer")
        (keyedSite (ascii "#b") (ascii "yz"))) := by
  have hcalls : List.Forall₂ Call.Alike (rootCalls (ascii "first password") (ascii "s"))
      (rootCalls (ascii "other password") (ascii "longer")) := by
    refine .cons ⟨rfl, .createAccount (.ok ⟨rfl, .given ?_ ?_⟩)⟩ (.cons ⟨rfl, .updateCredential [3]
      (.ok ⟨rfl, .given ?_ ?_, .same _⟩)⟩ (.cons ⟨rfl, .same _⟩ .nil))
    · exact ⟨⟨by decide, by decide⟩, by decide⟩
    · exact ⟨⟨by decide, by decide⟩, by decide⟩
    · decide
    · decide
  have hsites : (keyedSite (ascii "#a") (ascii "x")).Agree (keyedSite (ascii "#b") (ascii "yz")) := rfl
  exact ⟨by decide +kernel, (secrets_stay_in bareText_lowers hcalls hsites _).1⟩

end SmtpProxy.Adminapi
