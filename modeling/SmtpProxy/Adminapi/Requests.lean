import SmtpProxy.Adminapi.AccountCourse
import SmtpProxy.Adminapi.Credentials
import SmtpProxy.Adminapi.Mailboxes

/-!
# Requests that change the configuration

The requests of the management interface to credentials, mailboxes and SMTP
accounts, and what becomes of the configuration when they are carried out one after
the other. `ConfigStep` lists everything a request can do to the configuration, with
what its handler has checked before; a statement about every sequence of requests is
one about each of its cases (`serveConfig_step`).
-/

namespace SmtpProxy.Adminapi

open Lib Policy Store

structure ConfigServer extends Server where
  text : GoText
  keyring : Option Keyring

/-- A server with the least keyring there is: what it seals, it leaves as it is. -/
def plainConfigServer : ConfigServer where
  toServer := plainServer {}
  text := bareText
  keyring := some { encryptString := fun text _ => .ok text, decryptString := fun text _ => .ok text }

inductive ConfigRequest where
  | createCredential (newID : Bytes) (body : Decoded CredentialRequest)
  | updateCredential (id : Bytes) (body : Decoded CredentialRequest)
  | deleteCredential (id : Bytes)
  | createMailbox (newID : Bytes) (body : Decoded MailboxRequest)
  | updateMailbox (id : Bytes) (body : Decoded MailboxRequest)
  | deleteMailbox (id : Bytes)
  | createAccount (draw : AccountDraw) (body : Decoded AccountRequest)
  | updateAccount (id : Bytes) (body : Decoded AccountRequest)
  | deleteAccount (id : Bytes)
  | resetAccountPassword (random : Except Err Entropy) (id : Bytes) (body : Decoded (Option Bytes))

variable (srv : ConfigServer)

/-- The handler of a request, and whether it carries the request out. -/
def ConfigRequest.program : ConfigRequest → ConfigProg Bool
  | .createCredential newID body =>
    Response.succeeded <$> handleCreateCredential srv.keyring newID body
  | .updateCredential id body => Response.succeeded <$> handleUpdateCredential srv.keyring id body
  | .deleteCredential id => Response.succeeded <$> handleDeleteCredential id
  | .createMailbox newID body => Response.succeeded <$> handleCreateMailbox srv.text newID body
  | .updateMailbox id body => Response.succeeded <$> handleUpdateMailbox srv.text id body
  | .deleteMailbox id => Response.succeeded <$> handleDeleteMailbox id
  | .createAccount draw body =>
    Response.succeeded <$> handleCreateAccount srv.toServer srv.text draw body
  | .updateAccount id body =>
    Response.succeeded <$> handleUpdateAccount srv.toServer srv.text id body
  | .deleteAccount id => Response.succeeded <$> handleDeleteAccount id
  | .resetAccountPassword random id body =>
    Response.succeeded <$> handleResetAccountPassword srv.toServer random id body

/-- A request, and what the environment decides for each of its statements. -/
structure ConfigCall where
  request : ConfigRequest
  env : ConfigOp → Fate := fun _ => {}

def serveConfig (db : Config) (call : ConfigCall) : Option Config :=
  some ((call.request.program srv).run call.env db).2

/-! ## Everything a request can do -/

/-- What the configuration may become by a request. A request that fails on its way may
have written the row of an account, but not its links or its allowed senders. -/
inductive ConfigStep (db : Config) : ConfigRequest → Config → Prop where
  | nothing {request : ConfigRequest} : ConfigStep db request db
  | createdCredential {newID : Bytes} {body : Decoded CredentialRequest} {req : CredentialRequest}
      {c : CredentialRow} {credentials : Table Bytes CredentialRow fun c => c.id} {now : Int}
      (hbody : body = .ok req) (hvalid : validateCredential req true = [])
      (hsealed : sealCredential srv.keyring (req.newCredential newID) req = .ok c)
      (hinsert : db.credentials.insert (c.created newID now) = some credentials) :
      ConfigStep db (.createCredential newID body) { db with credentials }
  | updatedCredential {id : Bytes} {body : Decoded CredentialRequest} {req : CredentialRequest}
      {c c' : CredentialRow} {now : Int} (hbody : body = .ok req)
      (hget : db.credentials.get id = some c) (hmanaged : c.managedBy ≠ .bootstrap)
      (hvalid : validateCredential req false = [])
      (hsealed : sealCredential srv.keyring (req.apply c) req = .ok c') :
      ConfigStep db (.updateCredential id body) (db.writeCredential now c')
  | deletedCredential {id : Bytes} {c : CredentialRow} (hget : db.credentials.get id = some c)
      (hmanaged : c.managedBy ≠ .bootstrap) :
      ConfigStep db (.deleteCredential id)
        { db with credentials := db.credentials.deleteWhere fun c => c.id = id }
  | createdMailbox {newID : Bytes} {body : Decoded MailboxRequest} {req : MailboxRequest}
      {mailboxes : Table Bytes MailboxRow fun m => m.id} {now : Int} (hbody : body = .ok req)
      (hvalid : validateMailbox srv.text req true = [])
      (hinsert : db.mailboxes.insert ((req.newMailbox srv.text).created newID now) = some mailboxes) :
      ConfigStep db (.createMailbox newID body) { db with mailboxes }
  | updatedMailbox {id : Bytes} {body : Decoded MailboxRequest} {req : MailboxRequest}
      {m : MailboxRow} {now : Int} (hbody : body = .ok req) (hget : db.mailboxes.get id = some m)
      (hmanaged : m.managedBy ≠ .bootstrap) (hvalid : validateMailbox srv.text req false = []) :
      ConfigStep db (.updateMailbox id body) (db.writeMailbox now (req.apply srv.text m))
  | deletedMailbox {id : Bytes} {m : MailboxRow} (hget : db.mailboxes.get id = some m)
      (hmanaged : m.managedBy ≠ .bootstrap) :
      ConfigStep db (.deleteMailbox id) (db.dropMailbox id)
  | createdAccount {draw : AccountDraw} {body : Decoded AccountRequest} {req : AccountRequest}
      {password hash : Bytes} {generated : Bool} {accounts : Table Bytes AccountRow fun a => a.id}
      {links : List (Bytes × Bytes)} {senders : List AllowedSender} {now : Int}
      (hbody : body = .ok req) (hvalid : validateAccount srv.net srv.text req true = [])
      (hhashed : hashedPassword srv.passwords req.password draw.random =
        .ok (password, generated, hash))
      (hinsert : db.accounts.insert ((req.newAccount hash).created draw.id now) = some accounts)
      (hlinks : links = db.links ∨ links = linksAfter db draw.id req.mailboxIDs)
      (hsenders : senders = db.senders ∨ senders = sendersAfter db draw.id req.allowedSenders) :
      ConfigStep db (.createAccount draw body) { db with accounts, links, senders }
  | updatedAccount {id : Bytes} {body : Decoded AccountRequest} {req : AccountRequest}
      {a : AccountRow} {links : List (Bytes × Bytes)} {senders : List AllowedSender} {now : Int}
      (hbody : body = .ok req) (hget : db.accounts.get id = some a) (hmanaged : a.managedBy = .ui)
      (hvalid : validateAccount srv.net srv.text req false = [])
      (hlinks : links = db.links ∨ links = linksAfter db id req.mailboxIDs)
      (hsenders : senders = db.senders ∨ senders = sendersAfter db id req.allowedSenders) :
      ConfigStep db (.updateAccount id body)
        { db.writeAccount now (req.apply a) with links, senders }
  | deletedAccount {id : Bytes} {a : AccountRow} (hget : db.accounts.get id = some a)
      (hmanaged : a.managedBy ≠ .bootstrap) :
      ConfigStep db (.deleteAccount id) (db.dropAccount id)
  | resetPassword {random : Except Err Entropy} {id : Bytes} {body : Decoded (Option Bytes)}
      {given : Option Bytes} {password hash : Bytes} {generated : Bool} {a : AccountRow} {now : Int}
      (hbody : body = .ok given) (hget : db.accounts.get id = some a)
      (hhashed : hashedPassword srv.passwords given random = .ok (password, generated, hash)) :
      ConfigStep db (.resetAccountPassword random id body)
        (db.writeAccount now { a with passwordHash := hash })

section

variable {srv} {env : ConfigOp → Fate} {db : Config}

/-! ### Rules for the parts of a handler -/

section

-- what may have become of the configuration; a handler that gives up leaves it as it was
variable {α β ρ : Type} {P : Config → Prop} {op : ConfigOp} (h : P db)

include h

theorem withBody_run {body : Decoded α} {k : α → ConfigProg (Response β)}
    (hk : ∀ req, body = .ok req → P ((k req).run env db).2) :
    P ((withBody body k).run env db).2 := by
  cases body with
  | error why => exact h
  | ok req => exact hk req rfl

theorem ifValid_run {fields : List (Bytes × Bytes)} {k : ConfigProg (Response β)}
    (hk : fields = [] → P (k.run env db).2) : P ((ifValid fields k).run env db).2 := by
  cases fields with
  | nil => exact hk rfl
  | cons field fields => exact h

theorem unlessDeclared_run {managedBy : ManagedBy} {message : String}
    {k : ConfigProg (Response β)} (hk : managedBy ≠ .bootstrap → P (k.run env db).2) :
    P ((unlessDeclared managedBy message k).run env db).2 := by
  unfold unlessDeclared
  split
  · exact h
  · next hmanaged => exact hk hmanaged

theorem whenSealed_run {sealed : Except Err CredentialRow}
    {k : CredentialRow → ConfigProg (Response β)}
    (hk : ∀ c, sealed = .ok c → P ((k c).run env db).2) :
    P ((whenSealed sealed k).run env db).2 := by
  cases sealed with
  | error e => exact h
  | ok c => exact hk c rfl

theorem whenFound_run {g : Config → Except Err ρ} {k : ρ → ConfigProg (Response β)} {missing : Err}
    (row : Option ρ) (hg : g db = row.elim (.error missing) .ok)
    (hk : ∀ r, row = some r → P ((k r).run env db).2) :
    P ((orFail (query op g) k).run env db).2 := by
  rw [orFail, Prog.run_bind]
  obtain ⟨e, he⟩ | he := query_run op g env db
  · rw [he]
    exact h
  rw [he, hg]
  cases row with
  | none => exact h
  | some r => exact hk r rfl

theorem whenStored_run {stamp : Int → ρ} {write : Int → Config → Except Err Unit × Config}
    {k : ρ → ConfigProg (Response β)}
    (hfailed : ∀ now, (write now db).1 ≠ .ok () → (write now db).2 = db)
    (hk : ∀ r t, write (env op).now db = (.ok (), t) → P ((k r).run env t).2) :
    P ((whenStored (stamping op stamp write) k).run env db).2 := by
  rw [whenStored, Prog.run_bind]
  obtain ⟨e, he⟩ | he := stamping_run op stamp write env db
  · rw [he]
    exact h
  rw [he]
  obtain ⟨e, hw⟩ | ⟨t, hw⟩ := write_cases hfailed (env op).now
  · rw [hw]
    exact h
  rw [hw]
  exact hk _ t hw

theorem deleteObject_run {g : Config → Except Err ρ} {managedBy : ρ → ManagedBy} {message : String}
    {op' : ConfigOp} {delete : ρ → Config → Except Err Unit × Config} {answer : ρ → Response β}
    {missing : Err} (row : Option ρ) (hg : g db = row.elim (.error missing) .ok)
    (hdelete : ∀ r, row = some r → managedBy r ≠ .bootstrap → P (delete r db).2) :
    P ((deleteObject (fun p => p) (query op g) managedBy message
      (fun r => statement op' fun _ => delete r) fun r => pure (answer r)).run env db).2 := by
  refine whenFound_run h row hg fun r hr => unlessDeclared_run h fun hmanaged => ?_
  rw [orFail, Prog.run_bind]
  have hdeleted := hdelete r hr hmanaged
  obtain ⟨e, he⟩ | he := statement_run op' (fun _ => delete r) env db
  · rw [he]
    exact h
  rw [he]
  cases hanswer : (delete r db).1 <;> exact hdeleted

end

/-! ### Each request -/

theorem createCredential_step (newID : Bytes) (body : Decoded CredentialRequest) :
    ConfigStep srv db (.createCredential newID body)
      ((handleCreateCredential srv.keyring newID body).run env db).2 := by
  refine withBody_run .nothing fun req hbody => ifValid_run .nothing fun hvalid => ?_
  refine whenSealed_run .nothing fun c hsealed => ?_
  refine whenStored_run .nothing (fun _ => by unfold Config.insertCredential; split <;> simp) ?_
  intro row t hstored
  obtain ⟨credentials, rfl, hinsert, -⟩ := Config.insertCredential_ok hstored
  exact .createdCredential hbody hvalid hsealed hinsert

theorem updateCredential_step (id : Bytes) (body : Decoded CredentialRequest) :
    ConfigStep srv db (.updateCredential id body)
      ((handleUpdateCredential srv.keyring id body).run env db).2 := by
  refine withBody_run .nothing fun req hbody => ?_
  refine whenFound_run .nothing (db.credentials.get id)
    (by cases db.credentials.get id <;> rfl) fun c hget => ?_
  refine unlessDeclared_run .nothing fun hmanaged => ifValid_run .nothing fun hvalid => ?_
  refine whenSealed_run .nothing fun c' hsealed => ?_
  refine whenStored_run .nothing (fun _ => by unfold Config.updateCredential; split <;> simp) ?_
  intro row t hstored
  obtain ⟨rfl, -⟩ := Config.updateCredential_ok hstored
  -- for the answer, the mailboxes are only counted
  rw [Prog.run_bind, Prog.run_pure, Prog.run_of_keeps (countMailboxes_reads row.id)]
  exact .updatedCredential hbody hget hmanaged hvalid hsealed

theorem deleteCredential_step (id : Bytes) :
    ConfigStep srv db (.deleteCredential id) ((handleDeleteCredential id).run env db).2 := by
  refine deleteObject_run .nothing (db.credentials.get id)
    (by cases db.credentials.get id <;> rfl) fun c hget hmanaged => ?_
  obtain ⟨e, hd⟩ | hd := db.deleteCredential_cases id
  · rw [hd]
    exact .nothing
  rw [hd]
  exact .deletedCredential hget hmanaged

theorem createMailbox_step (newID : Bytes) (body : Decoded MailboxRequest) :
    ConfigStep srv db (.createMailbox newID body)
      ((handleCreateMailbox srv.text newID body).run env db).2 := by
  refine withBody_run .nothing fun req hbody => ifValid_run .nothing fun hvalid => ?_
  refine whenStored_run .nothing (fun _ => by unfold Config.insertMailbox; split <;> simp) ?_
  intro row t hstored
  obtain ⟨mailboxes, rfl, hinsert, -⟩ := Config.insertMailbox_ok hstored
  rw [Prog.run_of_keeps (finishMailbox_reads 201 row)]
  exact .createdMailbox hbody hvalid hinsert

theorem updateMailbox_step (id : Bytes) (body : Decoded MailboxRequest) :
    ConfigStep srv db (.updateMailbox id body)
      ((handleUpdateMailbox srv.text id body).run env db).2 := by
  refine withBody_run .nothing fun req hbody => ?_
  refine whenFound_run .nothing (db.mailboxes.get id)
    (by cases db.mailboxes.get id <;> rfl) fun m hget => ?_
  refine unlessDeclared_run .nothing fun hmanaged => ifValid_run .nothing fun hvalid => ?_
  refine whenStored_run .nothing (fun _ => by unfold Config.updateMailbox; split <;> simp) ?_
  intro row t hstored
  obtain ⟨rfl, -⟩ := Config.updateMailbox_ok hstored
  rw [Prog.run_of_keeps (finishMailbox_reads 200 row)]
  exact .updatedMailbox hbody hget hmanaged hvalid

theorem deleteMailbox_step (id : Bytes) :
    ConfigStep srv db (.deleteMailbox id) ((handleDeleteMailbox id).run env db).2 := by
  refine deleteObject_run .nothing (db.mailboxes.get id)
    (by cases db.mailboxes.get id <;> rfl) fun m hget hmanaged => ?_
  obtain rfl := Table.key_of_get hget
  obtain ⟨e, hd⟩ | hd := db.deleteMailbox_cases m.id
  · rw [hd]
    exact .nothing
  rw [hd]
  exact .deletedMailbox hget hmanaged

theorem afterRow {db : Config} {id : Bytes} {req : AccountRequest} {links : List (Bytes × Bytes)}
    {senders : List AllowedSender}
    (hlinks : links =
      if mailboxesApply env db req then linksAfter db id req.mailboxIDs else db.links)
    (hsenders : senders = if mailboxesApply env db req ∧ sendersApply env req then
      sendersAfter db id req.allowedSenders else db.senders) :
    (links = db.links ∨ links = linksAfter db id req.mailboxIDs) ∧
      (senders = db.senders ∨ senders = sendersAfter db id req.allowedSenders) := by
  rw [hlinks, hsenders]
  constructor
  · split
    · exact .inr rfl
    · exact .inl rfl
  split
  · exact .inr rfl
  · exact .inl rfl

theorem createAccount_step (draw : AccountDraw) (body : Decoded AccountRequest) :
    ConfigStep srv db (.createAccount draw body)
      ((handleCreateAccount srv.toServer srv.text draw body).run env db).2 := by
  obtain ⟨-, resp, -, hrun⟩ |
    ⟨req, password, _, hash, row, accounts, answer, hcreates, hhashed, hrow, hinsert, hanswer, hrun⟩ :=
    create_course draw body
  · rw [hrun]
    exact .nothing
  have hthere : (({ db with accounts } : Config).accounts.get row.id).isSome := by
    have hget := Table.get_insert hinsert row.id
    rw [if_pos rfl] at hget
    exact hget ▸ rfl
  obtain ⟨resp, links, senders, hfinish, -, hlinks, hsenders⟩ := finishAccount_run hanswer hthere
  rw [hrun, hfinish]
  obtain ⟨hl, hs⟩ := afterRow hlinks hsenders
  have hid : row.id = draw.id := by
    rw [hrow]
    rfl
  rw [hid] at hl hs
  rw [hrow] at hinsert
  exact .createdAccount hcreates.body hcreates.valid hhashed hinsert hl hs

theorem updateAccount_step (id : Bytes) (body : Decoded AccountRequest) :
    ConfigStep srv db (.updateAccount id body)
      ((handleUpdateAccount srv.toServer srv.text id body).run env db).2 := by
  obtain ⟨-, resp, -, hrun⟩ | ⟨req, a, row, answer, hupdates, hid, hanswer, hrun⟩ :=
    update_course id body
  · rw [hrun]
    exact .nothing
  have hget := db.get_writeAccount (env .accountUpdate).now (req.apply a) id
  rw [hupdates.found, Option.map_some] at hget
  have hthere : ((db.writeAccount (env .accountUpdate).now (req.apply a)).accounts.get
      row.id).isSome := by
    rw [hid]
    exact hget ▸ rfl
  obtain ⟨resp, links, senders, hfinish, -, hlinks, hsenders⟩ := finishAccount_run hanswer hthere
  rw [hrun, hfinish]
  rw [hid] at hlinks hsenders
  obtain ⟨hl, hs⟩ := afterRow hlinks hsenders
  exact .updatedAccount hupdates.body hupdates.found hupdates.managed hupdates.valid hl hs

theorem deleteAccount_step (id : Bytes) :
    ConfigStep srv db (.deleteAccount id) ((handleDeleteAccount id).run env db).2 := by
  refine deleteObject_run .nothing (db.accounts.get id)
    (by cases db.accounts.get id <;> rfl) fun a hget hmanaged => ?_
  obtain rfl := Table.key_of_get hget
  obtain ⟨e, hd⟩ | hd := db.deleteAccount_cases a.id
  · rw [hd]
    exact .nothing
  rw [hd]
  exact .deletedAccount hget hmanaged

theorem resetAccountPassword_step (random : Except Err Entropy) (id : Bytes)
    (body : Decoded (Option Bytes)) :
    ConfigStep srv db (.resetAccountPassword random id body)
      ((handleResetAccountPassword srv.toServer random id body).run env db).2 := by
  refine withBody_run .nothing fun given hbody => ?_
  refine whenFound_run .nothing (db.accounts.get id)
    (by cases db.accounts.get id <;> rfl) fun a hget => ?_
  unfold withPassword
  split
  · exact .nothing
  next password generated hash hhashed =>
  refine whenStored_run .nothing (fun _ => by unfold Config.updateAccount; split <;> simp) ?_
  intro row t hstored
  obtain ⟨rfl, -⟩ := Config.updateAccount_ok hstored
  exact .resetPassword hbody hget hhashed

/-- **A request does one of the things listed.** -/
theorem serveConfig_step {call : ConfigCall} {db' : Config} (h : serveConfig srv db call = some db') :
    ConfigStep srv db call.request db' := by
  cases h
  cases hrequest : call.request <;> rw [ConfigRequest.program, Prog.run_map]
  case createCredential newID body => exact createCredential_step newID body
  case updateCredential id body => exact updateCredential_step id body
  case deleteCredential id => exact deleteCredential_step id
  case createMailbox newID body => exact createMailbox_step newID body
  case updateMailbox id body => exact updateMailbox_step id body
  case deleteMailbox id => exact deleteMailbox_step id
  case createAccount draw body => exact createAccount_step draw body
  case updateAccount id body => exact updateAccount_step id body
  case deleteAccount id => exact deleteAccount_step id
  case resetAccountPassword random id body => exact resetAccountPassword_step random id body

end

end SmtpProxy.Adminapi
