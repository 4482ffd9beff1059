import SmtpProxy.Adminapi.Accounts

/-!
# The course of an account request

What `handleCreateAccount` and `handleUpdateAccount` come to, for every state of the
store and every statement that fails: either nothing is written, or the row is, and
then as much of the links and the allowed senders as nothing stands in the way of.
-/

namespace SmtpProxy.Adminapi

open Lib Policy Store App Option Table

variable (srv : Server) (g : GoText) (env : ConfigOp → Fate) (db : Config)

/-- Nothing stands in the way of the mailbox links. -/
def mailboxesApply (req : AccountRequest) : Bool :=
  match req.mailboxIDs with
  | none => true
  | some ids =>
    (env .accountSetMailboxes).failure.isNone && ids.all fun m => (db.mailboxes.get m).isSome

def sendersApply (req : AccountRequest) : Bool :=
  match req.allowedSenders with
  | none => true
  | some _ => (env .accountSetAllowedSenders).failure.isNone

def answerReads : Bool :=
  (env .mailboxListForAccount).failure.isNone && (env .accountAllowedSenders).failure.isNone

/-- Everything behind the write of the row succeeds: the mailboxes exist, and no
statement fails. -/
def followsUp (req : AccountRequest) : Bool :=
  mailboxesApply env db req && sendersApply env req && answerReads env

/-- The request gets to insert its row. -/
structure Creates (draw : AccountDraw) (body : Decoded AccountRequest) (req : AccountRequest) :
    Prop where
  body : body = .ok req
  valid : validateAccount srv.net g req true = []
  hashed : ∃ drawn, hashedPassword srv.passwords req.password draw.random = .ok drawn
  reached : (env .accountCreate).failure = none
  name : ∀ a ∈ db.accounts.rows, a.username ≠ trimSpace req.username
  key : db.accounts.get draw.id = none
  mailbox : db.hasMailbox (req.defaultMailboxID.bind nullString) = true

/-- The request gets to write its row, over the row `a`. -/
structure Updates (id : Bytes) (body : Decoded AccountRequest) (req : AccountRequest)
    (a : AccountRow) : Prop where
  body : body = .ok req
  read : (env .accountGet).failure = none
  found : db.accounts.get id = some a
  managed : a.managedBy = .ui
  valid : validateAccount srv.net g req false = []
  reached : (env .accountUpdate).failure = none
  name : ∀ r ∈ db.accounts.rows, r.id ≠ id → r.username ≠ (req.apply a).username
  mailbox : db.hasMailbox (req.apply a).defaultMailboxID = true

variable {srv g env db} {id : Bytes} {req : AccountRequest} {a : AccountRow}

/-! ## Links and senders -/

def linksAfter (db : Config) (id : Bytes) : Option (List Bytes) → List (Bytes × Bytes)
  | none => db.links
  | some ids => (db.links.filter fun l => l.1 ≠ id) ++ ids.eraseDups.map fun m => (id, m)

def sendersAfter (db : Config) (id : Bytes) : Option (List Bytes) → List AllowedSender
  | none => db.senders
  | some patterns =>
    (db.senders.filter fun s => s.smtpAccountID ≠ id) ++ patterns.eraseDups.map fun p => ⟨id, p⟩

theorem mem_linksAfter {ids : List Bytes} {m : Bytes} :
    (id, m) ∈ linksAfter db id (some ids) ↔ m ∈ ids := by
  simp [linksAfter]

theorem mem_linksAfter_of_ne {ids : Option (List Bytes)} {other m : Bytes} (h : other ≠ id) :
    (other, m) ∈ linksAfter db id ids ↔ (other, m) ∈ db.links := by
  cases ids with
  | none => rfl
  | some ids => simp [linksAfter, h, Ne.symm h]

theorem mem_sendersAfter {patterns : List Bytes} {p : Bytes} :
    (⟨id, p⟩ : AllowedSender) ∈ sendersAfter db id (some patterns) ↔ p ∈ patterns := by
  simp [sendersAfter]

theorem applyMailboxes_run (env : ConfigOp → Fate) (req : AccountRequest)
    (hrow : (db.accounts.get id).isSome) :
    (mailboxesApply env db req = true ∧ (applyMailboxes id req.mailboxIDs).run env db =
          (.ok (), { db with links := linksAfter db id req.mailboxIDs })) ∨
      mailboxesApply env db req = false ∧
        ∃ e, (applyMailboxes id req.mailboxIDs).run env db = (.error e, db) := by
  unfold mailboxesApply applyMailboxes
  cases req.mailboxIDs with
  | none => exact .inl ⟨rfl, rfl⟩
  | some ids =>
  simp only [AccountRepo.setMailboxes, statement, Prog.run_exec, Fate.answer]
  cases hfate : (env .accountSetMailboxes).failure with
  | some e => exact .inr ⟨rfl, e, rfl⟩
  | none =>
  simp only [isNone_none, Bool.true_and]
  obtain ⟨e, he⟩ | ⟨hall, he⟩ := db.setMailboxes_cases id ids
  · right
    refine ⟨?_, e, he⟩
    -- an error names a mailbox that is not there
    unfold Config.setMailboxes at he
    split at he
    · next m hm =>
      have hmem := List.mem_eraseDups.1 (List.mem_of_find?_eq_some hm)
      have hnot := List.find?_some hm
      simp only [Config.linkable, hrow, Bool.true_and] at hnot
      apply Bool.eq_false_iff.2
      intro hids
      rw [List.all_eq_true] at hids
      rw [hids m hmem] at hnot
      cases hnot
    · cases he
  left
  refine ⟨List.all_eq_true.2 fun m hm => ?_, he⟩
  have hlink := hall m hm
  rw [Config.linkable, hrow, Bool.true_and] at hlink
  exact hlink

theorem applySenders_run (env : ConfigOp → Fate) (req : AccountRequest)
    (hrow : (db.accounts.get id).isSome) :
    (sendersApply env req = true ∧ (applySenders id req.allowedSenders).run env db =
          (.ok (), { db with senders := sendersAfter db id req.allowedSenders })) ∨
      sendersApply env req = false ∧
        ∃ e, (applySenders id req.allowedSenders).run env db = (.error e, db) := by
  unfold sendersApply applySenders
  cases req.allowedSenders with
  | none => exact .inl ⟨rfl, rfl⟩
  | some patterns =>
  simp only [AccountRepo.setAllowedSenders, statement, Prog.run_exec, Fate.answer]
  cases hfate : (env .accountSetAllowedSenders).failure with
  | some e => exact .inr ⟨rfl, e, rfl⟩
  | none =>
  left
  refine ⟨rfl, ?_⟩
  have hnone : (db.accounts.get id).isNone = false := by
    rw [isNone_eq_false_iff]
    exact hrow
  have hfind : patterns.eraseDups.find? (fun _ => (db.accounts.get id).isNone) = none :=
    List.find?_eq_none.2 fun _ _ => by simp [hnone]
  rw [Config.setAllowedSenders, hfind]
  rfl

theorem toAccountResponse_run (env : ConfigOp → Fate) (db : Config) (a : AccountRow) :
    (answerReads env = true ∧ ∃ resp, (toAccountResponse a).run env db = (.ok resp, db)) ∨
      answerReads env = false ∧ ∃ e, (toAccountResponse a).run env db = (.error e, db) := by
  unfold answerReads
  simp only [toAccountResponse, MailboxRepo.listForAccount, AccountRepo.allowedSenders, query,
    statement, Prog.run_bind, Prog.run_exec, Prog.run_pure, Fate.answer]
  cases (env .mailboxListForAccount).failure with
  | some e => exact .inr ⟨rfl, _, rfl⟩
  | none =>
  simp only [Except.mapError, Prog.run_bind, Prog.run_exec, Prog.run_pure, isNone_none,
    Bool.true_and]
  cases (env .accountAllowedSenders).failure with
  | some e => exact .inr ⟨rfl, _, rfl⟩
  | none => exact .inl ⟨rfl, _, rfl⟩

/-- **What comes after the row**: whether it succeeds, and what is written until it does
not. -/
theorem finishAccount_run {answer : AccountResponse → Response AccountPayload}
    (hanswer : ∀ resp, (answer resp).succeeded = true) (hrow : (db.accounts.get a.id).isSome) :
    ∃ resp links senders,
      (finishAccount a req answer).run env db = (resp, { db with links, senders }) ∧
      resp.succeeded = followsUp env db req ∧
      links = (if mailboxesApply env db req then linksAfter db a.id req.mailboxIDs else db.links) ∧
      senders = (if mailboxesApply env db req ∧ sendersApply env req then
        sendersAfter db a.id req.allowedSenders else db.senders) := by
  unfold finishAccount answerAccount applyAccountLinks orFail followsUp
  simp only [Prog.run_bind]
  obtain ⟨hlinks, hrun⟩ | ⟨hlinks, e, hrun⟩ := applyMailboxes_run env req hrow
  · rw [hrun]
    simp only [hlinks, if_true, true_and, Bool.true_and]
    have hrow' : (({ db with links := linksAfter db a.id req.mailboxIDs } : Config).accounts.get
      a.id).isSome := hrow
    obtain ⟨hsenders, hrun⟩ | ⟨hsenders, e, hrun⟩ := applySenders_run env req hrow'
    · rw [hrun]
      simp only [hsenders, Prog.run_bind, if_true, Bool.true_and]
      obtain ⟨hreads, resp, hrun⟩ | ⟨hreads, e, hrun⟩ := toAccountResponse_run env _ a
      · rw [hrun]
        exact ⟨_, _, _, rfl, by rw [hreads]; exact hanswer resp, rfl, rfl⟩
      rw [hrun]
      exact ⟨_, _, _, rfl, by rw [hreads]; exact Response.succeeded_ofStore e, rfl, rfl⟩
    rw [hrun]
    exact ⟨_, _, _, rfl, by simp [hsenders], rfl, by simp [hsenders]⟩
  rw [hrun]
  exact ⟨_, _, _, rfl, by simp [hlinks], by simp [hlinks], by simp [hlinks]⟩

/-! ## The two handlers -/

/-- A request to create an account does not get to its row and changes nothing, or it
inserts the row and goes on from there. -/
theorem create_course (draw : AccountDraw) (body : Decoded AccountRequest) :
    ((∀ req, ¬ Creates srv g env db draw body req) ∧ ∃ resp,
        resp.succeeded = false ∧ (handleCreateAccount srv g draw body).run env db = (resp, db)) ∨
      ∃ req password generated hash row accounts answer, Creates srv g env db draw body req ∧
        hashedPassword srv.passwords req.password draw.random = .ok (password, generated, hash) ∧
        row = (req.newAccount hash).created draw.id (env .accountCreate).now ∧
        db.accounts.insert row = some accounts ∧ (∀ resp, (answer resp).succeeded = true) ∧
        (handleCreateAccount srv g draw body).run env db =
          (finishAccount row req answer).run env { db with accounts } := by
  unfold handleCreateAccount createAccount
  cases body with
  | error why => exact .inl ⟨fun req hreq => absurd hreq.body (by simp), _, rfl, rfl⟩
  | ok req =>
  dsimp only [withBody, ifValid, withPassword, whenStored]
  split
  · next hvalid =>
    cases hhashed : hashedPassword srv.passwords req.password draw.random with
    | error e =>
      refine .inl ⟨?_, _, Response.succeeded_ofStore e, rfl⟩
      intro req' hreq
      obtain rfl := Except.ok.inj hreq.body
      obtain ⟨_, hok⟩ := hreq.hashed
      cases hhashed.symm.trans hok
    | ok found =>
    obtain ⟨password, generated, hash⟩ := found
    simp only [AccountRepo.create, stamping, Prog.run_bind, Prog.run_exec, Fate.answer]
    cases hfate : (env .accountCreate).failure with
    | some e =>
      refine .inl ⟨?_, _, Response.succeeded_ofStore e, rfl⟩
      intro req' hreq
      cases hfate.symm.trans hreq.reached
    | none =>
    simp only [Config.insertAccount]
    cases hinsert : insertRow db.accounts _ _ _ with
    | error e =>
      refine .inl ⟨?_, _, Response.succeeded_ofStore _, rfl⟩
      intro req' hreq
      obtain rfl := Except.ok.inj hreq.body
      obtain ⟨x, hx, hclash⟩ | hkey | hmailbox := insertRow_error hinsert
      · exact hreq.name x hx (of_decide_eq_true hclash)
      · simp [AccountRow.created, AccountRequest.newAccount, hreq.key] at hkey
      · cases hmailbox.symm.trans hreq.mailbox
    | ok accounts =>
    obtain ⟨hinserted, hname, hmailbox⟩ := insertRow_ok hinsert
    exact .inr ⟨req, password, generated, hash, _, accounts, _, ⟨rfl, hvalid, ⟨_, hhashed⟩, hfate,
        fun x hx => of_decide_eq_false (hname x hx), insert_free hinserted, hmailbox⟩,
      hhashed, rfl, hinserted, fun _ => rfl, rfl⟩
  · next hfields =>
    refine .inl ⟨?_, _, rfl, rfl⟩
    intro req' hreq
    obtain rfl := Except.ok.inj hreq.body
    exact hfields hreq.valid

/-- A request to change an account does not get to its row and changes nothing, or it
writes the row and goes on from there. -/
theorem update_course (id : Bytes) (body : Decoded AccountRequest) :
    ((∀ req a, ¬ Updates srv g env db id body req a) ∧ ∃ resp,
        resp.succeeded = false ∧ (handleUpdateAccount srv g id body).run env db = (resp, db)) ∨
      ∃ req a row answer, Updates srv g env db id body req a ∧ row.id = id ∧
        (∀ resp, (answer resp).succeeded = true) ∧
        (handleUpdateAccount srv g id body).run env db = (finishAccount row req answer).run env
            (db.writeAccount (env .accountUpdate).now (req.apply a)) := by
  unfold handleUpdateAccount updateAccount
  cases body with
  | error why => exact .inl ⟨fun req a hreq => absurd hreq.body (by simp), _, rfl, rfl⟩
  | ok req =>
  simp only [withBody, orFail, unlessDeclared, ifValid, whenStored, AccountRepo.get, query, statement,
    Prog.run_bind, Prog.run_exec, Fate.answer]
  cases hread : (env .accountGet).failure with
  | some e =>
    refine .inl ⟨?_, _, Response.succeeded_ofStore e, rfl⟩
    intro req' a hreq
    cases hread.symm.trans hreq.read
  | none =>
  dsimp only
  cases hfound : db.accounts.get id with
  | none =>
    refine .inl ⟨?_, _, Response.succeeded_ofStore _, rfl⟩
    intro req' a hreq
    cases hfound.symm.trans hreq.found
  | some a =>
  have hid : a.id = id := (get_eq_some_iff.1 hfound).2
  dsimp only
  split
  · next hmanaged =>
    refine .inl ⟨?_, _, rfl, rfl⟩
    intro req' a' hreq
    cases hfound.symm.trans hreq.found
    cases hmanaged.symm.trans hreq.managed
  next hmanaged =>
  split
  · next hvalid =>
    simp only [AccountRepo.update, stamping, Prog.run_bind, Prog.run_exec, Fate.answer]
    cases hfate : (env .accountUpdate).failure with
    | some e =>
      refine .inl ⟨?_, _, Response.succeeded_ofStore e, rfl⟩
      intro req' a' hreq
      cases hfate.symm.trans hreq.reached
    | none =>
    simp only [Config.updateAccount]
    cases hupdate : checkUpdate db.accounts _ _ _ with
    | error e =>
      refine .inl ⟨?_, _, Response.succeeded_ofStore _, rfl⟩
      intro req' a' hreq
      obtain rfl := Except.ok.inj hreq.body
      cases hfound.symm.trans hreq.found
      obtain hnone | ⟨x, hx, hne, hclash⟩ | hmailbox := checkUpdate_error hupdate
      · rw [show (req.apply a).id = id from hid, hfound] at hnone
        cases hnone
      · exact hreq.name x hx (hid ▸ hne) (of_decide_eq_true hclash)
      · cases hmailbox.symm.trans hreq.mailbox
    | ok _ =>
    obtain ⟨-, hname, hmailbox⟩ := checkUpdate_ok hupdate
    refine .inr ⟨req, a, { req.apply a with updatedAt := (env .accountUpdate).now }, _,
      ⟨rfl, hread, hfound, ?_, hvalid, hfate, ?_, hmailbox⟩, hid, fun _ => rfl, rfl⟩
    · cases hm : a.managedBy with
      | ui => rfl
      | bootstrap => exact absurd hm hmanaged
    intro r hr hne
    exact of_decide_eq_false (hname r hr (show r.id ≠ a.id from hid ▸ hne))
  · next hfields =>
    refine .inl ⟨?_, _, rfl, rfl⟩
    intro req' a' hreq
    obtain rfl := Except.ok.inj hreq.body
    exact hfields hreq.valid

/-! ## Accepted requests -/

section

variable {resp : Response AccountPayload} {t : Config}

theorem finish_accepted {answer : AccountResponse → Response AccountPayload}
    (hanswer : ∀ resp, (answer resp).succeeded = true) (hrow : (db.accounts.get a.id).isSome)
    (hrun : (finishAccount a req answer).run env db = (resp, t)) (hacc : resp.succeeded = true) :
    mailboxesApply env db req = true ∧ t = { db with
        links := linksAfter db a.id req.mailboxIDs
        senders := sendersAfter db a.id req.allowedSenders } := by
  obtain ⟨resp', links, senders, hfinish, hdone, hlinks, hsenders⟩ :
      ∃ resp links senders, (finishAccount a req answer).run env db = _ ∧ _ :=
    finishAccount_run hanswer hrow
  cases hrun.symm.trans hfinish
  obtain ⟨⟨hmail, happlied⟩, -⟩ : (mailboxesApply env db req = true ∧
      sendersApply env req = true) ∧ answerReads env = true := by
    simpa [followsUp] using hdone.symm.trans hacc
  rw [hlinks, hsenders, if_pos hmail, if_pos ⟨hmail, happlied⟩]
  exact ⟨hmail, rfl⟩

theorem create_accepted {draw : AccountDraw} {body : Decoded AccountRequest}
    (hrun : (handleCreateAccount srv g draw body).run env db = (resp, t))
    (hacc : resp.succeeded = true) :
    ∃ req hash accounts, Creates srv g env db draw body req ∧
      db.accounts.insert ((req.newAccount hash).created draw.id (env .accountCreate).now) =
        some accounts ∧
      mailboxesApply env db req = true ∧
      t = { db with
        accounts
        links := linksAfter db draw.id req.mailboxIDs
        senders := sendersAfter db draw.id req.allowedSenders } := by
  obtain ⟨-, resp', hfailed, hcourse⟩ |
    ⟨req, password, -, hash, row, accounts, answer, hcreates, -, hrow, hinsert, hanswer, hcourse⟩ :=
    @create_course srv g env db draw body
  · cases hrun.symm.trans hcourse
    cases hacc.symm.trans hfailed
  have hthere : (({ db with accounts } : Config).accounts.get row.id).isSome := by
    have hget := get_insert hinsert row.id
    rw [if_pos rfl] at hget
    exact hget ▸ rfl
  obtain ⟨hmail, rfl⟩ := finish_accepted hanswer hthere (hcourse.symm.trans hrun) hacc
  subst hrow
  exact ⟨req, hash, accounts, hcreates, hinsert, hmail, rfl⟩

theorem update_accepted {body : Decoded AccountRequest}
    (hrun : (handleUpdateAccount srv g id body).run env db = (resp, t))
    (hacc : resp.succeeded = true) :
    ∃ req a, Updates srv g env db id body req a ∧ mailboxesApply env db req = true ∧
      t = { db.writeAccount (env .accountUpdate).now (req.apply a) with
        links := linksAfter db id req.mailboxIDs
        senders := sendersAfter db id req.allowedSenders } := by
  obtain ⟨-, resp', hfailed, hcourse⟩ | ⟨req, a, row, answer, hupdates, hid, hanswer, hcourse⟩ :=
    @update_course srv g env db id body
  · cases hrun.symm.trans hcourse
    cases hacc.symm.trans hfailed
  have hthere : ((db.writeAccount (env .accountUpdate).now (req.apply a)).accounts.get
      row.id).isSome := by
    rw [hid, Config.get_writeAccount, hupdates.found]
    rfl
  obtain ⟨hmail, rfl⟩ := finish_accepted hanswer hthere (hcourse.symm.trans hrun) hacc
  subst hid
  exact ⟨req, a, hupdates, hmail, rfl⟩

end

/-! ## What a rejected request leaves behind

A request that fails after the row has been written answers with an error and leaves what it
has written so far. -/

/-- An account is as it was: its row, its links and its allowed senders. -/
structure SameAccount (id : Bytes) (before after : Config) : Prop where
  row : after.accounts.get id = before.accounts.get id
  links : ∀ m, (id, m) ∈ after.links ↔ (id, m) ∈ before.links
  senders : ∀ p, (⟨id, p⟩ : AllowedSender) ∈ after.senders ↔ ⟨id, p⟩ ∈ before.senders

theorem SameAccount.refl (id : Bytes) (db : Config) : SameAccount id db db :=
  ⟨rfl, fun _ => Iff.rfl, fun _ => Iff.rfl⟩

/-- What the request had written when it failed was there already. -/
structure NothingNew (env : ConfigOp → Fate) (db : Config) (req : AccountRequest) (a : AccountRow) :
    Prop where
  row : (req.apply a).assign (env .accountUpdate).now a = a
  links : mailboxesApply env db req = true → ∀ ids, req.mailboxIDs = some ids →
    ∀ m, m ∈ ids ↔ (a.id, m) ∈ db.links
  senders : mailboxesApply env db req = true → sendersApply env req = true →
    ∀ patterns, req.allowedSenders = some patterns → ∀ p, p ∈ patterns ↔ ⟨a.id, p⟩ ∈ db.senders

/-- What was written behind the row leaves the links and senders as they were, if and only
if it was there already. -/
theorem followUp_same_iff (db : Config) {links : List (Bytes × Bytes)} {senders : List AllowedSender}
    (hlinks : links =
      if mailboxesApply env db req then linksAfter db id req.mailboxIDs else db.links)
    (hsenders : senders = if mailboxesApply env db req ∧ sendersApply env req then
      sendersAfter db id req.allowedSenders else db.senders) :
    ((∀ m, (id, m) ∈ links ↔ (id, m) ∈ db.links) ∧
        ∀ p, (⟨id, p⟩ : AllowedSender) ∈ senders ↔ ⟨id, p⟩ ∈ db.senders) ↔
      (mailboxesApply env db req = true → ∀ ids, req.mailboxIDs = some ids →
          ∀ m, m ∈ ids ↔ (id, m) ∈ db.links) ∧
        (mailboxesApply env db req = true → sendersApply env req = true →
          ∀ patterns, req.allowedSenders = some patterns →
            ∀ p, p ∈ patterns ↔ (⟨id, p⟩ : AllowedSender) ∈ db.senders) := by
  apply and_congr
  · rw [hlinks]
    by_cases happly : mailboxesApply env db req = true
    · rw [if_pos happly]
      cases req.mailboxIDs with
      | none => simp [linksAfter]
      | some ids =>
        simp only [mem_linksAfter]
        exact ⟨fun h _ ids' hids => some.inj hids ▸ h, fun h => h happly ids rfl⟩
    · simp [happly]
  rw [hsenders]
  by_cases happly : mailboxesApply env db req = true ∧ sendersApply env req = true
  · rw [if_pos happly]
    cases req.allowedSenders with
    | none => simp [sendersAfter]
    | some patterns =>
    simp only [mem_sendersAfter]
    exact ⟨fun h _ _ patterns' hp => some.inj hp ▸ h, fun h => h happly.1 happly.2 patterns rfl⟩
  rw [if_neg happly]
  exact ⟨fun _ hm hs => absurd ⟨hm, hs⟩ happly, fun _ _ => Iff.rfl⟩

theorem create_rejected_iff (draw : AccountDraw) (body : Decoded AccountRequest) :
    (((handleCreateAccount srv g draw body).run env db).1.succeeded = false →
        SameAccount draw.id db ((handleCreateAccount srv g draw body).run env db).2) ↔
      ∀ req, Creates srv g env db draw body req → followsUp env db req = true := by
  obtain ⟨hnot, resp, -, hrun⟩ |
    ⟨req, password, -, hash, row, accounts, answer, hcreates, -, hrow, hinsert, hanswer, hrun⟩ :=
    create_course draw body
  · rw [hrun]
    exact ⟨fun _ req hreq => absurd hreq (hnot req), fun _ _ => SameAccount.refl _ _⟩
  have hid : row.id = draw.id := by
    rw [hrow]
    rfl
  have hget := get_insert hinsert draw.id
  rw [if_pos hid] at hget
  have hthere : (({ db with accounts } : Config).accounts.get row.id).isSome := by
    rw [hid]
    exact hget ▸ rfl
  obtain ⟨resp, links, senders, hfinish, hdone, -, -⟩ := finishAccount_run hanswer hthere
  replace hdone : resp.succeeded = followsUp env db req := hdone
  rw [hrun, hfinish, hdone]
  constructor
  · intro hsame req' hreq'
    obtain rfl := Except.ok.inj (hreq'.body.symm.trans hcreates.body)
    -- a row that was inserted is not as it was
    cases hfollows : followsUp env db req' with
    | true => rfl
    | false =>
    have hrows := (hsame hfollows).row
    rw [hcreates.key] at hrows
    cases hget.symm.trans hrows
  intro hfollows hfalse
  rw [hfollows req hcreates] at hfalse
  cases hfalse

theorem update_rejected_iff (id : Bytes) (body : Decoded AccountRequest) :
    (((handleUpdateAccount srv g id body).run env db).1.succeeded = false →
        SameAccount id db ((handleUpdateAccount srv g id body).run env db).2) ↔
      ∀ req a, Updates srv g env db id body req a →
        followsUp env db req = true ∨ NothingNew env db req a := by
  obtain ⟨hnot, resp, -, hrun⟩ | ⟨req, a, row, answer, hupdates, hid, hanswer, hrun⟩ :=
    update_course id body
  · rw [hrun]
    exact ⟨fun _ req a hreq => absurd hreq (hnot req a), fun _ _ => SameAccount.refl _ _⟩
  have ha : a.id = id := (get_eq_some_iff.1 hupdates.found).2
  have hget := db.get_writeAccount (env .accountUpdate).now (req.apply a) id
  rw [hupdates.found, map_some, if_pos (show a.id = (req.apply a).id from rfl)] at hget
  have hrow : ((db.writeAccount (env .accountUpdate).now (req.apply a)).accounts.get
      row.id).isSome := by
    rw [hid]
    exact hget ▸ rfl
  obtain ⟨resp, links, senders, hfinish, hdone, hlinks, hsenders⟩ :=
    finishAccount_run hanswer hrow
  replace hdone : resp.succeeded = followsUp env db req := hdone
  rw [hrun, hfinish, hdone]
  rw [hid] at hlinks hsenders
  have hsame := followUp_same_iff db hlinks hsenders
  constructor
  · intro hrejected req' a' hreq'
    obtain rfl := Except.ok.inj (hreq'.body.symm.trans hupdates.body)
    obtain rfl := some.inj (hreq'.found.symm.trans hupdates.found)
    cases hfollows : followsUp env db req' with
    | true => exact .inl rfl
    | false =>
    obtain ⟨hrows, hl, hs⟩ := hrejected hfollows
    rw [hupdates.found] at hrows
    obtain ⟨hl', hs'⟩ := hsame.1 ⟨hl, hs⟩
    rw [← ha] at hl' hs'
    exact .inr ⟨some.inj (hget.symm.trans hrows), hl', hs'⟩
  intro hcondition hfalse
  obtain hfollows | hnew := hcondition req a hupdates
  · cases hfollows.symm.trans hfalse
  obtain ⟨hl, hs⟩ := hsame.2 ⟨ha ▸ hnew.links, ha ▸ hnew.senders⟩
  refine ⟨hget.trans ?_, hl, hs⟩
  rw [hnew.row, hupdates.found]

/-- **When a rejected request leaves the account as it was**: nothing fails behind the
write of the row, or nothing new had been written. -/
theorem rejected_changes_nothing_iff (srv : Server) (g : GoText) (env : ConfigOp → Fate)
    (db : Config) :
    (∀ draw body, (((handleCreateAccount srv g draw body).run env db).1.succeeded = false →
          SameAccount draw.id db ((handleCreateAccount srv g draw body).run env db).2) ↔
        ∀ req, Creates srv g env db draw body req → followsUp env db req = true) ∧
    ∀ id body, (((handleUpdateAccount srv g id body).run env db).1.succeeded = false →
          SameAccount id db ((handleUpdateAccount srv g id body).run env db).2) ↔
        ∀ req a, Updates srv g env db id body req a →
          followsUp env db req = true ∨ NothingNew env db req a :=
  ⟨create_rejected_iff, update_rejected_iff⟩

def onePrinter : Config where
  credentials := .empty
  mailboxes := .empty
  accounts := ⟨[{ id := ascii "p", username := ascii "printer" }], by simp⟩

def linkToNowhere : AccountRequest :=
  { username := ascii "scanner", enabled := some false, password := some (ascii "a password")
    mailboxIDs := some [ascii "nowhere"] }

/-- The account is created, or renamed and disabled, although the request is rejected. -/
theorem linkToNowhere_half_done :
    let created := (handleCreateAccount (plainServer {}) bareText
      ⟨ascii "s", .error (.new [])⟩ (.ok linkToNowhere)).run (fun _ => {}) onePrinter
    let updated := (handleUpdateAccount (plainServer {}) bareText (ascii "p")
      (.ok linkToNowhere)).run (fun _ => {}) onePrinter
    (created.1.status = 409 ∧ (created.2.accounts.get (ascii "s")).isSome) ∧
      updated.1.status = 409 ∧
        updated.2.accounts.get (ascii "p") ≠ onePrinter.accounts.get (ascii "p") := by
  decide +kernel

end SmtpProxy.Adminapi
