import SmtpProxy.App.Conversation
import SmtpProxy.Store.Messages

/-!
# Revoking what an open session may do

A session authenticates once, and its DATA commands are decided by the account and the
mailboxes as they were then. Meanwhile an administrator changes them.

What `Authenticate` gives a session is granted at that moment
(`authenticate_granted`), and stays so under the session's own commands
(`granted_command`). But `Submit` does not look at the directory again, so a session
that was open when its account was disabled goes on queueing messages
(`disabled_account_queues`).
-/

namespace SmtpProxy.App

open Lib Policy Store Smtpsrv Option

/-- The message that `submitter.Submit` hands to `Enqueue`. There is no message for
a submission without a mailbox, which the session does not make. -/
def submitDraft (sub : Submission) : Option Draft :=
  sub.mailbox.map fun mb => {
    smtpAccountID := nullString sub.identity.accountID
    mailboxID := nullString mb.id
    accountUsername := sub.identity.username
    mailboxAddress := mb.address
    envelopeFrom := sub.envelopeFrom.original
    headerFrom := sub.headerFrom.original
    recipients := sub.recipients
    sizeBytes := sub.raw.length
    subject := sub.subject
    messageID := sub.messageID
    clientIP := sub.clientIP.getD []
    receivedAt := sub.receivedAt }

/-- The account is disabled, or it may not send as the mailbox any more, or the
mailbox is disabled. -/
def revoked (d : Directory) (accountID mailboxID : Bytes) : Bool :=
  (d.accounts.get accountID).any (fun a => !a.enabled) ||
    !(d.listForAccount accountID).any fun mb => decide (mb.id = mailboxID) && mb.enabled

/-- One session, the directory, and the messages the session has queued, each with
the directory at the beginning of its DATA command. -/
structure Office where
  session : Session
  directory : Directory
  queued : List (Draft × Directory) := []

structure Surroundings where
  passwords : Passwords
  order : MapOrder
  stamp : Bytes := []
  now : Int := 0
  /-- What `Submit` answers. -/
  submit : Except Err Bytes
  /-- A renewed hash can be stored. -/
  stored : Bool := true

/-- A command of the session, or a committed update of an administrator, which can
be any. -/
inductive OfficeAct where
  | command (i : ClientInput) (e : Surroundings)
  | commit (d : Directory)

def queuedBy (r : Reply) : List Draft :=
  r.submitted.filterMap fun p =>
    match p.2 with
    | .ok _ => submitDraft p.1
    | .error _ => none

section

variable (n : NetText) (g : GoText) (remote : Option Addr) (srv : Server) (peer : Peer)

def Office.world (o : Office) (e : Surroundings) : World where
  queries := queriesOf o.directory
  passwords := e.passwords
  order := e.order
  stamp := e.stamp
  now := e.now
  submit := e.submit

/-- The directory after a command: a successful attempt may renew the hash, and
writes the account's whole row for it. -/
def Office.directoryAfter (o : Office) (e : Surroundings) : ClientInput → Directory
  | .respond response =>
    match o.session.exchange.bind fun x => attempt x response with
    | none => o.directory
    | some (username, password) =>
      match (authenticate n g e.passwords (queriesOf o.directory) username password
        (remoteIP n remote)).rehashed with
      | some row => if e.stored then o.directory.updateAccount row else o.directory
      | none => o.directory
  | _ => o.directory

def officeStep (o : Office) : OfficeAct → Option Office
  | .command i e =>
    (step srv g peer o.session (i.call n g remote (o.world e) o.session)).map fun p =>
      { session := p.1
        directory := o.directoryAfter n g remote e i
        queued := (queuedBy p.2).map (fun m => (m, o.directory)) ++ o.queued }
  | .commit d => some { o with directory := d }

end

/-- The directory still grants what the session's identity was given when it
authenticated. -/
def Granted (d : Directory) (s : Session) : Prop :=
  ∀ identity ∈ s.identity, ∀ mb ∈ identity.mailboxes, mb.enabled = true →
    revoked d identity.accountID mb.id = false

instance (d : Directory) (s : Session) : Decidable (Granted d s) :=
  inferInstanceAs (Decidable (∀ identity ∈ s.identity, _))

/-- An update takes nothing away from the session as it is. -/
def Spares (o : Office) : OfficeAct → Prop
  | .commit d => Granted d o.session
  | .command _ _ => True

instance (o : Office) : (a : OfficeAct) → Decidable (Spares o a)
  | .commit d => inferInstanceAs (Decidable (Granted d o.session))
  | .command _ _ => isTrue trivial

/-! ## What a call queues -/

section

variable {n : NetText} {g : GoText} {remote : Option Addr} {srv : Server} {peer : Peer}

/-- A queued message is from the session's account, as one of the mailboxes it had
when it authenticated. -/
theorem queuedBy_step {s s' : Session} {c : Call} {r : Reply} {m : Draft}
    (hstep : step srv g peer s c = some (s', r)) (hm : m ∈ queuedBy r) :
    ∃ d identity mb, c = .data d ∧ s.identity = some identity ∧ mb ∈ identity.mailboxes ∧
      mb.enabled = true ∧ m.smtpAccountID = nullString identity.accountID ∧
      m.mailboxID = nullString mb.id := by
  obtain ⟨p, hp, hdraft⟩ := List.mem_filterMap.1 hm
  -- only `Data` submits
  cases step_cases srv g peer hstep with
  | startTLS hr => rw [hr] at hp; cases hp
  | refused | auth => cases hp
  | next _ h => rw [h.submitted] at hp; cases hp
  | mail | rcpt | reset => cases hp
  | @data d _ _ hcourse =>
  cases hcourse with
  | refused _ hsub _ => rw [hsub] at hp; cases hp
  | @submitted identity raw final parsed headerFrom finalFrom dec hid _ _ _ _ hd hrej _ hsub =>
  obtain ⟨mb, hmb, hmem, henabled⟩ := resolve_mailbox g (hd ▸ hrej)
  rw [hsub, List.mem_singleton] at hp
  subst hp
  refine ⟨d, identity, mb, rfl, hid, hmem, henabled, ?_⟩
  have hmailbox : dec.mailbox = some mb := by rw [hd]; exact hmb
  cases hanswer : d.answer with
  | error e => simp [hanswer] at hdraft
  | ok id =>
  simp only [hanswer, submitDraft, Session.submission, hmailbox, map_some,
    Option.some.injEq] at hdraft
  rw [← hdraft]
  exact ⟨rfl, rfl⟩

/-! ## What a session is granted -/

variable {p : Passwords} {d : Directory} {username password : Bytes} {ip : IP}

theorem authenticate_granted {identity : Identity}
    (h : (authenticate n g p (queriesOf d) username password ip).answer = .ok identity)
    {mb : Mailbox} (hmb : mb ∈ identity.mailboxes) (henabled : mb.enabled = true) :
    revoked d identity.accountID mb.id = false := by
  obtain ⟨account, hget, hon, hid, hlist⟩ := (authenticate_course n g p (queriesOf d) _ _ _).ok h
  have hlisted : (d.listForAccount account.id).any
      (fun m => decide (m.id = mb.id) && m.enabled) = true := by
    rw [Except.ok.inj hlist]
    exact List.any_eq_true.2 ⟨mb, hmb, by simp [henabled]⟩
  simp [revoked, hid, Directory.getByUsername_ok hget, hon, hlisted]

theorem rehashed_revoked {row : SMTPAccount}
    (h : (authenticate n g p (queriesOf d) username password ip).rehashed = some row)
    (accountID mailboxID : Bytes) :
    revoked (d.updateAccount row) accountID mailboxID = revoked d accountID mailboxID := by
  obtain ⟨account, hash, hget, rfl⟩ := (authenticate_course n g p (queriesOf d) _ _ _).row h
  have hrow := Directory.getByUsername_ok hget
  rw [revoked, revoked, Directory.updateAccount_any hrow hash accountID rfl,
    Directory.updateAccount_listForAccount hrow]

/-- A command of the session revokes nothing. -/
theorem directoryAfter_revoked (o : Office) (e : Surroundings) (i : ClientInput)
    (accountID mailboxID : Bytes) :
    revoked (o.directoryAfter n g remote e i) accountID mailboxID
      = revoked o.directory accountID mailboxID := by
  cases i with
  | respond response =>
    simp only [Office.directoryAfter]
    split
    · rfl
    split
    · next row hrehashed =>
      split
      · exact rehashed_revoked hrehashed accountID mailboxID
      · rfl
    · rfl
  | _ => rfl

/-- An identity that a session has after a command it had before, or `Authenticate`
has just returned it. -/
theorem command_identity {s s' : Session} {w : World} {i : ClientInput} {r : Reply}
    {identity : Identity} (hstep : step srv g peer s (i.call n g remote w s) = some (s', r))
    (hid : s'.identity = some identity) :
    s.identity = some identity ∨ ∃ username password,
      (authenticate n g w.passwords w.queries username password (remoteIP n remote)).answer
        = .ok identity := by
  rcases step_identity hstep with hkept | ⟨⟨response, answer, hcall⟩, -⟩
  · exact .inl (hkept.symm.trans hid)
  cases i with
  | respond response =>
    rw [ClientInput.call] at hstep
    cases hdead : s.dead with
    | true => simp [step, hdead] at hstep
    | false =>
    rw [step_respond hdead] at hstep
    obtain ⟨e, hex, heq⟩ := map_eq_some_iff.1 hstep
    cases hattempt : attempt e response with
    | none =>
      -- nothing was attempted, and the identity is kept
      obtain ⟨t, u, hnext, hkept⟩ := next_of_attempt_none srv s hattempt
      rw [hnext] at heq
      cases heq
      exact .inl (hkept.symm.trans hid)
    | some credentials =>
    obtain ⟨username, password⟩ := credentials
    have hanswer : w.answer n g remote s response
        = (authenticate n g w.passwords w.queries username password
            (remoteIP n remote)).answer := by
      rw [World.answer, hex, bind_some, hattempt]
    rw [next_of_attempt_some hattempt, hanswer] at heq
    obtain ⟨rfl, -⟩ := Prod.mk.inj heq
    cases hret : (authenticate n g w.passwords w.queries username password
        (remoteIP n remote)).answer with
    | error err =>
      rw [hret] at hid
      exact .inl hid
    | ok identity' =>
      rw [hret] at hid
      exact .inr ⟨username, password, hret.trans (congrArg _ (some.inj hid))⟩
  | _ => simp [ClientInput.call] at hcall

/-- **After a command the session holds nothing that is not granted**, if it did not
before. -/
theorem granted_command {o : Office} {e : Surroundings} {i : ClientInput} {q : Session × Reply}
    (hgranted : Granted o.directory o.session)
    (hstep : step srv g peer o.session (i.call n g remote (o.world e) o.session) = some q) :
    Granted (o.directoryAfter n g remote e i) q.1 := by
  intro identity hid mb hmb henabled
  rw [directoryAfter_revoked]
  rcases command_identity hstep hid with hkept | ⟨username, password, hret⟩
  · exact hgranted identity hkept mb hmb henabled
  · exact authenticate_granted hret hmb henabled

/-! ## Whole runs -/

/-- What a session holds is granted, and nothing it has queued was revoked. -/
structure Sound (o : Office) : Prop where
  granted : Granted o.directory o.session
  queued : ∀ m before, (m, before) ∈ o.queued → ∀ accountID mailboxID,
    m.smtpAccountID = some accountID → m.mailboxID = some mailboxID →
      revoked before accountID mailboxID = false

theorem nullString_some {s t : Bytes} (h : nullString s = some t) : s = t := by
  unfold nullString at h
  split at h
  · cases h
  · exact some.inj h

theorem sound_step {o o' : Office} {a : OfficeAct} (hsound : Sound o) (hspares : Spares o a)
    (hstep : officeStep n g remote srv peer o a = some o') : Sound o' := by
  cases a with
  | commit d' =>
    cases hstep
    exact ⟨hspares, hsound.queued⟩
  | command i e =>
  obtain ⟨q, hq, rfl⟩ := map_eq_some_iff.1 hstep
  refine ⟨granted_command hsound.granted hq, ?_⟩
  intro m before hm accountID mailboxID hacc hmb
  rcases List.mem_append.1 hm with hnew | hold
  · obtain ⟨m', hm', heq⟩ := List.mem_map.1 hnew
    cases heq
    obtain ⟨dc, identity, mb, -, hid, hmem, henabled, haccount, hmailbox⟩ := queuedBy_step hq hm'
    rw [← nullString_some (haccount.symm.trans hacc), ← nullString_some (hmailbox.symm.trans hmb)]
    exact hsound.granted identity hid mb hmem henabled
  · exact hsound.queued m before hold accountID mailboxID hacc hmb

/-- **Nothing revoked is queued, as long as no update takes anything from an open
session.** In every run of a session with committed updates, none of which disables
the account the session is authenticated as, or unlinks or disables a mailbox it
got with it: no message is queued for an account that was disabled before its DATA
command began, or as a mailbox that was unlinked from it or disabled. -/
theorem revoked_not_queued {encrypted : Bool} {d : Directory} {o : Office}
    (hreach : Reach (officeStep n g remote srv peer) Spares
      { session := { encrypted }, directory := d } o) :
    ∀ m before, (m, before) ∈ o.queued → ∀ accountID mailboxID, m.smtpAccountID = some accountID →
      m.mailboxID = some mailboxID → revoked before accountID mailboxID = false := by
  have hsound : Sound o := hreach.invariant (I := Sound)
    ⟨fun identity hid => absurd hid (by simp), by simp⟩
    fun o a o' hsound hspares hstep => sound_step hsound hspares hstep
  exact hsound.queued

end

def printerDirectory (account : SMTPAccount) (mailbox : Mailbox) (links : List (Bytes × Bytes)) :
    Directory where
  accounts := ⟨[account], List.nodup_singleton _⟩
  mailboxes := ⟨[mailbox], List.nodup_singleton _⟩
  links := links

def printer : SMTPAccount := { id := ascii "1", username := ascii "u" }

def printouts : Mailbox := { id := ascii "b", address := ascii "a@x" }

def printerLink : Bytes × Bytes := (ascii "1", ascii "b")

def friendly : Surroundings where
  passwords := ⟨fun _ _ => .ok (true, false), fun _ => .ok []⟩
  order := ⟨id, MapOrder.id_perm⟩
  submit := .ok (ascii "m")

/-- The printer authenticates and sends a message; the updates are committed right
before its DATA command. -/
def printing (updates : List Directory) : List OfficeAct :=
  [.command (.auth plain) friendly,
    .command (.respond (some (0 :: ascii "u" ++ 0 :: ascii "p"))) friendly,
    .command (.mail (ascii "<a@x>")) friendly, .command (.rcpt (ascii "<r@y>")) friendly] ++
  updates.map .commit ++
  [.command (.data [(ascii "From: a@x\r\n\r\nhi", none)]) friendly]

def printerOffice : Office :=
  { session := { encrypted := true }, directory := printerDirectory printer printouts [printerLink] }

def Office.revocations (o : Office) : List Bool :=
  o.queued.map fun p => revoked p.2 (p.1.smtpAccountID.getD []) (p.1.mailboxID.getD [])

def newPassword : Directory :=
  printerDirectory { printer with passwordHash := ascii "new" } printouts [printerLink]

/-- The password is changed while the session is open, and one message is queued. -/
theorem revoked_not_queued_printing :
    ∃ o, runActions (officeStep dottedText bareText none smallServer {}) printerOffice
        (printing [newPassword]) = some o ∧ o.queued.length = 1 ∧
      ∀ m before, (m, before) ∈ o.queued → ∀ accountID mailboxID,
        m.smtpAccountID = some accountID → m.mailboxID = some mailboxID →
        revoked before accountID mailboxID = false := by
  have hone : (runActions (officeStep dottedText bareText none smallServer {}) printerOffice
      (printing [newPassword])).map (·.queued.length) = some 1 := by decide +kernel
  obtain ⟨o, hrun, hone⟩ := map_eq_some_iff.1 hone
  have hmeet : AllMeet (officeStep dottedText bareText none smallServer {}) Spares printerOffice
      (printing [newPassword]) := by decide +kernel
  exact ⟨o, hrun, hone, revoked_not_queued (reach_of_runActions _ hmeet hrun)⟩

/-- **An open session of a disabled account queues messages**, and so does one whose
mailbox was unlinked from its account, or disabled. -/
theorem disabled_account_queues :
    ([printerDirectory { printer with enabled := false } printouts [printerLink],
        printerDirectory printer printouts [],
        printerDirectory printer { printouts with enabled := false } [printerLink]].map fun d =>
      (runActions (officeStep dottedText bareText none smallServer {}) printerOffice
        (printing [d])).map (·.revocations))
      = [some [true], some [true], some [true]] := by
  decide +kernel

end SmtpProxy.App
