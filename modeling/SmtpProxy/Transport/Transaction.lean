import SmtpProxy.Transport.Transport

/-!
# One mail transaction

`Relay.deliver` of `internal/transport/smtprelay/smtprelay.go`. The upstream answers as it likes,
given all that was said before, and the connection may fail at every point. What a delivery leaves
behind is the record of the transaction: each command with the answer the client read.

The go-smtp client is no part of the repository. What it takes for acceptance and which lines it
refuses to send are parameters (`Client`); that it sends each command once, and that closing a data
writer fails after a failed write, is how `Server` is driven.

A transaction that went wrong did so in one of four places (`Course`), and only the one that
ended well has a positive answer to the message in its record. That is `all_or_nothing`.
-/

namespace SmtpProxy.Transport.Relay

open Lib

/-! ## Classifying replies -/

def enhancedOrNumeric (e : SMTPError) : Bytes :=
  if e.enhanced ≠ (0, 0, 0) then
    itoa e.enhanced.1 ++ ascii "." ++ itoa e.enhanced.2.1 ++ ascii "." ++ itoa e.enhanced.2.2
  else itoa e.code

/-- `classify`: 5xx is permanent, anything else is worth another try. -/
def classify (err : Err) (what : Bytes) : Err :=
  match err.asSMTP with
  | none => newTransient (ascii "net") (what ++ ascii ": " ++ err.text) (some err)
  | some smtpErr =>
    let code := enhancedOrNumeric smtpErr
    let message := what ++ ascii ": " ++ trimSpace smtpErr.message
    if smtpErr.code ≥ 500 then newPermanent code message (some err)
    else newTransient code message (some err)

end SmtpProxy.Transport.Relay

namespace SmtpProxy.Transport.Transaction

open Lib Relay List

/-- What the client reads after a command: a reply, or the error of a connection that failed
when the command was sent or while the reply was awaited. -/
inductive Answer where
  | reply (r : SMTPError)
  | lost (e : Err)

/-- One step of a transaction. Closing the data writer sends the final dot and reads the
server's verdict. -/
inductive Exchange where
  | mail (sender : Bytes) (answer : Answer)
  | rcpt (recipient : Bytes) (answer : Answer)
  | data (answer : Answer)
  | write (raw : Bytes) (failure : Option Err)
  | close (answer : Answer)
  | quit (answer : Answer)

abbrev Session := List Exchange

/-- The steps the server has a say in. -/
inductive Verb where
  | mail
  | rcpt
  | data
  | close
  | quit

/-- What the relay needs of the go-smtp client: the lines it refuses to send, and the replies it
takes for acceptance, which are positive ones. -/
structure Client where
  validateLine : Bytes → Option Err
  accepts : Verb → Int → Bool
  accepts_positive : ∀ verb code, accepts verb code = true → 200 ≤ code ∧ code < 400

/-- The client and the other end of the connection. -/
structure Server extends Client where
  answer : Session → Answer
  write : Session → Option Err := fun _ => none

/-! ## The client -/

variable (s : Server)

/-- A reply that is not accepted is an error. -/
def Server.refusal (verb : Verb) : Answer → Option Err
  | .reply r => if s.accepts verb r.code then none else some ⟨.smtp r, []⟩
  | .lost e => some e

/-- One command, and the answer to it. -/
def Server.cmd (verb : Verb) (said : Answer → Exchange) (h : Session) : Session × Option Err :=
  (h ++ [said (s.answer h)], s.refusal verb (s.answer h))

/-- A command whose argument is checked before it is sent. -/
def Server.command (verb : Verb) (arg : Bytes) (said : Answer → Exchange) (h : Session) :
    Session × Option Err :=
  match s.validateLine arg with
  | some e => (h, some e)
  | none => s.cmd verb said h

/-- `(*Client).Mail`. -/
def Server.mail (sender : Bytes) : Session → Session × Option Err :=
  s.command .mail sender (.mail sender)

/-- `(*Client).Rcpt`. -/
def Server.rcpt (recipient : Bytes) : Session → Session × Option Err :=
  s.command .rcpt recipient (.rcpt recipient)

/-- `Write` of the data writer. -/
def Server.writeData (raw : Bytes) (h : Session) : Session × Option Err :=
  (h ++ [.write raw (s.write h)], s.write h)

/-- `Close` of the data writer. A buffered writer that has failed goes on failing, so that after a
failed write the server is not asked. -/
def Server.closeData (h : Session) : Session × Option Err :=
  match h.getLast? with
  | some (.write _ (some e)) => (h ++ [.close (.lost e)], some e)
  | _ => s.cmd .close .close h

/-! ## The delivery -/

def rcptLoop : List Bytes → Session → Session × Option Err
  | [], h => (h, none)
  | rcpt :: rest, h =>
    match s.rcpt rcpt h with
    | (h, some e) => (h, some (classify e (ascii "RCPT TO " ++ rcpt ++ ascii " was rejected")))
    | (h, none) => rcptLoop rest h

/-- The second half of `Relay.deliver`, from `DATA` on. -/
def sendContent (raw : Bytes) (h : Session) : Session × Option Err :=
  match s.cmd .data .data h with
  | (h, some e) => (h, some (classify e (ascii "DATA was rejected")))
  | (h, none) =>
    match s.writeData raw h with
    | (h, some e) =>
      ((s.closeData h).1, some (newTransient (ascii "net")
        (ascii "the connection failed while sending the message: " ++ e.text) (some e)))
    | (h, none) =>
      match s.closeData h with
      | (h, some e) => (h, some (classify e (ascii "the message was rejected")))
      -- a failing QUIT is only logged
      | (h, none) => ((s.cmd .quit .quit h).1, none)

/-- `Relay.deliver`. -/
def deliver (m : Message) (h : Session) : Session × Option Err :=
  match s.mail m.envelopeFrom h with
  | (h, some e) => (h, some (classify e (ascii "MAIL FROM was rejected")))
  | (h, none) =>
    match rcptLoop s m.recipients h with
    | (h, some e) => (h, some e)
    | (h, none) => sendContent s m.raw h

/-! ## The courses a transaction can take -/

def Server.Accepts (verb : Verb) (a : Answer) : Prop := s.refusal verb a = none

/-- The message was confirmed: a positive reply to the data. -/
def Server.Confirms (x : Exchange) : Prop := ∃ a, x = .close a ∧ s.Accepts .close a

/-- `MAIL` and `RCPT` for everyone in order, each once and each accepted. -/
def Envelope (m : Message) (record : Session) : Prop :=
  ∃ first answers, record = .mail m.envelopeFrom first :: List.zipWith .rcpt m.recipients answers ∧
    answers.length = m.recipients.length ∧ s.Accepts .mail first ∧ ∀ a ∈ answers, s.Accepts .rcpt a

def Exchange.isEnvelope : Exchange → Bool
  | .mail _ _ => true
  | .rcpt _ _ => true
  | _ => false

/-- How a transaction went, and with what error it ended. -/
inductive Course (m : Message) : Session → Option Err → Prop
  | stopped {record : Session} (e : Err) : (∀ x ∈ record, x.isEnvelope = true) →
      Course m record (some e)
  | refused {envelope : Session} (a : Answer) (e : Err) : Envelope s m envelope →
      Course m (envelope ++ [.data a]) (some e)
  | broken {envelope : Session} (a : Answer) (cause e : Err) : Envelope s m envelope →
      Course m (envelope ++ [.data a, .write m.raw (some cause), .close (.lost cause)]) (some e)
  | rejected {envelope : Session} (a verdict : Answer) (e : Err) : Envelope s m envelope →
      ¬ s.Accepts .close verdict →
      Course m (envelope ++ [.data a, .write m.raw none, .close verdict]) (some e)
  | accepted {envelope : Session} (a verdict bye : Answer) : Envelope s m envelope →
      s.Accepts .data a → s.Accepts .close verdict →
      Course m (envelope ++ [.data a, .write m.raw none, .close verdict, .quit bye]) none

variable {s}

/-- The loop over the recipients adds `RCPT`s; where it got through, one accepted one for each. -/
theorem rcptLoop_record (rcpts : List Bytes) (h : Session) :
    ∃ said, (rcptLoop s rcpts h).1 = h ++ said ∧ (∀ x ∈ said, x.isEnvelope = true) ∧
      ((rcptLoop s rcpts h).2 = none → ∃ answers, said = List.zipWith .rcpt rcpts answers ∧
        answers.length = rcpts.length ∧ ∀ a ∈ answers, s.Accepts .rcpt a) := by
  induction rcpts generalizing h with
  | nil => exact ⟨[], by simp [rcptLoop], by simp, fun _ => ⟨[], rfl, rfl, by simp⟩⟩
  | cons rcpt rest ih =>
  rw [rcptLoop, Server.rcpt, Server.command]
  cases hline : s.validateLine rcpt with
  | some e => exact ⟨[], by simp, by simp, by simp⟩
  | none =>
  simp only [Server.cmd]
  cases hrefusal : s.refusal .rcpt (s.answer h) with
  | some e => exact ⟨[.rcpt rcpt (s.answer h)], rfl, by simp [Exchange.isEnvelope], by simp⟩
  | none =>
  obtain ⟨said, hsaid, henv, hok⟩ := ih (h ++ [.rcpt rcpt (s.answer h)])
  refine ⟨.rcpt rcpt (s.answer h) :: said, by simp [hsaid], ?_, fun hnone => ?_⟩
  · simpa [Exchange.isEnvelope] using henv
  obtain ⟨answers, rfl, hlength, haccepts⟩ := hok hnone
  refine ⟨s.answer h :: answers, rfl, by simp [hlength], ?_⟩
  simp only [mem_cons, forall_eq_or_imp]
  exact ⟨hrefusal, haccepts⟩

theorem closeData_after_write (raw : Bytes) (h : Session) :
    s.closeData (h ++ [.write raw none]) = s.cmd .close .close (h ++ [.write raw none]) := by
  simp [Server.closeData]

theorem closeData_after_failure (raw : Bytes) (e : Err) (h : Session) :
    s.closeData (h ++ [.write raw (some e)]) =
      (h ++ [.write raw (some e)] ++ [.close (.lost e)], some e) := by
  simp [Server.closeData]

variable {m : Message}

/-- From `DATA` on, the record goes on as one of the courses says. -/
theorem sendContent_course {envelope : Session} (henv : Envelope s m envelope) (h : Session) :
    ∃ said, (sendContent s m.raw (h ++ envelope)).1 = h ++ (envelope ++ said) ∧
      Course s m (envelope ++ said) (sendContent s m.raw (h ++ envelope)).2 := by
  unfold sendContent
  simp only [Server.cmd]
  generalize s.answer (h ++ envelope) = a
  cases hgo : s.refusal .data a with
  | some e => exact ⟨[.data a], by simp, .refused a _ henv⟩
  | none =>
  simp only [Server.writeData]
  cases s.write (h ++ envelope ++ [.data a]) with
  | some cause =>
    refine ⟨[.data a, .write m.raw (some cause), .close (.lost cause)], ?_, .broken a cause _ henv⟩
    simp only [closeData_after_failure]
    simp
  | none =>
  simp only [closeData_after_write, Server.cmd]
  generalize s.answer (h ++ envelope ++ [.data a] ++ [.write m.raw none]) = verdict
  cases hverdict : s.refusal .close verdict with
  | some e =>
    refine ⟨[.data a, .write m.raw none, .close verdict], by simp, .rejected a verdict _ henv ?_⟩
    simp [Server.Accepts, hverdict]
  | none =>
  simp only
  generalize s.answer (h ++ envelope ++ [.data a] ++ [.write m.raw none] ++
    [.close verdict]) = bye
  exact ⟨[.data a, .write m.raw none, .close verdict, .quit bye], by simp,
    .accepted a verdict bye henv hgo hverdict⟩

/-- **Every delivery takes one of the courses.** -/
theorem deliver_course (s : Server) (m : Message) (h : Session) :
    ∃ record, (deliver s m h).1 = h ++ record ∧ Course s m record (deliver s m h).2 := by
  unfold deliver
  simp only [Server.mail, Server.command]
  cases hline : s.validateLine m.envelopeFrom with
  | some e => exact ⟨[], by simp, .stopped _ (by simp)⟩
  | none =>
  simp only [Server.cmd]
  cases hmail : s.refusal .mail (s.answer h) with
  | some e =>
    exact ⟨[.mail m.envelopeFrom (s.answer h)], rfl, .stopped _ (by simp [Exchange.isEnvelope])⟩
  | none =>
  obtain ⟨said, hsaid, henv, hok⟩ :=
    rcptLoop_record (s := s) m.recipients (h ++ [.mail m.envelopeFrom (s.answer h)])
  cases hloop : rcptLoop s m.recipients (h ++ [.mail m.envelopeFrom (s.answer h)]) with
  | mk h' result =>
  rw [hloop] at hsaid hok
  simp only [hloop]
  have hrecord : h' = h ++ (.mail m.envelopeFrom (s.answer h) :: said) := by
    simpa using hsaid
  cases result with
  | some e =>
    refine ⟨_, hrecord, .stopped _ ?_⟩
    simpa [Exchange.isEnvelope] using henv
  | none =>
  obtain ⟨answers, rfl, hlength, haccepts⟩ := hok rfl
  obtain ⟨more, hmore, hcourse⟩ := sendContent_course (s := s)
    ⟨_, _, rfl, hlength, hmail, haccepts⟩ h
  rw [← hrecord] at hmore hcourse
  exact ⟨_, hmore, hcourse⟩

/-! ## All or nothing -/

variable {record : Session}

theorem Envelope.isEnvelope (h : Envelope s m record) : ∀ x ∈ record, x.isEnvelope = true := by
  obtain ⟨first, answers, rfl, -⟩ := h
  intro x hx
  rcases mem_cons.1 hx with rfl | hx
  · rfl
  rw [← map_uncurry_zip_eq_zipWith] at hx
  obtain ⟨p, -, rfl⟩ := mem_map.1 hx
  rfl

theorem not_confirms_of_isEnvelope {x : Exchange} (h : x.isEnvelope = true) : ¬ s.Confirms x := by
  rintro ⟨a, rfl, -⟩
  simp [Exchange.isEnvelope] at h

theorem data_not_mem (h : ∀ x ∈ record, x.isEnvelope = true) (a : Answer) : .data a ∉ record := by
  intro hmem
  exact absurd (h _ hmem) (by simp [Exchange.isEnvelope])

/-- What stands before `DATA` in a record, if the rest of it starts no second one. -/
theorem Envelope.of_data {envelope rest pre post : Session} {a b : Answer}
    (h : Envelope s m envelope) (hrest : .data b ∉ rest)
    (heq : envelope ++ .data a :: rest = pre ++ .data b :: post) : Envelope s m pre := by
  obtain ⟨rfl, -, -⟩ := (append_cons_inj_of_notMem (data_not_mem h.isEnvelope b) hrest).1 heq
  exact h

namespace Course

variable {m : Message} {record : Session} {result : Option Err}

theorem data_after_envelope (h : Course s m record result) {pre post : Session} {b : Answer}
    (heq : record = pre ++ .data b :: post) : Envelope s m pre := by
  cases h with
  | stopped e hrecord => exact absurd (by simp [heq]) (data_not_mem hrecord b)
  | refused a e henv => exact henv.of_data (by simp) heq
  | broken a cause e henv => exact henv.of_data (by simp) heq
  | rejected a verdict e henv hverdict => exact henv.of_data (by simp) heq
  | accepted a verdict bye henv hgo hverdict => exact henv.of_data (by simp) heq

theorem confirms_append_iff {envelope rest : Session} (h : Envelope s m envelope) :
    (∃ x ∈ envelope ++ rest, s.Confirms x) ↔ ∃ x ∈ rest, s.Confirms x := by
  constructor
  · rintro ⟨x, hx, hconfirms⟩
    rcases mem_append.1 hx with hx | hx
    · exact absurd hconfirms (not_confirms_of_isEnvelope (h.isEnvelope x hx))
    · exact ⟨x, hx, hconfirms⟩
  rintro ⟨x, hx, hconfirms⟩
  exact ⟨x, mem_append_right _ hx, hconfirms⟩

/-- The delivery is reported as done exactly where the message was confirmed. -/
theorem none_iff_confirmed (h : Course s m record result) :
    result = none ↔ ∃ x ∈ record, s.Confirms x := by
  cases h with
  | stopped e hrecord =>
    simp only [reduceCtorEq, false_iff, not_exists, not_and]
    exact fun x hx => not_confirms_of_isEnvelope (hrecord x hx)
  | refused a e henv =>
    rw [confirms_append_iff henv]
    simp [Server.Confirms]
  | broken a cause e henv =>
    rw [confirms_append_iff henv]
    simp [Server.Confirms, Server.Accepts, Server.refusal]
  | rejected a verdict e henv hverdict =>
    rw [confirms_append_iff henv]
    simp [Server.Confirms, hverdict]
  | accepted a verdict bye henv hgo hverdict =>
    rw [confirms_append_iff henv]
    simp [Server.Confirms, hverdict]

end Course

/-- **Delivery is all or nothing.** Whatever the upstream answers and wherever the connection
fails, `DATA` is started only after `MAIL` for the mailbox and `RCPT` for every recipient, in order
and once each, were accepted. The delivery returns no error exactly where the message was
confirmed, whatever became of `QUIT`; the message had then been written whole. So after an error
nothing in the record confirms the message. -/
theorem all_or_nothing (s : Server) (m : Message) (h : Session) :
    ∃ record, (deliver s m h).1 = h ++ record ∧
      (∀ pre a post, record = pre ++ .data a :: post → Envelope s m pre) ∧
      ((deliver s m h).2 = none ↔ ∃ x ∈ record, s.Confirms x) ∧
      ((deliver s m h).2 = none → ∃ envelope go verdict bye, Envelope s m envelope ∧
        record = envelope ++ [.data go, .write m.raw none, .close verdict, .quit bye]) ∧
      ((deliver s m h).2 ≠ none → ∀ x ∈ record, ¬ s.Confirms x) := by
  obtain ⟨record, hrecord, hcourse⟩ := deliver_course s m h
  have hiff := hcourse.none_iff_confirmed
  refine ⟨record, hrecord, fun pre a post => hcourse.data_after_envelope, hiff, fun hnone => ?_,
    fun herror x hx hconfirms => herror (hiff.2 ⟨x, hx, hconfirms⟩)⟩
  rw [hnone] at hcourse
  cases hcourse with
  | accepted a verdict bye henv hgo hverdict => exact ⟨_, a, verdict, bye, henv, rfl⟩

/-- The codes a client waits for: 250, 25x to `RCPT`, 354 to `DATA`, 221 to `QUIT`. -/
def exactClient : Client where
  validateLine line := if cr ∈ line ∨ lf ∈ line then some (.new (ascii "smtp: line break")) else none
  accepts
    | .mail, code => code = 250
    | .rcpt, code => code / 10 = 25
    | .data, code => code = 354
    | .close, code => code = 250
    | .quit, code => code = 221
  accepts_positive verb code h := by
    cases verb <;> simp only [decide_eq_true_eq] at h <;> omega

def curtServer : Server where
  toClient := exactClient
  answer h :=
    match h.getLast? with
    | some (.rcpt _ _) => .reply ⟨if h.length < 3 then 250 else 354, (0, 0, 0), ascii "OK"⟩
    | some (.close _) => .lost (.new (ascii "EOF"))
    | _ => .reply ⟨250, (2, 0, 0), ascii "OK"⟩

def twoRecipients : Message where
  id := ascii "m1"
  mailbox := { id := ascii "mb1", address := ascii "reports@example.com" }
  credential := { id := ascii "c1" }
  recipients := [ascii "a@example.com", ascii "b@example.com"]
  raw := ascii "Subject: hi"

/-- The message counts as delivered although `QUIT` failed. -/
theorem taken_despite_quit : (deliver curtServer twoRecipients []).2 = none ∧
      ∃ envelope go verdict bye, Envelope curtServer twoRecipients envelope ∧
        (deliver curtServer twoRecipients []).1 =
          envelope ++ [.data go, .write twoRecipients.raw none, .close verdict, .quit bye] := by
  have hnone : (deliver curtServer twoRecipients []).2 = none := rfl
  obtain ⟨record, hrecord, -, -, hwhole, -⟩ := all_or_nothing curtServer twoRecipients []
  rw [hrecord, nil_append]
  exact ⟨hnone, hwhole hnone⟩

/-! ## Whom a delivery asked for -/

def recipientsOf (record : Session) : List Bytes :=
  record.filterMap fun
    | .rcpt r _ => some r
    | _ => none

theorem Envelope.recipientsOf (h : Envelope s m record) : recipientsOf record = m.recipients := by
  obtain ⟨first, answers, rfl, hlength, -⟩ := h
  suffices hzip : ∀ (rcpts : List Bytes) (answers : List Answer), answers.length = rcpts.length →
      Transaction.recipientsOf (List.zipWith .rcpt rcpts answers) = rcpts from hzip _ _ hlength
  intro rcpts
  induction rcpts with
  | nil => exact fun _ _ => rfl
  | cons rcpt rest ih =>
    rintro (_ | ⟨a, answers⟩) hlength
    · cases hlength
    · exact congrArg (rcpt :: ·) (ih answers (Nat.succ.inj hlength))

/-- **A delivery that succeeded went to the recipients of the message**, each of them named once,
in order. -/
theorem deliver_recipients (hnone : (deliver s m []).2 = none) :
    Transaction.recipientsOf (deliver s m []).1 = m.recipients := by
  obtain ⟨record, hrecord, hcourse⟩ := deliver_course s m []
  rw [hrecord, nil_append]
  rw [hnone] at hcourse
  cases hcourse with
  | accepted a verdict bye henv hgo hverdict =>
    rw [Transaction.recipientsOf, filterMap_append, ← Transaction.recipientsOf, henv.recipientsOf]
    simp

end SmtpProxy.Transport.Transaction
