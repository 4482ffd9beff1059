import SmtpProxy.Policy.Resolve
import SmtpProxy.Smtpsrv.Headers

/-!
# One client connection

`session` of `internal/smtpsrv/session.go` with its SASL servers. go-smtp calls
the methods one at a time as the client issues commands; `step` is one such
call. What the outside answers, `Authenticate`, `Submit`, the reader of a DATA
payload, is part of the call.

go-smtp resets the session after every `Data`. A panic in a handler makes it
close the connection, which logs the session out; no call follows. Logging and
metrics are left out.
-/

namespace SmtpProxy.Smtpsrv

open Lib Policy
open Store (Mailbox)

/-! ## The server and its clients -/

/-- An authenticated account with what a submission is evaluated against. -/
structure Identity where
  accountID : Bytes
  username : Bytes
  account : Account
  mailboxes : List Mailbox
  deriving DecidableEq

/-- What go-sasl's PLAIN server makes of a call of `Next`: an empty challenge, an error, or a call
of the authenticator it was given. -/
inductive PlainStep where
  | challenge
  | failure (e : Err)
  | authenticate (identity username password : Bytes)

/-- go-sasl's PLAIN server. It is told whether it had a response before (`done`). -/
abbrev PlainServer := (done : Bool) → Option Bytes → PlainStep

/-- A PLAIN server that takes one response, of three parts between NULs. -/
def threeParts : PlainServer
  | true, _ => .failure (.new (ascii "sasl: unexpected client response"))
  | false, none => .challenge
  | false, some response =>
    match response.splitOn 0 with
    | [identity, username, password] => .authenticate identity username password
    | _ => .failure (.new (ascii "sasl: invalid response"))

/-- The part of the server a session reads. -/
structure Server where
  hostname : Bytes := []
  userAgent : Bytes := []
  allowInsecureAuth : Bool := false
  requireTLS : Bool := false
  recordSubjects : Bool := false
  maxMessageBytes : Int
  maxRecipients : Int
  maxAuthFailures : Int := 0
  plainServer : PlainServer := threeParts

/-- What is known of the peer: its address, as text, and its HELO name. -/
structure Peer where
  remoteIP : Option Bytes := none
  helo : Bytes := []

/-- A message ready to be queued. -/
structure Submission where
  identity : Identity
  mailbox : Option Mailbox
  envelopeFrom : Address
  headerFrom : Address
  recipients : List Bytes
  raw : Bytes
  subject : Bytes
  messageID : Bytes
  clientIP : Option Bytes
  clientHelo : Bytes
  tls : Bool
  receivedAt : Int

/-- Which prompt an AUTH LOGIN exchange waits on. -/
inductive LoginState where
  | username
  | password (username : Bytes)
  | done

/-- A SASL server in the middle of an exchange. -/
inductive Exchange where
  | plain (server : PlainServer) (done : Bool)
  | login (state : LoginState)

/-- The session. `exchange` is the SASL server go-smtp holds for it; `dropped`
says that it closed its connection, `dead` that a handler panicked. -/
structure Session where
  encrypted : Bool
  identity : Option Identity := none
  authFailures : Nat := 0
  envelopeFrom : Address := {}
  recipients : List Bytes := []
  exchange : Option Exchange := none
  dropped : Bool := false
  dead : Bool := false

inductive Result where
  | ok
  | failed (e : Err)
  | panicked (text : Bytes)

structure AuthCall where
  username : Bytes
  password : Bytes
  answer : Except Err Identity

/-- What a call did and returned. `challenge` and `done` are the further results
of a SASL server's `Next`. -/
structure Reply where
  result : Result
  challenge : Bytes := []
  done : Bool := false
  authenticated : List AuthCall := []
  submitted : List (Submission × Except Err Bytes) := []

def smtpError (code : Int) (enhanced : Int × Int × Int) (message : Bytes) : Err :=
  ⟨.smtp { code, enhanced, message }, []⟩

def errAuthFailed : Err := ⟨.sentinel (ascii "smtpsrv: authentication failed"), []⟩

def errAuthRequired : Err := smtpError 530 (5, 7, 0) (ascii "Authentication required")

/-! ## Authentication -/

def plain : Bytes := ascii "PLAIN"

def login : Bytes := ascii "LOGIN"

variable (srv : Server)

def Session.authMechanisms (s : Session) : List Bytes :=
  if !s.encrypted && !srv.allowInsecureAuth then [] else [plain, login]

def saslServers (mech : Bytes) : Except Err Exchange :=
  if mech = plain then .ok (.plain srv.plainServer false)
  else if mech = login then .ok (.login .username)
  else .error errAuthFailed

def Session.auth (s : Session) (mech : Bytes) : Except Err Exchange :=
  if !s.encrypted && !srv.allowInsecureAuth then
    .error (smtpError 538 (5, 7, 11)
      (ascii "Encryption required for requested authentication mechanism"))
  else saslServers srv mech

/-- `session.recordAuthFailure`: count the attempt, and drop the client once the
limit is reached. -/
def Session.recordAuthFailure (s : Session) : Session :=
  { s with
    authFailures := s.authFailures + 1
    dropped := s.dropped ||
      (decide (0 < srv.maxAuthFailures) && decide (srv.maxAuthFailures ≤ s.authFailures + 1)) }

def Session.authenticate (s : Session) (username password : Bytes) (answer : Except Err Identity) :
    Session × Reply :=
  let call : AuthCall := { username, password, answer }
  match answer with
  | .error _ => (s.recordAuthFailure srv, { result := .failed errAuthFailed, authenticated := [call] })
  | .ok identity => ({ s with identity := some identity }, { result := .ok, authenticated := [call] })

def Session.inExchange (s : Session) (e : Exchange) : Session := { s with exchange := some e }

/-- `Next` of the PLAIN server, with the authenticator `saslServers` gives it. -/
def Session.plainNext (s : Session) (server : PlainServer) (done : Bool) (response : Option Bytes)
    (answer : Except Err Identity) : Session × Reply :=
  let s := s.inExchange (.plain server (done || response.isSome))
  match server done response with
  | .challenge => (s, { result := .ok })
  | .failure e => (s, { result := .failed e })
  | .authenticate identity username password =>
    -- acting as another account is not supported
    if identity ≠ [] ∧ identity ≠ username then
      (s.recordAuthFailure srv, { result := .failed errAuthFailed, done := true })
    else
      let r := s.authenticate srv username password answer
      (r.1, { r.2 with done := true })

def maxLoginFieldLen : Nat := 1024

/-- `loginServer.Next`. A missing response reads as the empty string once the
username is known. -/
def Session.loginNext (s : Session) (state : LoginState) (response : Option Bytes)
    (answer : Except Err Identity) : Session × Reply :=
  match state with
  | .username =>
    match response with
    | none => (s, { result := .ok, challenge := ascii "Username:" })
    | some response =>
      if maxLoginFieldLen < response.length then
        (s.inExchange (.login .done), { result := .failed errAuthFailed, done := true })
      else
        (s.inExchange (.login (.password response)),
          { result := .ok, challenge := ascii "Password:" })
  | .password username =>
    let s := s.inExchange (.login .done)
    if maxLoginFieldLen < (response.getD []).length then
      (s, { result := .failed errAuthFailed, done := true })
    else
      let r := s.authenticate srv username (response.getD []) answer
      (r.1, { r.2 with done := true })
  | .done =>
    (s, { result := .failed (.new (ascii "smtpsrv: AUTH LOGIN exchange already finished")),
          done := true })

def Session.next (s : Session) (e : Exchange) (response : Option Bytes)
    (answer : Except Err Identity) : Session × Reply :=
  match e with
  | .plain server done => s.plainNext srv server done response answer
  | .login state => s.loginNext srv state response answer

/-! ## The envelope -/

variable (g : GoText)

def Session.mail (s : Session) (sender : Bytes) : Session × Reply :=
  if s.identity.isNone then (s, { result := .failed errAuthRequired })
  else if srv.requireTLS && !s.encrypted then
    (s, { result := .failed (smtpError 530 (5, 7, 0) (ascii "Must issue a STARTTLS command first")) })
  else
    match parseAddress g sender with
    | .error _ =>
      (s, { result := .failed (smtpError 501 (5, 1, 7) (ascii "Bad sender address syntax")) })
    | .ok addr => ({ s with envelopeFrom := addr, recipients := [] }, { result := .ok })

def badRecipient : Reply :=
  { result := .failed (smtpError 501 (5, 1, 3) (ascii "Bad recipient address syntax")) }

def Session.rcpt (s : Session) (recipient : Bytes) : Session × Reply :=
  if s.identity.isNone then (s, { result := .failed errAuthRequired })
  else if srv.maxRecipients ≤ s.recipients.length then
    (s, { result := .failed (smtpError 452 (4, 5, 3)
      (ascii "Too many recipients; this server accepts at most " ++ itoa srv.maxRecipients)) })
  else
    match parseAddress g recipient with
    | .error _ => (s, badRecipient)
    | .ok addr =>
      if addr.isEmpty then (s, badRecipient)
      else ({ s with recipients := s.recipients ++ [addr.original] }, { result := .ok })

def Session.reset (s : Session) : Session := { s with envelopeFrom := {}, recipients := [] }

/-! ## The message -/

/-- How a `Read` ends beside the bytes it delivers. -/
inductive ReadErr where
  | eof
  | failed

/-- What a reader delivers, one `Read` after the other; after them, EOF. -/
abbrev Reads := List (Bytes × Option ReadErr)

def messageTooLarge (limit : Int) : Err :=
  smtpError 552 (5, 3, 4) (ascii "Message exceeds the " ++ itoa limit ++ ascii " byte limit")

/-- The loop of `session.readMessage` over `io.LimitReader(r, limit+1)`, the sum
being one of 64 bits. A read that the limit cuts short leaves the buffer past it. -/
def readLoop (limit : Int) : Bytes → Reads → Except Err Bytes
  | buf, [] => .ok buf
  | buf, (chunk, err) :: rest =>
    let room := int64 (limit + 1) - buf.length
    if room ≤ 0 then .ok buf
    else
      let buf := buf ++ chunk.take room.toNat
      match (if room < chunk.length then none else err) with
      | some .eof => .ok buf
      | some .failed =>
        .error (smtpError 451 (4, 4, 2) (ascii "Connection error while reading the message"))
      | none =>
        if limit < buf.length then
          .error (messageTooLarge limit)
        else readLoop limit buf rest

def readMessage (reads : Reads) : Except Err Bytes := readLoop srv.maxMessageBytes [] reads

def digits (p : Bytes) : Option Int :=
  p.foldlM (fun n c => if 48 ≤ c ∧ c ≤ 57 then some (n * 10 + (c.toNat - 48 : Nat)) else none) 0

def parseEnhanced (s : Bytes) : Int × Int × Int :=
  match s.splitOn 46 with
  | [a, b, c] =>
    match digits a, digits b, digits c with
    | some a, some b, some c => (a, b, c)
    | _, _, _ => (0, 0, 0)
  | _ => (0, 0, 0)

/-- A DATA command: what the payload's reader delivers, the order in which the
header map is visited, the time as text and as a number, and what `Submit`
answers. -/
structure DataCall where
  reads : Reads
  order : MapOrder
  stamp : Bytes := []
  receivedAt : Int := 0
  answer : Except Err Bytes

variable (peer : Peer)

def Session.receivedHeader (s : Session) (identity : Identity) (stamp : Bytes) : Bytes :=
  ascii "from " ++ (if peer.helo ≠ [] then sanitizeHeaderValue peer.helo else ascii "unknown") ++
    (match peer.remoteIP with
      | some ip => ascii " (" ++ ip ++ ascii ")"
      | none => []) ++
    ascii " by " ++ srv.hostname ++ ascii " (" ++ srv.userAgent ++ ascii ") with " ++
    (if s.encrypted then ascii "ESMTPSA" else ascii "ESMTPA") ++
    ascii " id " ++ identity.username ++ ascii "; " ++ stamp

/-- The edits `session.applyDecision` makes. -/
def Session.decisionEdits (s : Session) (identity : Identity) (parsed : Message) (d : Decision)
    (headerFrom : Address) (stamp : Bytes) : List HeaderEdit :=
  let received : HeaderEdit :=
    { key := ascii "Received", value := s.receivedHeader srv peer identity stamp, prepend := true }
  if d.action = .rewrite then
    [received, { key := ascii "From", value := d.rewriteFrom },
      { key := ascii "X-Original-From", value := headerFrom.string g }] ++
    if parsed.get (ascii "Reply-To") = [] ∧ headerFrom.isEmpty = false then
      [{ key := ascii "Reply-To", value := headerFrom.string g }]
    else []
  else [received]

/-- `session.applyDecision`: the final message and its `From`, or the text of the
panic of `MustParseAddress`. -/
def Session.applyDecision (s : Session) (identity : Identity) (o : MapOrder) (parsed : Message)
    (d : Decision) (headerFrom : Address) (stamp : Bytes) : Except Bytes (Bytes × Address) :=
  let final := parsed.rewriteHeaders o
    (s.decisionEdits srv g peer identity parsed d headerFrom stamp)
  if d.action = .rewrite then
    match mustParseAddress g d.rewriteFrom with
    | .error text => .error text
    | .ok a => .ok (final, a)
  else .ok (final, headerFrom)

/-- The address the policy is enforced against, `errors.Is(err, ErrNoAddress)`
standing for an empty one. -/
def checkedFrom (parsed : Message) : Except Err Address :=
  match parseHeaderFrom g (parsed.get (ascii "From")) with
  | .ok a => .ok a
  | .error e => if e.is errNoAddress then .ok {} else .error e

def Session.submission (s : Session) (identity : Identity) (parsed : Message) (d : Decision)
    (final : Bytes) (finalFrom : Address) (receivedAt : Int) : Submission where
  identity := identity
  mailbox := d.mailbox
  envelopeFrom := s.envelopeFrom
  headerFrom := finalFrom
  recipients := s.recipients
  raw := final
  subject := if srv.recordSubjects then parsed.get (ascii "Subject") else []
  messageID := trimSet (ascii "<>") (parsed.get (ascii "Message-Id"))
  clientIP := peer.remoteIP
  clientHelo := peer.helo
  tls := s.encrypted
  receivedAt := receivedAt

def Session.data (s : Session) (c : DataCall) : Reply :=
  match s.identity with
  | none => { result := .failed errAuthRequired }
  | some identity =>
    if s.recipients = [] then
      { result := .failed (smtpError 554 (5, 5, 1) (ascii "No valid recipients")) }
    else
      match readMessage srv c.reads with
      | .error e => { result := .failed e }
      | .ok raw =>
        match parseMessage g raw with
        | .error e =>
          { result := .failed (smtpError 550 (5, 6, 0)
              (ascii "Message could not be parsed: " ++ e.text)) }
        | .ok parsed =>
          match checkedFrom g parsed with
          | .error e =>
            { result := .failed (smtpError 550 (5, 7, 1) (ascii "Bad From header: " ++ e.text)) }
          | .ok headerFrom =>
            let d := resolve g ⟨identity.account, identity.mailboxes, s.envelopeFrom, headerFrom⟩
            if d.rejected then
              { result := .failed (smtpError d.code (parseEnhanced d.enhanced) d.reason) }
            else
              match s.applyDecision srv g peer identity c.order parsed d headerFrom c.stamp with
              | .error text => { result := .panicked text }
              | .ok (final, finalFrom) =>
                let sub := s.submission srv peer identity parsed d final finalFrom c.receivedAt
                match c.answer with
                | .error e =>
                  { result := .failed (smtpError 451 (4, 3, 0)
                      (ascii "Could not queue the message; please retry")),
                    submitted := [(sub, .error e)] }
                | .ok id => { result := .ok, submitted := [(sub, .ok id)] }

/-- Everything a `Data` call can come to: it is refused before `Submit`, or it
calls `Submit` once and returns according to the answer. -/
inductive DataCourse (s : Session) (c : DataCall) : Reply → Prop where
  | refused {r : Reply} (hres : r.result ≠ .ok) (hsub : r.submitted = [])
      (hauth : r.authenticated = []) : DataCourse s c r
  | submitted {r : Reply} {identity : Identity} {raw final : Bytes} {parsed : Message}
      {headerFrom finalFrom : Address} {d : Decision} (hid : s.identity = some identity)
      (hne : s.recipients ≠ []) (hread : readMessage srv c.reads = .ok raw)
      (hparse : parseMessage g raw = .ok parsed)
      (hfrom : checkedFrom g parsed = .ok headerFrom)
      (hd : d = resolve g ⟨identity.account, identity.mailboxes, s.envelopeFrom, headerFrom⟩)
      (hrej : d.rejected = false)
      (hfinal : s.applyDecision srv g peer identity c.order parsed d headerFrom c.stamp
        = .ok (final, finalFrom))
      (hsub : r.submitted
        = [(s.submission srv peer identity parsed d final finalFrom c.receivedAt, c.answer)])
      (hres : r.result = .ok ↔ ∃ id, c.answer = .ok id) (hauth : r.authenticated = []) :
      DataCourse s c r

theorem data_course (s : Session) (c : DataCall) :
    DataCourse srv g peer s c (s.data srv g peer c) := by
  unfold Session.data
  split
  · exact .refused (by simp) rfl rfl
  next identity hid =>
  split
  · exact .refused (by simp) rfl rfl
  next hne =>
  split
  · exact .refused (by simp) rfl rfl
  next raw hread =>
  split
  · exact .refused (by simp) rfl rfl
  next parsed hparse =>
  split
  · exact .refused (by simp) rfl rfl
  next headerFrom hfrom =>
  dsimp only
  split
  · exact .refused (by simp) rfl rfl
  next hrej =>
  have hrej' := eq_false_of_ne_true hrej
  split
  · exact .refused (by simp) rfl rfl
  next final finalFrom hfinal =>
  split
  · next e he =>
    exact .submitted hid hne hread hparse hfrom rfl hrej' hfinal (by rw [he])
      (by simp [he]) rfl
  next id he =>
  exact .submitted hid hne hread hparse hfrom rfl hrej' hfinal (by rw [he])
    (by simp [he]) rfl

/-! ## The session as a machine -/

/-- What go-smtp may do with a session. -/
inductive Call where
  | startTLS
  | auth (mech : Bytes)
  | next (response : Option Bytes) (answer : Except Err Identity)
  | mail (sender : Bytes)
  | rcpt (recipient : Bytes)
  | data (c : DataCall)
  | reset

/-- One call. TLS is switched on at most once; `Data` is followed by a reset. -/
def step (s : Session) (c : Call) : Option (Session × Reply) :=
  if s.dead then none
  else
    match c with
    | .startTLS => if s.encrypted then none else some ({ s with encrypted := true }, { result := .ok })
    | .auth mech =>
      match s.auth srv mech with
      | .error e => some (s, { result := .failed e })
      | .ok e => some (s.inExchange e, { result := .ok })
    | .next response answer => s.exchange.map fun e => s.next srv e response answer
    | .mail sender => some (s.mail srv g sender)
    | .rcpt recipient => some (s.rcpt srv g recipient)
    | .data c =>
      let r := s.data srv g peer c
      let dead := match r.result with
        | .panicked _ => true
        | _ => false
      some ({ s.reset with dead }, r)
    | .reset => some (s.reset, { result := .ok })

end SmtpProxy.Smtpsrv
