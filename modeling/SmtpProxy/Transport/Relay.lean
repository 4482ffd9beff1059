import SmtpProxy.Transport.Transaction

/-!
# The SMTP relay

`internal/transport/smtprelay/smtprelay.go`. The upstream is a parameter: the
token source, the network and the server. `send` returns the record of the
transaction along with its result, because what the relay asked for is as much
part of its behaviour as what it reports.

Only obtaining a token and dialling look at the context; from then on the
dialogue runs to its end whatever happens to it. The deadline of the connection,
`Close` and logging are left out.
-/

namespace SmtpProxy.Transport.Relay

open Lib Transaction

/-- A server that answers 250 to everything, and a client content with it. -/
def obligingServer : Server where
  validateLine := fun _ => none
  accepts := fun _ code => 200 ≤ code && code < 400
  accepts_positive := fun _ _ h => by simpa using h
  answer := fun _ => .reply { code := 250, message := ascii "OK" }

/-- What one delivery meets: the token source, the network and the server. -/
structure Upstream where
  /-- `Tokens.Token`; a cached token may be returned even under a done context. -/
  token : (ctxDone : Bool) → Except Err Bytes
  dial : Option Err := none
  startTLS : Option Err := none
  hello : Option Err := none
  offersXOAuth2 : Bool := true
  /-- The verdict on the initial response of XOAUTH2. -/
  auth : Bytes → Option Err := fun _ => none
  server : Server := obligingServer

structure Options where
  /-- `net.JoinHostPort(Host, Port)`. -/
  address : Bytes
  /-- `strconv.Quote`, for one message text. -/
  quote : Bytes → Bytes := id

def classifyAuth (err : Err) (mailbox : Bytes) : Err :=
  let (code, message) := match err.asSMTP with
    | some smtpErr => (enhancedOrNumeric smtpErr, trimSpace smtpErr.message)
    | none => (ascii "535", err.text)
  newAuthFailure code (ascii "authenticating as " ++ mailbox ++ ascii " failed: " ++ message)
    (some err)

/-! ## The dialogue -/

/-- `oauth.BuildXOAuth2`. -/
def buildXOAuth2 (quote : Bytes → Bytes) (mailbox accessToken : Bytes) : Except Err Bytes :=
  let isControl := fun b : UInt8 => b = 1 || b = cr || b = lf
  if mailbox = [] then .error (.new (ascii "oauth: XOAUTH2 needs a mailbox address"))
  else if accessToken = [] then .error (.new (ascii "oauth: XOAUTH2 needs an access token"))
  else if mailbox.any isControl then
    .error (.new (ascii "oauth: mailbox " ++ quote mailbox ++ ascii " contains a control character"))
  else if accessToken.any isControl then
    .error (.new (ascii "oauth: the access token contains a control character"))
  else .ok (ascii "user=" ++ mailbox ++ [1] ++ ascii "auth=Bearer " ++ accessToken ++ [1, 1])

def connect (o : Options) (u : Upstream) (ctx : Ctx) : Option Err :=
  let dialled := if ctx.done .dial then some errCanceled else u.dial
  match dialled with
  | some e =>
    some (newTransient (ascii "net")
      (ascii "could not connect to " ++ o.address ++ ascii ": " ++ e.text) (some e))
  | none =>
    match u.startTLS with
    | some e => some (classify e (ascii "STARTTLS failed"))
    | none =>
      match u.hello with
      | some e => some (classify e (ascii "EHLO failed"))
      | none => none

def authenticate (o : Options) (u : Upstream) (mailbox accessToken : Bytes) : Option Err :=
  if ¬ u.offersXOAuth2 then
    some (newTransient (ascii "smtp")
      (ascii "the server does not offer AUTH XOAUTH2 after STARTTLS") none)
  else
    match buildXOAuth2 o.quote mailbox accessToken with
    | .error e => some (newPermanent (ascii "xoauth2") e.text (some e))
    | .ok initial => (u.auth initial).map fun e => classifyAuth e mailbox

def send (o : Options) (u : Upstream) (ctx : Ctx) (m : Message) : Session × Option Err :=
  match u.token (ctx.done .token) with
  | .error e =>
    ([], some (newTransient (ascii "oauth")
      (ascii "could not obtain an access token: " ++ e.text) (some e)))
  | .ok accessToken =>
    match connect o u ctx with
    | some e => ([], some e)
    | none =>
      match authenticate o u m.mailbox.address accessToken with
      | some e => ([], some e)
      | none => deliver u.server m []

/-- **A message whose `Send` succeeded went to its own recipients.** -/
theorem send_ok_recipients {o : Options} {u : Upstream} {ctx : Ctx} {m : Message} {record : Session}
    (h : send o u ctx m = (record, none)) : recipientsOf record = m.recipients := by
  unfold send at h
  split at h
  · cases h
  split at h
  · cases h
  split at h
  · cases h
  obtain ⟨hrecord, hnone⟩ := Prod.ext_iff.1 h
  rw [← show _ = record from hrecord]
  exact deliver_recipients hnone

end SmtpProxy.Transport.Relay
