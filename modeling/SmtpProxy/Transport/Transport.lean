import SmtpProxy.Store.Models

/-!
# The transport interface

`internal/transport/transport.go`: what a delivery attempt carries, and how a
delivery failure is classified. The queue never looks at an error itself; it
asks `isPermanent`, `retryAfter` and `asFailure`, which read the first
`*transport.Error` in the chain of causes.
-/

namespace SmtpProxy.Transport

open Lib Store

/-- `transport.Message`, one delivery attempt's worth of state. -/
structure Message where
  id : Bytes
  mailbox : Mailbox
  credential : OAuthCredential
  recipients : List Bytes
  raw : Bytes
  deriving DecidableEq

/-- `(*Message).EnvelopeFrom`: always the mailbox, whatever the client asked for. -/
def Message.envelopeFrom (m : Message) : Bytes := m.mailbox.address

/-! ## The delivery's context -/

/-- The points, in order, at which a delivery can meet the cancellation of its
context: three loads, the wait for the mailbox's budget, the transport's token
and its connection, the dialogue with the upstream, and the outcome write. -/
inductive Stage where
  | mailbox
  | credential
  | body
  | acquire
  | token
  | dial
  | dialogue
  | outcome
  deriving DecidableEq

def Stage.idx : Stage → Nat
  | .mailbox => 0
  | .credential => 1
  | .body => 2
  | .acquire => 3
  | .token => 4
  | .dial => 5
  | .dialogue => 6
  | .outcome => 7

/-- A context, by the stage before or during which it is cancelled, if it is. -/
structure Ctx where
  cancelled : Option Stage := none
  deriving DecidableEq

def Ctx.done (c : Ctx) (s : Stage) : Bool := c.cancelled.any fun at_ => decide (at_.idx ≤ s.idx)

def errCanceled : Err := ⟨.sentinel (ascii "context canceled"), []⟩

/-! ## Reading an error -/

/-- `IsPermanent`. Anything not explicitly permanent is retried. -/
def isPermanent (e : Err) : Bool := e.asTransport.any (·.permanent)

def retryAfter (e : Err) : Int := (e.asTransport.map (·.retryAfter)).getD 0

def asFailure (e : Err) : Failure :=
  match e.asTransport with
  | some t => ⟨t.code, t.message, t.permanent⟩
  | none => ⟨[], e.text, false⟩

/-! ## Building an error -/

/-- The nodes below a `*transport.Error` whose `Err` field is `cause`. -/
def causeNodes (cause : Option Err) : List ErrNode := (cause.map Err.nodes).getD []

def newPermanent (code message : Bytes) (cause : Option Err) : Err :=
  ⟨.transport { code, message, permanent := true }, causeNodes cause⟩

def newTransient (code message : Bytes) (cause : Option Err) : Err :=
  ⟨.transport { code, message }, causeNodes cause⟩

def newThrottled (code message : Bytes) (retryAfter : Int) (cause : Option Err) : Err :=
  ⟨.transport { code, message, retryAfter }, causeNodes cause⟩

/-- The advice appended to every authentication failure; the dash is U+2014. -/
def authFailureHint : Bytes :=
  ascii " " ++ [0xe2, 0x80, 0x94] ++
  ascii " check that admin consent was granted for SMTP.SendAsApp, " ++
  ascii "that New-ServicePrincipal used the Object ID from Enterprise applications, " ++
  ascii "and that Add-MailboxPermission was run for this mailbox"

/-- `NewAuthFailure`: deliberately not permanent. -/
def newAuthFailure (code message : Bytes) (cause : Option Err) : Err :=
  ⟨.transport { code, message := trimSpace message ++ authFailureHint, auth := true },
    causeNodes cause⟩

@[simp] theorem isPermanent_newPermanent (code message : Bytes) (cause : Option Err) :
    isPermanent (newPermanent code message cause) = true := by
  simp [isPermanent, newPermanent]

end SmtpProxy.Transport
