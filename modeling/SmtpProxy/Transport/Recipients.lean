import SmtpProxy.Lib.HeaderBlock
import SmtpProxy.Transport.Graph
import SmtpProxy.Transport.Relay

/-!
# Whom the two transports deliver to

The relay names the envelope recipients in `RCPT` commands. Graph is given the
MIME message alone and delivers to the addresses in its `To`, `Cc` and `Bcc`
fields. The two coincide exactly when the header block names the envelope
recipients, no more and no fewer (`transports_agree_iff`): a blind recipient,
who stands in the envelope only, is reached through the relay and not through
Graph, and both report success.

How Graph reads an address list is a parameter of the statements.
-/

namespace SmtpProxy.Transport

open Lib

/-- The addresses a message names in its own header block. `readList` reads the
value of one address field. -/
def namedRecipients (readList : Bytes → List Bytes) (raw : Bytes) : List Bytes :=
  [ascii "to", ascii "cc", ascii "bcc"].flatMap fun name =>
    (fieldsNamed name raw).flatMap fun f => readList f.value

def Graph.recipientsOf (readList : Bytes → List Bytes) (request : Option Graph.Request) :
    List Bytes :=
  match request.bind fun r => Base64.decode r.body with
  | some raw => namedRecipients readList raw
  | none => []

def SameSet (a b : List Bytes) : Prop := ∀ x, x ∈ a ↔ x ∈ b

def bareList (value : Bytes) : List Bytes := (value.splitOn 44).map trimSpace

/-- **Both transports deliver to the envelope recipients exactly when the header
block names them.** -/
theorem transports_agree_iff (readList : Bytes → List Bytes) {ro : Relay.Options}
    {u : Relay.Upstream} {go : Graph.Options} {s : Graph.Service} {ctx : Ctx} {m : Message}
    {record : Transaction.Session} {request : Option Graph.Request}
    (hrelay : Relay.send ro u ctx m = (record, none))
    (hgraph : Graph.send go s ctx m = (request, none)) :
    (SameSet (Transaction.recipientsOf record) m.recipients ∧
        SameSet (Graph.recipientsOf readList request) m.recipients) ↔
      SameSet (namedRecipients readList m.raw) m.recipients := by
  obtain ⟨r, rfl, hbody⟩ := Graph.send_ok_request hgraph
  have hnamed : Graph.recipientsOf readList (some r) = namedRecipients readList m.raw := by
    unfold Graph.recipientsOf
    rw [Option.bind_some, hbody]
  rw [Relay.send_ok_recipients hrelay, hnamed]
  exact and_iff_right fun _ => Iff.rfl

def acceptingRelay : Relay.Upstream := { token := fun _ => .ok (ascii "t") }

def acceptingGraph : Graph.Service where
  token := fun _ => .ok (ascii "t")
  respond := fun _ => .ok { status := 202 }

def messageTo (recipients : List Bytes) (raw : Bytes) : Message where
  id := ascii "m"
  mailbox := { id := ascii "b", address := ascii "a@x" }
  credential := { id := ascii "c" }
  recipients := recipients
  raw := raw

/-- A message whose header names its only recipient. -/
theorem transports_agree_iff_named :
    (SameSet (Transaction.recipientsOf (Relay.send ⟨[], id⟩ acceptingRelay {}
        (messageTo [ascii "r@y"] (ascii "To: r@y\r\n\r\nhi"))).1) [ascii "r@y"] ∧
      SameSet (Graph.recipientsOf bareList (Graph.send { endpoint := ascii "https://g" }
        acceptingGraph {} (messageTo [ascii "r@y"] (ascii "To: r@y\r\n\r\nhi"))).1)
        [ascii "r@y"]) ↔
      SameSet (namedRecipients bareList (ascii "To: r@y\r\n\r\nhi")) [ascii "r@y"] :=
  transports_agree_iff bareList (m := messageTo [ascii "r@y"] (ascii "To: r@y\r\n\r\nhi"))
    (show Relay.send ⟨[], id⟩ acceptingRelay {} _ = (_, none) from rfl)
    (show Graph.send { endpoint := ascii "https://g" } acceptingGraph {} _ = (_, none) from rfl)

/-- A blind recipient: both transports report success, and Graph was never told
of `hidden@y`. -/
theorem blind_recipient_lost : (Relay.send ⟨[], id⟩ acceptingRelay {}
        (messageTo [ascii "r@y", ascii "hidden@y"] (ascii "To: r@y\r\n\r\nhi"))).2 = none ∧
    (Graph.send { endpoint := ascii "https://g" } acceptingGraph {}
        (messageTo [ascii "r@y", ascii "hidden@y"] (ascii "To: r@y\r\n\r\nhi"))).2 = none ∧
    ascii "hidden@y" ∈ Transaction.recipientsOf (Relay.send ⟨[], id⟩ acceptingRelay {}
        (messageTo [ascii "r@y", ascii "hidden@y"] (ascii "To: r@y\r\n\r\nhi"))).1 ∧
    Graph.recipientsOf bareList (Graph.send { endpoint := ascii "https://g" } acceptingGraph {}
        (messageTo [ascii "r@y", ascii "hidden@y"] (ascii "To: r@y\r\n\r\nhi"))).1
      = [ascii "r@y"] := by
  refine ⟨rfl, rfl, by decide, by decide⟩

end SmtpProxy.Transport
