import SmtpProxy.App.Revocation
import SmtpProxy.Policy.Canonical
import SmtpProxy.Queue.FailureText

/-!
# What the queue has the database store

PostgreSQL refuses a text that is not UTF-8 or has a NUL in it. A client chooses most
of the texts of a queued message, and the upstream those of a failure.

The addresses are texts because the address parser lets nothing else through, which the
session keeps as an invariant (`textEnvelope_step`). But `Message-Id` and `Subject` are
stored as they stand in the header, where any byte from 128 on may occur, and the
upstream's texts are not looked at either.
-/

namespace SmtpProxy.App

open Lib Lib.Utf8 Policy Smtpsrv List Option
open Store (Draft)

def clientTexts (d : Draft) : List Bytes :=
  [d.envelopeFrom, d.headerFrom, d.subject, d.messageID, d.clientIP] ++ d.recipients

/-! ## The envelope -/

structure TextEnvelope (s : Session) : Prop where
  envelopeFrom : IsText s.envelopeFrom.original
  recipients : ∀ r ∈ s.recipients, IsText r

section
variable {srv : Server} {g : GoText} {lib : NetMail.Tables} {peer : Peer} {s : Session}

theorem textEnvelope_step {s' : Session} {c : Call} {r : Reply} (h : TextEnvelope s)
    (hs : SessionStep srv (g.withMail lib) peer s c s' r) : TextEnvelope s' := by
  have hempty : TextEnvelope s.reset := ⟨.nil, fun r hr => absurd hr not_mem_nil⟩
  cases hs with
  | startTLS => exact ⟨h.envelopeFrom, h.recipients⟩
  | refused => exact h
  | auth => exact ⟨h.envelopeFrom, h.recipients⟩
  | next _ hnext =>
    constructor
    · rw [hnext.envelopeFrom]
      exact h.envelopeFrom
    rw [hnext.recipients]
    exact h.recipients
  | mail haddr => exact ⟨parseAddress_text haddr, by simp⟩
  | rcpt haddr =>
    refine ⟨h.envelopeFrom, fun r hr => ?_⟩
    obtain hold | hnew := mem_append.1 hr
    · exact h.recipients r hold
    rw [mem_singleton.1 hnew]
    exact parseAddress_text haddr
  | data => exact ⟨hempty.envelopeFrom, hempty.recipients⟩
  | reset => exact hempty

/-- **Whatever a client sends, its envelope has texts only.** -/
theorem textEnvelope_run {initial : Bool} {t : Trace}
    (h : Reach (traceStep srv (g.withMail lib) peer) (fun _ _ => True) (.init initial) t) :
    TextEnvelope t.session := by
  have hinit : TextEnvelope (Trace.init initial).session :=
    ⟨.nil, fun r hr => absurd hr not_mem_nil⟩
  refine Reach.invariant (I := fun t => TextEnvelope t.session) hinit ?_ h
  intro u c v hu _ hs
  obtain ⟨⟨s', r⟩, hstep, rfl⟩ := map_eq_some_iff.1 hs
  exact textEnvelope_step hu (step_cases srv (g.withMail lib) peer hstep)

/-! ## The header -/

variable {parsed : Message}

theorem checkedFrom_text {a : Address} (h : checkedFrom (g.withMail lib) parsed = .ok a) :
    IsText a.original := by
  unfold checkedFrom at h
  split at h
  · next hfrom =>
    rw [← Except.ok.inj h]
    exact parseHeaderFrom_text hfrom
  split at h
  · rw [← Except.ok.inj h]
    exact .nil
  · cases h

theorem applyDecision_text {identity : Identity} {o : MapOrder} {d : Decision}
    {headerFrom finalFrom : Address} {stamp final : Bytes} (hfrom : IsText headerFrom.original)
    (h : s.applyDecision srv (g.withMail lib) peer identity o parsed d headerFrom stamp =
      .ok (final, finalFrom)) :
    IsText finalFrom.original := by
  unfold Session.applyDecision at h
  dsimp only at h
  split at h
  · split at h
    · cases h
    · next a ha =>
      rw [← (Prod.mk.inj (Except.ok.inj h)).2]
      unfold mustParseAddress at ha
      split at ha
      · next hparse =>
        rw [← Except.ok.inj ha]
        exact parseAddress_text hparse
      · cases ha
  rw [← (Prod.mk.inj (Except.ok.inj h)).2]
  exact hfrom

structure HeaderText (srv : Server) (parsed : Message) : Prop where
  messageID : valid (parsed.get (ascii "Message-Id")) = true
  subject : srv.recordSubjects = true → valid (parsed.get (ascii "Subject")) = true

/-- A header value never has a NUL, so only the encoding is left to ask for. -/
theorem isText_get_iff {raw : Bytes} (h : parseMessage g raw = .ok parsed) (name : Bytes) :
    IsText (parsed.get name) ↔ valid (parsed.get name) = true :=
  ⟨fun htext => htext.utf8, fun hvalid => ⟨hvalid, Textproto.get_no_nul (parseMessage_ok h).2 name⟩⟩

theorem angles_ascii : ∀ b ∈ ascii "<>", b < 0x80 ∧ b ≠ 0 := by decide +kernel

theorem headerText_iff {raw : Bytes} (h : parseMessage g raw = .ok parsed) {identity : Identity}
    {d : Decision} {final : Bytes} {finalFrom : Address} {receivedAt : Int} {sub : Submission}
    (hsub : sub = s.submission srv peer identity parsed d final finalFrom receivedAt) :
    IsText sub.messageID ∧ IsText sub.subject ↔ HeaderText srv parsed := by
  have hid : IsText sub.messageID ↔ valid (parsed.get (ascii "Message-Id")) = true := by
    rw [← isText_get_iff h, hsub]
    exact isText_trimSet_iff angles_ascii _
  have hsubject : IsText sub.subject ↔
      (srv.recordSubjects = true → valid (parsed.get (ascii "Subject")) = true) := by
    rw [← isText_get_iff h, hsub]
    show IsText (if srv.recordSubjects then parsed.get (ascii "Subject") else []) ↔ _
    split
    · next hrec => exact ⟨fun htext _ => htext, fun htext => htext hrec⟩
    · next hrec => exact ⟨fun _ hrec' => absurd hrec' hrec, fun _ => .nil⟩
  rw [hid, hsubject]
  exact ⟨fun ⟨h₁, h₂⟩ => ⟨h₁, h₂⟩, fun ⟨h₁, h₂⟩ => ⟨h₁, h₂⟩⟩

/-- The peer's address, if known, is an IP address as the library writes it. -/
def WrittenBy (n : NetText) (peer : Peer) : Prop :=
  ∀ text ∈ peer.remoteIP, ∃ ip, IsIP ip ∧ text = n.ipString ip

theorem remoteIP_text {n : NetText} (hn : n.Lawful) (hpeer : WrittenBy n peer) :
    IsText (peer.remoteIP.getD []) := by
  have hbytes : ∀ b : UInt8, isAddrByte b = true → b < 0x80 ∧ b ≠ 0 :=
    forall_byte (by decide +kernel)
  cases hip : peer.remoteIP with
  | none => exact .nil
  | some text =>
    obtain ⟨ip, hisIP, rfl⟩ := hpeer text hip
    exact isText_of_ascii fun b hb => hbytes b (hn.string_bytes ip hisIP b hb)

/-- **A queued message has texts only exactly if its header has.** -/
theorem clientTexts_iff {n : NetText} (hn : n.Lawful) (hpeer : WrittenBy n peer)
    (henv : TextEnvelope s) {c : DataCall} {sub : Submission} {answer : Except Err Bytes}
    (hsub : (sub, answer) ∈ (s.data srv (g.withMail lib) peer c).submitted) {draft : Draft}
    (hdraft : submitDraft sub = some draft) {raw : Bytes}
    (hraw : readMessage srv c.reads = .ok raw)
    (hparsed : parseMessage (g.withMail lib) raw = .ok parsed) :
    (∀ x ∈ clientTexts draft, IsText x) ↔ HeaderText srv parsed := by
  obtain ⟨mb, -, rfl⟩ := map_eq_some_iff.1 hdraft
  cases data_course srv (g.withMail lib) peer s c with
  | refused _ hnone =>
    rw [hnone] at hsub
    cases hsub
  | submitted _ _ hread hparse hfrom _ _ hfinal hone =>
  cases hraw.symm.trans hread
  cases hparsed.symm.trans hparse
  rw [hone] at hsub
  have hthis := (Prod.mk.inj (mem_singleton.1 hsub)).1
  have hheaderFrom : IsText sub.headerFrom.original := by
    rw [hthis]
    exact applyDecision_text (checkedFrom_text hfrom) hfinal
  have henvelopeFrom : IsText sub.envelopeFrom.original := by
    rw [hthis]
    exact henv.envelopeFrom
  have hrecipients : ∀ r ∈ sub.recipients, IsText r := by
    rw [hthis]
    exact henv.recipients
  have hclientIP : IsText (sub.clientIP.getD []) := by
    rw [hthis]
    exact remoteIP_text hn hpeer
  rw [← headerText_iff hparsed hthis]
  constructor
  · intro h
    exact ⟨h _ (by simp [clientTexts]), h _ (by simp [clientTexts])⟩
  rintro ⟨hid, hsubject⟩ x hx
  simp only [clientTexts, cons_append, nil_append, mem_cons] at hx
  obtain rfl | rfl | rfl | rfl | rfl | hx := hx
  · exact henvelopeFrom
  · exact hheaderFrom
  · exact hsubject
  · exact hid
  · exact hclientIP
  · exact hrecipients x hx

end

open Queue Store Transport

/-- **The queue's writes have texts exactly where the header and the upstream have.** For
every message that `Data` submits, after any commands of any client; for every reply of
an SMTP upstream at any step of the dialogue; and for every response of Graph. -/
theorem stored_texts_iff (b : Backoff) (random : ℚ) (now : Int) (row : Store.Message)
    (m : Transport.Message) :
    (∀ (srv : Server) (g : GoText) (lib : NetMail.Tables) (n : NetText) (peer : Peer) (initial : Bool)
        (t : Trace), n.Lawful → WrittenBy n peer →
      Reach (traceStep srv (g.withMail lib) peer) (fun _ _ => True) (.init initial) t →
      ∀ (c : DataCall) (sub : Submission) (answer : Except Err Bytes) (draft : Draft) (raw : Bytes)
        (parsed : Smtpsrv.Message),
      (sub, answer) ∈ (t.session.data srv (g.withMail lib) peer c).submitted →
      submitDraft sub = some draft → readMessage srv c.reads = .ok raw →
      parseMessage (g.withMail lib) raw = .ok parsed →
      ((∀ x ∈ clientTexts draft, IsText x) ↔ HeaderText srv parsed)) ∧
    (∀ (o : Relay.Options) (u : Relay.Upstream) (ctx : Ctx) (e : Err),
      TextOptions o → RepliesOnly u → TextMessage m → (Relay.send o u ctx m).2 = some e →
      ((recordFailure b random now row e).Text ↔
        ∀ reply, cause e = some reply → Gives u reply → IsText (said reply))) ∧
    ∀ (o : Graph.Options) (rd : Graph.Reader) (r : Graph.HTTPResponse) (e : Err),
      (∀ status, IsText (o.statusText status)) → IsText m.mailbox.address →
      Graph.classify o (r.read rd) m = some e →
      ((recordFailure b random now row e).Text ↔ Legible rd r) := by
  refine ⟨?_, ?_, ?_⟩
  · intro srv g lib n peer initial t hn hpeer hrun c sub answer draft raw parsed hsub hdraft hraw hparsed
    exact clientTexts_iff hn hpeer (textEnvelope_run hrun) hsub hdraft hraw hparsed
  · intro o u ctx e ho hplain hm hsend
    rw [recordFailure_text]
    exact send_blames ho hplain hm hsend
  intro o rd r e ho hm hclassify
  rw [recordFailure_text]
  exact classify_legible_iff ho hm hclassify

/-- A client that has authenticated and named a sender and a recipient. -/
def envelopeCalls : List Call :=
  [.auth plain, .next (some (0 :: ascii "u" ++ 0 :: ascii "p")) (.ok senderIdentity),
    .mail (ascii "<a@x>"), .rcpt (ascii "<r@y>")]

def atOffice : Peer := { remoteIP := some (ascii "192.0.2.1") }

theorem atOffice_written : WrittenBy dottedText atOffice := by
  intro text htext
  cases htext
  exact ⟨[192, 0, 2, 1], .inl rfl, by decide⟩

def queuedTexts (t : Trace) (raw : Bytes) : List (Option (List Bytes)) :=
  (t.session.data smallServer mailText atOffice (dataOf raw)).submitted.map fun p =>
    (submitDraft p.1).map clientTexts

def toR : Transport.Message where
  id := ascii "m"
  mailbox := { id := ascii "b", address := ascii "a@x" }
  credential := { id := ascii "c" }
  recipients := [ascii "r@y"]
  raw := []

/-- An upstream that answers `MAIL` with 550 and this text. -/
def refusing (message : Bytes) : Relay.Upstream where
  token := fun _ => .ok (ascii "t")
  server := { Relay.obligingServer with answer := fun _ => .reply { code := 550, message } }

def noJSON : Graph.Reader := { unmarshal := fun _ => none }

def toHost : Relay.Options := { address := ascii "h", quote := fun _ => [] }

theorem toHost_text : TextOptions toHost := ⟨by decide, fun _ => .nil⟩

theorem toR_text : TextMessage toR := ⟨by decide, by decide⟩

theorem refusing_repliesOnly (message : Bytes) : RepliesOnly (refusing message) where
  token := fun _ _ h => absurd h (by simp [refusing])
  dial := fun _ h => absurd h (by simp [refusing])
  write := fun _ _ h => absurd h (by simp [refusing, Relay.obligingServer])

def busy : Graph.HTTPResponse := { status := 503, body := ascii "busy" }

theorem busy_legible : Legible noJSON busy := (readError_text noJSON busy).1 (by decide +kernel)

def plainRaw : Bytes := ascii "From: a@x\r\nMessage-Id: <1@x>\r\n\r\nhi"

theorem plainRaw_parsed : ∃ parsed, parseMessage mailText plainRaw = .ok parsed ∧
    HeaderText smallServer parsed := by
  refine ⟨_, rfl, ?_, fun h => absurd h (by decide)⟩
  decide +kernel

/-- A plain message, a plain reply and a plain response. -/
theorem plain_texts_stored : (∃ t sub draft answer,
      runActions (traceStep smallServer mailText atOffice) (.init true) envelopeCalls = some t ∧
      (sub, answer) ∈ (t.session.data smallServer mailText atOffice (dataOf plainRaw)).submitted ∧
      submitDraft sub = some draft ∧ ∀ x ∈ clientTexts draft, IsText x) ∧
    (∃ e, (Relay.send toHost (refusing (ascii "no")) {} toR).2 = some e ∧
      (recordFailure {} 0 0 { id := ascii "m" } e).Text) ∧
    ∃ e, Graph.classify { endpoint := [] } (busy.read noJSON) toR = some e ∧
      (recordFailure {} 0 0 { id := ascii "m" } e).Text := by
  obtain ⟨hmsg, hreply, hresponse⟩ := stored_texts_iff {} 0 0 { id := ascii "m" } toR
  refine ⟨?_, ?_, ?_⟩
  · have hqueued : ((runActions (traceStep smallServer mailText atOffice) (.init true) envelopeCalls).map
        fun t => queuedTexts t plainRaw)
        = some [some [ascii "a@x", ascii "a@x", [], ascii "1@x", ascii "192.0.2.1", ascii "r@y"]] := by
      decide +kernel
    obtain ⟨t, ht, hq⟩ := map_eq_some_iff.1 hqueued
    obtain ⟨p, rest, hp, hdraft, -⟩ := map_eq_cons_iff.1 hq
    obtain ⟨draft, hdraft, -⟩ := map_eq_some_iff.1 hdraft
    have hmem : p ∈ (t.session.data smallServer mailText atOffice (dataOf plainRaw)).submitted := by
      rw [hp]
      exact .head _
    have hall : AllMeet (traceStep smallServer mailText atOffice) (fun _ _ => True) (.init true)
        envelopeCalls := by
      refine ⟨trivial, fun _ _ => ⟨trivial, fun _ _ => ⟨trivial, fun _ _ => ⟨trivial, ?_⟩⟩⟩⟩
      exact fun _ _ => trivial
    obtain ⟨parsed, hparsed, htext⟩ := plainRaw_parsed
    refine ⟨t, p.1, draft, p.2, ht, hmem, hdraft, ?_⟩
    exact (hmsg smallServer bareText NetMail.bareTables dottedText atOffice true t dottedText_lawful
      atOffice_written (reach_of_runActions _ hall ht) (dataOf plainRaw) p.1 p.2 draft
      plainRaw parsed hmem hdraft rfl hparsed).2 htext
  · refine ⟨_, rfl, ?_⟩
    refine (hreply toHost (refusing (ascii "no")) {} _ toHost_text (refusing_repliesOnly _)
      toR_text rfl).2 fun reply hcause _ => ?_
    cases hcause
    decide
  refine ⟨_, rfl, ?_⟩
  exact (hresponse { endpoint := [] } noJSON busy _ (fun _ => .nil) toR_text.mailbox rfl).2 busy_legible

/-- **A byte that is no UTF-8 is stored as it came**, from the `Message-Id` of a client
and from a reply of the upstream, and a text of Graph's is cut in a character. -/
theorem raw_bytes_stored :
    ((runActions (traceStep smallServer mailText atOffice) (.init true) envelopeCalls).map fun t =>
        queuedTexts t (ascii "From: a@x\r\nMessage-Id: <" ++ [0xff] ++ ascii ">\r\n\r\nhi"))
      = some [some [ascii "a@x", ascii "a@x", [], [0xff], ascii "192.0.2.1", ascii "r@y"]] ∧
    ((Relay.send toHost (refusing [0xff]) {} toR).2.map (recordFailure {} 0 0 { id := ascii "m" }))
      = some (.failed ⟨ascii "550", ascii "MAIL FROM was rejected: " ++ [0xff], true⟩) ∧
    IsText (List.replicate 511 97 ++ [0xc3, 0xa9]) ∧
    ((Graph.classify { endpoint := [] } (Graph.HTTPResponse.read noJSON
        { status := 400, body := List.replicate 511 97 ++ [0xc3, 0xa9] }) toR).map
        (recordFailure {} 0 0 { id := ascii "m" }))
      = some (.failed ⟨ascii "400", List.replicate 511 97 ++ [0xc3] ++ [0xe2, 0x80, 0xa6], true⟩) ∧
    ¬ IsText [0xff] ∧ ¬ IsText (ascii "MAIL FROM was rejected: " ++ [0xff]) ∧
    ¬ IsText (List.replicate 511 97 ++ [0xc3] ++ [0xe2, 0x80, 0xa6]) := by
  refine ⟨?_, ?_, ?_, ?_, ?_, ?_, ?_⟩
  all_goals decide +kernel

end SmtpProxy.App
