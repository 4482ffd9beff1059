import SmtpProxy.Lib.Utf8
import SmtpProxy.Queue.Deliver
import SmtpProxy.Transport.Graph

/-!
# The texts of a failure

`Defer` and `Fail` store what the upstream said: the text of an SMTP reply behind a
few words of the proxy's own, or a part of the body of an HTTP response. Neither
transport looks at the bytes. So the two texts of a failure are ones the database
takes exactly where the reply was one (`send_blames`, `classify_legible_iff`); Graph's
body is also cut after 512 bytes, which may be in the middle of a character.
-/

namespace SmtpProxy.Queue

open Lib Lib.Utf8 Store Transport

structure TextFailure (f : Failure) : Prop where
  code : IsText f.code
  message : IsText f.message

def Outcome.Text : Outcome → Prop
  | .sent => True
  | .deferred f _ => TextFailure f
  | .failed f => TextFailure f

variable {front : Bytes}

theorem textFailure_front {t : TransportError} {causes : List ErrNode} {message : Bytes}
    (hfront : IsText front) (hmsg : t.message = front ++ message) :
    TextFailure (asFailure ⟨.transport t, causes⟩) ↔ IsText t.code ∧ IsText message := by
  rw [asFailure, Err.asTransport_transport]
  constructor
  · intro h
    have htext : IsText t.message := h.message
    rw [hmsg, hfront.append_iff] at htext
    exact ⟨h.code, htext⟩
  intro ⟨hcode, htext⟩
  refine ⟨hcode, ?_⟩
  show IsText t.message
  rwa [hmsg, hfront.append_iff]

theorem textFailure_coded {t : TransportError} {causes : List ErrNode} {message : Bytes}
    (hcode : IsText t.code) (hfront : IsText front) (hmsg : t.message = front ++ message) :
    TextFailure (asFailure ⟨.transport t, causes⟩) ↔ IsText message := by
  rw [textFailure_front hfront hmsg, and_iff_right hcode]

theorem recordFailure_text (b : Backoff) (random : ℚ) (now : Int) (m : Store.Message) (e : Err) :
    (recordFailure b random now m e).Text ↔ TextFailure (asFailure e) := by
  unfold recordFailure
  dsimp only
  split
  · rfl
  split
  · have hwords : IsText (ascii "giving up after " ++ itoa ((m.attempts : Int) + 1) ++
        ascii " attempts: ") :=
      ((show IsText (ascii "giving up after ") by decide +kernel).append (isText_itoa _)).append
        (by decide +kernel)
    constructor
    · intro h
      exact ⟨h.code, (hwords.append_iff _).1 h.message⟩
    intro h
    exact ⟨h.code, (hwords.append_iff _).2 h.message⟩
  · rfl

theorem authFailureHint_text : IsText authFailureHint := by decide +kernel

theorem newAuthFailure_text {code : Bytes} (hcode : IsText code) (hfront : IsText front)
    (message : Bytes) (cause : Option Err) :
    TextFailure (asFailure (newAuthFailure code (front ++ message) cause)) ↔ IsText message := by
  have hmsg : IsText (trimSpace (front ++ message) ++ authFailureHint) ↔ IsText message := by
    rw [authFailureHint_text.append_left_iff, isText_trimSpace_iff, hfront.append_iff]
  exact (textFailure_coded hcode .nil rfl).trans hmsg

/-! ## The SMTP relay -/

open Relay (Upstream)
open Transaction (Verb Answer Exchange)

def cause (e : Err) : Option Err :=
  match e.causes with
  | [] => none
  | node :: rest => some ⟨node, rest⟩

theorem cause_causeNodes (t : TransportError) (inner : Option Err) :
    cause ⟨.transport t, causeNodes inner⟩ = inner := by
  cases inner <;> rfl

/-- What an error says: the text of the reply, or its own. -/
def said (e : Err) : Bytes :=
  match e.asSMTP with
  | some smtpErr => smtpErr.message
  | none => e.text

/-- An error the upstream, the network, the SMTP client or the token source gives. -/
inductive Gives (u : Upstream) : Err → Prop where
  | token {ctxDone : Bool} {e : Err} (h : u.token ctxDone = .error e) : Gives u e
  | dial {e : Err} (h : u.dial = some e) : Gives u e
  | startTLS {e : Err} (h : u.startTLS = some e) : Gives u e
  | hello {e : Err} (h : u.hello = some e) : Gives u e
  | auth {initial : Bytes} {e : Err} (h : u.auth initial = some e) : Gives u e
  | line {line : Bytes} {e : Err} (h : u.server.validateLine line = some e) : Gives u e
  | answer {verb : Verb} {said : Transaction.Session} {e : Err}
      (h : u.server.refusal verb (u.server.answer said) = some e) : Gives u e
  | write {said : Transaction.Session} {e : Err} (h : u.server.write said = some e) : Gives u e

/-- No error but a reply of the server is one: the token source, the network and a
broken connection report errors of their own. -/
structure RepliesOnly (u : Upstream) : Prop where
  token : ∀ ctxDone e, u.token ctxDone = .error e → e.asSMTP = none
  dial : ∀ e, u.dial = some e → e.asSMTP = none
  write : ∀ said e, u.server.write said = some e → e.asSMTP = none

/-- The texts of the error are ones the database takes exactly if the upstream's error
beneath it says one. -/
def Blames (u : Upstream) (e : Err) : Prop :=
  TextFailure (asFailure e) ↔ ∀ reply, cause e = some reply → Gives u reply → IsText (said reply)

variable {u : Upstream}

theorem Blames.reply {e reply : Err} (hcause : cause e = some reply) (hgives : Gives u reply)
    (h : TextFailure (asFailure e) ↔ IsText (said reply)) : Blames u e := by
  rw [Blames, h, hcause]
  constructor
  · intro htext other hother _
    rwa [← Option.some.inj hother]
  intro htext
  exact htext reply rfl hgives

theorem Blames.own {e : Err} (h : TextFailure (asFailure e))
    (hcause : ∀ reply, cause e = some reply → IsText (said reply)) : Blames u e :=
  ⟨fun _ reply hreply _ => hcause reply hreply, fun _ => h⟩

theorem net_text : IsText (ascii "net") := by decide

theorem enhancedOrNumeric_text (e : SMTPError) : IsText (Relay.enhancedOrNumeric e) := by
  have hdot : IsText (ascii ".") := by decide
  unfold Relay.enhancedOrNumeric
  split
  · exact ((((isText_itoa _).append hdot).append (isText_itoa _)).append hdot).append (isText_itoa _)
  · exact isText_itoa _

theorem classify_text (err : Err) {what : Bytes} (hwhat : IsText what) :
    TextFailure (asFailure (Relay.classify err what)) ↔ IsText (said err) := by
  have hfront : IsText (what ++ ascii ": ") := hwhat.append (by decide)
  unfold Relay.classify said
  cases err.asSMTP with
  | none => exact textFailure_coded net_text hfront rfl
  | some smtpErr =>
  have hcode := enhancedOrNumeric_text smtpErr
  rw [← isText_trimSpace_iff smtpErr.message]
  dsimp only
  split <;> exact textFailure_coded hcode hfront rfl

theorem cause_classify (err : Err) (what : Bytes) : cause (Relay.classify err what) = some err := by
  unfold Relay.classify
  split
  · exact cause_causeNodes _ _
  dsimp only
  split <;> exact cause_causeNodes _ _

theorem classifyAuth_text (err : Err) {mailbox : Bytes} (hmailbox : IsText mailbox) :
    TextFailure (asFailure (Relay.classifyAuth err mailbox)) ↔ IsText (said err) := by
  have hfront : IsText (ascii "authenticating as " ++ mailbox ++ ascii " failed: ") :=
    ((show IsText (ascii "authenticating as ") by decide +kernel).append hmailbox).append
      (by decide)
  unfold Relay.classifyAuth said
  cases err.asSMTP with
  | none => exact newAuthFailure_text (by decide) hfront _ _
  | some smtpErr =>
    dsimp only
    rw [newAuthFailure_text (enhancedOrNumeric_text smtpErr) hfront, isText_trimSpace_iff]

theorem blames_classify {reply : Err} (hgives : Gives u reply) {what : Bytes}
    (hwhat : IsText what) : Blames u (Relay.classify reply what) :=
  .reply (cause_classify reply what) hgives (classify_text reply hwhat)

theorem blames_quoted {inner : Err} (hgives : Gives u inner) (hplain : inner.asSMTP = none)
    {code : Bytes} (hcode : IsText code) (hfront : IsText front) :
    Blames u (newTransient code (front ++ inner.text) (some inner)) := by
  refine .reply (cause_causeNodes _ _) hgives ?_
  rw [said, hplain]
  exact textFailure_coded hcode hfront rfl

structure TextMessage (m : Transport.Message) : Prop where
  mailbox : IsText m.mailbox.address
  recipients : ∀ rcpt ∈ m.recipients, IsText rcpt

/-- What the relay was configured with, and `%q`, are texts. -/
structure TextOptions (o : Relay.Options) : Prop where
  address : IsText o.address
  quote : ∀ s, IsText (o.quote s)

section
variable {u : Upstream} {e : Err} {o : Relay.Options}

theorem connect_blames (ho : TextOptions o) (hplain : RepliesOnly u) {ctx : Ctx}
    (h : Relay.connect o u ctx = some e) : Blames u e := by
  have hfront : IsText (ascii "could not connect to " ++ o.address ++ ascii ": ") :=
    ((show IsText (ascii "could not connect to ") by decide +kernel).append ho.address).append
      (by decide)
  unfold Relay.connect at h
  dsimp only at h
  split at h
  · next inner hdial =>
    cases h
    split at hdial
    · -- the context was done before the connection was tried
      cases hdial
      have htext : IsText errCanceled.text := by decide
      refine .own ((textFailure_coded net_text hfront rfl).2 htext) fun reply hreply => ?_
      cases (cause_causeNodes _ _).symm.trans hreply
      decide
    · exact blames_quoted (.dial hdial) (hplain.dial _ hdial) (by decide) hfront
  split at h
  · next reply hreply =>
    cases h
    exact blames_classify (.startTLS hreply) (by decide)
  split at h
  · next reply hreply =>
    cases h
    exact blames_classify (.hello hreply) (by decide)
  · cases h

theorem buildXOAuth2_text (ho : TextOptions o) {mailbox accessToken : Bytes}
    (h : Relay.buildXOAuth2 o.quote mailbox accessToken = .error e) :
    e.asSMTP = none ∧ IsText e.text := by
  unfold Relay.buildXOAuth2 at h
  dsimp only at h
  split at h
  · cases h
    exact ⟨rfl, by decide +kernel⟩
  split at h
  · cases h
    exact ⟨rfl, by decide +kernel⟩
  split at h
  · cases h
    refine ⟨rfl, ?_⟩
    have hfront : IsText (ascii "oauth: mailbox ") := by decide
    exact (hfront.append (ho.quote mailbox)).append (by decide +kernel)
  split at h
  · cases h
    exact ⟨rfl, by decide +kernel⟩
  · cases h

theorem authenticate_blames (ho : TextOptions o) {mailbox accessToken : Bytes}
    (hmailbox : IsText mailbox) (h : Relay.authenticate o u mailbox accessToken = some e) :
    Blames u e := by
  unfold Relay.authenticate at h
  split at h
  · cases h
    refine .own ⟨by decide, by decide +kernel⟩ fun reply hreply => ?_
    cases (cause_causeNodes _ _).symm.trans hreply
  split at h
  · next inner hbuild =>
    cases h
    obtain ⟨hplain, htext⟩ := buildXOAuth2_text ho hbuild
    have hcode : IsText (ascii "xoauth2") := by decide
    refine .own ((textFailure_coded hcode .nil rfl).2 htext) fun reply hreply => ?_
    cases (cause_causeNodes _ _).symm.trans hreply
    rwa [said, hplain]
  obtain ⟨reply, hreply, rfl⟩ := Option.map_eq_some_iff.1 h
  refine .reply ?_ (.auth hreply) (classifyAuth_text reply hmailbox)
  unfold Relay.classifyAuth
  cases reply.asSMTP <;> exact cause_causeNodes _ _

variable {before after : Transaction.Session}

theorem command_gives {verb : Verb} {arg : Bytes} {said : Answer → Exchange}
    (h : u.server.command verb arg said before = (after, some e)) : Gives u e := by
  unfold Transaction.Server.command at h
  split at h
  · next hline =>
    cases h
    exact .line hline
  · exact .answer (Prod.ext_iff.1 h).2

theorem rcptLoop_blames {rcpts : List Bytes} (htext : ∀ rcpt ∈ rcpts, IsText rcpt)
    (h : Transaction.rcptLoop u.server rcpts before = (after, some e)) : Blames u e := by
  induction rcpts generalizing before with
  | nil => cases h
  | cons rcpt rest ih =>
  have hwhat : IsText (ascii "RCPT TO " ++ rcpt ++ ascii " was rejected") :=
    ((show IsText (ascii "RCPT TO ") by decide).append (htext rcpt (.head _))).append (by decide)
  unfold Transaction.rcptLoop at h
  split at h
  · next hreply =>
    cases h
    exact blames_classify (command_gives hreply) hwhat
  · exact ih (fun r hr => htext r (.tail _ hr)) h

theorem closeData_gives {raw : Bytes}
    (h : u.server.closeData (before ++ [.write raw none]) = (after, some e)) : Gives u e := by
  rw [Transaction.closeData_after_write] at h
  exact .answer (Prod.ext_iff.1 h).2

theorem sendContent_blames (hplain : RepliesOnly u) {raw : Bytes}
    (h : Transaction.sendContent u.server raw before = (after, some e)) : Blames u e := by
  unfold Transaction.sendContent Transaction.Server.cmd Transaction.Server.writeData at h
  split at h
  · next hreply =>
    cases h
    exact blames_classify (.answer (Prod.ext_iff.1 hreply).2) (by decide)
  split at h
  · next hwrite =>
    cases h
    have hwrite := (Prod.ext_iff.1 hwrite).2
    exact blames_quoted (.write hwrite) (hplain.write _ _ hwrite) (by decide) (by decide +kernel)
  next hwritten =>
  obtain ⟨rfl, hwritten⟩ := Prod.ext_iff.1 hwritten
  split at h
  · next hreply =>
    cases h
    rw [show u.server.write _ = none from hwritten] at hreply
    exact blames_classify (closeData_gives hreply) (by decide +kernel)
  · cases h

theorem deliver_blames (hplain : RepliesOnly u) {m : Transport.Message} (hm : TextMessage m)
    (h : Transaction.deliver u.server m before = (after, some e)) : Blames u e := by
  unfold Transaction.deliver at h
  split at h
  · next hreply =>
    cases h
    exact blames_classify (command_gives hreply) (by decide)
  split at h
  · next hloop =>
    cases h
    exact rcptLoop_blames hm.recipients hloop
  · exact sendContent_blames hplain h

/-- **A failed delivery by SMTP is recorded in texts exactly if the upstream's error
beneath it says one.** -/
theorem send_blames (ho : TextOptions o) (hplain : RepliesOnly u) {ctx : Ctx}
    {m : Transport.Message} (hm : TextMessage m) (h : (Relay.send o u ctx m).2 = some e) :
    Blames u e := by
  unfold Relay.send at h
  split at h
  · next inner htoken =>
    cases h
    exact blames_quoted (.token htoken) (hplain.token _ _ htoken) (by decide) (by decide +kernel)
  split at h
  · next hconnect => exact connect_blames ho hplain (hconnect.trans h)
  split at h
  · next hauth => exact authenticate_blames ho hm.mailbox (hauth.trans h)
  · exact deliver_blames hplain hm (Prod.ext rfl h)

end

/-! ## Graph -/

open Transport.Graph (HTTPResponse)

/-- What of a response goes into a failure is a text: both parts of the envelope, or
the text that is shown in its place as far as it is kept. -/
def Legible (rd : Graph.Reader) (r : HTTPResponse) : Prop :=
  r.readFailed = false → r.body.take Graph.maxErrorBody ≠ [] →
    match Graph.envelope rd (r.body.take Graph.maxErrorBody) with
    | some g => IsText g.1 ∧ IsText g.2
    | none => IsText ((trimSpace (r.body.take Graph.maxErrorBody)).take Graph.maxErrorText)

theorem truncate_text (s : Bytes) (limit : Nat) :
    IsText (Graph.truncate s limit) ↔ IsText (s.take limit) := by
  unfold Graph.truncate
  split
  · next hle => rw [List.take_of_length_le hle]
  · exact (show IsText [0xe2, 0x80, 0xa6] by decide).append_left_iff _

theorem readError_text (rd : Graph.Reader) (r : HTTPResponse) :
    IsText (Graph.readError rd r).1 ∧ IsText (Graph.readError rd r).2 ↔ Legible rd r := by
  unfold Graph.readError Legible
  dsimp only
  split
  · next hnil =>
    refine ⟨fun _ hread hne => ?_, fun _ => ⟨.nil, .nil⟩⟩
    obtain hfailed | hempty := hnil
    · cases hread.symm.trans hfailed
    · exact absurd hempty hne
  next hbody =>
  have hread : r.readFailed = false := by
    cases hfailed : r.readFailed with
    | false => rfl
    | true => exact absurd (.inl hfailed) hbody
  have hne : r.body.take Graph.maxErrorBody ≠ [] := fun hempty => hbody (.inr hempty)
  cases Graph.envelope rd (r.body.take Graph.maxErrorBody) with
  | some g => exact ⟨fun h _ _ => h, fun h => h hread hne⟩
  | none =>
  constructor
  · intro h _ _
    exact (truncate_text _ _).1 h.2
  intro h
  exact ⟨.nil, (truncate_text _ _).2 (h hread hne)⟩

variable {o : Graph.Options}

theorem errorTexts_iff (ho : ∀ status, IsText (o.statusText status)) (r : Graph.Response) :
    (IsText (Graph.errorCode r) ↔ IsText r.errorCode) ∧
      (IsText (Graph.errorMessage o r) ↔ IsText r.errorMessage) := by
  unfold Graph.errorCode Graph.errorMessage
  constructor
  · split
    · rfl
    · next hempty =>
      rw [not_not.1 hempty]
      exact ⟨fun _ => .nil, fun _ => isText_itoa _⟩
  split
  · rfl
  next hempty =>
  rw [not_not.1 hempty]
  exact ⟨fun _ => .nil, fun _ => ho _⟩

theorem graph_classify_text {r : Graph.Response} {m : Transport.Message} {e : Err}
    (hm : IsText m.mailbox.address) (h : Graph.classify o r m = some e) :
    TextFailure (asFailure e) ↔ IsText (Graph.errorCode r) ∧ IsText (Graph.errorMessage o r) := by
  have hrefused : IsText (ascii "sending as " ++ m.mailbox.address ++ ascii " was refused: ") :=
    ((show IsText (ascii "sending as ") by decide).append hm).append (by decide)
  have hmissing : IsText (ascii "the mailbox " ++ m.mailbox.address ++ ascii " was not found: ") :=
    ((show IsText (ascii "the mailbox ") by decide).append hm).append (by decide)
  unfold Graph.classify at h
  dsimp only at h
  split at h
  · cases h
  split at h
  · cases h
    exact textFailure_front .nil rfl
  split at h
  · cases h
    constructor
    · intro htext
      have hcode : IsText (Graph.errorCode r) := htext.code
      exact ⟨hcode, (newAuthFailure_text hcode hrefused _ _).1 htext⟩
    intro ⟨hcode, hmsg⟩
    exact (newAuthFailure_text hcode hrefused _ _).2 hmsg
  split at h
  · cases h
    exact textFailure_front .nil rfl
  split at h
  · cases h
    exact textFailure_front hmissing rfl
  cases h
  exact textFailure_front .nil rfl

/-- **A response of Graph is recorded in texts exactly if it is legible.** -/
theorem classify_legible_iff (ho : ∀ status, IsText (o.statusText status)) {rd : Graph.Reader}
    {r : HTTPResponse} {m : Transport.Message} {e : Err} (hm : IsText m.mailbox.address)
    (h : Graph.classify o (r.read rd) m = some e) : TextFailure (asFailure e) ↔ Legible rd r := by
  obtain ⟨hcode, hmsg⟩ := errorTexts_iff ho (r.read rd)
  rw [graph_classify_text hm h, hcode, hmsg]
  exact readError_text rd r

end SmtpProxy.Queue
