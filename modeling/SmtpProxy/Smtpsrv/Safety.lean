import SmtpProxy.Lib.Reach
import SmtpProxy.Smtpsrv.Session

/-!
# What a client can bring a session to

A client drives the session through any sequence of calls. The history of the
calls and their replies says what should be true of it: who is authenticated,
what the envelope is, whether the SASL exchange in progress was allowed to
begin. `Faithful` says that the session's fields are exactly what the history
says, after any run; what `Data` hands to `Submit` is then read off the history
(`session_safety`).
-/

namespace SmtpProxy.Smtpsrv

open Lib Policy Option
open Store (Mailbox)

/-- The calls made so far with their replies, newest first. -/
abbrev History := List (Call × Reply)

structure Trace where
  session : Session
  history : History

def Trace.init (encrypted : Bool) : Trace := ⟨{ encrypted }, []⟩

variable (srv : Server) (g : GoText) (peer : Peer)

def traceStep (t : Trace) (c : Call) : Option Trace :=
  (step srv g peer t.session c).map fun r => ⟨r.1, (c, r.2) :: t.history⟩

/-! ## What the history says -/

def Reply.accepted (r : Reply) : Bool :=
  match r.result with
  | .ok => true
  | _ => false

/-- The identity a call of `Authenticate` returned during this call. -/
def Reply.identity (r : Reply) : Option Identity :=
  r.authenticated.findSome? fun a => a.answer.toOption

def encryptedAfter (initial : Bool) : History → Bool
  | [] => initial
  | (.startTLS, _) :: _ => true
  | _ :: h => encryptedAfter initial h

def latestIdentity : History → Option Identity
  | [] => none
  | (_, r) :: h => r.identity.or (latestIdentity h)

/-- The parse of the last accepted `Mail` since the last reset, or nothing. -/
def envelopeAfter : History → Address
  | [] => {}
  | (.mail sender, r) :: h =>
    if r.accepted then (parseAddress g sender).toOption.getD {} else envelopeAfter h
  | (.data _, _) :: _ => {}
  | (.reset, _) :: _ => {}
  | _ :: h => envelopeAfter h

/-- The addresses of the accepted `Rcpt` calls since the last accepted `Mail` or
reset, in order. -/
def recipientsAfter : History → List Bytes
  | [] => []
  | (.rcpt recipient, r) :: h =>
    if r.accepted then
      recipientsAfter h ++ [((parseAddress g recipient).toOption.getD {}).original]
    else recipientsAfter h
  | (.mail _, r) :: h => if r.accepted then [] else recipientsAfter h
  | (.data _, _) :: _ => []
  | (.reset, _) :: _ => []
  | _ :: h => recipientsAfter h

/-- The latest exchange was begun while the connection was encrypted, or on a
server that allows authentication without encryption. -/
def exchangeAllowed (initial : Bool) : History → Bool
  | [] => false
  | (.auth _, r) :: h =>
    if r.accepted then encryptedAfter initial h || srv.allowInsecureAuth
    else exchangeAllowed initial h
  | _ :: h => exchangeAllowed initial h

/-- What a `Submit` call is entitled to carry after this history. -/
structure Entitled (h : History) (sub : Submission) : Prop where
  identity : latestIdentity h = some sub.identity
  mailbox : ∃ mb, sub.mailbox = some mb ∧ mb ∈ sub.identity.mailboxes ∧ mb.enabled = true
  envelopeFrom : sub.envelopeFrom = envelopeAfter g h
  recipients : sub.recipients = recipientsAfter g h
  some_recipient : 1 ≤ sub.recipients.length
  at_most : (sub.recipients.length : Int) ≤ srv.maxRecipients

/-- The law for one call, given what came before it. -/
structure CallLaw (initial : Bool) (h : History) (c : Call) (r : Reply) : Prop where
  entitled : ∀ p ∈ r.submitted, Entitled srv g h p.1
  at_most_once : r.submitted.length ≤ 1
  data_only : r.submitted ≠ [] → ∃ d, c = .data d
  data_ok : ∀ d, c = .data d → (r.accepted = true ↔ ∃ sub id, r.submitted = [(sub, .ok id)])
  auth_allowed : r.authenticated ≠ [] →
    (∃ response answer, c = .next response answer) ∧ exchangeAllowed srv initial h = true

/-! ## What the handlers do -/

/-- A step of a SASL exchange: only the identity may change, to what
`Authenticate` returned. -/
structure NextSpec (s s' : Session) (r : Reply) : Prop where
  encrypted : s'.encrypted = s.encrypted
  envelopeFrom : s'.envelopeFrom = s.envelopeFrom
  recipients : s'.recipients = s.recipients
  identity : s'.identity = r.identity.or s.identity
  submitted : r.submitted = []

theorem authenticate_spec (s : Session) (username password : Bytes) (answer : Except Err Identity)
    (done : Bool) :
    NextSpec s (s.authenticate srv username password answer).1
      { (s.authenticate srv username password answer).2 with done } := by
  cases answer <;> exact ⟨rfl, rfl, rfl, rfl, rfl⟩

theorem NextSpec.of_inExchange {s s' : Session} {e : Exchange} {r : Reply}
    (h : NextSpec (s.inExchange e) s' r) : NextSpec s s' r :=
  ⟨h.encrypted, h.envelopeFrom, h.recipients, h.identity, h.submitted⟩

theorem plainNext_spec (s : Session) (server : PlainServer) (done : Bool) (response : Option Bytes)
    (answer : Except Err Identity) :
    NextSpec s (s.plainNext srv server done response answer).1
      (s.plainNext srv server done response answer).2 := by
  unfold Session.plainNext
  dsimp only
  split
  · exact ⟨rfl, rfl, rfl, rfl, rfl⟩
  · exact ⟨rfl, rfl, rfl, rfl, rfl⟩
  split
  · exact ⟨rfl, rfl, rfl, rfl, rfl⟩
  · exact (authenticate_spec srv _ _ _ answer true).of_inExchange

theorem loginNext_spec (s : Session) (state : LoginState) (response : Option Bytes)
    (answer : Except Err Identity) :
    NextSpec s (s.loginNext srv state response answer).1
      (s.loginNext srv state response answer).2 := by
  cases state with
  | username =>
    unfold Session.loginNext
    cases response with
    | none => exact ⟨rfl, rfl, rfl, rfl, rfl⟩
    | some response =>
      dsimp only
      split <;> exact ⟨rfl, rfl, rfl, rfl, rfl⟩
  | password username =>
    unfold Session.loginNext
    dsimp only
    split
    · exact ⟨rfl, rfl, rfl, rfl, rfl⟩
    · exact (authenticate_spec srv _ _ _ answer true).of_inExchange
  | done => exact ⟨rfl, rfl, rfl, rfl, rfl⟩

theorem next_spec (s : Session) (e : Exchange) (response : Option Bytes)
    (answer : Except Err Identity) :
    NextSpec s (s.next srv e response answer).1 (s.next srv e response answer).2 := by
  cases e with
  | plain server done => exact plainNext_spec srv s server done response answer
  | login state => exact loginNext_spec srv s state response answer

inductive SessionStep (s : Session) : Call → Session → Reply → Prop where
  | startTLS {r : Reply} (hr : r = { result := .ok }) :
      SessionStep s .startTLS { s with encrypted := true } r
  | refused {c : Call} {e : Err} (hc : ∀ d, c ≠ .data d := by simp) (hr : c ≠ .reset := by simp)
      (ht : c ≠ .startTLS := by simp) : SessionStep s c s { result := .failed e }
  | auth {mech : Bytes} {e : Exchange} (henc : s.encrypted = true ∨ srv.allowInsecureAuth = true) :
      SessionStep s (.auth mech) (s.inExchange e) { result := .ok }
  | next {response : Option Bytes} {answer : Except Err Identity} {s' : Session} {r : Reply}
      (hex : s.exchange.isSome) (h : NextSpec s s' r) : SessionStep s (.next response answer) s' r
  | mail {sender : Bytes} {addr : Address} (h : parseAddress g sender = .ok addr) :
      SessionStep s (.mail sender) { s with envelopeFrom := addr, recipients := [] }
        { result := .ok }
  | rcpt {recipient : Bytes} {addr : Address} (h : parseAddress g recipient = .ok addr)
      (hroom : (s.recipients.length : Int) < srv.maxRecipients) :
      SessionStep s (.rcpt recipient) { s with recipients := s.recipients ++ [addr.original] }
        { result := .ok }
  | data {c : DataCall} {r : Reply} {dead : Bool} (h : DataCourse srv g peer s c r) :
      SessionStep s (.data c) { s.reset with dead } r
  | reset : SessionStep s .reset s.reset { result := .ok }

theorem auth_ok {s : Session} {mech : Bytes} {e : Exchange} (h : s.auth srv mech = .ok e) :
    s.encrypted = true ∨ srv.allowInsecureAuth = true := by
  unfold Session.auth at h
  split at h
  · cases h
  next hc =>
  cases henc : s.encrypted <;> cases hins : srv.allowInsecureAuth <;> simp_all

theorem mail_step (s : Session) (sender : Bytes) :
    SessionStep srv g peer s (.mail sender) (s.mail srv g sender).1 (s.mail srv g sender).2 := by
  unfold Session.mail
  split
  · exact .refused
  split
  · exact .refused
  split
  · exact .refused
  · next addr h => exact .mail h

theorem rcpt_step (s : Session) (recipient : Bytes) :
    SessionStep srv g peer s (.rcpt recipient) (s.rcpt srv g recipient).1
      (s.rcpt srv g recipient).2 := by
  unfold Session.rcpt
  split
  · exact .refused
  split
  · exact .refused
  next hroom =>
  split
  · exact .refused
  next addr h =>
  split
  · exact .refused
  · exact .rcpt h (by omega)

theorem step_cases {s s' : Session} {c : Call} {r : Reply}
    (h : step srv g peer s c = some (s', r)) : SessionStep srv g peer s c s' r := by
  unfold step at h
  split at h
  · cases h
  cases c with
  | startTLS =>
    dsimp only at h
    split at h
    · cases h
    cases h
    exact .startTLS rfl
  | auth mech =>
    dsimp only at h
    split at h
    · cases h
      exact .refused
    next e he =>
    cases h
    exact .auth (auth_ok srv he)
  | next response answer =>
    obtain ⟨e, he, heq⟩ := map_eq_some_iff.1 h
    have hspec := next_spec srv s e response answer
    rw [heq] at hspec
    exact .next (by rw [he]; rfl) hspec
  | mail sender =>
    have hm := mail_step srv g peer s sender
    rw [some.inj h] at hm
    exact hm
  | rcpt recipient =>
    have hr := rcpt_step srv g peer s recipient
    rw [some.inj h] at hr
    exact hr
  | data c =>
    cases h
    exact .data (data_course srv g peer s c)
  | reset =>
    cases h
    exact .reset

/-! ## The session is what its history says -/

/-- The session's fields are what the history says, and every call in it was
lawful. -/
structure Faithful (initial : Bool) (t : Trace) : Prop where
  encrypted : t.session.encrypted = encryptedAfter initial t.history
  identity : t.session.identity = latestIdentity t.history
  envelopeFrom : t.session.envelopeFrom = envelopeAfter g t.history
  recipients : t.session.recipients = recipientsAfter g t.history
  exchange : t.session.exchange.isSome → exchangeAllowed srv initial t.history = true
  bound : t.session.recipients ≠ [] →
    (t.session.recipients.length : Int) ≤ srv.maxRecipients
  lawful : ∀ later c r earlier, t.history = later ++ (c, r) :: earlier →
    CallLaw srv g initial earlier c r

variable {srv g peer} {initial : Bool} {t : Trace} {s' : Session} {c : Call} {r : Reply}

theorem callLaw_quiet {h : History} (hsub : r.submitted = []) (hauth : r.authenticated = [])
    (hc : ∀ d, c ≠ .data d) : CallLaw srv g initial h c r where
  entitled := by rw [hsub]; simp
  at_most_once := by simp [hsub]
  data_only := fun hne => absurd hsub hne
  data_ok := fun d hd => absurd hd (hc d)
  auth_allowed := fun hne => absurd hauth hne

theorem callLaw_data {d : DataCall} (hf : Faithful srv g initial t)
    (h : DataCourse srv g peer t.session d r) : CallLaw srv g initial t.history (.data d) r := by
  cases h with
  | refused hres hsub hauth =>
    refine ⟨by rw [hsub]; exact by simp, by simp [hsub],
      fun hne => absurd hsub hne, fun _ _ => ?_, fun hne => absurd hauth hne⟩
    rw [hsub]
    refine ⟨fun hacc => absurd hacc ?_, fun ⟨_, _, h⟩ => absurd h (by simp)⟩
    unfold Reply.accepted
    split
    · next hok => exact absurd hok hres
    · simp
  | submitted hid hne _ _ _ hd hrej _ hsub hres hauth =>
  refine ⟨fun p hp => ?_, by simp [hsub], fun _ => ⟨d, rfl⟩, fun _ _ => ?_,
    fun hne => absurd hauth hne⟩
  · rw [hsub] at hp
    rw [List.mem_singleton.1 hp]
    refine ⟨?_, ?_, hf.envelopeFrom, hf.recipients, ?_, hf.bound hne⟩
    · exact hf.identity.symm.trans hid
    · subst hd
      exact resolve_mailbox g hrej
    · exact Nat.one_le_iff_ne_zero.2 fun h0 => hne (List.length_eq_zero_iff.1 h0)
  rw [hsub]
  have hacc : r.accepted = true ↔ r.result = .ok := by
    unfold Reply.accepted
    cases r.result <;> simp
  rw [hacc, hres]
  refine ⟨fun ⟨id, he⟩ => ⟨_, id, by rw [he]⟩, fun ⟨_, id, he⟩ => ⟨id, ?_⟩⟩
  exact (Prod.mk.inj (List.cons.inj he).1).2

theorem callLaw_step (hf : Faithful srv g initial t)
    (hs : SessionStep srv g peer t.session c s' r) : CallLaw srv g initial t.history c r := by
  cases hs with
  | data h => exact callLaw_data hf h
  | next hex h =>
    refine ⟨by rw [h.submitted]; exact by simp, by simp [h.submitted],
      fun hne => absurd h.submitted hne, fun d hd => absurd hd (by simp), fun _ => ?_⟩
    exact ⟨⟨_, _, rfl⟩, hf.exchange hex⟩
  | startTLS hr => subst hr; exact callLaw_quiet rfl rfl (by simp)
  | refused hc => exact callLaw_quiet rfl rfl hc
  | auth | mail | rcpt | reset => exact callLaw_quiet rfl rfl (by simp)

theorem faithful_init (initial : Bool) : Faithful srv g initial (.init initial) where
  encrypted := rfl
  identity := rfl
  envelopeFrom := rfl
  recipients := rfl
  exchange := fun h => absurd h (by simp [Trace.init])
  bound := fun h => absurd rfl h
  lawful := by
    intro later c r earlier h
    simp [Trace.init] at h

/-- **Every call keeps the session faithful to its history.** -/
theorem faithful_step (hf : Faithful srv g initial t)
    (hs : SessionStep srv g peer t.session c s' r) :
    Faithful srv g initial ⟨s', (c, r) :: t.history⟩ := by
  have hlaw : ∀ later c₀ r₀ earlier, (c, r) :: t.history = later ++ (c₀, r₀) :: earlier →
      CallLaw srv g initial earlier c₀ r₀ := by
    intro later c₀ r₀ earlier heq
    cases later with
    | nil =>
      obtain ⟨hhead, rfl⟩ := List.cons.inj heq
      cases hhead
      exact callLaw_step hf hs
    | cons _ later => exact hf.lawful later c₀ r₀ earlier (List.cons.inj heq).2
  obtain ⟨henc, hid, henv, hrec, hex, hbound, -⟩ := hf
  cases hs with
  | startTLS hr => subst hr; exact ⟨rfl, hid, henv, hrec, hex, hbound, hlaw⟩
  | refused hc hr ht =>
    cases c with
    | startTLS => exact absurd rfl ht
    | data d => exact absurd rfl (hc d)
    | reset => exact absurd rfl hr
    | _ => exact ⟨henc, hid, henv, hrec, hex, hbound, hlaw⟩
  | auth henc' =>
    refine ⟨henc, hid, henv, hrec, fun _ => ?_, hbound, hlaw⟩
    show (encryptedAfter initial t.history || srv.allowInsecureAuth) = true
    rw [← henc]
    exact Bool.or_eq_true_iff.2 henc'
  | next hsome h =>
    refine ⟨h.encrypted.trans henc, ?_, h.envelopeFrom.trans henv, h.recipients.trans hrec,
      fun _ => hex hsome, by rw [h.recipients]; exact hbound, hlaw⟩
    rw [h.identity, hid]
    rfl
  | @mail sender addr h =>
    refine ⟨henc, hid, ?_, rfl, hex, fun hne => absurd rfl hne, hlaw⟩
    show addr = (parseAddress g sender).toOption.getD {}
    rw [h]
    rfl
  | @rcpt recipient addr h hroom =>
    refine ⟨henc, hid, henv, ?_, hex, fun _ => ?_, hlaw⟩
    · show t.session.recipients ++ [addr.original]
        = recipientsAfter g t.history ++ [((parseAddress g recipient).toOption.getD {}).original]
      rw [hrec, h]
      rfl
    rw [List.length_append]
    push_cast
    simp only [List.length_singleton]
    omega
  | data h =>
    refine ⟨henc, ?_, rfl, rfl, hex, fun hne => absurd rfl hne, hlaw⟩
    -- `Data` authenticates nobody
    have hnone : r.identity = none := by
      cases h with
      | refused _ _ hauth => simp [Reply.identity, hauth]
      | submitted _ _ _ _ _ _ _ _ _ _ hauth => simp [Reply.identity, hauth]
    show t.session.identity = r.identity.or (latestIdentity t.history)
    rw [hnone, hid]
    rfl
  | reset => exact ⟨henc, hid, rfl, rfl, hex, fun hne => absurd rfl hne, hlaw⟩

/-- **Session safety over any sequence of calls.** Whatever a client does and
whatever `Authenticate` and `Submit` answer: every call of `Submit` carries the
identity of the latest successful authentication, an enabled mailbox of that
identity, and the envelope the accepted commands since the last reset make up;
`Data` returns nil exactly if it called `Submit` once and `Submit` succeeded; and
`Authenticate` is called only in an exchange that was begun under encryption,
unless the server allows it without. -/
theorem session_safety (srv : Server) (g : GoText) (peer : Peer) (initial : Bool) (t : Trace)
    (h : Reach (traceStep srv g peer) (fun _ _ => True) (.init initial) t)
    (later : History) (c : Call) (r : Reply) (earlier : History)
    (hcall : t.history = later ++ (c, r) :: earlier) : CallLaw srv g initial earlier c r := by
  have hf : Faithful srv g initial t := by
    refine Reach.invariant (faithful_init initial) ?_ h
    intro u c v hu _ hs
    obtain ⟨⟨s', r⟩, hstep, rfl⟩ := map_eq_some_iff.1 hs
    exact faithful_step hu (step_cases srv g peer hstep)
  exact hf.lawful later c r earlier hcall

def smallServer : Server := { maxMessageBytes := 1000, maxRecipients := 10 }

def senderIdentity : Identity where
  accountID := ascii "1"
  username := ascii "u"
  account := { id := ascii "1", username := ascii "u" }
  mailboxes := [{ id := ascii "b", address := ascii "a@x" }]

def dataOf (raw : Bytes) : DataCall where
  reads := [(raw, none)]
  order := ⟨id, MapOrder.id_perm⟩
  answer := .ok (ascii "m")

/-- AUTH PLAIN, MAIL, RCPT, DATA on an encrypted connection: one submission. -/
theorem session_safety_oneMessage :
    ∃ t c r earlier, runActions (traceStep smallServer bareText {}) (.init true)
        [.auth plain, .next (some (0 :: ascii "u" ++ 0 :: ascii "p")) (.ok senderIdentity),
          .mail (ascii "<a@x>"), .rcpt (ascii "<r@y>"),
          .data (dataOf (ascii "From: a@x\r\n\r\nhi"))] = some t ∧
      t.history = (c, r) :: earlier ∧ r.submitted.length = 1 ∧
      CallLaw smallServer bareText true earlier c r := by
  have h0 : Reach (traceStep smallServer bareText {}) (fun _ _ => True) (.init true) (.init true) :=
    .refl
  have h5 := ((((h0.tail (a := Call.auth plain) trivial rfl).tail
    (a := Call.next (some (0 :: ascii "u" ++ 0 :: ascii "p")) (.ok senderIdentity)) trivial rfl).tail
    (a := Call.mail (ascii "<a@x>")) trivial rfl).tail
    (a := Call.rcpt (ascii "<r@y>")) trivial rfl).tail
    (a := Call.data (dataOf (ascii "From: a@x\r\n\r\nhi"))) trivial rfl
  exact ⟨_, _, _, _, rfl, rfl, rfl, session_safety smallServer bareText {} true _ h5 [] _ _ _ rfl⟩

end SmtpProxy.Smtpsrv
