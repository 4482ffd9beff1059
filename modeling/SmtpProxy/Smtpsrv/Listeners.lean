import SmtpProxy.Smtpsrv.Safety

/-!
# One server behind several listeners

`New` of `internal/smtpsrv/server.go` builds one `Server` for all listeners, and
every session asks that server whether it must be encrypted. The flag is the
disjunction of the listeners' own, so a listener that does not require TLS
refuses clear-text mail as soon as another one requires it
(`other_listener_requires`). The go-smtp servers it sets up are left out.
-/

namespace SmtpProxy.Smtpsrv

open Lib Policy

inductive TLSMode where
  | none
  | starttls
  | implicit
  deriving DecidableEq

/-- `config.Listener`, as far as the server reads it. -/
structure Listener where
  address : Bytes
  tls : TLSMode
  requireTLS : Bool
  deriving DecidableEq

/-- `Options`, as far as a session reads them. A present `Authenticator`,
`Submitter` and `TLSConfig` is `true`. -/
structure Options where
  hostname : Bytes := []
  userAgent : Bytes := []
  listeners : List Listener
  tlsConfig : Bool := true
  auth : Bool := true
  submitter : Bool := true
  maxMessageBytes : Int
  maxRecipients : Int
  maxAuthFailures : Int := 0
  allowInsecureAuth : Bool := false
  recordSubjects : Bool := false

/-- The loop of `New` over the listeners: whether one of them requires TLS, unless
one uses TLS without a certificate. -/
def checkListeners (tlsConfig : Bool) : Bool → List Listener → Except Err Bool
  | requireTLS, [] => .ok requireTLS
  | requireTLS, l :: rest =>
    let requireTLS := if l.requireTLS then true else requireTLS
    if l.tls ≠ .none ∧ tlsConfig = false then
      .error (.new (ascii "smtpsrv: listener " ++ l.address ++
        ascii " uses TLS but no certificate was provided"))
    else checkListeners tlsConfig requireTLS rest

def new (opts : Options) : Except Err Server :=
  if !opts.auth then .error (.new (ascii "smtpsrv: an Authenticator is required"))
  else if !opts.submitter then .error (.new (ascii "smtpsrv: a Submitter is required"))
  else if opts.listeners.length = 0 then
    .error (.new (ascii "smtpsrv: at least one listener is required"))
  else
    match checkListeners opts.tlsConfig false opts.listeners with
    | .error e => .error e
    | .ok requireTLS =>
      .ok {
        hostname := opts.hostname
        userAgent := opts.userAgent
        allowInsecureAuth := opts.allowInsecureAuth
        requireTLS := requireTLS
        recordSubjects := opts.recordSubjects
        maxMessageBytes := opts.maxMessageBytes
        maxRecipients := opts.maxRecipients
        maxAuthFailures := opts.maxAuthFailures }

/-- A connection accepted on the listener: on an implicit-TLS listener it is
encrypted before the session sees it. -/
def Listener.newSession (l : Listener) : Trace := .init (l.tls = .implicit)

/-- The reply to MAIL FROM on a connection that must be encrypted first. -/
def errMustStartTLS : Err := smtpError 530 (5, 7, 0) (ascii "Must issue a STARTTLS command first")

def Reply.needsTLS (r : Reply) : Bool :=
  match r.result with
  | .failed e => e = errMustStartTLS
  | _ => false

theorem checkListeners_any {tlsConfig requireTLS flag : Bool} {ls : List Listener}
    (h : checkListeners tlsConfig flag ls = .ok requireTLS) :
    requireTLS = (flag || ls.any (·.requireTLS)) := by
  induction ls generalizing flag with
  | nil => simpa [checkListeners] using (Except.ok.inj h).symm
  | cons l ls ih =>
  simp only [checkListeners] at h
  split at h
  · cases h
  rw [ih h, List.any_cons]
  cases l.requireTLS <;> cases flag <;> rfl

theorem new_requireTLS {opts : Options} {srv : Server} (h : new opts = .ok srv) :
    srv.requireTLS = opts.listeners.any (·.requireTLS) := by
  unfold new at h
  split at h
  · cases h
  split at h
  · cases h
  split at h
  · cases h
  split at h
  · cases h
  next flag hflag =>
  rw [← Except.ok.inj h]
  simpa using checkListeners_any hflag

theorem mail_needsTLS {srv : Server} {g : GoText} {s : Session} (hid : s.identity ≠ none)
    (sender : Bytes) :
    (s.mail srv g sender).2.needsTLS = (srv.requireTLS && !s.encrypted) := by
  have hsome : s.identity.isNone = false := by
    cases h : s.identity with
    | none => exact absurd h hid
    | some identity => rfl
  unfold Session.mail
  rw [hsome]
  cases hneeds : srv.requireTLS && !s.encrypted with
  | true => rfl
  | false =>
    simp only [Bool.false_eq_true, if_false]
    split <;> rfl

/-- **A listener decides on its own whether MAIL FROM must be encrypted exactly if
the connection is encrypted, or the listener requires TLS, or no listener does.**
For every server that `New` builds, every one of its listeners, and every session
with an authenticated identity, whatever brought it there. -/
theorem require_tls_own_listener_iff {opts : Options} {srv : Server} (hnew : new opts = .ok srv)
    (g : GoText) {l : Listener} (hl : l ∈ opts.listeners) {s : Session} (hid : s.identity ≠ none)
    (sender : Bytes) :
    ((s.mail srv g sender).2.needsTLS = true ↔ l.requireTLS = true ∧ s.encrypted = false) ↔
      (s.encrypted = true ∨ l.requireTLS = true ∨
        ∀ other ∈ opts.listeners, other.requireTLS = false) := by
  rw [mail_needsTLS hid, new_requireTLS hnew]
  cases henc : s.encrypted with
  | true => simp
  | false =>
  cases hown : l.requireTLS with
  | true =>
    have hany : opts.listeners.any (·.requireTLS) = true := List.any_eq_true.2 ⟨l, hl, hown⟩
    simp [hany]
  | false => simp

def clearListener : Listener := ⟨ascii ":25", .none, false⟩

def optionsWith (others : List Listener) : Options where
  listeners := clearListener :: others
  maxMessageBytes := 1000
  maxRecipients := 10
  allowInsecureAuth := true

/-- Account `u` is authenticated on a connection that is not encrypted. -/
def readyInClear : Session := { encrypted := false, identity := some senderIdentity }

def clearSubmission : List Call :=
  [.auth plain, .next (some (0 :: ascii "u" ++ 0 :: ascii "p")) (.ok senderIdentity),
    .mail (ascii "<a@x>")]

/-- The clear-text listener alone accepts mail. -/
theorem require_tls_own_listener_iff_alone : ∃ srv, new (optionsWith []) = .ok srv ∧
      ((readyInClear.mail srv bareText (ascii "<a@x>")).2.needsTLS = true ↔
        clearListener.requireTLS = true ∧ readyInClear.encrypted = false) := by
  obtain ⟨srv, hnew⟩ : ∃ srv, new (optionsWith []) = .ok srv := ⟨_, rfl⟩
  have hmem : clearListener ∈ (optionsWith []).listeners := .head _
  refine ⟨srv, hnew, ?_⟩
  refine (require_tls_own_listener_iff hnew bareText hmem (by simp [readyInClear])
    (ascii "<a@x>")).2 (.inr (.inr ?_))
  decide

/-- Next to a listener that requires TLS, the clear-text listener refuses the mail
of the same client. -/
theorem other_listener_requires :
    ∃ srv, new (optionsWith [⟨ascii ":587", .starttls, true⟩]) = .ok srv ∧
      ((runActions (traceStep srv bareText {}) clearListener.newSession clearSubmission).map
        fun t => (t.session.encrypted, t.history.head?.map (·.2.needsTLS))) = some (false, some true) := by
  refine ⟨_, rfl, ?_⟩
  decide +kernel

end SmtpProxy.Smtpsrv
