import SmtpProxy.App.Auth
import SmtpProxy.Smtpsrv.Limits
import SmtpProxy.Smtpsrv.Safety

/-!
# What a client sees of a failed authentication

A connection is a list of the client's inputs. What the server brings to each of
them, the answers of the database, the password hashes, the clock, is a `World`;
it can be another one at every command. `course` runs the inputs until the
connection is closed, and `seen` is what the client gets to see of that.

As long as no attempt succeeds, the session after a command and what the client
sees of it do not depend on the world (`step_world`).
-/

namespace SmtpProxy.App

open Lib Policy Store Smtpsrv

inductive ClientInput where
  | startTLS
  | auth (mech : Bytes)
  | respond (response : Option Bytes)
  | mail (sender : Bytes)
  | rcpt (recipient : Bytes)
  | data (reads : Reads)
  | reset

structure World where
  queries : Queries
  passwords : Passwords
  order : MapOrder
  stamp : Bytes := []
  now : Int := 0
  submit : Except Err Bytes

structure Visible where
  result : Result
  challenge : Bytes
  done : Bool

def visible (r : Reply) : Visible := ⟨r.result, r.challenge, r.done⟩

/-- The connection is closed: by the session after repeated failures, or after a
panic. -/
def closed (s : Session) : Bool := s.dropped || s.dead

/-- The credentials that a response of the client makes the exchange pass to
`Authenticate`. -/
def attempt : Exchange → Option Bytes → Option (Bytes × Bytes)
  | .plain server done, response =>
    match server done response with
    | .authenticate identity username password =>
      if identity ≠ [] ∧ identity ≠ username then none else some (username, password)
    | _ => none
  | .login (.password username), response =>
    if maxLoginFieldLen < (response.getD []).length then none
    else some (username, response.getD [])
  | _, _ => none

section

variable (n : NetText) (g : GoText) (remote : Option Addr)

/-- What `Authenticate` answers in this world, if the response makes the session
call it. -/
def World.answer (w : World) (s : Session) (response : Option Bytes) : Except Err Identity :=
  match s.exchange.bind fun e => attempt e response with
  | none => .error errAuthFailed
  | some (username, password) =>
    (authenticate n g w.passwords w.queries username password (remoteIP n remote)).answer

def ClientInput.call (w : World) (s : Session) : ClientInput → Call
  | .startTLS => .startTLS
  | .auth mech => .auth mech
  | .respond response => .next response (w.answer n g remote s response)
  | .mail sender => .mail sender
  | .rcpt recipient => .rcpt recipient
  | .data reads =>
    .data { reads, order := w.order, stamp := w.stamp, receivedAt := w.now, answer := w.submit }
  | .reset => .reset

variable (srv : Server) (peer : Peer)

/-- One connection: the reply to each input, and whether it closed the connection.
An input that is out of place has no reply of the session. -/
def course (worlds : Nat → World) : Nat → Session → List ClientInput → List (Option Reply × Bool)
  | _, _, [] => []
  | k, s, i :: rest =>
    match step srv g peer s (i.call n g remote (worlds k) s) with
    | none => (none, false) :: course worlds (k + 1) s rest
    | some (s', r) =>
      (some r, closed s') :: if closed s' then [] else course worlds (k + 1) s' rest

end

/-- What the client sees: the replies, up to the point at which the connection is
closed. -/
def seen (c : List (Option Reply × Bool)) : List (Option Visible × Bool) :=
  c.map fun p => (if p.2 then none else p.1.map visible, p.2)

def attempts (c : List (Option Reply × Bool)) : List AuthCall :=
  c.flatMap fun p => p.1.toList.flatMap (·.authenticated)

def failed (a : AuthCall) : Bool :=
  match a.answer with
  | .error _ => true
  | .ok _ => false

/-! ## One command -/

section

variable {srv : Server} {g : GoText} {peer : Peer} {n : NetText} {remote : Option Addr}
  {s : Session}

variable {response : Option Bytes}

def afterAttempt (response : Option Bytes) : Exchange → Exchange
  | .plain server done => .plain server (done || response.isSome)
  | .login _ => .login .done

theorem next_of_attempt_none (srv : Server) (s : Session) {e : Exchange}
    (h : attempt e response = none) :
    ∃ s' r, (∀ answer, s.next srv e response answer = (s', r)) ∧ s'.identity = s.identity := by
  cases e with
  | plain server done =>
    simp only [Session.next, Session.plainNext]
    cases hstep : server done response with
    | challenge | failure => exact ⟨_, _, fun _ => rfl, rfl⟩
    | authenticate identity username password =>
    simp only [attempt, hstep] at h
    by_cases hother : identity ≠ [] ∧ identity ≠ username
    · exact ⟨_, _, fun _ => if_pos hother, rfl⟩
    · simp [hother] at h
  | login state =>
  cases state with
  | username =>
    cases response with
    | none => exact ⟨_, _, fun _ => rfl, rfl⟩
    | some response =>
    by_cases hlong : maxLoginFieldLen < response.length
    · exact ⟨_, _, fun _ => if_pos hlong, rfl⟩
    · exact ⟨_, _, fun _ => if_neg hlong, rfl⟩
  | password username =>
    by_cases hlong : maxLoginFieldLen < (response.getD []).length
    · exact ⟨_, _, fun _ => if_pos hlong, rfl⟩
    · simp [attempt, hlong] at h
  | done => exact ⟨_, _, fun _ => rfl, rfl⟩

theorem next_of_attempt_some {e : Exchange} {username password : Bytes}
    (h : attempt e response = some (username, password)) (answer : Except Err Identity) :
    s.next srv e response answer =
      (((s.inExchange (afterAttempt response e)).authenticate srv username password answer).1,
        { ((s.inExchange (afterAttempt response e)).authenticate srv username password answer).2 with
          done := true }) := by
  cases e with
  | plain server done =>
    simp only [Session.next, Session.plainNext]
    cases hstep : server done response with
    | challenge | failure => simp [attempt, hstep] at h
    | authenticate identity username' password' =>
    simp only [attempt, hstep] at h
    by_cases hother : identity ≠ [] ∧ identity ≠ username'
    · simp [hother] at h
    rw [if_neg hother] at h
    cases h
    exact if_neg hother
  | login state =>
  cases state with
  | username => simp [attempt] at h
  | password username' =>
    by_cases hlong : maxLoginFieldLen < (response.getD []).length
    · simp [attempt, hlong] at h
    simp only [attempt, hlong, if_false] at h
    cases h
    exact if_neg hlong
  | done => simp [attempt] at h

/-- **Where `Authenticate` fails, why does not matter**: if neither of two answers
lets an attempt succeed, the session and what the client sees are the same. -/
theorem next_failed {e : Exchange} {a₁ a₂ : Except Err Identity}
    (h₁ : ∀ c ∈ (s.next srv e response a₁).2.authenticated, failed c = true)
    (h₂ : ∀ c ∈ (s.next srv e response a₂).2.authenticated, failed c = true) :
    (s.next srv e response a₁).1 = (s.next srv e response a₂).1 ∧
      visible (s.next srv e response a₁).2 = visible (s.next srv e response a₂).2 ∧
      (s.next srv e response a₁).1.identity = s.identity := by
  cases h : attempt e response with
  | none =>
    obtain ⟨s', r, heq, hid⟩ := next_of_attempt_none srv s h
    rw [heq a₁, heq a₂]
    exact ⟨rfl, rfl, hid⟩
  | some credentials =>
  obtain ⟨username, password⟩ := credentials
  rw [next_of_attempt_some h] at h₁ h₂ ⊢
  rw [next_of_attempt_some h]
  -- the answer is that of the one attempt there is
  have hfails : ∀ {a : Except Err Identity},
      (∀ c ∈ ((s.inExchange (afterAttempt response e)).authenticate srv username password a).2.authenticated,
        failed c = true) → ∃ err, a = .error err := by
    intro a ha
    cases a with
    | error err => exact ⟨err, rfl⟩
    | ok identity =>
      have hfailed := ha ⟨username, password, .ok identity⟩ (List.mem_singleton_self _)
      exact absurd hfailed Bool.false_ne_true
  obtain ⟨e₁, rfl⟩ := hfails h₁
  obtain ⟨e₂, rfl⟩ := hfails h₂
  exact ⟨rfl, rfl, rfl⟩

theorem data_unidentified (hid : s.identity = none) (c : DataCall) :
    s.data srv g peer c = { result := .failed errAuthRequired } := by
  unfold Session.data
  rw [hid]

theorem step_identity {s' : Session} {c : Call} {r : Reply}
    (hstep : step srv g peer s c = some (s', r)) :
    s'.identity = s.identity ∨
      (∃ response answer, c = .next response answer) ∧ s'.identity = r.identity.or s.identity := by
  cases step_cases srv g peer hstep with
  | next _ h => exact .inr ⟨⟨_, _, rfl⟩, h.identity⟩
  | startTLS | refused | auth | mail | rcpt | data | reset => exact .inl rfl

theorem step_unidentified {s' : Session} {c : Call} {r : Reply} (hid : s.identity = none)
    (hstep : step srv g peer s c = some (s', r)) (hfailed : ∀ a ∈ r.authenticated, failed a = true) :
    s'.identity = none := by
  have hnone : r.identity = none := by
    refine List.findSome?_eq_none_iff.2 fun a ha => ?_
    have hfail := hfailed a ha
    unfold failed at hfail
    cases hanswer : a.answer with
    | error e => rfl
    | ok identity =>
      rw [hanswer] at hfail
      exact absurd hfail Bool.false_ne_true
  rcases step_identity hstep with hkept | ⟨-, hnext⟩
  · exact hkept.trans hid
  rw [hnext, hnone, hid]
  rfl

theorem step_respond (hlive : s.dead = false) (answer : Except Err Identity) :
    step srv g peer s (.next response answer)
      = s.exchange.map fun e => s.next srv e response answer := by
  rw [step, if_neg (by rw [hlive]; exact Bool.false_ne_true)]

/-- **A command in two worlds.** If no attempt succeeds in either of them, the
session after it and what the client sees of it are the same, and nobody is
authenticated. -/
theorem step_world {w₁ w₂ : World} {i : ClientInput} (hid : s.identity = none)
    (h₁ : ∀ p, step srv g peer s (i.call n g remote w₁ s) = some p →
      ∀ c ∈ p.2.authenticated, failed c = true)
    (h₂ : ∀ p, step srv g peer s (i.call n g remote w₂ s) = some p →
      ∀ c ∈ p.2.authenticated, failed c = true) :
    (step srv g peer s (i.call n g remote w₁ s) = none ∧
      step srv g peer s (i.call n g remote w₂ s) = none) ∨
    ∃ s' r₁ r₂, step srv g peer s (i.call n g remote w₁ s) = some (s', r₁) ∧
      step srv g peer s (i.call n g remote w₂ s) = some (s', r₂) ∧ visible r₁ = visible r₂ ∧
      s'.identity = none := by
  cases hdead : s.dead with
  | true =>
    have hnone : ∀ c, step srv g peer s c = none := fun c => by simp only [step, hdead, if_true]
    exact .inl ⟨hnone _, hnone _⟩
  | false =>
  have hlive : ¬ s.dead = true := by rw [hdead]; exact Bool.false_ne_true
  -- most inputs are the same call in both worlds
  have hsame : ∀ {c : Call}, (∀ p, step srv g peer s c = some p →
        ∀ a ∈ p.2.authenticated, failed a = true) →
      (step srv g peer s c = none ∧ step srv g peer s c = none) ∨
      ∃ s' r₁ r₂, step srv g peer s c = some (s', r₁) ∧ step srv g peer s c = some (s', r₂) ∧
        visible r₁ = visible r₂ ∧ s'.identity = none := by
    intro c hfails
    cases hstep : step srv g peer s c with
    | none => exact .inl ⟨rfl, rfl⟩
    | some p =>
      exact .inr ⟨p.1, p.2, p.2, rfl, rfl, rfl, step_unidentified hid hstep (hfails p hstep)⟩
  cases i with
  | startTLS | auth | mail | rcpt | reset => exact hsame h₁
  | respond response =>
    simp only [ClientInput.call, step_respond hdead] at h₁ h₂ ⊢
    cases hex : s.exchange with
    | none => exact .inl ⟨rfl, rfl⟩
    | some e =>
    rw [hex] at h₁ h₂
    obtain ⟨hs, hvisible, hkept⟩ := next_failed (h₁ _ rfl) (h₂ _ rfl)
    refine .inr ⟨(s.next srv e response (w₁.answer n g remote s response)).1, _, _, rfl, ?_,
      hvisible, hkept.trans hid⟩
    rw [Option.map_some, hs]
  | data reads =>
  have hstep : ∀ c, step srv g peer s (.data c)
      = some ({ s.reset with dead := false }, { result := .failed errAuthRequired }) := by
    intro c
    rw [step, if_neg hlive]
    simp only [data_unidentified hid]
  exact .inr ⟨_, _, _, hstep _, hstep _, rfl, hid⟩

/-! ## The whole connection -/

theorem attempts_cons {p : Option Reply × Bool} {c : List (Option Reply × Bool)}
    (h : ∀ a ∈ attempts (p :: c), failed a = true) :
    (∀ r, p.1 = some r → ∀ a ∈ r.authenticated, failed a = true) ∧ ∀ a ∈ attempts c, failed a = true := by
  constructor
  · intro r hr a ha
    refine h a (List.mem_flatMap.2 ⟨p, .head _, ?_⟩)
    rw [hr]
    exact List.mem_flatMap.2 ⟨r, by simp, ha⟩
  intro a ha
  obtain ⟨q, hq, haq⟩ := List.mem_flatMap.1 ha
  exact h a (List.mem_flatMap.2 ⟨q, .tail _ hq, haq⟩)

theorem seen_course {w₁ w₂ : Nat → World} (inputs : List ClientInput) {k : Nat} {s : Session}
    (hid : s.identity = none)
    (h₁ : ∀ a ∈ attempts (course n g remote srv peer w₁ k s inputs), failed a = true)
    (h₂ : ∀ a ∈ attempts (course n g remote srv peer w₂ k s inputs), failed a = true) :
    seen (course n g remote srv peer w₁ k s inputs)
      = seen (course n g remote srv peer w₂ k s inputs) := by
  induction inputs generalizing k s with
  | nil => rfl
  | cons i rest ih =>
  rw [course] at h₁ h₂ ⊢
  conv_rhs => rw [course]
  have hfirst : ∀ {w : Nat → World},
      (∀ a ∈ attempts (match step srv g peer s (i.call n g remote (w k) s) with
        | none => (none, false) :: course n g remote srv peer w (k + 1) s rest
        | some (s', r) => (some r, closed s') ::
            if closed s' then [] else course n g remote srv peer w (k + 1) s' rest), failed a = true) →
      ∀ p, step srv g peer s (i.call n g remote (w k) s) = some p →
        ∀ c ∈ p.2.authenticated, failed c = true := by
    intro w h p hp
    rw [hp] at h
    exact (attempts_cons h).1 p.2 rfl
  rcases step_world hid (hfirst h₁) (hfirst h₂) with ⟨hn₁, hn₂⟩ | ⟨s', r₁, r₂, hs₁, hs₂, hvis, hid'⟩
  · rw [hn₁] at h₁ ⊢
    rw [hn₂] at h₂ ⊢
    exact congrArg (_ :: ·) (ih hid (attempts_cons h₁).2 (attempts_cons h₂).2)
  rw [hs₁] at h₁ ⊢
  rw [hs₂] at h₂ ⊢
  cases hclosed : closed s' with
  | true => simp [seen, hclosed]
  | false =>
  simp only [hclosed, Bool.false_eq_true, if_false] at h₁ h₂ ⊢
  have hrest := ih hid' (attempts_cons h₁).2 (attempts_cons h₂).2
  simp only [seen, List.map_cons, Option.map_some, hvis, Bool.false_eq_true, if_false] at hrest ⊢
  rw [hrest]

/-- **Failed authentications look the same.** Two runs of one connection with the
same inputs of the client, in arbitrary worlds, that is databases, stored hashes
and clocks, which may change at every command: if every attempt to authenticate
fails in both, the client sees the same replies, and the connection is closed at
the same point. -/
theorem failures_look_the_same (n : NetText) (g : GoText) (srv : Server) (peer : Peer)
    (remote : Option Addr) (encrypted : Bool) (inputs : List ClientInput) (w₁ w₂ : Nat → World)
    (h₁ : ∀ a ∈ attempts (course n g remote srv peer w₁ 0 { encrypted } inputs), failed a = true)
    (h₂ : ∀ a ∈ attempts (course n g remote srv peer w₂ 0 { encrypted } inputs), failed a = true) :
    seen (course n g remote srv peer w₁ 0 { encrypted } inputs)
      = seen (course n g remote srv peer w₂ 0 { encrypted } inputs) :=
  seen_course inputs rfl h₁ h₂

end

def strict : Server := { maxMessageBytes := 1000, maxRecipients := 10, maxAuthFailures := 2 }

def lookup (getByUsername : Bytes → Except Err SMTPAccount) : World where
  queries := ⟨getByUsername, fun _ => .ok [], fun _ => .ok []⟩
  passwords := ⟨fun _ _ => .ok (false, false), fun _ => .ok []⟩
  order := ⟨id, MapOrder.id_perm⟩
  submit := .ok []

def nobody : World := lookup (Directory.getByUsername ⟨.empty, .empty, [], []⟩)

def locked : World := lookup fun _ => .error (.new (ascii "database is locked"))

def otherPassword : World := lookup fun username => .ok { id := ascii "1", username }

def threeAttempts : List ClientInput :=
  (List.replicate 3 [.auth plain, .respond (some (0 :: ascii "u" ++ 0 :: ascii "p"))]).flatten

/-- An unknown account, a database that cannot be read and a wrong password: the
connection is closed at the second attempt. -/
theorem failures_look_the_same_three :
    (attempts (course dottedText bareText none strict {} (fun _ => nobody) 0 { encrypted := true }
      threeAttempts)).length = 2 ∧
    seen (course dottedText bareText none strict {} (fun _ => nobody) 0 { encrypted := true }
        threeAttempts)
      = seen (course dottedText bareText none strict {}
          (fun k => if k = 1 then locked else otherPassword) 0 { encrypted := true }
          threeAttempts) :=
  ⟨by decide +kernel, failures_look_the_same dottedText bareText strict {} none true threeAttempts _ _
    (by decide +kernel) (by decide +kernel)⟩

end SmtpProxy.App
