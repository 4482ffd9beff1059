import SmtpProxy.Lib.Reach
import SmtpProxy.Smtpsrv.ProxyProto

/-!
# The connection gate

`gateListener` and `limitedConn` of `internal/smtpsrv/server.go`. Any number of
listeners share one limiter. Each has an accept loop of its own, which takes the
sockets of its backlog one after the other: it acquires a slot, reads the PROXY
header if it has to, and returns the connection. The loop is always at the first
socket of its listener that it is not done with.

What a socket's peer sends arrives at any time, and so does a `Close` of a
connection that was returned. The read deadline of a handshake passes only while
the handshake waits. Errors of the listener's own `Accept` and log lines are left out.
-/

namespace SmtpProxy.Smtpsrv

open Lib Policy

/-- The `sync.Once` of a `limitedConn`. -/
inductive Once where
  | fresh
  | running
  | done
  deriving DecidableEq

inductive Phase where
  | pending
  /-- It has a slot, and its header is being read. -/
  | shaking
  /-- Its handshake failed, and it is being closed. -/
  | closing
  | returned (c : BufferedConn)
  /-- It got no slot. -/
  | refused
  /-- Its handshake failed, and it is closed. -/
  | rejected
  deriving DecidableEq

/-- A socket: its listener, its remote address, and what has arrived on it. -/
structure Socket where
  listener : Nat
  peer : Option Addr
  input : List Arrival := []
  phase : Phase := .pending
  once : Once := .fresh
  deriving DecidableEq

/-- The limiter, and every socket in the order in which they were connected. -/
structure Gate where
  limiter : ConnLimiter
  sockets : List Socket := []

def Gate.init (maxPerIP maxTotal : Int) : Gate := { limiter := .new maxPerIP maxTotal }

/-- The accept loop is not done with it. -/
def Socket.unfinished (s : Socket) : Bool :=
  match s.phase with
  | .pending | .shaking | .closing => true
  | .returned _ | .refused | .rejected => false

/-- It was given a slot: there is a `limitedConn` for it. -/
def Socket.gated (s : Socket) : Bool :=
  match s.phase with
  | .shaking | .closing | .returned _ | .rejected => true
  | .pending | .refused => false

/-- It was given a slot, and no `Close` has released it. -/
def Socket.unclosed (s : Socket) : Bool := s.gated && decide (s.once ≠ .done)

/-- The connection as it is, without a handshake. -/
def Socket.direct (s : Socket) : BufferedConn :=
  { peer := s.peer, reader := { input := s.input }, remote := none }

/-- Something arrives. Whoever has the connection reads it from there. -/
def Socket.receive (s : Socket) (a : Arrival) : Socket :=
  { s with
    input := s.input ++ [a]
    phase :=
      match s.phase with
      | .returned c => .returned { c with reader := { c.reader with input := c.reader.input ++ [a] } }
      | phase => phase }

/-- Where the accept loop of a listener is. -/
def Gate.next (s : Gate) (l : Nat) : Option Nat :=
  s.sockets.findIdx? fun sock => decide (sock.listener = l) && sock.unfinished

def Gate.put (s : Gate) (i : Nat) (sock : Socket) (limiter : ConnLimiter) : Gate :=
  { limiter, sockets := s.sockets.set i sock }

inductive GateAct where
  | connect (listener : Nat) (peer : Option Addr)
  | arrive (i : Nat) (a : Arrival)
  /-- The accept loop of a listener takes a step. -/
  | serve (l : Nat)
  /-- The read deadline of a handshake passes. -/
  | deadline (i : Nat)
  /-- `Close` is called on a connection that was returned. -/
  | close (i : Nat)
  /-- The call that was first releases the slot. -/
  | release (i : Nat)

section

variable (n : NetText) (g : GoText) (proxy : Nat → Option ProxyHandshake)

def Socket.key (s : Socket) : Bytes := addrKey n s.peer

/-- What the handshake comes to, on what has arrived so far. -/
def Socket.shake (s : Socket) : Option (Except Err BufferedConn) :=
  (proxy s.listener).bind fun h => h.handshake n g s.peer s.input

/-- `gateListener.Accept`, one step of it. -/
def Gate.accept (s : Gate) (i : Nat) (sock : Socket) : Option Gate :=
  match sock.phase with
  | .pending =>
    match s.limiter.acquire (sock.key n) with
    | none => some (s.put i { sock with phase := .refused } s.limiter)
    | some limiter =>
      match proxy sock.listener with
      | none => some (s.put i { sock with phase := .returned sock.direct } limiter)
      | some _ => some (s.put i { sock with phase := .shaking } limiter)
  | .shaking =>
    match sock.shake n g proxy with
    | none => none
    | some (.ok c) => some (s.put i { sock with phase := .returned c } s.limiter)
    -- nobody else has this connection: its Close is the first
    | some (.error _) => some (s.put i { sock with phase := .closing, once := .running } s.limiter)
  | .closing =>
    some (s.put i { sock with phase := .rejected, once := .done }
      (s.limiter.release (sock.key n)))
  | .returned _ | .refused | .rejected => none

def gateStep (s : Gate) : GateAct → Option Gate
  | .connect listener peer => some { s with sockets := s.sockets ++ [{ listener, peer }] }
  | .arrive i a =>
    match s.sockets[i]? with
    | none => none
    | some sock =>
      if a = .fail .timeout then none else some (s.put i (sock.receive a) s.limiter)
  | .serve l =>
    match s.next l with
    | none => none
    | some i =>
      match s.sockets[i]? with
      | none => none
      | some sock => s.accept n g proxy i sock
  | .deadline i =>
    match s.sockets[i]? with
    | none => none
    | some sock =>
      match sock.phase, sock.shake n g proxy with
      | .shaking, none => some (s.put i (sock.receive (.fail .timeout)) s.limiter)
      | _, _ => none
  | .close i =>
    match s.sockets[i]? with
    | none => none
    | some sock =>
      match sock.phase, sock.once with
      | .returned _, .fresh => some (s.put i { sock with once := .running } s.limiter)
      -- the others wait for the first, or find the slot released
      | .returned _, _ => some s
      | _, _ => none
  | .release i =>
    match s.sockets[i]? with
    | none => none
    | some sock =>
      match sock.phase, sock.once with
      | .returned _, .running =>
        some (s.put i { sock with once := .done } (s.limiter.release (sock.key n)))
      | _, _ => none

/-! ## What a step can do -/

inductive GateStep (s : Gate) : GateAct → Gate → Prop where
  | connect (listener : Nat) (peer : Option Addr) :
      GateStep s (.connect listener peer)
        { s with sockets := s.sockets ++ [{ listener, peer }] }
  | arrive {i : Nat} {sock : Socket} {a : Arrival} (hs : s.sockets[i]? = some sock)
      (ha : a ≠ .fail .timeout) : GateStep s (.arrive i a) (s.put i (sock.receive a) s.limiter)
  | refuse {l i : Nat} {sock : Socket} (hs : s.sockets[i]? = some sock) (hnext : s.next l = some i)
      (hphase : sock.phase = .pending) (hfull : s.limiter.acquire (sock.key n) = none) :
      GateStep s (.serve l) (s.put i { sock with phase := .refused } s.limiter)
  | pass {l i : Nat} {sock : Socket} {limiter : ConnLimiter} (hs : s.sockets[i]? = some sock)
      (hnext : s.next l = some i) (hphase : sock.phase = .pending)
      (hslot : s.limiter.acquire (sock.key n) = some limiter) (hproxy : proxy sock.listener = none) :
      GateStep s (.serve l)
        (s.put i { sock with phase := .returned sock.direct } limiter)
  | shake {l i : Nat} {sock : Socket} {limiter : ConnLimiter} {h : ProxyHandshake}
      (hs : s.sockets[i]? = some sock)
      (hnext : s.next l = some i) (hphase : sock.phase = .pending)
      (hslot : s.limiter.acquire (sock.key n) = some limiter)
      (hproxy : proxy sock.listener = some h) :
      GateStep s (.serve l) (s.put i { sock with phase := .shaking } limiter)
  | wrap {l i : Nat} {sock : Socket} {c : BufferedConn} (hs : s.sockets[i]? = some sock)
      (hnext : s.next l = some i) (hphase : sock.phase = .shaking)
      (hshake : sock.shake n g proxy = some (.ok c)) :
      GateStep s (.serve l) (s.put i { sock with phase := .returned c } s.limiter)
  | fail {l i : Nat} {sock : Socket} {e : Err} (hs : s.sockets[i]? = some sock)
      (hnext : s.next l = some i) (hphase : sock.phase = .shaking)
      (hshake : sock.shake n g proxy = some (.error e)) :
      GateStep s (.serve l)
        (s.put i { sock with phase := .closing, once := .running } s.limiter)
  | drop {l i : Nat} {sock : Socket} (hs : s.sockets[i]? = some sock) (hnext : s.next l = some i)
      (hphase : sock.phase = .closing) :
      GateStep s (.serve l) (s.put i { sock with phase := .rejected, once := .done }
        (s.limiter.release (sock.key n)))
  | deadline {i : Nat} {sock : Socket} (hs : s.sockets[i]? = some sock)
      (hphase : sock.phase = .shaking) (hwaits : sock.shake n g proxy = none) :
      GateStep s (.deadline i) (s.put i (sock.receive (.fail .timeout)) s.limiter)
  | close {i : Nat} {sock : Socket} {c : BufferedConn} (hs : s.sockets[i]? = some sock)
      (hphase : sock.phase = .returned c) (honce : sock.once = .fresh) :
      GateStep s (.close i) (s.put i { sock with once := .running } s.limiter)
  | again {i : Nat} : GateStep s (.close i) s
  | release {i : Nat} {sock : Socket} {c : BufferedConn} (hs : s.sockets[i]? = some sock)
      (hphase : sock.phase = .returned c) (honce : sock.once = .running) :
      GateStep s (.release i)
        (s.put i { sock with once := .done } (s.limiter.release (sock.key n)))

end

section

variable {n : NetText} {g : GoText} {proxy : Nat → Option ProxyHandshake} {s t : Gate}
  {a : GateAct} {i l : Nat} {sock : Socket}

theorem shake_eq {h : ProxyHandshake} (hproxy : proxy l = some h) (hl : sock.listener = l) :
    sock.shake n g proxy = h.handshake n g sock.peer sock.input := by
  rw [Socket.shake, hl, hproxy, Option.bind_some]

theorem accept_cases (hs : s.sockets[i]? = some sock) (hnext : s.next l = some i)
    (h : s.accept n g proxy i sock = some t) : GateStep n g proxy s (.serve l) t := by
  unfold Gate.accept at h
  cases hphase : sock.phase with
  | pending =>
    simp only [hphase] at h
    cases hslot : s.limiter.acquire (sock.key n) with
    | none =>
      simp only [hslot, Option.some.injEq] at h
      exact h ▸ .refuse hs hnext hphase hslot
    | some limiter =>
    cases hproxy : proxy sock.listener with
    | none =>
      simp only [hslot, hproxy, Option.some.injEq] at h
      exact h ▸ .pass hs hnext hphase hslot hproxy
    | some hand =>
      simp only [hslot, hproxy, Option.some.injEq] at h
      exact h ▸ .shake hs hnext hphase hslot hproxy
  | shaking =>
    simp only [hphase] at h
    cases hshake : sock.shake n g proxy with
    | none => simp [hshake] at h
    | some r =>
    cases r with
    | ok c =>
      simp only [hshake, Option.some.injEq] at h
      exact h ▸ .wrap hs hnext hphase hshake
    | error e =>
      simp only [hshake, Option.some.injEq] at h
      exact h ▸ .fail hs hnext hphase hshake
  | closing =>
    simp only [hphase, Option.some.injEq] at h
    exact h ▸ .drop hs hnext hphase
  | returned | refused | rejected => simp [hphase] at h

/-- **Every step is one of these.** -/
theorem gateStep_cases (h : gateStep n g proxy s a = some t) : GateStep n g proxy s a t := by
  cases a with
  | connect listener peer =>
    cases h
    exact .connect listener peer
  | arrive i a =>
    cases hs : s.sockets[i]? with
    | none => simp [gateStep, hs] at h
    | some sock =>
    by_cases ha : a = .fail .timeout
    · simp [gateStep, hs, ha] at h
    simp only [gateStep, hs, ha, if_false, Option.some.injEq] at h
    exact h ▸ .arrive hs ha
  | serve l =>
    cases hnext : s.next l with
    | none => simp [gateStep, hnext] at h
    | some i =>
    cases hs : s.sockets[i]? with
    | none => simp [gateStep, hnext, hs] at h
    | some sock =>
      simp only [gateStep, hnext, hs] at h
      exact accept_cases hs hnext h
  | deadline i =>
    cases hs : s.sockets[i]? with
    | none => simp [gateStep, hs] at h
    | some sock =>
    simp only [gateStep, hs] at h
    split at h
    · next hphase hwaits =>
      cases h
      exact .deadline hs hphase hwaits
    · cases h
  | close i =>
    cases hs : s.sockets[i]? with
    | none => simp [gateStep, hs] at h
    | some sock =>
    simp only [gateStep, hs] at h
    split at h
    · next c hphase honce =>
      cases h
      exact .close hs hphase honce
    · cases h
      exact .again
    · cases h
  | release i =>
  cases hs : s.sockets[i]? with
  | none => simp [gateStep, hs] at h
  | some sock =>
  simp only [gateStep, hs] at h
  split at h
  · next c hphase honce =>
    cases h
    exact .release hs hphase honce
  · cases h

end

end SmtpProxy.Smtpsrv
