import SmtpProxy.Smtpsrv.Gate

/-!
# What the limiter counts

In every state the server can reach, the limiter's fields are those of the
connections that were given a slot and are not closed yet (`Accounted`), over all
listeners together and by the host of their peer. A connection gives its slot
back once, however often it is closed, since its `sync.Once` goes from fresh to
running to done and never back.
-/

namespace SmtpProxy.Smtpsrv

open Lib Policy List Function

/-- The connections that were given a slot and are not closed. -/
def Gate.unclosed (s : Gate) : Nat := s.sockets.countP (·.unclosed)

/-- Those of them whose peer has this host. -/
def Gate.unclosedFrom (n : NetText) (s : Gate) (k : Bytes) : Nat :=
  s.sockets.countP fun sock => sock.unclosed && decide (sock.key n = k)

/-- The state of a socket's `sync.Once` is one its phase allows. -/
def Socket.OnceFits (s : Socket) : Prop :=
  match s.phase with
  | .pending | .shaking | .refused => s.once = .fresh
  | .closing => s.once = .running
  | .rejected => s.once = .done
  | .returned _ => True

/-- The limiter counts the connections that are not closed. -/
structure Accounted (n : NetText) (maxPerIP maxTotal : Int) (s : Gate) : Prop where
  counted : s.limiter.Counted (s.unclosedFrom n) s.unclosed
  maxIP : s.limiter.maxIP = maxPerIP
  maxAll : s.limiter.maxAll = maxTotal
  once : ∀ sock ∈ s.sockets, sock.OnceFits

section

variable {n : NetText} {g : GoText} {proxy : Nat → Option ProxyHandshake} {s t : Gate}
  {a : GateAct} {i : Nat} {sock sock' : Socket} {maxPerIP maxTotal : Int} {limiter : ConnLimiter}

/-! ## One socket changes -/

theorem unclosed_put (hs : s.sockets[i]? = some sock) (sock' : Socket) (limiter : ConnLimiter) :
    (s.put i sock' limiter).unclosed + sock.unclosed.toNat = s.unclosed + sock'.unclosed.toNat :=
  countP_set_add hs sock' _

theorem unclosedFrom_put (hs : s.sockets[i]? = some sock) (hpeer : sock'.peer = sock.peer)
    (limiter : ConnLimiter) (k : Bytes) :
    (s.put i sock' limiter).unclosedFrom n k + (sock.unclosed && decide (sock.key n = k)).toNat
      = s.unclosedFrom n k + (sock'.unclosed && decide (sock.key n = k)).toNat := by
  have hkey : sock'.key n = sock.key n := congrArg (addrKey n) hpeer
  have hadd := countP_set_add hs sock' fun sock => sock.unclosed && decide (sock.key n = k)
  simp only [hkey] at hadd
  exact hadd

theorem accounted_keep (h : Accounted n maxPerIP maxTotal s) (hs : s.sockets[i]? = some sock)
    (hpeer : sock'.peer = sock.peer) (hsame : sock'.unclosed = sock.unclosed)
    (honce : sock'.OnceFits) : Accounted n maxPerIP maxTotal (s.put i sock' s.limiter) := by
  have hall : (s.put i sock' s.limiter).unclosed = s.unclosed := by
    have := unclosed_put hs sock' s.limiter
    rw [hsame] at this
    omega
  have hfrom : (s.put i sock' s.limiter).unclosedFrom n = s.unclosedFrom n := by
    funext k
    have := unclosedFrom_put (n := n) hs hpeer s.limiter k
    rw [hsame] at this
    omega
  refine ⟨?_, h.maxIP, h.maxAll, forall_mem_set h.once honce⟩
  rw [hall, hfrom]
  exact h.counted

theorem accounted_acquire (h : Accounted n maxPerIP maxTotal s) (hs : s.sockets[i]? = some sock)
    (hpeer : sock'.peer = sock.peer) (hbefore : sock.unclosed = false)
    (hafter : sock'.unclosed = true) (honce : sock'.OnceFits)
    (hslot : s.limiter.acquire (sock.key n) = some limiter) :
    Accounted n maxPerIP maxTotal (s.put i sock' limiter) := by
  obtain ⟨hcounted, hip, hall⟩ := ConnLimiter.counted_acquire h.counted hslot
  have hone : (s.put i sock' limiter).unclosed = s.unclosed + 1 := by
    have := unclosed_put hs sock' limiter
    rw [hbefore, hafter] at this
    exact this
  have hfrom : (s.put i sock' limiter).unclosedFrom n
      = update (s.unclosedFrom n) (sock.key n) (s.unclosedFrom n (sock.key n) + 1) := by
    funext k
    have hput := unclosedFrom_put (n := n) hs hpeer limiter k
    rw [hbefore, hafter] at hput
    by_cases hk : k = sock.key n
    · subst hk
      rw [update_self]
      simpa using hput
    rw [update_of_ne hk]
    simpa [Ne.symm hk] using hput
  refine ⟨?_, hip.trans h.maxIP, hall.trans h.maxAll, forall_mem_set h.once honce⟩
  rw [hone, hfrom]
  exact hcounted

theorem accounted_release (h : Accounted n maxPerIP maxTotal s) (hs : s.sockets[i]? = some sock)
    (hpeer : sock'.peer = sock.peer) (hbefore : sock.unclosed = true)
    (hafter : sock'.unclosed = false) (honce : sock'.OnceFits) :
    Accounted n maxPerIP maxTotal (s.put i sock' (s.limiter.release (sock.key n))) := by
  have hmem := mem_of_getElem? hs
  have hone : 0 < s.unclosed := countP_pos_iff.2 ⟨sock, hmem, hbefore⟩
  have hkey : 0 < s.unclosedFrom n (sock.key n) :=
    countP_pos_iff.2 ⟨sock, hmem, by simp [hbefore]⟩
  have hless : (s.put i sock' (s.limiter.release (sock.key n))).unclosed = s.unclosed - 1 := by
    have hput := unclosed_put hs sock' (s.limiter.release (sock.key n))
    rw [hbefore, hafter] at hput
    simp only [Bool.toNat_true, Bool.toNat_false, Nat.add_zero] at hput
    omega
  have hfrom : (s.put i sock' (s.limiter.release (sock.key n))).unclosedFrom n
      = update (s.unclosedFrom n) (sock.key n) (s.unclosedFrom n (sock.key n) - 1) := by
    funext k
    have hput := unclosedFrom_put (n := n) hs hpeer (s.limiter.release (sock.key n)) k
    rw [hbefore, hafter] at hput
    by_cases hk : k = sock.key n
    · subst hk
      rw [update_self]
      simp only [decide_true, Bool.and_true, Bool.toNat_true, Bool.toNat_false, Nat.add_zero] at hput
      omega
    rw [update_of_ne hk]
    simpa [Ne.symm hk] using hput
  refine ⟨?_, h.maxIP, h.maxAll, forall_mem_set h.once honce⟩
  rw [hless, hfrom]
  exact ConnLimiter.counted_release h.counted hkey hone

/-! ## Every run -/

theorem accounted_init (maxPerIP maxTotal : Int) :
    Accounted n maxPerIP maxTotal (.init maxPerIP maxTotal) :=
  ⟨ConnLimiter.counted_new _ _, rfl, rfl, fun _ h => absurd h not_mem_nil⟩

theorem unclosed_receive (sock : Socket) (a : Arrival) :
    (sock.receive a).unclosed = sock.unclosed := by
  unfold Socket.unclosed Socket.gated Socket.receive
  cases sock.phase <;> rfl

theorem onceFits_receive (h : sock.OnceFits) (a : Arrival) : (sock.receive a).OnceFits := by
  unfold Socket.OnceFits Socket.receive at *
  cases hphase : sock.phase <;> simp only [hphase] at h ⊢ <;> exact h

/-- **Every step keeps the account.** -/
theorem accounted_step (h : Accounted n maxPerIP maxTotal s)
    (hstep : gateStep n g proxy s a = some t) : Accounted n maxPerIP maxTotal t := by
  -- the `sync.Once` of a socket that is not returned is known from its phase
  have hfits : ∀ {i : Nat} {sock : Socket}, s.sockets[i]? = some sock → sock.OnceFits :=
    fun hs => h.once _ (mem_of_getElem? hs)
  cases gateStep_cases hstep with
  | connect listener peer =>
    refine ⟨?_, h.maxIP, h.maxAll, ?_⟩
    · have hall : Gate.unclosed { s with sockets := s.sockets ++ [{ listener, peer }] }
          = s.unclosed := countP_append
      have hfrom : Gate.unclosedFrom n { s with sockets := s.sockets ++ [{ listener, peer }] }
          = s.unclosedFrom n := funext fun _ => countP_append
      rw [hall, hfrom]
      exact h.counted
    intro sock hmem
    rcases mem_append.1 hmem with hmem | hmem
    · exact h.once sock hmem
    rw [mem_singleton.1 hmem]
    rfl
  | @arrive i sock a hs ha =>
    exact accounted_keep h hs rfl (unclosed_receive sock a) (onceFits_receive (hfits hs) a)
  | @refuse l i sock hs hnext hphase hfull =>
    have honce := hfits hs
    simp only [Socket.OnceFits, hphase] at honce
    exact accounted_keep h hs rfl (by simp [Socket.unclosed, Socket.gated, hphase]) honce
  | @pass l i sock limiter hs hnext hphase hslot hproxy =>
    have honce := hfits hs
    simp only [Socket.OnceFits, hphase] at honce
    exact accounted_acquire h hs rfl (by simp [Socket.unclosed, Socket.gated, hphase])
      (by simp [Socket.unclosed, Socket.gated, honce]) trivial hslot
  | @shake l i sock limiter hand hs hnext hphase hslot hproxy =>
    have honce := hfits hs
    simp only [Socket.OnceFits, hphase] at honce
    exact accounted_acquire h hs rfl (by simp [Socket.unclosed, Socket.gated, hphase])
      (by simp [Socket.unclosed, Socket.gated, honce]) honce hslot
  | @wrap l i sock c hs hnext hphase hshake =>
    exact accounted_keep h hs rfl (by simp [Socket.unclosed, Socket.gated, hphase]) trivial
  | @fail l i sock e hs hnext hphase hshake =>
    have honce := hfits hs
    simp only [Socket.OnceFits, hphase] at honce
    exact accounted_keep h hs rfl (by simp [Socket.unclosed, Socket.gated, hphase, honce]) rfl
  | @drop l i sock hs hnext hphase =>
    have honce := hfits hs
    simp only [Socket.OnceFits, hphase] at honce
    exact accounted_release h hs rfl (by simp [Socket.unclosed, Socket.gated, hphase, honce])
      (by simp [Socket.unclosed]) rfl
  | @deadline i sock hs hphase hwaits =>
    exact accounted_keep h hs rfl (unclosed_receive sock _) (onceFits_receive (hfits hs) _)
  | @close i sock c hs hphase honce =>
    refine accounted_keep h hs rfl ?_ ?_
    · simp [Socket.unclosed, Socket.gated, hphase, honce]
    · simp only [Socket.OnceFits, hphase]
  | again => exact h
  | @release i sock c hs hphase honce =>
  refine accounted_release h hs rfl ?_ ?_ ?_
  · simp [Socket.unclosed, Socket.gated, hphase, honce]
  · simp [Socket.unclosed]
  · simp only [Socket.OnceFits, hphase]

theorem accounted_run
    (hreach : Reach (gateStep n g proxy) (fun _ _ => True) (.init maxPerIP maxTotal) s) :
    Accounted n maxPerIP maxTotal s :=
  hreach.invariant (I := Accounted n maxPerIP maxTotal) (accounted_init maxPerIP maxTotal)
    fun _ _ _ h _ hstep => accounted_step h hstep

theorem acquire_none_iff (h : Accounted n maxPerIP maxTotal s) (k : Bytes) :
    s.limiter.acquire k = none ↔
      (0 < maxTotal ∧ maxTotal ≤ s.unclosed) ∨ (0 < maxPerIP ∧ maxPerIP ≤ s.unclosedFrom n k) := by
  rw [ConnLimiter.acquire_eq_none_iff, ConnLimiter.fullAll, ConnLimiter.fullIP, h.maxIP, h.maxAll,
    h.counted.total, h.counted.count]
  simp

/-- **Connection accounting is exact.** In every state that any number of
listeners, sockets and `Close` calls can reach, the limiter's total is the number
of connections that were given a slot and are not closed; its entry for a host is
the number of those from that host, and there is one only if there are any;
neither exceeds a limit that is set; and a socket gets no slot only if a limit is
reached. -/
theorem accounting_exact (g : GoText) (proxy : Nat → Option ProxyHandshake)
    (hreach : Reach (gateStep n g proxy) (fun _ _ => True) (.init maxPerIP maxTotal) s) :
    s.limiter.total = s.unclosed ∧
    (∀ k, s.limiter.perIP k
      = if s.unclosedFrom n k = 0 then none else some (s.unclosedFrom n k : Int)) ∧
    (0 < maxTotal → s.limiter.total ≤ maxTotal) ∧
    (0 < maxPerIP → ∀ k, s.limiter.count k ≤ maxPerIP) ∧
    ∀ peer, s.limiter.acquire (addrKey n peer) = none → (0 < maxTotal ∧ maxTotal ≤ s.unclosed) ∨
      (0 < maxPerIP ∧ maxPerIP ≤ s.unclosedFrom n (addrKey n peer)) := by
  have h := accounted_run hreach
  refine ⟨h.counted.total, h.counted.perIP, ?_, ?_, fun peer => (acquire_none_iff h _).1⟩
  · have hle := h.counted.total_le
    rwa [h.maxAll] at hle
  have hle := h.counted.perIP_le
  rwa [h.maxIP] at hle

end

/-- Two connections from one host to two listeners; the first is closed twice. -/
def closedTwice : List GateAct :=
  [.connect 0 (some (.other (ascii "10.0.0.2:40"))),
    .connect 1 (some (.other (ascii "10.0.0.2:41"))),
    .serve 0, .serve 1, .close 0, .close 0, .release 0, .close 0]

/-- One connection is left. -/
theorem accounting_exact_closedTwice :
    ∃ s, runActions (gateStep dottedText bareText fun _ => none) (.init 2 3) closedTwice = some s ∧
      s.limiter.total = s.unclosed ∧ s.unclosed = 1 := by
  have hone : (runActions (gateStep dottedText bareText fun _ => none) (.init 2 3) closedTwice).map
      Gate.unclosed = some 1 := by decide +kernel
  obtain ⟨s, hrun, hone⟩ := Option.map_eq_some_iff.1 hone
  have hreach : Reach (gateStep dottedText bareText fun _ => none) (fun _ _ => True) (.init 2 3) s := by
    refine reach_of_runActions closedTwice ?_ hrun
    simp [closedTwice, AllMeet]
  exact ⟨s, hrun, (accounting_exact bareText _ hreach).1, hone⟩

/-! ## Clients behind a proxy

The limiter knows a socket by the host of its peer, which behind a load balancer
is the load balancer. The sessions know it by the host the header reports.
-/

section

variable (n : NetText)

/-- The connection was returned, and this is the host of the address it reports. -/
def Socket.reports (s : Socket) (host : Bytes) : Bool :=
  match s.phase with
  | .returned c => addrKey n c.remoteAddr = host
  | _ => false

/-- The open connections that report this host. -/
def Gate.reporting (s : Gate) (host : Bytes) : Nat :=
  s.sockets.countP fun sock => sock.unclosed && sock.reports n host

/-- The cap on the connections of one address applies to a client: a connection from
`peer` that reports `host` is refused exactly if the limit on all connections is
reached, or as many that report `host` are open as the cap allows. -/
def CapsClient (s : Gate) (peer : Option Addr) (host : Bytes) : Prop :=
  s.limiter.acquire (addrKey n peer) = none ↔
    (0 < s.limiter.maxAll ∧ s.limiter.maxAll ≤ s.unclosed) ∨
      s.limiter.maxIP ≤ s.reporting n host

/-- Among the connections that have a slot, those from this peer's host are those
that report the given host. -/
def OneClientPerPeer (s : Gate) (peer : Option Addr) (host : Bytes) : Prop :=
  ∀ sock ∈ s.sockets, sock.unclosed = true →
    (sock.key n = addrKey n peer ↔ sock.reports n host = true)

instance (s : Gate) (peer : Option Addr) (host : Bytes) : Decidable (OneClientPerPeer n s peer host) :=
  inferInstanceAs (Decidable (∀ sock ∈ s.sockets, _ → _))

variable {n} {g : GoText} {proxy : Nat → Option ProxyHandshake} {s : Gate} {maxPerIP maxTotal : Int}

theorem unclosedFrom_eq_reporting {peer : Option Addr} {host : Bytes}
    (hone : OneClientPerPeer n s peer host) :
    s.unclosedFrom n (addrKey n peer) = s.reporting n host := by
  refine countP_congr fun sock hmem => ?_
  rw [Bool.and_eq_true, Bool.and_eq_true, decide_eq_true_eq]
  exact and_congr_right fun hopen => hone sock hmem hopen

/-- **The cap applies to a client exactly if the connections from its peer's host
reach it when its own do.** In every state the server can reach, for every
connection that comes from `peer` and reports the host `host`: it is treated as one
more of that host exactly if the limit on all connections is reached anyway, or as
many connections from the peer's host are open as the cap allows exactly if as many
are that report `host`. That is so where each client has a peer host of its own. -/
theorem per_client_cap_iff
    (hreach : Reach (gateStep n g proxy) (fun _ _ => True) (.init maxPerIP maxTotal) s)
    (hcap : 0 < maxPerIP) (peer : Option Addr) (host : Bytes) :
    (CapsClient n s peer host ↔ (0 < maxTotal ∧ maxTotal ≤ s.unclosed) ∨
      (maxPerIP ≤ s.unclosedFrom n (addrKey n peer) ↔ maxPerIP ≤ s.reporting n host)) ∧
    (OneClientPerPeer n s peer host → CapsClient n s peer host) := by
  have h := accounted_run hreach
  have hiff : CapsClient n s peer host ↔ (0 < maxTotal ∧ maxTotal ≤ s.unclosed) ∨
      (maxPerIP ≤ s.unclosedFrom n (addrKey n peer) ↔ maxPerIP ≤ s.reporting n host) := by
    rw [CapsClient, acquire_none_iff h, h.maxIP, h.maxAll]
    by_cases htotal : 0 < maxTotal ∧ maxTotal ≤ s.unclosed
    · simp [htotal]
    · simp [htotal, hcap]
  refine ⟨hiff, fun hone => hiff.2 (.inr ?_)⟩
  rw [unclosedFrom_eq_reporting hone]

end

def balancer (port : String) : Option Addr := some (.other (ascii ("10.0.0.2:" ++ port)))

def trustTen : ProxyHandshake := ⟨[⟨[10, 0, 0, 0], [255, 0, 0, 0]⟩]⟩

/-- A server that trusts load balancers in 10.0.0.0/8. -/
def balanced : Gate → GateAct → Option Gate := gateStep dottedText bareText fun _ => some trustTen

def headerFor (host : String) : Arrival :=
  .data (ascii ("PROXY TCP4 " ++ host ++ " 10.0.0.1 7 25\r\n"))

def oneClient : List GateAct :=
  [.connect 0 (balancer "40"), .arrive 0 (headerFor "192.0.2.1"), .serve 0, .serve 0]

/-- With a cap of one, the client is refused a second connection. -/
theorem per_client_cap_iff_oneClient :
    ∃ s, runActions balanced (.init 1 0) oneClient = some s ∧
      CapsClient dottedText s (balancer "41") (ascii "192.0.2.1") := by
  have hone : (runActions balanced (.init 1 0) oneClient).map
      (fun s => decide (OneClientPerPeer dottedText s (balancer "41") (ascii "192.0.2.1"))) = some true := by
    decide +kernel
  obtain ⟨s, hrun, hone⟩ := Option.map_eq_some_iff.1 hone
  have hreach : Reach balanced (fun _ _ => True) (.init 1 0) s := by
    refine reach_of_runActions oneClient ?_ hrun
    simp [oneClient, AllMeet]
  exact ⟨s, hrun, (per_client_cap_iff hreach (by decide) _ _).2 (of_decide_eq_true hone)⟩

def secondClient : List GateAct :=
  [.connect 0 (balancer "41"), .arrive 1 (headerFor "192.0.2.2"), .serve 0]

/-- **Clients behind one load balancer share one cap**: with a cap of one, the
second client is refused, though nothing that reports its address is open. -/
theorem second_client_refused :
    ((trustTen.handshake dottedText bareText (balancer "41") [headerFor "192.0.2.2"]).map fun r =>
      r.toOption.map fun c => addrKey dottedText c.remoteAddr) = some (some (ascii "192.0.2.2")) ∧
    (runActions balanced (.init 1 0) (oneClient ++ secondClient)).map (fun s =>
      ((s.sockets[1]?).map (·.phase), s.reporting dottedText (ascii "192.0.2.2")))
        = some (some .refused, 0) := by
  decide +kernel

end SmtpProxy.Smtpsrv
