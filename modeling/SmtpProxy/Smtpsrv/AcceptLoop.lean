import SmtpProxy.Smtpsrv.Accounting

/-!
# Waiting for one's turn

The accept loop of a listener reads the PROXY header of one socket before it
takes the next. `settle` says what the loop makes of a socket if it does not have
to wait for it, and `settleAll` what it makes of a whole queue. A step of the loop
does not change what the queue before a socket comes to (`clears_accept`), so
the loop gets to the socket exactly if it comes to something
(`returned_without_waiting_iff`). A socket whose peer has sent nothing yet holds
up everyone behind it (`silent_peer_blocks`).
-/

namespace SmtpProxy.Smtpsrv

open Lib Policy List Option

/-- How many steps of the accept loop a socket can still need. -/
def Socket.work (s : Socket) : Nat :=
  match s.phase with
  | .pending => 3
  | .shaking => 2
  | .closing => 1
  | .returned _ | .refused | .rejected => 0

/-- How many all sockets can still need. -/
def Gate.work (s : Gate) : Nat := (s.sockets.map (·.work)).sum

def Gate.hasReturned (s : Gate) (i : Nat) : Bool :=
  (s.sockets[i]?).any fun sock =>
    match sock.phase with
    | .returned _ => true
    | _ => false

section

variable (n : NetText) (g : GoText) (h : ProxyHandshake) (l : Nat)

/-- The limiter once the handshake of a socket that has a slot is over. -/
def Socket.afterShake (s : Socket) (limiter : ConnLimiter) : Option ConnLimiter :=
  match h.handshake n g s.peer s.input with
  | none => none
  | some (.ok _) => some limiter
  | some (.error _) => some (limiter.release (s.key n))

/-- The limiter once the accept loop of listener `l` is done with a socket, or
`none` if it has to wait. -/
def Socket.settle (s : Socket) (limiter : ConnLimiter) : Option ConnLimiter :=
  if s.listener ≠ l then some limiter
  else
    match s.phase with
    | .pending =>
      match limiter.acquire (s.key n) with
      | none => some limiter
      | some limiter => s.afterShake n g h limiter
    | .shaking => s.afterShake n g h limiter
    | .closing => some (limiter.release (s.key n))
    | .returned _ | .refused | .rejected => some limiter

/-- The limiter once the accept loop is done with all of these sockets. -/
def settleAll (limiter : ConnLimiter) : List Socket → Option ConnLimiter
  | [] => some limiter
  | sock :: rest => (sock.settle n g h l limiter).bind fun limiter => settleAll limiter rest

/-- The accept loop is done with every socket before this one without waiting, and
the limiter then has a slot for it. -/
def Gate.clears (s : Gate) (b : Nat) (key : Bytes) : Bool :=
  (settleAll n g h l s.limiter (s.sockets.take b)).any fun limiter =>
    (limiter.acquire key).isSome

end

section

variable {n : NetText} {g : GoText} {h : ProxyHandshake} {proxy : Nat → Option ProxyHandshake}
  {s t : Gate} {b i l : Nat} {sock sock' : Socket} {limiter limiter' : ConnLimiter}
  {socks : List Socket}

/-! ## Where the loop is -/

theorem gate_next_spec (hnext : s.next l = some i) :
    ∃ sock, s.sockets[i]? = some sock ∧ sock.listener = l ∧ sock.unfinished = true ∧
      ∀ x ∈ s.sockets.take i, x.listener ≠ l ∨ x.unfinished = false := by
  obtain ⟨hi, hp, hbefore⟩ := findIdx?_eq_some_iff_getElem.1 hnext
  simp only [Bool.and_eq_true, decide_eq_true_eq] at hp
  refine ⟨_, getElem?_eq_getElem hi, hp.1, hp.2, fun x hx => ?_⟩
  obtain ⟨j, hj, rfl⟩ := mem_iff_getElem.1 hx
  rw [length_take] at hj
  have hnot := hbefore j (by omega)
  rw [getElem_take]
  have hj' : j < s.sockets.length := by omega
  by_cases hl : s.sockets[j].listener = l
  · simp only [hl, decide_true, Bool.true_and] at hnot
    exact .inr (eq_false_of_ne_true hnot)
  · exact .inl hl

theorem gate_next_of_spec (hs : s.sockets[i]? = some sock) (hl : sock.listener = l)
    (hun : sock.unfinished = true)
    (hbefore : ∀ x ∈ s.sockets.take i, x.listener ≠ l ∨ x.unfinished = false) :
    s.next l = some i := by
  obtain ⟨hi, rfl⟩ := List.getElem?_eq_some_iff.1 hs
  refine findIdx?_eq_some_iff_getElem.2 ⟨hi, by simp [hl, hun], fun j hj => ?_⟩
  have hmem : s.sockets[j] ∈ s.sockets.take i :=
    mem_iff_getElem.2 ⟨j, by rw [length_take]; omega, getElem_take⟩
  rcases hbefore _ hmem with hne | hfin
  · simp [hne]
  · simp [hfin]

/-- Behind a socket that is not finished the loop does not look. -/
theorem gate_next_le (hs : s.sockets[b]? = some sock) (hl : sock.listener = l)
    (hun : sock.unfinished = true) : ∃ i ≤ b, s.next l = some i := by
  obtain ⟨hb, rfl⟩ := List.getElem?_eq_some_iff.1 hs
  cases hnext : s.next l with
  | none =>
    have hno := findIdx?_eq_none_iff.1 hnext _ (getElem_mem hb)
    simp [hl, hun] at hno
  | some i =>
  obtain ⟨hi, -, hbefore⟩ := findIdx?_eq_some_iff_getElem.1 hnext
  refine ⟨i, Nat.le_of_not_lt fun hlt => ?_, rfl⟩
  exact hbefore b hlt (by simp [hl, hun])

theorem serve_eq (hs : s.sockets[i]? = some sock) (hnext : s.next l = some i) :
    gateStep n g proxy s (.serve l) = s.accept n g proxy i sock := by
  simp only [gateStep, hnext, hs]

/-! ## What a step does to the queue -/

theorem settle_done (hdone : sock.listener ≠ l ∨ sock.unfinished = false) (limiter : ConnLimiter) :
    sock.settle n g h l limiter = some limiter := by
  unfold Socket.settle
  rcases hdone with hne | hfin
  · rw [if_pos hne]
  unfold Socket.unfinished at hfin
  cases hphase : sock.phase <;> simp_all

theorem settleAll_done (hdone : ∀ x ∈ socks, x.listener ≠ l ∨ x.unfinished = false)
    (limiter : ConnLimiter) : settleAll n g h l limiter socks = some limiter := by
  induction socks with
  | nil => rfl
  | cons x rest ih =>
    rw [settleAll, settle_done (hdone x (.head _)), bind_some]
    exact ih fun y hy => hdone y (mem_cons_of_mem x hy)

theorem settleAll_set (hs : socks[i]? = some sock)
    (hdone : ∀ x ∈ socks.take i, x.listener ≠ l ∨ x.unfinished = false)
    (hsame : sock'.settle n g h l limiter' = sock.settle n g h l limiter) :
    settleAll n g h l limiter' (socks.set i sock') = settleAll n g h l limiter socks := by
  induction socks generalizing i with
  | nil => cases hs
  | cons x rest ih =>
  cases i with
  | zero =>
    cases hs
    rw [set_cons_zero, settleAll, settleAll, hsame]
  | succ i =>
  have hx := hdone x (by simp)
  rw [set_cons_succ, settleAll, settleAll, settle_done hx, settle_done hx, bind_some, bind_some]
  exact ih (by simpa using hs) fun y hy => hdone y (by simp [hy])

theorem accept_settle (hproxy : proxy l = some h) (hl : sock.listener = l)
    (hacc : s.accept n g proxy i sock = some t) :
    ∃ sock' limiter', t = s.put i sock' limiter' ∧ sock'.work < sock.work ∧
      sock'.settle n g h l limiter' = sock.settle n g h l s.limiter := by
  unfold Gate.accept at hacc
  cases hphase : sock.phase with
  | pending =>
    simp only [hphase, hl, hproxy] at hacc
    cases hslot : s.limiter.acquire (sock.key n) with
    | none =>
      simp only [hslot, Option.some.injEq] at hacc
      refine ⟨_, _, hacc.symm, by simp [Socket.work, hphase], ?_⟩
      simp [Socket.settle, hl, hphase, hslot]
    | some limiter =>
    simp only [hslot, Option.some.injEq] at hacc
    refine ⟨_, _, hacc.symm, by simp [Socket.work, hphase], ?_⟩
    simp only [Socket.settle, hl, hphase, hslot, ne_eq, not_true_eq_false, if_false]
    rfl
  | shaking =>
    simp only [hphase, shake_eq hproxy hl] at hacc
    cases hret : h.handshake n g sock.peer sock.input with
    | none => simp [hret] at hacc
    | some r =>
    cases r with
    | ok c =>
      simp only [hret, Option.some.injEq] at hacc
      refine ⟨_, _, hacc.symm, by simp [Socket.work, hphase], ?_⟩
      simp [Socket.settle, Socket.afterShake, hl, hphase, hret]
    | error e =>
    simp only [hret, Option.some.injEq] at hacc
    refine ⟨_, _, hacc.symm, by simp [Socket.work, hphase], ?_⟩
    simp only [Socket.settle, Socket.afterShake, hl, hphase, hret]
    rfl
  | closing =>
    simp only [hphase, Option.some.injEq] at hacc
    refine ⟨_, _, hacc.symm, by simp [Socket.work, hphase], ?_⟩
    simp [Socket.settle, hl, hphase]
  | returned | refused | rejected => simp [hphase] at hacc

theorem accept_waits (hproxy : proxy l = some h) (hl : sock.listener = l)
    (hun : sock.unfinished = true) (hacc : s.accept n g proxy i sock = none) :
    sock.settle n g h l limiter = none := by
  unfold Gate.accept at hacc
  cases hphase : sock.phase with
  | pending =>
    simp only [hphase, hl, hproxy] at hacc
    cases hslot : s.limiter.acquire (sock.key n) <;> simp [hslot] at hacc
  | shaking =>
    simp only [hphase, shake_eq hproxy hl] at hacc
    cases hret : h.handshake n g sock.peer sock.input with
    | none => simp [Socket.settle, Socket.afterShake, hl, hphase, hret]
    | some r => cases r <;> simp [hret] at hacc
  | closing => simp [hphase] at hacc
  | returned | refused | rejected => simp [Socket.unfinished, hphase] at hun

theorem settleAll_waits (hs : socks[i]? = some sock)
    (hdone : ∀ x ∈ socks.take i, x.listener ≠ l ∨ x.unfinished = false)
    (hwaits : sock.settle n g h l limiter = none) :
    settleAll n g h l limiter socks = none := by
  induction socks generalizing i with
  | nil => cases hs
  | cons x rest ih =>
  cases i with
  | zero =>
    cases hs
    rw [settleAll, hwaits]
    rfl
  | succ i =>
    rw [settleAll, settle_done (hdone x (by simp)), bind_some]
    exact ih (by simpa using hs) fun y hy => hdone y (by simp [hy])

/-- **A step of the loop with an earlier socket does not change what the queue
comes to**, and brings its end nearer. -/
theorem clears_accept (hproxy : proxy l = some h) (hnext : s.next l = some i) (hib : i < b)
    (hstep : gateStep n g proxy s (.serve l) = some t) (key : Bytes) :
    t.clears n g h l b key = s.clears n g h l b key ∧ t.work < s.work ∧
      t.sockets[b]? = s.sockets[b]? := by
  obtain ⟨sock, hs, hl, -, hdone⟩ := gate_next_spec hnext
  rw [serve_eq hs hnext] at hstep
  obtain ⟨sock', limiter', rfl, hwork, hsame⟩ := accept_settle hproxy hl hstep
  refine ⟨?_, ?_, ?_⟩
  · have hs' : (s.sockets.take b)[i]? = some sock := by
      rw [getElem?_take_of_lt hib, hs]
    have hdone' : ∀ x ∈ (s.sockets.take b).take i, x.listener ≠ l ∨ x.unfinished = false := by
      rw [take_take, Nat.min_eq_left (by omega)]
      exact hdone
    show ((settleAll n g h l limiter' ((s.sockets.set i sock').take b)).any fun limiter =>
      (limiter.acquire key).isSome) = _
    rw [take_set, settleAll_set hs' hdone' hsame]
    rfl
  · have hsum := sum_map_set_add hs sock' (·.work)
    show ((s.sockets.set i sock').map (·.work)).sum < (s.sockets.map (·.work)).sum
    omega
  · exact getElem?_set_ne (by omega)

/-! ## The loop on its own -/

theorem finished_stays (k : Nat) (hs : s.sockets[b]? = some sock) (hfin : sock.unfinished = false)
    (hrun : runActions (gateStep n g proxy) s (List.replicate k (.serve l)) = some t) :
    t.sockets[b]? = some sock := by
  induction k generalizing s with
  | zero =>
    cases hrun
    exact hs
  | succ k ih =>
  obtain ⟨u, hstep, hrest⟩ := bind_eq_some_iff.1 hrun
  refine ih ?_ hrest
  -- the socket the step changes is not finished
  have hput : ∀ {i : Nat} {x x' : Socket} {limiter : ConnLimiter}, s.next l = some i →
      s.sockets[i]? = some x → (s.put i x' limiter).sockets[b]? = some sock := by
    intro i x x' limiter hnext hx
    obtain ⟨y, hy, -, hun, -⟩ := gate_next_spec hnext
    have hne : i ≠ b := by
      rintro rfl
      rw [some.inj (hy.symm.trans hs), hfin] at hun
      exact Bool.false_ne_true hun
    exact (getElem?_set_ne hne).trans hs
  cases gateStep_cases hstep <;> exact hput ‹s.next l = some _› ‹_›

theorem hasReturned_of_some (hs : s.sockets[b]? = some sock) :
    s.hasReturned b = true ↔ ∃ c, sock.phase = .returned c := by
  rw [Gate.hasReturned, hs, any_some]
  cases sock.phase <;> simp

/-- A socket whose turn it is and whose header is there is returned if it gets a
slot. -/
theorem returned_in_turn {c : BufferedConn} (hproxy : proxy l = some h)
    (hs : s.sockets[b]? = some sock) (hl : sock.listener = l) (hphase : sock.phase = .pending)
    (hret : h.handshake n g sock.peer sock.input = some (.ok c)) (hnext : s.next l = some b) :
    (∃ k t, runActions (gateStep n g proxy) s (List.replicate k (.serve l)) = some t ∧
      t.hasReturned b = true) ↔ (s.limiter.acquire (sock.key n)).isSome = true := by
  subst hl
  obtain ⟨-, -, -, -, hdone⟩ := gate_next_spec hnext
  have hstep : gateStep n g proxy s (.serve sock.listener) = s.accept n g proxy b sock :=
    serve_eq hs hnext
  simp only [Gate.accept, hphase, hproxy] at hstep
  cases hslot : s.limiter.acquire (sock.key n) with
  | none =>
    -- it is refused, and stays so
    simp only [hslot] at hstep
    simp only [isSome_none, Bool.false_eq_true, iff_false]
    rintro ⟨k, t, hrun, hback⟩
    have hput : (s.put b { sock with phase := .refused } s.limiter).sockets[b]?
        = some { sock with phase := .refused } := getElem?_set_of_some hs _
    cases k with
    | zero =>
      cases hrun
      obtain ⟨c', hc'⟩ := (hasReturned_of_some hs).1 hback
      cases hphase.symm.trans hc'
    | succ k =>
    obtain ⟨u, hu, hrest⟩ := bind_eq_some_iff.1 hrun
    cases hstep.symm.trans hu
    obtain ⟨c', hc'⟩ := (hasReturned_of_some (finished_stays k hput rfl hrest)).1 hback
    cases hc'
  | some limiter =>
  simp only [hslot] at hstep
  simp only [isSome_some, iff_true]
  let u := s.put b { sock with phase := .shaking } limiter
  have hu : u.sockets[b]? = some { sock with phase := .shaking } := getElem?_set_of_some hs _
  have hnext' : u.next sock.listener = some b := by
    refine gate_next_of_spec hu rfl rfl ?_
    show ∀ x ∈ (s.sockets.set b _).take b, _
    rw [take_set_of_le (Nat.le_refl b)]
    exact hdone
  have hstep' : gateStep n g proxy u (.serve sock.listener)
      = some (u.put b { sock with phase := .returned c } limiter) := by
    rw [serve_eq hu hnext']
    simp only [Gate.accept, Socket.shake, hproxy, bind_some, hret]
    rfl
  have hback : (u.put b { sock with phase := .returned c } limiter).sockets[b]?
      = some { sock with phase := .returned c } := getElem?_set_of_some hu _
  refine ⟨2, _, ?_, (hasReturned_of_some hback).2 ⟨c, rfl⟩⟩
  show (gateStep n g proxy s (.serve sock.listener)).bind _ = _
  rw [hstep, bind_some]
  show (gateStep n g proxy u (.serve sock.listener)).bind _ = _
  rw [hstep', bind_some]
  rfl

/-- **Accept returns a connection without further input exactly if nobody before it
has to be waited for.** In every state, for every pending socket of a listener
with the PROXY protocol whose peer has sent a complete header: some number of steps
of the accept loop returns it exactly if the loop comes through the sockets before
it on what their peers have sent, and the limiter then has a slot for it. -/
theorem returned_without_waiting_iff {c : BufferedConn} (hproxy : proxy l = some h)
    (hs : s.sockets[b]? = some sock) (hl : sock.listener = l) (hphase : sock.phase = .pending)
    (hret : h.handshake n g sock.peer sock.input = some (.ok c)) :
    (∃ k t, runActions (gateStep n g proxy) s (List.replicate k (.serve l)) = some t ∧
      t.hasReturned b = true) ↔ s.clears n g h l b (sock.key n) = true := by
  have hun : sock.unfinished = true := by rw [Socket.unfinished, hphase]
  -- each step with an earlier socket leaves less work
  induction hwork : s.work using Nat.strong_induction_on generalizing s with
  | _ w ih =>
  obtain ⟨i, hib, hnext⟩ := gate_next_le hs hl hun
  obtain ⟨x, hx, hxl, hxun, hdone⟩ := gate_next_spec hnext
  rcases Nat.eq_or_lt_of_le hib with rfl | hlt
  · rw [returned_in_turn hproxy hs hl hphase hret hnext, Gate.clears, settleAll_done hdone,
      any_some]
  have hstart : ∀ t, runActions (gateStep n g proxy) s (List.replicate 0 (.serve l)) = some t →
      t.hasReturned b = true → False := by
    intro t hrun hback
    cases hrun
    obtain ⟨c', hc'⟩ := (hasReturned_of_some hs).1 hback
    cases hphase.symm.trans hc'
  cases hstep : gateStep n g proxy s (.serve l) with
  | none =>
    have hwaits : x.settle n g h l s.limiter = none :=
      accept_waits hproxy hxl hxun (by rw [← serve_eq hx hnext, hstep])
    have hx' : (s.sockets.take b)[i]? = some x := by rw [getElem?_take_of_lt hlt, hx]
    have hnone : settleAll n g h l s.limiter (s.sockets.take b) = none := by
      refine settleAll_waits hx' ?_ hwaits
      rw [take_take, Nat.min_eq_left (by omega)]
      exact hdone
    rw [Gate.clears, hnone, any_none]
    simp only [Bool.false_eq_true, iff_false]
    rintro ⟨k, t, hrun, hback⟩
    cases k with
    | zero => exact hstart t hrun hback
    | succ k =>
      obtain ⟨u, hu, -⟩ := bind_eq_some_iff.1 hrun
      cases hstep.symm.trans hu
  | some u =>
  obtain ⟨hclears, hless, hkept⟩ := clears_accept hproxy hnext hlt hstep (sock.key n)
  rw [← hclears]
  refine Iff.trans ?_ (ih u.work (hwork ▸ hless) (hkept.trans hs) rfl)
  constructor
  · rintro ⟨k, t, hrun, hback⟩
    cases k with
    | zero => exact (hstart t hrun hback).elim
    | succ k =>
    obtain ⟨u', hu', hrest⟩ := bind_eq_some_iff.1 hrun
    cases hstep.symm.trans hu'
    exact ⟨k, t, hrest, hback⟩
  rintro ⟨k, t, hrun, hback⟩
  exact ⟨k + 1, t, bind_eq_some_iff.2 ⟨u, hstep, hrun⟩, hback⟩

end

/-- A peer connects through the load balancer, and then a second one whose header is
there at once. -/
def behind (first : List GateAct) : List GateAct :=
  .connect 0 (balancer "40") :: first ++
    [.connect 0 (balancer "41"), .arrive 1 (headerFor "192.0.2.2")]

def Gate.started (first : List GateAct) : Option Gate :=
  runActions balanced (.init 0 0) (behind first)

/-- Behind a peer with a bad header the second one is returned. -/
theorem returned_without_waiting_iff_bad :
    ∃ s, Gate.started [.arrive 0 (.data (ascii "PROXY nonsense\r\n"))] = some s ∧
      ∃ k t, runActions balanced s (List.replicate k (.serve 0)) = some t ∧ t.hasReturned 1 = true := by
  have hstart : (Gate.started [.arrive 0 (.data (ascii "PROXY nonsense\r\n"))]).map (fun s =>
      (s.clears dottedText bareText trustTen 0 1 (ascii "10.0.0.2"), s.sockets[1]?))
      = some (true, some { listener := 0, peer := balancer "41", input := [headerFor "192.0.2.2"] }) := by
    decide +kernel
  obtain ⟨s, hs, hstate⟩ := map_eq_some_iff.1 hstart
  obtain ⟨hclears, hsock⟩ := Prod.mk.inj hstate
  have hdecided : (trustTen.handshake dottedText bareText (balancer "41") [headerFor "192.0.2.2"]).any
      (·.isOk) = true := by decide +kernel
  obtain ⟨c, hret⟩ : ∃ c, trustTen.handshake dottedText bareText (balancer "41")
      [headerFor "192.0.2.2"] = some (.ok c) := by
    cases hr : trustTen.handshake dottedText bareText (balancer "41") [headerFor "192.0.2.2"] with
    | none => rw [hr] at hdecided; cases hdecided
    | some r =>
    cases r with
    | error e => rw [hr] at hdecided; simp [Except.isOk, Except.toBool] at hdecided
    | ok c => exact ⟨c, rfl⟩
  have hkey : addrKey dottedText (balancer "41") = ascii "10.0.0.2" := by decide +kernel
  refine ⟨s, hs, Iff.mpr (returned_without_waiting_iff (by rfl) hsock rfl rfl hret) ?_⟩
  rw [Socket.key, hkey, hclears]

/-- **A peer that has sent nothing holds up the next.** The loop takes the first
socket, and then has no step left. -/
theorem silent_peer_blocks : ∃ s, Gate.started [] = some s ∧
      (s.sockets[1]?).map (fun sock => (sock.listener, sock.phase,
        (trustTen.handshake dottedText bareText sock.peer sock.input).any (·.isOk)))
        = some (0, .pending, true) ∧
      ∀ k t, runActions balanced s (List.replicate k (.serve 0)) = some t →
        t.hasReturned 1 = false := by
  have hstart : (Gate.started []).map (fun s =>
      ((s.sockets[1]?).map (fun sock => (sock.listener, sock.phase,
        (trustTen.handshake dottedText bareText sock.peer sock.input).any (·.isOk))),
      s.hasReturned 1,
      (balanced s (.serve 0)).map fun t =>
        (t.hasReturned 1, (balanced t (.serve 0)).isNone)))
      = some (some (0, .pending, true), false, some (false, true)) := by
    decide +kernel
  obtain ⟨s, hs, hstate⟩ := map_eq_some_iff.1 hstart
  obtain ⟨hsock, hrest⟩ := Prod.mk.inj hstate
  obtain ⟨hnow, hone⟩ := Prod.mk.inj hrest
  obtain ⟨u, hu, hstuck⟩ := map_eq_some_iff.1 hone
  obtain ⟨hnext, hnone⟩ := Prod.mk.inj hstuck
  refine ⟨s, hs, hsock, fun k t hrun => ?_⟩
  match k with
  | 0 =>
    cases hrun
    exact hnow
  | 1 =>
    obtain ⟨v, hv, hrun⟩ := bind_eq_some_iff.1 hrun
    cases hu.symm.trans hv
    cases hrun
    exact hnext
  | k + 2 =>
    obtain ⟨v, hv, hrun⟩ := bind_eq_some_iff.1 hrun
    cases hu.symm.trans hv
    obtain ⟨w, hw, -⟩ := bind_eq_some_iff.1 hrun
    rw [hw] at hnone
    cases hnone

end SmtpProxy.Smtpsrv
