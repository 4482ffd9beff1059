import SmtpProxy.Smtpsrv.AcceptLoop

/-!
# Clients that send no PROXY header

A client and the server talk to each other, and the server speaks first: its
greeting is sent only once Accept has returned the connection. With the PROXY
protocol, Accept waits for twelve bytes before that. So a client without a header
is served if it sends that much, or ends its stream, before the read deadline and
without having heard anything (`headerless_served_iff`), and a client that waits
for the greeting is disconnected (`waiting_client_closed`).
-/

namespace SmtpProxy.Smtpsrv

open Lib Policy Option

/-- A client: what it sends next, given what it has sent so far and whether it has
read the greeting; `none` if it waits. -/
abbrev Client := List Arrival → Bool → Option Arrival

/-- The server, the client's part of the dialogue, and whether the client was
greeted. -/
structure Dialogue where
  gate : Gate
  sent : List Arrival := []
  greeted : Bool := false

inductive DialogueAct where
  /-- The client sends what it sends next. -/
  | say
  /-- The client reads the greeting. -/
  | greet
  /-- Anything else at the server, of which the peers of other sockets are a part. -/
  | other (a : GateAct)

def GateAct.arrivesAt (i : Nat) : GateAct → Bool
  | .arrive j _ => i = j
  | _ => false

section

variable (n : NetText) (g : GoText) (proxy : Nat → Option ProxyHandshake) (client : Client) (i : Nat)

def dialogueStep (d : Dialogue) : DialogueAct → Option Dialogue
  | .say =>
    match client d.sent d.greeted with
    | none => none
    | some a =>
      (gateStep n g proxy d.gate (.arrive i a)).map fun gate =>
        { d with gate, sent := d.sent ++ [a] }
  | .greet => if d.gate.hasReturned i then some { d with greeted := true } else none
  | .other a =>
    if a.arrivesAt i then none else (gateStep n g proxy d.gate a).map fun gate => { d with gate }

/-- Whenever it is this socket's turn, the limiter has a slot for it. -/
def HasSlot (d : Dialogue) : DialogueAct → Prop
  | .other (.serve l) => d.gate.next l = some i → ∀ sock ∈ d.gate.sockets[i]?,
      sock.phase = .pending → (d.gate.limiter.acquire (sock.key n)).isSome = true
  | _ => True

instance (d : Dialogue) : (a : DialogueAct) → Decidable (HasSlot n i d a)
  | .other (.serve l) => inferInstanceAs (Decidable (d.gate.next l = some i → _))
  | .say | .greet | .other (.connect ..) | .other (.arrive ..) | .other (.deadline _)
  | .other (.close _) | .other (.release _) => isTrue trivial

inductive Sends : List Arrival → Prop where
  | nil : Sends []
  | snoc {sent : List Arrival} {greeted : Bool} {a : Arrival} (hsent : Sends sent)
      (ha : client sent greeted = some a) : Sends (sent ++ [a])

/-- It never sends the beginning of a header. -/
def Headerless : Prop :=
  ∀ sent, Sends client sent → hasV1 (arriving sent) = false ∧ hasV2 (arriving sent) = false

/-- Accept has returned the connection, as that of its peer, and it reads what the
client sends. -/
def Served (peer : Option Addr) (d : Dialogue) : Prop :=
  ∃ sock c, d.gate.sockets[i]? = some sock ∧ sock.phase = .returned c ∧ c.remoteAddr = peer ∧
    ∀ bytes, c.reader.Yields bytes ↔ bytes = arriving d.sent

end

/-! ## What has arrived -/

/-- The connection failed before it could be told apart. -/
def Lost (input : List Arrival) : Prop := peekable input = false ∧ ending input ≠ none

variable {input : List Arrival}

theorem peekable_append (h : peekable input = true) (more : List Arrival) :
    peekable (input ++ more) = true := by
  simp only [peekable, Bool.or_eq_true, decide_eq_true_eq] at h ⊢
  rw [ending_append, arriving_append]
  rcases h with hlen | heof
  · left
    split
    · rw [List.length_append]
      omega
    · exact hlen
  right
  rw [heof]
  rfl

theorem lost_append (h : Lost input) (more : List Arrival) : Lost (input ++ more) := by
  obtain ⟨hpeek, hend⟩ := h
  cases hsome : ending input with
  | none => exact absurd hsome hend
  | some e =>
  constructor
  · rw [peekable, ending_append, arriving_append, hsome, if_neg (by simp), some_or, ← hsome]
    exact hpeek
  rw [ending_append, hsome]
  simp

theorem lost_timeout (hpeek : peekable input = false) (hend : ending input = none) :
    Lost (input ++ [.fail .timeout]) := by
  simp only [peekable, Bool.or_eq_false_iff, decide_eq_false_iff_not] at hpeek
  constructor
  · rw [peekable, ending_append, arriving_append, hend, if_pos rfl]
    simp only [arriving, ending, List.append_nil, none_or, Bool.or_eq_false_iff,
      decide_eq_false_iff_not]
    exact ⟨hpeek.1, by simp⟩
  rw [ending_append, hend]
  simp [ending]

section

variable {n : NetText} {g : GoText} {proxy : Nat → Option ProxyHandshake} {client : Client}
  {i l : Nat} {d d' : Dialogue} {h : ProxyHandshake} {peer : Option Addr} {sock sock' : Socket}
  {sent : List Arrival} {a : DialogueAct} {input : List Arrival} {c : BufferedConn}

/-! ## Without a header -/

/-- The connection reads all that the client sends, now and later. -/
structure PassedOn (peer : Option Addr) (sent : List Arrival) (c : BufferedConn) : Prop where
  peer : c.peer = peer
  remote : c.remote = none
  stream : c.reader.stream = arriving sent
  ending : ending c.reader.input = ending sent

theorem passedOn_receive (hc : PassedOn peer sent c) (a : Arrival) : PassedOn peer (sent ++ [a])
      { c with reader := { c.reader with input := c.reader.input ++ [a] } } := by
  refine ⟨hc.peer, hc.remote, ?_, ?_⟩
  · have hstream := hc.stream
    rw [Reader.stream] at hstream ⊢
    simp only [arriving_append, hc.ending]
    split
    · rw [← List.append_assoc, hstream]
    · exact hstream
  · simp only [ending_append, hc.ending]

variable (hless : hasV1 (arriving sent) = false ∧ hasV2 (arriving sent) = false)

include hless in
theorem handshake_headerless (n : NetText) (g : GoText) (h : ProxyHandshake) (peer : Option Addr)
    (hinput : input = sent ∨ Lost input) :
    (∃ c, h.handshake n g peer input = some (.ok c) ∧ input = sent ∧ peekable input = true ∧
      PassedOn peer sent c) ∨
    (∃ e, h.handshake n g peer input = some (.error e) ∧ Lost input) ∨
    (h.handshake n g peer input = none ∧ peekable input = false ∧ ending input = none) := by
  cases hpeek : peekable input with
  | true =>
    rcases hinput with rfl | hlost
    · obtain ⟨br, hstream, hending, hread⟩ := handshake_of_peekable n g h peer hpeek
      refine .inl ⟨{ peer, reader := br, remote := none }, ?_, rfl, rfl, ?_⟩
      · rw [hread, ProxyHandshake.readHeader, hless.1, hless.2]
        rfl
      · exact ⟨rfl, rfl, hstream, hending⟩
    · cases hlost.1.symm.trans hpeek
  | false =>
  rcases handshake_of_not_peekable n g h peer hpeek with ⟨hend, hnone⟩ | ⟨e, hend, -, herr⟩
  · exact .inr (.inr ⟨hnone, rfl, hend⟩)
  · exact .inr (.inl ⟨_, herr, hpeek, by rw [hend]; simp⟩)

/-! ## The course of the dialogue -/

/-- How far the server is with the socket, given what the client has sent. -/
def Fits (peer : Option Addr) (sent : List Arrival) (s : Socket) : Prop :=
  s.peer = peer ∧
  match s.phase with
  | .pending => s.input = sent
  | .shaking => s.input = sent ∨ Lost s.input
  | .closing | .rejected => Lost s.input
  | .returned c => s.input = sent ∧ peekable sent = true ∧ PassedOn peer sent c
  | .refused => False

theorem fits_receive (hfits : Fits peer sent sock) (a : Arrival) :
    Fits peer (sent ++ [a]) (sock.receive a) := by
  obtain ⟨hpeer, hphase⟩ := hfits
  refine ⟨hpeer, ?_⟩
  unfold Socket.receive
  cases hp : sock.phase <;> simp only [hp] at hphase ⊢
  case pending => rw [hphase]
  case shaking =>
    rcases hphase with hsent | hlost
    · exact .inl (by rw [hsent])
    · exact .inr (lost_append hlost [a])
  case closing => exact lost_append hphase [a]
  case rejected => exact lost_append hphase [a]
  case returned c =>
    obtain ⟨hsent, hpeek, hc⟩ := hphase
    exact ⟨by rw [hsent], peekable_append hpeek [a], passedOn_receive hc a⟩

include hless in
theorem fits_wrap (hfits : Fits peer sent sock) (hphase : sock.phase = .shaking)
    (hret : h.handshake n g peer sock.input = some (.ok c)) :
    Fits peer sent { sock with phase := .returned c } := by
  obtain ⟨hpeer, hinput⟩ := hfits
  simp only [hphase] at hinput
  rcases handshake_headerless hless n g h peer hinput
    with ⟨c', hok, hsent, hpeek, hc⟩ | ⟨e, herr, -⟩ | ⟨hnone, -⟩
  · cases some.inj (hok.symm.trans hret)
    exact ⟨hpeer, hsent, hsent ▸ hpeek, hc⟩
  · cases herr.symm.trans hret
  · cases hnone.symm.trans hret

include hless in
theorem fits_fail {e : Err} (hfits : Fits peer sent sock) (hphase : sock.phase = .shaking)
    (hret : h.handshake n g peer sock.input = some (.error e)) :
    Fits peer sent { sock with phase := .closing, once := .running } := by
  obtain ⟨hpeer, hinput⟩ := hfits
  simp only [hphase] at hinput
  rcases handshake_headerless hless n g h peer hinput with ⟨c, hok, -⟩ | ⟨e', -, hlost⟩ | ⟨hnone, -⟩
  · cases hok.symm.trans hret
  · exact ⟨hpeer, hlost⟩
  · cases hnone.symm.trans hret

include hless in
theorem fits_deadline (hfits : Fits peer sent sock) (hphase : sock.phase = .shaking)
    (hwaits : h.handshake n g peer sock.input = none) :
    Fits peer sent (sock.receive (.fail .timeout)) := by
  obtain ⟨hpeer, hinput⟩ := hfits
  simp only [hphase] at hinput
  refine ⟨hpeer, ?_⟩
  simp only [Socket.receive, hphase]
  rcases handshake_headerless hless n g h peer hinput
    with ⟨c, hok, -⟩ | ⟨e, herr, -⟩ | ⟨-, hpeek, hend⟩
  · cases hok.symm.trans hwaits
  · cases herr.symm.trans hwaits
  · exact .inr (lost_timeout hpeek hend)

/-- The invariant of a dialogue. -/
structure Talking (l i : Nat) (client : Client) (peer : Option Addr) (d : Dialogue) : Prop where
  sends : Sends client d.sent
  fits : ∃ sock, d.gate.sockets[i]? = some sock ∧ sock.listener = l ∧ Fits peer d.sent sock

include hless in
theorem fits_other {s t : Gate} {act : GateAct} (hproxy : proxy l = some h)
    (hs : s.sockets[i]? = some sock) (hl : sock.listener = l) (hfits : Fits peer sent sock)
    (harr : act.arrivesAt i = false)
    (hslot : ∀ l, act = .serve l → s.next l = some i → sock.phase = .pending →
      (s.limiter.acquire (sock.key n)).isSome = true)
    (hstep : gateStep n g proxy s act = some t) :
    ∃ sock', t.sockets[i]? = some sock' ∧ sock'.listener = l ∧ Fits peer sent sock' := by
  have hshake : sock.shake n g proxy = h.handshake n g peer sock.input := by
    rw [shake_eq hproxy hl, hfits.1]
  -- a step that changes another socket changes nothing here
  have hput : ∀ {j : Nat} {x x' : Socket} {limiter : ConnLimiter}, s.sockets[j]? = some x →
      (j = i → x = sock → x'.listener = l ∧ Fits peer sent x') →
      ∃ sock', (s.put j x' limiter).sockets[i]? = some sock' ∧ sock'.listener = l ∧
        Fits peer sent sock' := by
    intro j x x' limiter hx hself
    by_cases hj : j = i
    · subst hj
      exact ⟨x', getElem?_set_of_some hx x', hself rfl (some.inj (hx.symm.trans hs))⟩
    · exact ⟨sock, (List.getElem?_set_ne hj).trans hs, hl, hfits⟩
  cases gateStep_cases hstep with
  | connect listener peer' =>
    obtain ⟨hi, -⟩ := List.getElem?_eq_some_iff.1 hs
    refine ⟨sock, ?_, hl, hfits⟩
    rw [List.getElem?_append_left hi]
    exact hs
  | arrive hx ha =>
    refine hput hx ?_
    rintro rfl
    simp [GateAct.arrivesAt] at harr
  | refuse hx hnext hp hfull =>
    refine hput hx ?_
    rintro rfl rfl
    have hsome := hslot _ rfl hnext hp
    rw [hfull] at hsome
    cases hsome
  | pass hx hnext hp hgot hnone =>
    refine hput hx ?_
    rintro rfl rfl
    rw [hl, hproxy] at hnone
    cases hnone
  | shake hx hnext hp hgot hsome =>
    refine hput hx ?_
    rintro rfl rfl
    obtain ⟨hpeer, hinput⟩ := hfits
    simp only [hp] at hinput
    exact ⟨hl, hpeer, .inl hinput⟩
  | wrap hx hnext hp hret =>
    refine hput hx ?_
    rintro - rfl
    exact ⟨hl, fits_wrap hless hfits hp (hshake ▸ hret)⟩
  | fail hx hnext hp hret =>
    refine hput hx ?_
    rintro - rfl
    exact ⟨hl, fits_fail hless hfits hp (hshake ▸ hret)⟩
  | drop hx hnext hp =>
    refine hput hx ?_
    rintro rfl rfl
    obtain ⟨hpeer, hlost⟩ := hfits
    simp only [hp] at hlost
    exact ⟨hl, hpeer, hlost⟩
  | deadline hx hp hwaits =>
    refine hput hx ?_
    rintro - rfl
    exact ⟨hl, fits_deadline hless hfits hp (hshake ▸ hwaits)⟩
  | close hx hp honce =>
    refine hput hx ?_
    rintro rfl rfl
    exact ⟨hl, hfits⟩
  | again => exact ⟨sock, hs, hl, hfits⟩
  | release hx hp honce =>
  refine hput hx ?_
  rintro rfl rfl
  exact ⟨hl, hfits⟩

theorem talking_step (hproxy : proxy l = some h) (hless : Headerless client)
    (htalk : Talking l i client peer d) (hslot : HasSlot n i d a)
    (hstep : dialogueStep n g proxy client i d a = some d') : Talking l i client peer d' := by
  obtain ⟨hsends, sock, hs, hl, hfits⟩ := htalk
  cases a with
  | say =>
    simp only [dialogueStep] at hstep
    cases hsay : client d.sent d.greeted with
    | none => simp [hsay] at hstep
    | some a =>
    simp only [hsay] at hstep
    obtain ⟨t, ht, rfl⟩ := map_eq_some_iff.1 hstep
    refine ⟨.snoc hsends hsay, ?_⟩
    cases gateStep_cases ht with
    | arrive hx ha =>
      cases hx.symm.trans hs
      exact ⟨_, getElem?_set_of_some hs _, hl, fits_receive hfits a⟩
  | greet =>
    simp only [dialogueStep] at hstep
    split at hstep
    · cases hstep
      exact ⟨hsends, sock, hs, hl, hfits⟩
    · cases hstep
  | other act =>
  simp only [dialogueStep] at hstep
  cases harr : act.arrivesAt i with
  | true => simp [harr] at hstep
  | false =>
  simp only [harr, Bool.false_eq_true, if_false] at hstep
  obtain ⟨t, ht, rfl⟩ := map_eq_some_iff.1 hstep
  refine ⟨hsends, fits_other (hless _ hsends) hproxy hs hl hfits harr ?_ ht⟩
  rintro l' rfl hnext hphase
  exact hslot hnext sock hs hphase

/-- **A client without a header is served exactly if it can be told apart before the
read deadline.** In every run of a dialogue on a listener with the PROXY protocol
in which the limiter has a slot for the connection when its turn comes: once the
accept loop is done with it, Accept has returned it as the peer's connection, with
all that the client sends, exactly if twelve bytes or the end of the stream had
arrived; and it returns it as soon as they have. -/
theorem headerless_served_iff {s : Gate} (hproxy : proxy l = some h) (hless : Headerless client)
    (hfresh : s.sockets[i]? = some { listener := l, peer })
    (hreach : Reach (dialogueStep n g proxy client i) (HasSlot n i) { gate := s } d)
    (hs : d.gate.sockets[i]? = some sock) :
    (sock.unfinished = false → (Served i peer d ↔ peekable sock.input = true)) ∧
    (sock.phase = .shaking → peekable sock.input = true → d.gate.next l = some i →
      ∃ d', dialogueStep n g proxy client i d (.other (.serve l)) = some d' ∧ Served i peer d') := by
  have htalk : Talking l i client peer d := hreach.invariant (I := Talking l i client peer)
      ⟨.nil, _, hfresh, rfl, rfl, rfl⟩
      fun d a d' htalk hslot hstep => talking_step hproxy hless htalk hslot hstep
  obtain ⟨hsends, x, hx, hl, hpeer, hphase⟩ := htalk
  obtain rfl := some.inj (hx.symm.trans hs)
  have hserved : ∀ {d : Dialogue} {x : Socket} {c : BufferedConn}, d.gate.sockets[i]? = some x →
      x.phase = .returned c → PassedOn peer d.sent c → Served i peer d := by
    intro d x c hx hp hc
    refine ⟨x, c, hx, hp, ?_, fun bytes => ?_⟩
    · rw [BufferedConn.remoteAddr, hc.remote, hc.peer]
      rfl
    · rw [Reader.yields_iff, hc.stream]
  constructor
  · intro hfin
    constructor
    · rintro ⟨y, c, hy, hp, -, -⟩
      obtain rfl := some.inj (hx.symm.trans hy)
      simp only [hp] at hphase
      rw [hphase.1]
      exact hphase.2.1
    intro hpeek
    cases hp : x.phase with
    | returned c =>
      simp only [hp] at hphase
      exact hserved hx hp hphase.2.2
    | rejected =>
      simp only [hp] at hphase
      cases hphase.1.symm.trans hpeek
    | refused => simp only [hp] at hphase
    | pending | shaking | closing => simp [Socket.unfinished, hp] at hfin
  intro hp hpeek hnext
  simp only [hp] at hphase
  rcases handshake_headerless (hless _ hsends) n g h peer hphase
    with ⟨c, hok, -, -, hc⟩ | ⟨e, -, hlost⟩ | ⟨-, hnot, -⟩
  · have hstep : gateStep n g proxy d.gate (.serve l)
        = some (d.gate.put i { x with phase := .returned c } d.gate.limiter) := by
      rw [serve_eq hx hnext]
      simp only [Gate.accept, hp, shake_eq hproxy hl, hpeer, hok]
    refine ⟨_, by simp only [dialogueStep, GateAct.arrivesAt, hstep]; rfl, ?_⟩
    exact hserved (getElem?_set_of_some hx _) rfl hc
  · cases hlost.1.symm.trans hpeek
  · cases hnot.symm.trans hpeek

end

def eager : Client := fun sent _ => if sent = [] then some (.data (ascii "EHLO client\r\n")) else none

theorem eager_headerless : Headerless eager := by
  have hsends : ∀ sent, Sends eager sent → sent = [] ∨ sent = [.data (ascii "EHLO client\r\n")] := by
    intro sent hsent
    induction hsent with
    | nil => exact .inl rfl
    | snoc hsent ha ih =>
    rcases ih with rfl | rfl
    · exact .inr (by rw [← some.inj ha]; rfl)
    · simp [eager] at ha
  intro sent hsent
  rcases hsends sent hsent with rfl | rfl <;> decide

/-- A server with one new connection, which is not from the trusted network. -/
def oneSocket : Gate :=
  { limiter := .new 0 0, sockets := [{ listener := 0, peer := some (.other (ascii "192.0.2.1:7")) }] }

/-- What happens between that server and this client. -/
def conversing (client : Client) : Dialogue → DialogueAct → Option Dialogue :=
  dialogueStep dottedText bareText (fun _ => some trustTen) client 0

/-- The client that says hello at once is served. -/
theorem headerless_served_iff_eager :
    ∃ d, runActions (conversing eager)
        { gate := oneSocket } [.other (.serve 0), .say, .other (.serve 0)] = some d ∧
      Served 0 (some (.other (ascii "192.0.2.1:7"))) d := by
  have hend : (runActions (conversing eager)
      { gate := oneSocket } [.other (.serve 0), .say, .other (.serve 0)]).map (fun d =>
        (d.gate.sockets[0]?).any fun sock => !sock.unfinished && peekable sock.input) = some true := by
    decide +kernel
  obtain ⟨d, hrun, hend⟩ := map_eq_some_iff.1 hend
  have hmeet : AllMeet (conversing eager)
      (HasSlot dottedText 0) { gate := oneSocket } [.other (.serve 0), .say, .other (.serve 0)] := by
    decide +kernel
  refine ⟨d, hrun, ?_⟩
  cases hs : d.gate.sockets[0]? with
  | none =>
    rw [hs] at hend
    cases hend
  | some sock =>
  rw [hs, any_some, Bool.and_eq_true, Bool.not_eq_true'] at hend
  exact ((headerless_served_iff (by rfl) eager_headerless rfl
    (reach_of_runActions _ hmeet hrun) hs).1 hend.1).2 hend.2

def waiting : Client := fun sent greeted =>
  if greeted && sent = [] then some (.data (ascii "EHLO client\r\n")) else none

/-- A client that sends a short first line at once and waits for the reply. -/
def brief : Client := fun sent greeted =>
  if sent = [] then some (.data (ascii "HELO c\r\n"))
  else if greeted && sent.length = 1 then some (.data (ascii "QUIT\r\n")) else none

/-- **A client that waits for the greeting is disconnected**, and so is one that
waits after a first line of fewer than twelve bytes: neither has anything more to
say, the accept loop waits, the deadline passes, and the connection is closed. -/
theorem waiting_client_closed :
    ((runActions (conversing waiting) { gate := oneSocket } [.other (.serve 0)]).map fun d =>
      ((conversing waiting d .say).isNone, (conversing waiting d .greet).isNone,
        (conversing waiting d (.other (.serve 0))).isNone)) = some (true, true, true) ∧
    ((runActions (conversing waiting) { gate := oneSocket }
        [.other (.serve 0), .other (.deadline 0), .other (.serve 0), .other (.serve 0)]).map fun d =>
      (d.gate.sockets[0]?).map (·.phase)) = some (some .rejected) ∧
    ((runActions (conversing brief) { gate := oneSocket }
        [.say, .other (.serve 0), .other (.deadline 0), .other (.serve 0), .other (.serve 0)]).map
      fun d => (d.gate.sockets[0]?).map (·.phase)) = some (some .rejected) := by
  decide +kernel

end SmtpProxy.Smtpsrv
