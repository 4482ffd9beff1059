import SmtpProxy.Queue.Deliver

/-!
# Many runners on one queue

Several processes, each with its own worker name, claim from one database and
deliver what they claimed. A delivery is an execution of `deliver` split at the
points where other steps may come between: prepared, waiting in
`Limiter.Acquire` for as long as it takes, sending, about to record. All
processes share one clock; a `Send` lasts at most the upstream's timeout, which
the configuration keeps below the lease duration.

Each row a claim returns starts a delivery of its own, and the position of that
delivery in the list of all deliveries is the claim's tag. The log is ghost
state: it records what happened to each message, newest first, so that
"the latest claim" and "how often was it sent" can be said.
-/

namespace SmtpProxy.Queue

open Lib Store Transport Option

/-- The options all runners share. `validateQueue` demands that a lease outlast
the upstream's timeout. -/
structure Fleet where
  configured : Store.Transport → Bool
  backoff : Backoff
  leaseFor : Int
  timeout : Int
  timeout_pos : 0 < timeout
  timeout_lt : timeout < leaseFor

inductive Phase where
  | claimed
  | waiting (p : Transport.Message)
  | sending (p : Transport.Message) (start : Int)
  | recording (result : Option Err)
  | done

/-- One execution of `deliver`: the process, the row as it was claimed, and the
end of that claim's lease. -/
structure Delivery where
  proc : Bytes
  msg : Store.Message
  expiry : Int
  phase : Phase

def Delivery.id (d : Delivery) : Bytes := d.msg.id

inductive Event where
  | claimed (tag : Nat) (id : Bytes)
  | sendStarted (tag : Nat) (id : Bytes)
  | recorded (tag : Nat) (id : Bytes)
  | released (id : Bytes)
  deriving DecidableEq

structure Sys where
  clock : Int
  db : DB
  /-- The reading of each process's last claim. -/
  last : Bytes → Option Int := fun _ => none
  /-- The ids ever given to a message. -/
  issued : List Bytes := []
  deliveries : List Delivery := []
  log : List Event := []

def Sys.init (start : Int) : Sys := { clock := start, db := .empty }

/-! ## The steps -/

/-- A step of one delivery that writes nothing: `prepare`, the return of
`Acquire`, the return of `Send`, or an end without an outcome (a shutdown while
waiting, an outcome write the cancelled context refused, a crash). -/
inductive Progress where
  | load (env : Env) (ctx : Ctx)
  | acquire
  | finish (result : Option Err)
  | abandon

def Delivery.progress (f : Fleet) (clock : Int) (d : Delivery) : Progress → Option Phase
  | .load env ctx =>
    match d.phase with
    | .claimed =>
      match prepare env ctx d.msg with
      | .error e => some (.recording (some (prepareFailure e)))
      | .ok p => some (.waiting p)
    | _ => none
  | .acquire =>
    match d.phase with
    | .waiting p =>
      if f.configured p.mailbox.transport then some (.sending p clock)
      else some (.recording (some (noTransport p.mailbox.transport)))
    | _ => none
  | .finish result =>
    match d.phase with
    | .sending _ _ => some (.recording result)
    | _ => none
  | .abandon =>
    match d.phase with
    | .done => none
    | _ => some .done

def outcomeOf (b : Backoff) (random : ℚ) (now : Int) (m : Store.Message) : Option Err → Outcome
  | none => .sent
  | some e => recordFailure b random now m e

/-- The delivery's `Send` does not outlast the timeout. -/
def Delivery.mayWait (f : Fleet) (now : Int) (d : Delivery) : Bool :=
  match d.phase with
  | .sending _ start => decide (now ≤ start + f.timeout)
  | _ => true

def claimedRows : Except Err (List Store.Message) → List Store.Message
  | .ok rows => rows
  | .error _ => []

/-- Log the claims of these rows, tagged from `tag` on. -/
def claimEvents : Nat → List Store.Message → List Event → List Event
  | _, [], log => log
  | tag, m :: ms, log => claimEvents (tag + 1) ms (.claimed tag m.id :: log)

/-- One `ClaimMessages` call, and a delivery for every row it returned. -/
def Sys.claim (o : RowOrder) (f : Fleet) (s : Sys) (w : Bytes) (limit : Int) : Sys :=
  let r := claimMessages o s.db s.clock w limit f.leaseFor
  let rows := claimedRows r.1
  { s with
    db := r.2
    last := Function.update s.last w (some s.clock)
    deliveries := s.deliveries ++ rows.map fun m => ⟨w, m, s.clock + f.leaseFor, .claimed⟩
    log := claimEvents s.deliveries.length rows s.log }

def Sys.move (s : Sys) (i : Nat) (d : Delivery) (p : Phase) : Sys :=
  { s with
    deliveries := s.deliveries.set i { d with phase := p }
    log := match p with
      | .sending _ _ => .sendStarted i d.id :: s.log
      | _ => s.log }

def Sys.record (f : Fleet) (s : Sys) (i : Nat) (d : Delivery) (random : ℚ) (result : Option Err) :
    Sys :=
  let r := (outcomeOf f.backoff random s.clock d.msg result).exec s.db s.clock d.id d.proc
  { s with
    db := r.2
    deliveries := s.deliveries.set i { d with phase := .done }
    log := match r.1 with
      | .ok _ => .recorded i d.id :: s.log
      | .error _ => s.log }

def rowID (newID : Bytes) (d : Draft) : Bytes := if d.id = [] then newID else d.id

/-- The operations that are not part of a delivery. `Enqueue` is called with a
fresh id: `NewID` never repeats one. -/
def Sys.admits (s : Sys) : Op → Bool
  | .enqueue newID d _ => !s.issued.contains (rowID newID d)
  | .requeue _ => true
  | .hold _ => true
  | .delete _ => true
  | .releaseExpiredLeases => true
  | .purge _ _ => true
  | _ => false

def Sys.expired (s : Sys) : List Bytes :=
  (s.db.messages.rows.filter (leaseExpired s.clock)).map Store.Message.id

def Sys.queue (o : RowOrder) (s : Sys) (op : Op) : Sys :=
  { s with
    db := (exec o s.db s.clock op).2
    issued := match op with
      | .enqueue newID d _ => rowID newID d :: s.issued
      | _ => s.issued
    log := match op with
      | .releaseExpiredLeases => s.expired.map .released ++ s.log
      | _ => s.log }

inductive Act where
  | tick (now : Int)
  | claim (worker : Bytes) (limit : Int)
  | deliver (i : Nat) (a : Progress)
  | record (i : Nat) (random : ℚ)
  | queue (op : Op)

/-- One step. The readings of one process's claims strictly increase. -/
def sysStep (o : RowOrder) (f : Fleet) (s : Sys) : Act → Option Sys
  | .tick now =>
    if s.clock ≤ now ∧ s.deliveries.all (·.mayWait f now) then some { s with clock := now } else none
  | .claim w limit => if ∀ t ∈ s.last w, t < s.clock then some (s.claim o f w limit) else none
  | .deliver i a =>
    match s.deliveries[i]? with
    | none => none
    | some d => (d.progress f s.clock a).map (s.move i d)
  | .record i random =>
    match s.deliveries[i]? with
    | none => none
    | some d =>
      match d.phase with
      | .recording result => some (s.record f i d random result)
      | _ => none
  | .queue op => if s.admits op then some (s.queue o op) else none

inductive SysStep (o : RowOrder) (f : Fleet) (s : Sys) : Act → Sys → Prop where
  | tick {now : Int} (hle : s.clock ≤ now) (hsend : ∀ d ∈ s.deliveries, d.mayWait f now = true) :
      SysStep o f s (.tick now) { s with clock := now }
  | claim {w : Bytes} {limit : Int} (hlast : ∀ t ∈ s.last w, t < s.clock) :
      SysStep o f s (.claim w limit) (s.claim o f w limit)
  | deliver {i : Nat} {a : Progress} {d : Delivery} {p : Phase} (hd : s.deliveries[i]? = some d)
      (hp : d.progress f s.clock a = some p) : SysStep o f s (.deliver i a) (s.move i d p)
  | record {i : Nat} {random : ℚ} {d : Delivery} {result : Option Err}
      (hd : s.deliveries[i]? = some d) (hp : d.phase = .recording result) :
      SysStep o f s (.record i random) (s.record f i d random result)
  | queue {op : Op} (hop : s.admits op = true) : SysStep o f s (.queue op) (s.queue o op)

theorem sysStep_cases {o : RowOrder} {f : Fleet} {s t : Sys} {a : Act}
    (h : sysStep o f s a = some t) : SysStep o f s a t := by
  cases a with
  | tick now =>
    simp only [sysStep] at h
    split at h
    · next hc =>
      rw [← some.inj h]
      exact .tick hc.1 (by simpa using hc.2)
    · cases h
  | claim w limit =>
    simp only [sysStep] at h
    split at h
    · next hc =>
      rw [← some.inj h]
      exact .claim hc
    · cases h
  | deliver i a =>
    simp only [sysStep] at h
    split at h
    · cases h
    next hd =>
    obtain ⟨p, hp, rfl⟩ := map_eq_some_iff.1 h
    exact .deliver hd hp
  | record i random =>
    simp only [sysStep] at h
    split at h
    · cases h
    next hd =>
    split at h
    · next hp =>
      rw [← some.inj h]
      exact .record hd hp
    · cases h
  | queue op =>
  simp only [sysStep] at h
  split at h
  · next hc =>
    rw [← some.inj h]
    exact .queue hc
  · cases h

/-! ## The steps of a delivery are those of `deliver` -/

/-- Several steps of one delivery, at one time. -/
def Delivery.advance (f : Fleet) (clock : Int) (d : Delivery) : List Progress → Option Phase
  | [] => some d.phase
  | a :: rest => (d.progress f clock a).bind fun p => advance f clock { d with phase := p } rest

/-- **An execution of `deliver` is a course of these steps**: it is abandoned where `deliver`
decides nothing, and otherwise about to record the outcome that `deliver` decides. -/
theorem deliver_advance (r : Runner) (env : Env) (ctx : Ctx) {f : Fleet} {d : Delivery}
    (clock : Int) (hphase : d.phase = .claimed)
    (hconfigured : ∀ t, f.configured t = (r.transports t).isSome) :
    ∃ steps phase, d.advance f clock steps = some phase ∧
      match (deliver r env ctx d.msg).outcome with
      | none => phase = .done
      | some w => ∃ result, phase = .recording result ∧
          w = outcomeOf r.backoff env.random env.now d.msg result := by
  have hcourse := deliver_course r env ctx d.msg
  generalize deliver r env ctx d.msg = done at hcourse ⊢
  cases hcourse with
  | @unprepared e hp =>
    exact ⟨[.load env ctx], .recording (some (prepareFailure e)),
      by simp [Delivery.advance, Delivery.progress, *], _, rfl, rfl⟩
  | shutDown hp hdone =>
    exact ⟨[.load env ctx, .abandon], .done, by simp [Delivery.advance, Delivery.progress, *], rfl⟩
  | @unroutable p hp hb =>
    exact ⟨[.load env ctx, .acquire], .recording (some (noTransport p.mailbox.transport)),
      by simp [Delivery.advance, Delivery.progress, *], _, rfl, rfl⟩
  | accepted hp hb hs =>
    exact ⟨[.load env ctx, .acquire, .finish none], .recording none,
      by simp [Delivery.advance, Delivery.progress, *], _, rfl, rfl⟩
  | @refused _ _ e hp hb hs =>
    exact ⟨[.load env ctx, .acquire, .finish (some e)], .recording (some e),
      by simp [Delivery.advance, Delivery.progress, *], _, rfl, rfl⟩

/-! ## The installation drives the queue -/

section

variable {o : RowOrder} {f : Fleet} {s t : Sys} {a : Act}

/-- **A step of the installation is a step of the queue, or none.** So what the
queue's own runs keep, the installation keeps. -/
theorem SysStep.refines (h : SysStep o f s a t) : (t.db = s.db ∧ t.last = s.last) ∨
    ∃ op, claimStep o f.leaseFor ⟨s.db, s.last⟩ (s.clock, op) = some ⟨t.db, t.last⟩ := by
  cases h with
  | tick => exact .inl ⟨rfl, rfl⟩
  | @claim w limit hlast =>
    exact .inr ⟨.claim w limit f.leaseFor, if_pos ⟨rfl, hlast⟩⟩
  | deliver => exact .inl ⟨rfl, rfl⟩
  | @record i random d result hd hp =>
    refine .inr ⟨(outcomeOf f.backoff random s.clock d.msg result).op d.id d.proc, ?_⟩
    simp only [Sys.record, Outcome.exec_op o]
    cases outcomeOf f.backoff random s.clock d.msg result <;> rfl
  | @queue op hop =>
  refine .inr ⟨op, ?_⟩
  cases op with
  | claim | extendLease => simp [Sys.admits] at hop
  | _ => rfl

theorem SysStep.clockInv (hinv : ClockInv f.leaseFor ⟨s.db, s.last⟩) (h : SysStep o f s a t) :
    ClockInv f.leaseFor ⟨t.db, t.last⟩ := by
  rcases h.refines with ⟨hdb, hlast⟩ | ⟨op, hop⟩
  · rw [hdb, hlast]
    exact hinv
  · exact claimStep_clockInv hinv hop

theorem init_clockInv (f : Fleet) (start : Int) :
    ClockInv f.leaseFor ⟨(Sys.init start).db, (Sys.init start).last⟩ := by
  intro k m h
  simp [Sys.init, DB.empty, DB.get] at h

variable {w : Bytes}

/-- A claim returns rows that were claimable, each once, now under its lease, and
leaves every other row as it was. -/
theorem sys_claim_spec (o : RowOrder) (limit : Int) (hinv : ClockInv f.leaseFor ⟨s.db, s.last⟩)
    (hlast : ∀ u ∈ s.last w, u < s.clock) :
    ((claimedRows (claimMessages o s.db s.clock w limit f.leaseFor).1).map Store.Message.id).Nodup ∧
    (∀ r ∈ claimedRows (claimMessages o s.db s.clock w limit f.leaseFor).1,
      ∃ m, s.db.get r.id = some m ∧ claimable s.clock m = true ∧
        r = leaseTo w (s.clock + f.leaseFor) s.clock m ∧
        (s.claim o f w limit).db.get r.id = some r) ∧
    ∀ k, k ∉ (claimedRows (claimMessages o s.db s.clock w limit f.leaseFor).1).map
        Store.Message.id → (s.claim o f w limit).db.get k = s.db.get k := by
  show _ ∧ (∀ r ∈ _, ∃ m, _ ∧ _ ∧ _ ∧ (claimMessages ..).2.get _ = _) ∧
    ∀ k, _ → (claimMessages ..).2.get _ = _
  by_cases hw : w = []
  · simp [claimMessages, hw, claimedRows]
  by_cases hl : limit ≤ 0
  · simp [claimMessages, hw, hl, claimedRows]
  have hsending : SendingIffLeased s.db := fun k m hk => (hinv k m hk).1.sending_iff
  have hearlier : EarlierLeases s.db s.clock w f.leaseFor := by
    intro k m hk hown e he
    obtain ⟨x, y, hy, hxy, hex⟩ := (hinv k m hk).2 w e hown he
    exact ⟨x, Int.lt_of_le_of_lt hxy (hlast y hy), hex⟩
  have hpos : 0 < limit := by omega
  obtain ⟨rows, hok, hspec⟩ := claimMessages_spec (o := o) hsending hw hpos hearlier
  rw [hok]
  refine ⟨hspec.distinct, fun r hr => ?_, hspec.frame⟩
  obtain ⟨m, hm, hel, hrm, hget⟩ := hspec.leased r hr
  exact ⟨m, hm, (claimable_iff_eligible (hsending _ _ hm)).2 hel, hrm, hget⟩

variable {m : Store.Message}

theorem leased_in_time {e now : Int} (h : LeasedUntil w e m) (hle : now ≤ e) :
    claimable now m = false ∧ leaseExpired now m = false := by
  have hnot : ¬ e < now := by omega
  simp [claimable, leaseExpired, h.1, h.2.2, hnot]

theorem queue_lease_kept {op : Op} {k : Bytes} {e : Int} (hop : s.admits op = true)
    (hk : s.db.get k = some m) (h : LeasedUntil w e m)
    (hrel : ¬ (op = .releaseExpiredLeases ∧ leaseExpired s.clock m = true)) :
    (s.queue o op).db.get k = some m := by
  refine lease_kept hk h ?_ ?_ ?_
  · cases op <;> simp_all [HandsOut, Sys.admits]
  · rintro (hrec | ⟨hop', m', hm', hexp⟩)
    · cases op <;> simp_all [RecordsOutcome, Sys.admits]
    · exact hrel ⟨hop', some.inj (hk.symm.trans hm') ▸ hexp⟩
  rintro id w' d rfl
  simp [Sys.admits] at hop

/-- Operations outside a delivery leave a row alone while its lease runs. -/
theorem queue_leased {op : Op} {k : Bytes} {e : Int} (hop : s.admits op = true)
    (hk : s.db.get k = some m) (h : LeasedUntil w e m) (hle : s.clock ≤ e) :
    (s.queue o op).db.get k = some m := by
  refine queue_lease_kept hop hk h ?_
  rintro ⟨-, hexp⟩
  rw [(leased_in_time h hle).2] at hexp
  cases hexp

theorem record_get (i : Nat) (d : Delivery) (random : ℚ) (result : Option Err) (k : Bytes) :
    (s.record f i d random result).db.get k = (s.db.get k).map
      (whenLeased d.id d.proc ((outcomeOf f.backoff random s.clock d.msg result).set s.clock)) := by
  simp only [Sys.record, Outcome.exec_eq]
  exact updateLeased_get

/-! ## The list of deliveries -/

theorem claim_cases {limit : Int} {j : Nat} {d : Delivery}
    (h : (s.claim o f w limit).deliveries[j]? = some d) :
    s.deliveries[j]? = some d ∨
    ∃ r n, (claimedRows (claimMessages o s.db s.clock w limit f.leaseFor).1)[n]? = some r ∧
      j = s.deliveries.length + n ∧ d = ⟨w, r, s.clock + f.leaseFor, .claimed⟩ := by
  simp only [Sys.claim] at h
  rw [List.getElem?_append] at h
  split at h
  · exact .inl h
  next hge =>
  rw [List.getElem?_map] at h
  obtain ⟨r, hr, rfl⟩ := map_eq_some_iff.1 h
  exact .inr ⟨r, _, hr, by omega, rfl⟩

theorem index_inj {rows : List Store.Message} {n n' : Nat} {r r' : Store.Message}
    (hnodup : (rows.map Store.Message.id).Nodup) (hr : rows[n]? = some r)
    (hr' : rows[n']? = some r') (hid : r.id = r'.id) : n = n' := by
  have hlt : n < (rows.map Store.Message.id).length := by
    rw [List.length_map]
    exact (List.getElem?_eq_some_iff.1 hr).1
  refine (List.getElem?_inj hlt hnodup).1 ?_
  rw [List.getElem?_map, List.getElem?_map, hr, hr', map_some, map_some, hid]

theorem progress_not_done {clock : Int} {d : Delivery} {a : Progress} {p : Phase}
    (h : d.progress f clock a = some p) : d.phase ≠ .done := by
  intro hdone
  cases a <;> simp [Delivery.progress, hdone] at h

end

end SmtpProxy.Queue
