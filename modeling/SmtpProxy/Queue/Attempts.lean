import SmtpProxy.Queue.Exclusion

/-!
# A message is settled within `MaxAttempts` deliveries

The bound runs through three places: the counter a claim reads, the counter the
outcome write advances, and the comparison in the backoff. They agree as long as
a delivery's row is its own from claim to outcome, which is the case when no
lease expires under a delivery and every attempt ends in an outcome (`Steady`).
-/

namespace SmtpProxy.Queue

open Lib Store Transport List Option

def isSend (k : Bytes) : Event → Bool
  | .sendStarted _ id => decide (id = k)
  | _ => false

def isOutcome (k : Bytes) : Event → Bool
  | .recorded _ id => decide (id = k)
  | _ => false

def sends (log : List Event) (k : Bytes) : Nat := log.countP (isSend k)

def outcomes (log : List Event) (k : Bytes) : Nat := log.countP (isOutcome k)

/-- A step of a run in which the message is never requeued, none of its leases
expires under its delivery, and a delivery that got as far as sending, or as
failing to, ends by recording its outcome. -/
def Steady (k : Bytes) (s : Sys) : Act → Prop
  | .tick now => ∀ d ∈ s.deliveries, d.id = k → d.phase ≠ .done → now ≤ d.expiry
  | .deliver i .abandon => ∀ d : Delivery, s.deliveries[i]? = some d → d.id = k →
      d.phase = .claimed ∨ ∃ p, d.phase = .waiting p
  | .queue (.requeue id) => id ≠ k
  | _ => True

/-- The delivery has come to its `Send`, or past it, and has not ended. -/
def Delivery.Started (d : Delivery) : Prop :=
  (∃ p t, d.phase = .sending p t) ∨ ∃ r, d.phase = .recording r

def Active (m : Store.Message) : Prop :=
  m.status = .queued ∨ m.status = .deferred ∨ m.status = .sending

structure Counted (f : Fleet) (k : Bytes) (s : Sys) : Prop where
  clock : ClockInv f.leaseFor ⟨s.db, s.last⟩
  row : ∀ m, s.db.get k = some m → m.attempts = outcomes s.log k ∧
    (Active m → (m.attempts : Int) < f.backoff.maxAttempts)
  bound : (outcomes s.log k : Int) ≤ f.backoff.maxAttempts
  held : ∀ (i : Nat) (d : Delivery), s.deliveries[i]? = some d → d.id = k → d.phase ≠ .done →
    s.clock ≤ d.expiry ∧ ∃ m, s.db.get k = some m ∧ LeasedUntil d.proc d.expiry m ∧
      d.msg.attempts = m.attempts
  unique : ∀ (i j : Nat) (d d' : Delivery), s.deliveries[i]? = some d →
    s.deliveries[j]? = some d' → d.id = k → d'.id = k → d.phase ≠ .done → d'.phase ≠ .done → i = j
  ahead : sends s.log k ≤ outcomes s.log k + 1
  idle : (∀ (i : Nat) (d : Delivery), s.deliveries[i]? = some d → d.id = k → ¬ d.Started) →
    sends s.log k ≤ outcomes s.log k
  unissued : k ∉ s.issued → s.db.get k = none ∧ outcomes s.log k = 0 ∧
    ∀ (i : Nat) (d : Delivery), s.deliveries[i]? = some d → d.id ≠ k

variable {o : RowOrder} {f : Fleet} {s : Sys} {k : Bytes} {m : Store.Message}

theorem claimable_active {now : Int} (h : claimable now m = true) : Active m := by
  simp only [claimable, Bool.and_eq_true, Bool.or_eq_true, decide_eq_true_eq] at h
  rcases h.1 with ⟨hst | hst, -⟩ | ⟨hst, -⟩
  · exact .inl hst
  · exact .inr (.inl hst)
  · exact .inr (.inr hst)

variable {d : Delivery}

theorem started_not_done (h : d.Started) : d.phase ≠ .done := by
  rcases h with ⟨p, t, h⟩ | ⟨r, h⟩ <;> rw [h] <;> simp

/-! ## The log -/

theorem countP_claimEvents {p : Event → Bool} (hp : ∀ tag id, p (.claimed tag id) = false) :
    ∀ {tag : Nat} {rows : List Store.Message} {log : List Event},
      (claimEvents tag rows log).countP p = log.countP p := by
  intro tag rows
  induction rows generalizing tag with
  | nil => intro log; rfl
  | cons m rows ih =>
    intro log
    rw [claimEvents, ih, countP_cons_of_neg (by simp [hp])]

theorem countP_queue {p : Event → Bool} (hp : ∀ id, p (.released id) = false) (op : Op) :
    (s.queue o op).log.countP p = s.log.countP p := by
  have hrel : (s.expired.map Event.released ++ s.log).countP p = s.log.countP p := by
    rw [countP_append, countP_eq_zero.2, Nat.zero_add]
    intro e he
    obtain ⟨id, -, rfl⟩ := mem_map.1 he
    simp [hp]
  cases op with
  | releaseExpiredLeases => exact hrel
  | _ => rfl

theorem outcomes_move (i : Nat) (d : Delivery) (p : Phase) :
    outcomes (s.move i d p).log k = outcomes s.log k := by
  cases p with
  | sending q t => exact countP_cons_of_neg (by simp [isOutcome])
  | _ => rfl

theorem sends_move (i : Nat) (d : Delivery) (p : Phase) :
    sends (s.move i d p).log k = sends s.log k ∨ (d.id = k ∧ (∃ q t, p = .sending q t) ∧
        sends (s.move i d p).log k = sends s.log k + 1) := by
  cases p with
  | sending q t =>
    by_cases hid : d.id = k
    · exact .inr ⟨hid, ⟨q, t, rfl⟩, countP_cons_of_pos (by simp [isSend, hid])⟩
    · exact .inl (countP_cons_of_neg (by simp [isSend, hid]))
  | _ => exact .inl rfl

/-! ## The steps -/

theorem counted_init (f : Fleet) (k : Bytes) (start : Int) (hpos : 0 < f.backoff.maxAttempts) :
    Counted f k (.init start) where
  clock := init_clockInv f start
  row := by intro m h; simp [Sys.init, DB.empty, DB.get] at h
  bound := by simp [Sys.init, outcomes]; omega
  held := by intro i d h; simp [Sys.init] at h
  unique := by intro i j d d' h; simp [Sys.init] at h
  ahead := by simp [Sys.init, sends]
  idle := by intro _; simp [Sys.init, sends]
  unissued := by
    intro _
    exact ⟨by simp [Sys.init, DB.empty, DB.get], rfl, by simp [Sys.init]⟩

theorem counted_tick {now : Int} (hok : Steady k s (.tick now)) (h : Counted f k s) :
    Counted f k { s with clock := now } where
  clock := h.clock
  row := h.row
  bound := h.bound
  held := fun i d hd hid hp =>
    ⟨hok d (mem_of_getElem? hd) hid hp, (h.held i d hd hid hp).2⟩
  unique := h.unique
  ahead := h.ahead
  idle := h.idle
  unissued := h.unissued

variable {i : Nat}

/-- A message with an unfinished delivery is not claimed again. -/
theorem Counted.not_claimed (h : Counted f k s) {w : Bytes} (limit : Int)
    (hlast : ∀ u ∈ s.last w, u < s.clock) (hd : s.deliveries[i]? = some d) (hid : d.id = k)
    (hp : d.phase ≠ .done) :
    k ∉ (claimedRows (claimMessages o s.db s.clock w limit f.leaseFor).1).map Store.Message.id := by
  intro hmem
  obtain ⟨r, hr, hrk⟩ := mem_map.1 hmem
  obtain ⟨-, hleased, -⟩ := sys_claim_spec o limit h.clock hlast
  obtain ⟨hle, m, hm, hlease, -⟩ := h.held i d hd hid hp
  obtain ⟨m', hm', hcl, -, -⟩ := hleased r hr
  rw [hrk, hm] at hm'
  rw [← some.inj hm', (leased_in_time hlease hle).1] at hcl
  cases hcl

theorem counted_claim {w : Bytes} {limit : Int} (hlast : ∀ u ∈ s.last w, u < s.clock)
    (h : Counted f k s) : Counted f k (s.claim o f w limit) := by
  obtain ⟨hnodup, hleased, hframe⟩ := sys_claim_spec o limit h.clock hlast
  have hout : outcomes (s.claim o f w limit).log k = outcomes s.log k :=
    countP_claimEvents fun _ _ => rfl
  have hsend : sends (s.claim o f w limit).log k = sends s.log k :=
    countP_claimEvents fun _ _ => rfl
  refine ⟨(SysStep.claim hlast).clockInv h.clock, ?_, by rw [hout]; exact h.bound, ?_, ?_, ?_, ?_, ?_⟩
  · intro m hm
    rw [hout]
    by_cases hk : k ∈ (claimedRows (claimMessages o s.db s.clock w limit f.leaseFor).1).map
        Store.Message.id
    · obtain ⟨r, hr, hrk⟩ := mem_map.1 hk
      obtain ⟨m₀, hm₀, hcl, hrm, hget⟩ := hleased r hr
      rw [hrk] at hm₀ hget
      obtain rfl : r = m := some.inj (hget.symm.trans hm)
      obtain ⟨hatt, hleft⟩ := h.row m₀ hm₀
      rw [hrm]
      exact ⟨hatt, fun _ => hleft (claimable_active hcl)⟩
    · exact h.row m ((hframe k hk).symm.trans hm)
  · intro i d hd hid hp
    rcases claim_cases hd with hold | ⟨r, n, hr, -, rfl⟩
    · obtain ⟨hle, m, hm, hrest⟩ := h.held i d hold hid hp
      exact ⟨hle, m, (hframe k (h.not_claimed limit hlast hold hid hp)).trans hm, hrest⟩
    obtain ⟨m, hm, -, hrm, hget⟩ := hleased r (mem_of_getElem? hr)
    have hrk : r.id = k := hid
    have hlease : LeasedUntil w (s.clock + f.leaseFor) r := by
      rw [hrm]
      exact ⟨rfl, rfl, rfl⟩
    refine ⟨?_, r, hrk ▸ hget, hlease, rfl⟩
    have := f.timeout_pos
    have := f.timeout_lt
    show s.clock ≤ s.clock + f.leaseFor
    omega
  · intro i j d d' hd hd' hid hid' hp hp'
    rcases claim_cases hd with hold | ⟨r, n, hr, hi, rfl⟩ <;>
      rcases claim_cases hd' with hold' | ⟨r', n', hr', hj, rfl⟩
    · exact h.unique i j d d' hold hold' hid hid' hp hp'
    · exact absurd (mem_map.2 ⟨r', mem_of_getElem? hr', hid'⟩)
        (h.not_claimed limit hlast hold hid hp)
    · exact absurd (mem_map.2 ⟨r, mem_of_getElem? hr, hid⟩)
        (h.not_claimed limit hlast hold' hid' hp')
    have := index_inj hnodup hr hr' (hid.trans hid'.symm)
    omega
  · rw [hsend, hout]
    exact h.ahead
  · intro hno
    rw [hsend, hout]
    refine h.idle fun i d hd hid hst => ?_
    refine hno i d ?_ hid hst
    exact getElem?_append_left (List.getElem?_eq_some_iff.1 hd).1 ▸ hd
  intro hiss
  obtain ⟨hnone, hzero, hdel⟩ := h.unissued hiss
  have hk : k ∉ (claimedRows (claimMessages o s.db s.clock w limit f.leaseFor).1).map
      Store.Message.id := by
    intro hmem
    obtain ⟨r, hr, hrk⟩ := mem_map.1 hmem
    obtain ⟨m, hm, -⟩ := hleased r hr
    rw [hrk, hnone] at hm
    cases hm
  refine ⟨(hframe k hk).trans hnone, hout.trans hzero, ?_⟩
  intro i d hd hid
  rcases claim_cases hd with hold | ⟨r, n, hr, -, rfl⟩
  · exact hdel i d hold hid
  · exact hk (mem_map.2 ⟨r, mem_of_getElem? hr, hid⟩)

variable {p : Phase}

theorem unfinished_of_set {j : Nat} {e : Delivery} (hd : s.deliveries[i]? = some d)
    (hp : d.phase ≠ .done) (he : (s.deliveries.set i { d with phase := p })[j]? = some e)
    (hlive : e.phase ≠ .done) :
    ∃ e₀ : Delivery, s.deliveries[j]? = some e₀ ∧ e₀.phase ≠ .done ∧ e₀.proc = e.proc ∧
      e₀.msg = e.msg ∧ e₀.expiry = e.expiry := by
  rcases getElem?_set_cases he with ⟨rfl, rfl⟩ | ⟨-, hold⟩
  · exact ⟨d, hd, hp, rfl, rfl, rfl⟩
  · exact ⟨e, hold, hlive, rfl, rfl, rfl⟩

theorem Counted.unique_of_set (h : Counted f k s) (hd : s.deliveries[i]? = some d)
    (hp : d.phase ≠ .done) (j j' : Nat) (e e' : Delivery)
    (he : (s.deliveries.set i { d with phase := p })[j]? = some e)
    (he' : (s.deliveries.set i { d with phase := p })[j']? = some e') (hid : e.id = k)
    (hid' : e'.id = k) (hne : e.phase ≠ .done) (hne' : e'.phase ≠ .done) : j = j' := by
  obtain ⟨e₀, he₀, hne₀, -, hmsg, -⟩ := unfinished_of_set hd hp he hne
  obtain ⟨e₀', he₀', hne₀', -, hmsg', -⟩ := unfinished_of_set hd hp he' hne'
  exact h.unique j j' e₀ e₀' he₀ he₀' (by rw [Delivery.id, hmsg]; exact hid)
    (by rw [Delivery.id, hmsg']; exact hid') hne₀ hne₀'

theorem progress_sending {clock t : Int} {a : Progress} {q : Transport.Message}
    (h : d.progress f clock a = some (.sending q t)) : ∃ p, d.phase = .waiting p := by
  unfold Delivery.progress at h
  cases a <;> cases hph : d.phase <;> simp only [hph] at h
  case acquire.waiting p => exact ⟨p, rfl⟩
  case load.claimed => split at h <;> simp at h
  all_goals simp at h

theorem progress_started {clock : Int} {a : Progress} (h : d.progress f clock a = some p)
    (hst : d.Started) : a = .abandon ∨ Delivery.Started { d with phase := p } := by
  rcases hst with ⟨q, t, hph⟩ | ⟨r, hph⟩ <;> cases a <;> simp only [Delivery.progress, hph] at h
  case inl.finish result => exact .inr (.inr ⟨result, (some.inj h).symm⟩)
  case inl.abandon => exact .inl rfl
  case inr.abandon => exact .inl rfl
  all_goals cases h

theorem counted_move {a : Progress} (hd : s.deliveries[i]? = some d)
    (hp : d.progress f s.clock a = some p) (hok : Steady k s (.deliver i a)) (h : Counted f k s) :
    Counted f k (s.move i d p) := by
  have hlive : d.phase ≠ .done := progress_not_done hp
  have hlt : i < s.deliveries.length := (List.getElem?_eq_some_iff.1 hd).1
  have hout := outcomes_move (s := s) (k := k) i d p
  refine ⟨h.clock, by rw [hout]; exact h.row, by rw [hout]; exact h.bound, ?_,
    h.unique_of_set hd hlive, ?_, ?_, ?_⟩
  · intro j e he hid hne
    obtain ⟨e₀, he₀, hne₀, hproc, hmsg, hexp⟩ := unfinished_of_set hd hlive he hne
    have := h.held j e₀ he₀ (by rw [Delivery.id, hmsg]; exact hid) hne₀
    rw [hproc, hmsg, hexp] at this
    exact this
  · rw [hout]
    rcases sends_move (s := s) (k := k) i d p with heq | ⟨hid, ⟨q, t, rfl⟩, heq⟩
    · rw [heq]
      exact h.ahead
    · -- the delivery that starts its `Send` is the only unfinished one
      have := h.idle fun j e he hide hst => by
        obtain rfl := h.unique i j d e hd he hid hide hlive (started_not_done hst)
        cases hd.symm.trans he
        obtain ⟨q', hw⟩ := progress_sending hp
        rcases hst with ⟨_, _, hph⟩ | ⟨_, hph⟩ <;> cases hw.symm.trans hph
      omega
  · intro hno
    rw [hout]
    have hself : (s.move i d p).deliveries[i]? = some { d with phase := p } :=
      getElem?_set_self hlt
    rcases sends_move (s := s) (k := k) i d p with heq | ⟨hid, ⟨q, t, rfl⟩, -⟩
    · rw [heq]
      refine h.idle fun j e he hid hst => ?_
      by_cases hij : i = j
      · subst hij
        cases hd.symm.trans he
        rcases progress_started hp hst with rfl | hst'
        · rcases hok d hd hid with hph | ⟨q, hph⟩ <;>
            rcases hst with ⟨_, _, hph'⟩ | ⟨_, hph'⟩ <;>
            cases hph.symm.trans hph'
        · exact hno i _ hself hid hst'
      · exact hno j e ((getElem?_set_ne hij).trans he) hid hst
    · exact absurd (.inl ⟨q, t, rfl⟩) (hno i _ hself hid)
  intro hiss
  obtain ⟨hnone, hzero, hdel⟩ := h.unissued hiss
  refine ⟨hnone, hout.trans hzero, fun j e he hid => ?_⟩
  rcases getElem?_set_cases he with ⟨rfl, rfl⟩ | ⟨-, hold⟩
  · exact hdel j d hd hid
  · exact hdel j e hold hid

theorem record_other (f : Fleet) (i : Nat) (random : ℚ) (result : Option Err) (hk : d.id ≠ k) :
    (s.record f i d random result).db.get k = s.db.get k ∧
    outcomes (s.record f i d random result).log k = outcomes s.log k ∧
    sends (s.record f i d random result).log k = sends s.log k := by
  refine ⟨?_, ?_, ?_⟩
  · rw [record_get]
    cases hrow : s.db.get k with
    | none => rfl
    | some row =>
    rw [map_some, whenLeased, if_neg]
    rintro ⟨hid, -⟩
    exact hk (by rw [← hid, get_id hrow])
  · simp only [Sys.record]
    split
    · exact countP_cons_of_neg (by simp [isOutcome, hk])
    · rfl
  simp only [Sys.record]
  split
  · exact countP_cons_of_neg (by simp [isSend])
  · rfl

theorem record_own (f : Fleet) (i : Nat) (random : ℚ) (result : Option Err)
    (hm : s.db.get d.id = some m) (hlease : LeasedUntil d.proc d.expiry m) :
    (s.record f i d random result).db.get d.id =
      some ((outcomeOf f.backoff random s.clock d.msg result).set s.clock m) ∧
    (s.record f i d random result).log = .recorded i d.id :: s.log := by
  constructor
  · rw [record_get, hm, map_some, whenLeased, if_pos ⟨get_id hm, hlease.2.1⟩]
  · simp only [Sys.record, Outcome.exec_eq, updateLeased_ok_iff.2 ⟨m, hm, hlease.2.1⟩]

theorem outcome_set_attempts (now : Int) (w : Outcome) (m : Store.Message) :
    (w.set now m).attempts = m.attempts + 1 := by
  cases w <;> rfl

theorem outcome_active {b : Backoff} {random : ℚ} {now : Int} {row : Store.Message}
    {result : Option Err} (hpos : 0 < b.maxAttempts)
    (h : Active ((outcomeOf b random now m result).set now row)) :
    (m.attempts : Int) + 1 < b.maxAttempts := by
  unfold Active at h
  rw [Outcome.set_status] at h
  cases result with
  | none => simp [outcomeOf, Outcome.status] at h
  | some e =>
    refine recordFailure_deferred random now e hpos ?_
    cases hw : recordFailure b random now m e <;> simp_all [outcomeOf, Outcome.status]

theorem counted_record {random : ℚ} {result : Option Err} (hpos : 0 < f.backoff.maxAttempts)
    (hd : s.deliveries[i]? = some d) (hp : d.phase = .recording result) (h : Counted f k s) :
    Counted f k (s.record f i d random result) := by
  have hlive : d.phase ≠ .done := by simp [hp]
  have hunique := h.unique_of_set (p := .done) hd hlive
  have hclock := (SysStep.record (o := byNextAttempt) hd hp : SysStep _ f s (.record i random) _).clockInv
    h.clock
  by_cases hk : d.id = k
  · -- the message itself: one more outcome, one more attempt, and the delivery is over
    subst hk
    obtain ⟨-, m, hm, hlease, hatt⟩ := h.held i d hd rfl hlive
    obtain ⟨hrow, hlog⟩ := record_own f i random result hm hlease
    obtain ⟨hcount, hleft⟩ := h.row m hm
    have hlt := hleft (.inr (.inr hlease.1))
    have hout : outcomes (s.record f i d random result).log d.id = outcomes s.log d.id + 1 := by
      rw [hlog]
      exact countP_cons_of_pos (by simp [isOutcome])
    have hsend : sends (s.record f i d random result).log d.id = sends s.log d.id := by
      rw [hlog]
      exact countP_cons_of_neg (by simp [isSend])
    have hahead := h.ahead
    refine ⟨hclock, ?_, by rw [hout]; omega, ?_, hunique, by omega, fun _ => by omega, ?_⟩
    · intro m' hm'
      cases hrow.symm.trans hm'
      refine ⟨by rw [outcome_set_attempts, hout, hcount], fun hact => ?_⟩
      have := outcome_active hpos hact
      rw [outcome_set_attempts]
      omega
    · intro j e he hid hne
      obtain ⟨e₀, he₀, hne₀, -, hmsg, -⟩ := unfinished_of_set hd hlive he hne
      obtain rfl := h.unique i j d e₀ hd he₀ rfl (by rw [Delivery.id, hmsg]; exact hid) hlive hne₀
      rcases getElem?_set_cases he with ⟨-, rfl⟩ | ⟨hij, -⟩
      · exact absurd rfl hne
      · exact absurd rfl hij
    intro hiss
    exact absurd rfl ((h.unissued hiss).2.2 i d hd)
  · -- another message
    obtain ⟨hdb, hout, hsend⟩ := record_other (s := s) f i random result hk
    refine ⟨hclock, by rw [hdb, hout]; exact h.row, by rw [hout]; exact h.bound, ?_, hunique,
      by rw [hout, hsend]; exact h.ahead, ?_, ?_⟩
    · intro j e he hid hne
      rw [hdb]
      rcases getElem?_set_cases he with ⟨-, rfl⟩ | ⟨-, hold⟩
      · exact absurd rfl hne
      · exact h.held j e hold hid hne
    · intro hno
      rw [hout, hsend]
      refine h.idle fun j e he hid hst => ?_
      by_cases hij : i = j
      · subst hij
        cases hd.symm.trans he
        exact hk hid
      · exact hno j e ((getElem?_set_ne hij).trans he) hid hst
    intro hiss
    obtain ⟨hnone, hzero, hdel⟩ := h.unissued hiss
    refine ⟨hdb.trans hnone, hout.trans hzero, fun j e he hid => ?_⟩
    rcases getElem?_set_cases he with ⟨rfl, rfl⟩ | ⟨-, hold⟩
    · exact hk hid
    · exact hdel j e hold hid

/-- Outside a delivery a row neither counts an attempt nor, unless it is
requeued, becomes claimable. -/
theorem queue_row {op : Op} {m' : Store.Message} (hop : s.admits op = true)
    (hreq : op ≠ .requeue k) (hk : s.db.get k = some m) (hm' : (s.queue o op).db.get k = some m') :
    m'.attempts = m.attempts ∧ (Active m' → Active m) ∧
      (m'.status = .held → m.status = .held ∨ op = .hold k ∧
        m.status ∈ [MessageStatus.queued, .deferred, .failed]) := by
  have hid := get_id hk
  have hstep : RowStep s.clock _ m op (some m') := hm' ▸ exec_step hk
  cases hstep with
  | same => exact ⟨rfl, id, .inl⟩
  | requeued hidm => exact absurd (by rw [← hidm, hid]) hreq
  | held hidm hst =>
    refine ⟨rfl, fun h => absurd h (by simp [Active, holdSet]), fun _ => .inr ⟨?_, hst⟩⟩
    rw [← hidm, hid]
  | released hexp =>
    refine ⟨rfl, fun _ => ?_, fun h => absurd h (by simp [releaseSet])⟩
    simp only [leaseExpired, Bool.and_eq_true, decide_eq_true_eq] at hexp
    exact .inr (.inr hexp.1)
  | _ => simp [Sys.admits] at hop

theorem counted_queue {op : Op} (hpos : 0 < f.backoff.maxAttempts) (hop : s.admits op = true)
    (hok : Steady k s (.queue op)) (h : Counted f k s) : Counted f k (s.queue o op) := by
  have hreq : op ≠ .requeue k := by
    rintro rfl
    exact hok rfl
  have hout : outcomes (s.queue o op).log k = outcomes s.log k := countP_queue (fun _ => rfl) op
  have hsend : sends (s.queue o op).log k = sends s.log k := countP_queue (fun _ => rfl) op
  -- a row that appears was enqueued under an id of its own
  have hnew : s.db.get k = none → (s.queue o op).db.get k = none ∨
      k ∉ s.issued ∧ k ∈ (s.queue o op).issued ∧
      ∀ m, (s.queue o op).db.get k = some m → m.attempts = 0 := by
    intro hnone
    rcases exec_get_none o s.clock op hnone with hn | ⟨newID, d, b, rfl, hid, hn⟩
    · exact .inl hn
    have hrow : rowID newID d = k := hid
    simp only [Sys.admits, Bool.not_eq_true', contains_eq_mem, decide_eq_false_iff_not, hrow] at hop
    refine .inr ⟨hop, by simp [Sys.queue, hrow], fun m hm => ?_⟩
    rw [← some.inj (hn.symm.trans hm)]
    rfl
  refine ⟨(SysStep.queue hop).clockInv h.clock, ?_, by rw [hout]; exact h.bound, ?_, h.unique,
    by rw [hout, hsend]; exact h.ahead, by rw [hout, hsend]; exact h.idle, ?_⟩
  · intro m hm
    rw [hout]
    cases hk : s.db.get k with
    | none =>
      rcases hnew hk with hn | ⟨hiss, -, hzero⟩
      · cases hn.symm.trans hm
      rw [hzero m hm, (h.unissued hiss).2.1]
      exact ⟨rfl, fun _ => by simpa using hpos⟩
    | some m₀ =>
    obtain ⟨hatt, hact, -⟩ := queue_row hop hreq hk hm
    obtain ⟨hcount, hleft⟩ := h.row m₀ hk
    rw [hatt]
    exact ⟨hcount, fun ha => hleft (hact ha)⟩
  · intro i d hd hid hne
    obtain ⟨hle, m, hm, hlease, hatt⟩ := h.held i d hd hid hne
    exact ⟨hle, m, queue_leased hop hm hlease hle, hlease, hatt⟩
  intro hiss
  have hiss₀ : k ∉ s.issued := by
    intro hmem
    refine hiss ?_
    cases op with
    | enqueue newID d body => exact .tail _ hmem
    | _ => exact hmem
  obtain ⟨hnone, hzero, hdel⟩ := h.unissued hiss₀
  rcases hnew hnone with hn | ⟨-, hmem, -⟩
  · exact ⟨hn, hout.trans hzero, hdel⟩
  · exact absurd hmem hiss

theorem counted_step {t : Sys} {a : Act} (hpos : 0 < f.backoff.maxAttempts) (h : Counted f k s)
    (hok : Steady k s a) (hs : SysStep o f s a t) : Counted f k t := by
  cases hs with
  | tick => exact counted_tick hok h
  | claim hlast => exact counted_claim hlast h
  | deliver hd hp => exact counted_move hd hp hok h
  | record hd hp => exact counted_record hpos hd hp h
  | queue hop => exact counted_queue hpos hop hok h

/-! ## The attempts are used up -/

def Exhausted (f : Fleet) (k : Bytes) (s : Sys) : Prop :=
  (outcomes s.log k : Int) = f.backoff.maxAttempts

theorem outcomes_mono {t : Sys} {a : Act} (hs : SysStep o f s a t) :
    outcomes s.log k ≤ outcomes t.log k := by
  cases hs with
  | tick => exact le_rfl
  | claim => exact (countP_claimEvents fun _ _ => rfl).ge
  | deliver => exact (outcomes_move _ _ _).ge
  | record =>
    simp only [Sys.record]
    split
    · exact (sublist_cons_self _ _).countP_le
    · exact le_rfl
  | queue => exact (countP_queue (fun _ => rfl) _).ge

theorem exhausted_step {t : Sys} {a : Act} (ht : Counted f k t) (h : Exhausted f k s)
    (hs : SysStep o f s a t) : Exhausted f k t := by
  have hmono := outcomes_mono (k := k) hs
  have hbound := ht.bound
  unfold Exhausted at h ⊢
  omega

theorem Counted.not_active (h : Counted f k s) (hex : Exhausted f k s) (hm : s.db.get k = some m) :
    ¬ Active m := by
  intro hact
  obtain ⟨hcount, hleft⟩ := h.row m hm
  have := hleft hact
  unfold Exhausted at hex
  omega

theorem Counted.at_rest (h : Counted f k s) (hex : Exhausted f k s) :
    (∀ m, s.db.get k = some m → m.status = .sent ∨ m.status = .failed ∨ m.status = .held) ∧
    ∀ w limit, ¬ HandsOut o s.db s.clock k (.claim w limit f.leaseFor) := by
  constructor
  · intro m hm
    have hno := h.not_active hex hm
    unfold Active at hno
    cases hst : m.status <;> simp_all
  intro w limit hout
  obtain ⟨m, hm⟩ := handsOut_stored hout
  rcases handsOut_cases hm hout with hcl | hlease
  · exact h.not_active hex hm (claimable_active hcl)
  · exact h.not_active hex hm (.inr (.inr hlease.1))

/-- **An exhausted message is held only because an operator held the failed one.** -/
theorem Counted.held_by_operator {t : Sys} {a : Act} (h : Counted f k s) (ht : Counted f k t)
    (hok : Steady k s a) (hs : SysStep o f s a t) (hex : Exhausted f k t)
    (hm : t.db.get k = some m) (hheld : m.status = .held) :
    Exhausted f k s ∧ ∃ m₀, s.db.get k = some m₀ ∧
      (m₀.status = .held ∨ a = .queue (.hold k) ∧ m₀.status = .failed) := by
  cases hs with
  | tick => exact ⟨hex, m, hm, .inl hheld⟩
  | @claim w limit hlast =>
    obtain ⟨-, hleased, hframe⟩ := sys_claim_spec o limit h.clock hlast
    have hex₀ : Exhausted f k s :=
      (congrArg Nat.cast (countP_claimEvents fun _ _ => rfl)).symm.trans hex
    refine ⟨hex₀, m, ?_, .inl hheld⟩
    refine (hframe k fun hmem => ?_).symm.trans hm
    obtain ⟨r, hr, hrk⟩ := mem_map.1 hmem
    obtain ⟨m₀, hm₀, hcl, -⟩ := hleased r hr
    exact h.not_active hex₀ (hrk ▸ hm₀) (claimable_active hcl)
  | deliver =>
    exact ⟨(congrArg Nat.cast (outcomes_move _ _ _)).symm.trans hex, m, hm, .inl hheld⟩
  | @record i random d result hd hp =>
    by_cases hk : d.id = k
    · subst hk
      obtain ⟨-, m₀, hm₀, hlease, -⟩ := h.held i d hd rfl (by simp [hp])
      obtain ⟨hrow, -⟩ := record_own f i random result hm₀ hlease
      rw [← some.inj (hrow.symm.trans hm), Outcome.set_status] at hheld
      cases hw : outcomeOf f.backoff random s.clock d.msg result <;>
        simp [hw, Outcome.status] at hheld
    obtain ⟨hdb, hout, -⟩ := record_other (s := s) f i random result hk
    exact ⟨(congrArg Nat.cast hout).symm.trans hex, m, hdb ▸ hm, .inl hheld⟩
  | @queue op hop =>
  have hex₀ : Exhausted f k s := (congrArg Nat.cast (countP_queue (fun _ => rfl) op)).symm.trans hex
  refine ⟨hex₀, ?_⟩
  have hreq : op ≠ .requeue k := by
    rintro rfl
    exact hok rfl
  cases hk : s.db.get k with
  | none =>
    obtain ⟨newID, d, rfl⟩ := exec_get_new hk hm
    simp [enqueueDefaults, Draft.message] at hheld
  | some m₀ =>
  obtain ⟨-, -, hfrom⟩ := queue_row hop hreq hk hm
  obtain hheld₀ | ⟨hop', hst⟩ := hfrom hheld
  · exact ⟨m₀, rfl, .inl hheld₀⟩
  refine ⟨m₀, rfl, .inr ⟨by rw [hop'], ?_⟩⟩
  have hno := h.not_active hex₀ hk
  unfold Active at hno
  cases hst' : m₀.status <;> simp_all

/-- **A message is settled within `MaxAttempts` deliveries.** In every run that is
steady for the message it is sent at most `MaxAttempts` times; its `attempts`
column is the number of recorded outcomes and never more than that; and once the
last outcome is recorded, the message is sent, failed, or held by an operator
after it failed, in every later state, and no later claim returns it. -/
theorem settled_within_max_attempts (o : RowOrder) (f : Fleet) (k : Bytes) (start : Int)
    (hpos : 0 < f.backoff.maxAttempts) (s : Sys)
    (h : Reach (sysStep o f) (Steady k) (.init start) s) :
    (sends s.log k : Int) ≤ f.backoff.maxAttempts ∧
    (∀ m, s.db.get k = some m →
      m.attempts = outcomes s.log k ∧ (m.attempts : Int) ≤ f.backoff.maxAttempts) ∧
    (∀ t, Exhausted f k s → Reach (sysStep o f) (Steady k) s t →
      (∀ m, t.db.get k = some m → m.status = .sent ∨ m.status = .failed ∨ m.status = .held) ∧
      ∀ w limit, ¬ HandsOut o t.db t.clock k (.claim w limit f.leaseFor)) ∧
    ∀ t a m, Steady k s a → sysStep o f s a = some t → Exhausted f k t →
      t.db.get k = some m → m.status = .held →
      Exhausted f k s ∧ ∃ m₀, s.db.get k = some m₀ ∧
        (m₀.status = .held ∨ a = .queue (.hold k) ∧ m₀.status = .failed) := by
  have hstep : ∀ s a t, Counted f k s → Steady k s a → sysStep o f s a = some t → Counted f k t :=
    fun _ _ _ hinv hok hs => counted_step hpos hinv hok (sysStep_cases hs)
  have hinv : Counted f k s := Reach.invariant (counted_init f k start hpos) hstep h
  refine ⟨?_, fun m hm => ?_, fun t hex hreach => ?_, fun t a m hok hs hex hm hheld => ?_⟩
  · -- a running `Send` is ahead of the outcomes, but then its row has an attempt left
    by_cases hno : ∀ (i : Nat) (d : Delivery), s.deliveries[i]? = some d → d.id = k → ¬ d.Started
    · have := hinv.idle hno
      have := hinv.bound
      omega
    push Not at hno
    obtain ⟨i, d, hd, hid, hst⟩ := hno
    obtain ⟨-, m, hm, hlease, -⟩ := hinv.held i d hd hid (started_not_done hst)
    obtain ⟨hcount, hleft⟩ := hinv.row m hm
    have := hleft (.inr (.inr hlease.1))
    have := hinv.ahead
    omega
  · have hcount := (hinv.row m hm).1
    have := hinv.bound
    exact ⟨hcount, by omega⟩
  · have hlater : Counted f k t ∧ Exhausted f k t := by
      refine Reach.invariant (I := fun s => Counted f k s ∧ Exhausted f k s) ⟨hinv, hex⟩ ?_ hreach
      rintro u a v ⟨hu, hexu⟩ hok hs
      have hv := hstep u a v hu hok hs
      exact ⟨hv, exhausted_step hv hexu (sysStep_cases hs)⟩
    exact hlater.1.at_rest hlater.2
  · exact hinv.held_by_operator (hstep s a t hinv hok hs) hok (sysStep_cases hs) hex hm hheld

def oneShot : Fleet := { smallFleet with backoff := { maxAttempts := 1 } }

/-- A claim, a `Send` that fails in passing, and the outcome: the only attempt is
used up. -/
theorem settled_within_max_attempts_oneShot :
    ∃ s, runActions (sysStep byNextAttempt oneShot) (.init 0)
        [enqueueOne, .tick 1, .claim (ascii "a") 1, .deliver 0 (.load healthyEnv {}),
          .deliver 0 .acquire, .deliver 0 (.finish (some (newTransient (ascii "451") [] none))),
          .record 0 0] = some s ∧
      Exhausted oneShot (ascii "m") s ∧ (sends s.log (ascii "m") : Int) ≤ 1 ∧
      ∀ w limit, ¬ HandsOut byNextAttempt s.db s.clock (ascii "m") (.claim w limit 10) := by
  have h0 : Reach (sysStep byNextAttempt oneShot) (Steady (ascii "m")) (.init 0) (.init 0) := .refl
  have h3 := ((h0.tail (a := enqueueOne) trivial rfl).tail (a := Act.tick 1)
    (by intro d hd; cases hd) rfl).tail (a := Act.claim (ascii "a") 1) trivial rfl
  have h6 := (((h3.tail (a := Act.deliver 0 (.load healthyEnv {})) trivial rfl).tail
    (a := Act.deliver 0 .acquire) trivial rfl).tail
    (a := Act.deliver 0 (.finish (some (newTransient (ascii "451") [] none)))) trivial rfl).tail
    (a := Act.record 0 0) trivial rfl
  obtain ⟨hsends, -, hlater, -⟩ :=
    settled_within_max_attempts byNextAttempt oneShot (ascii "m") 0 (by decide) _ h6
  exact ⟨_, rfl, rfl, hsends, (hlater _ rfl .refl).2⟩

end SmtpProxy.Queue
