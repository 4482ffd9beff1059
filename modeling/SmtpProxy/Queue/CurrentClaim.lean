import SmtpProxy.Queue.Exclusion

/-!
# Only the current claim records an outcome

The outcome writes are guarded by the worker's name alone, which all deliveries
of one process share. A process that claims a message again while an earlier
delivery of its own still works on it therefore lets the earlier one write on
the later one's lease (`stale_delivery_records`). When no process does that
(`NoReclaim`), the name is as good as the claim itself: the row a delivery can
still write is the row its own claim leased (`outcome_guarded`).
-/

namespace SmtpProxy.Queue

open Lib Store Transport List Option

def currentClaim : List Event → Bytes → Option Nat
  | [], _ => none
  | .claimed tag id :: log, k => if id = k then some tag else currentClaim log k
  | .recorded _ id :: log, k => if id = k then none else currentClaim log k
  | .released id :: log, k => if id = k then none else currentClaim log k
  | .sendStarted _ _ :: log, k => currentClaim log k

/-- An outcome write changes the row only on behalf of the claim that holds the
message; any other returns an error and changes nothing. -/
def OutcomeGuard (f : Fleet) (s : Sys) : Prop :=
  ∀ (i : Nat) (d : Delivery) (result : Option Err) (random : ℚ),
    s.deliveries[i]? = some d → d.phase = .recording result →
    (((outcomeOf f.backoff random s.clock d.msg result).exec s.db s.clock d.id d.proc).2.get d.id
        ≠ s.db.get d.id → currentClaim s.log d.id = some i) ∧
    (currentClaim s.log d.id ≠ some i →
      (∃ e, ((outcomeOf f.backoff random s.clock d.msg result).exec
        s.db s.clock d.id d.proc).1 = .error e) ∧
      ∀ k, ((outcomeOf f.backoff random s.clock d.msg result).exec
        s.db s.clock d.id d.proc).2.get k = s.db.get k)

/-- A process claims only when none of the messages its own unfinished deliveries
work on is claimable. -/
def NoReclaim (s : Sys) : Act → Prop
  | .claim w _ => ∀ d ∈ s.deliveries, d.proc = w → d.phase ≠ .done →
      ∀ m, s.db.get d.id = some m → claimable s.clock m = false
  | _ => True

/-! ## The log -/

theorem currentClaim_released (ids : List Bytes) (log : List Event) (k : Bytes) :
    currentClaim (ids.map .released ++ log) k = if k ∈ ids then none else currentClaim log k := by
  induction ids with
  | nil => simp
  | cons id ids ih =>
  simp only [map_cons, cons_append, currentClaim, ih, mem_cons]
  by_cases hid : id = k
  · simp [hid]
  have hid' : k ≠ id := fun h => hid h.symm
  simp [hid, hid']

variable {k : Bytes}

theorem currentClaim_claimEvents_other {rows : List Store.Message} :
    ∀ {tag : Nat} {log : List Event}, k ∉ rows.map Store.Message.id →
      currentClaim (claimEvents tag rows log) k = currentClaim log k := by
  induction rows with
  | nil => intro tag log _; rfl
  | cons m rows ih =>
  intro tag log hk
  rw [map_cons, mem_cons, not_or] at hk
  rw [claimEvents, ih hk.2, currentClaim, if_neg fun h => hk.1 h.symm]

theorem currentClaim_claimEvents {rows : List Store.Message} {r : Store.Message} {n : Nat} :
    ∀ {tag : Nat} {log : List Event}, (rows.map Store.Message.id).Nodup → rows[n]? = some r →
      currentClaim (claimEvents tag rows log) r.id = some (tag + n) := by
  induction rows generalizing n with
  | nil => intro tag log _ h; cases h
  | cons m rows ih =>
  intro tag log hnodup hr
  rw [map_cons, nodup_cons] at hnodup
  cases n with
  | zero =>
    obtain rfl : m = r := by simpa using hr
    rw [claimEvents, currentClaim_claimEvents_other hnodup.1, currentClaim, if_pos rfl,
      Nat.add_zero]
  | succ n =>
  rw [claimEvents, ih hnodup.2 (by simpa using hr)]
  congr 1
  omega

/-! ## The invariant -/

/-- Where a message stands: no claim holds it and its row carries no lease, or
the last of its deliveries holds it and the row carries that claim's lease. -/
def Linked (s : Sys) (k : Bytes) : Prop :=
  (currentClaim s.log k = none ∧ ∀ m, s.db.get k = some m → m.leaseOwner = none) ∨
  ∃ (i : Nat) (d : Delivery) (m : Store.Message), currentClaim s.log k = some i ∧
    s.deliveries[i]? = some d ∧ d.id = k ∧ s.db.get k = some m ∧
    LeasedUntil d.proc d.expiry m ∧
    ∀ (j : Nat) (d' : Delivery), s.deliveries[j]? = some d' → d'.id = k → j ≤ i

structure CurrentInv (f : Fleet) (s : Sys) : Prop where
  clock : ClockInv f.leaseFor ⟨s.db, s.last⟩
  linked : ∀ k, Linked s k
  settled : ∀ (i j : Nat) (d d' : Delivery), s.deliveries[i]? = some d →
    s.deliveries[j]? = some d' → i < j → d.proc = d'.proc → d.id = d'.id → d.phase = .done

variable {o : RowOrder} {f : Fleet} {s : Sys} {i : Nat} {d : Delivery}

/-- **A delivery that still owns its row by name holds it by claim.** -/
theorem CurrentInv.owns_current (h : CurrentInv f s) (hd : s.deliveries[i]? = some d)
    (hp : d.phase ≠ .done) (hown : Owns s.db d.id d.proc) : currentClaim s.log d.id = some i := by
  obtain ⟨row, hrow, howner⟩ := hown
  rcases h.linked d.id with ⟨-, hnone⟩ | ⟨j, e, m, hcur, he, hid, hm, hlease, hlast⟩
  · cases (hnone row hrow).symm.trans howner
  obtain rfl : row = m := some.inj (hrow.symm.trans hm)
  have hproc : d.proc = e.proc := some.inj (howner.symm.trans hlease.2.1)
  rcases Nat.lt_or_eq_of_le (hlast i d hd rfl) with hlt | rfl
  · exact absurd (h.settled i j d e hd he hlt hproc hid.symm) hp
  · exact hcur

theorem currentInv_guard (h : CurrentInv f s) : OutcomeGuard f s := by
  intro i d result random hd hp
  rw [Outcome.exec_eq]
  have hcur : Owns s.db d.id d.proc → currentClaim s.log d.id = some i :=
    h.owns_current hd (by simp [hp])
  constructor
  · intro hne
    by_contra hnot
    exact hne (updateLeased_lost (fun hown => hnot (hcur hown)) d.id)
  intro hnot
  have hno : ¬ Owns s.db d.id d.proc := fun hown => hnot (hcur hown)
  refine ⟨?_, updateLeased_lost hno⟩
  cases hres : (updateLeased s.db d.id d.proc _
      ((outcomeOf f.backoff random s.clock d.msg result).set_id s.clock)).1 with
  | error e => exact ⟨e, rfl⟩
  | ok u => exact absurd (updateLeased_ok_iff.1 hres) hno

/-! ## The steps -/

theorem currentInv_init (f : Fleet) (start : Int) : CurrentInv f (.init start) where
  clock := init_clockInv f start
  linked := fun k => .inl ⟨rfl, by simp [Sys.init, DB.empty, DB.get]⟩
  settled := by intro i j d d' h; simp [Sys.init] at h

theorem currentInv_claim {w : Bytes} {limit : Int} (hlast : ∀ u ∈ s.last w, u < s.clock)
    (hok : NoReclaim s (.claim w limit)) (h : CurrentInv f s) :
    CurrentInv f (s.claim o f w limit) := by
  obtain ⟨hnodup, hleased, hframe⟩ := sys_claim_spec o limit h.clock hlast
  refine ⟨(SysStep.claim hlast).clockInv h.clock, fun k => ?_, ?_⟩
  · by_cases hk : k ∈ (claimedRows (claimMessages o s.db s.clock w limit f.leaseFor).1).map
        Store.Message.id
    · -- the claim's own rows: the new delivery holds them
      right
      obtain ⟨r, hr, rfl⟩ := mem_map.1 hk
      obtain ⟨n, hn⟩ := mem_iff_getElem?.1 hr
      obtain ⟨m, -, -, hrm, hget⟩ := hleased r hr
      refine ⟨s.deliveries.length + n, ⟨w, r, s.clock + f.leaseFor, .claimed⟩, r,
        currentClaim_claimEvents hnodup hn, ?_, rfl, hget, by rw [hrm]; exact ⟨rfl, rfl, rfl⟩, ?_⟩
      · simp only [Sys.claim]
        rw [getElem?_append_right (Nat.le_add_right ..), Nat.add_sub_cancel_left,
          getElem?_map, hn, map_some]
      intro j d' hd' hid
      rcases claim_cases hd' with hold | ⟨r', n', hr', rfl, rfl⟩
      · have := (List.getElem?_eq_some_iff.1 hold).1
        omega
      · rw [index_inj hnodup hr' hn hid]
    · -- every other message is as before
      have hcur : currentClaim (s.claim o f w limit).log k = currentClaim s.log k :=
        currentClaim_claimEvents_other hk
      rcases h.linked k with ⟨hnone, hrow⟩ | ⟨i, d, m, hcl, hd, hid, hm, hlease, hlatest⟩
      · exact .inl ⟨hcur.trans hnone, fun m hm => hrow m ((hframe k hk).symm.trans hm)⟩
      refine .inr ⟨i, d, m, hcur.trans hcl, ?_, hid, (hframe k hk).trans hm, hlease, ?_⟩
      · exact getElem?_append_left (List.getElem?_eq_some_iff.1 hd).1 ▸ hd
      intro j d' hd' hid'
      rcases claim_cases hd' with hold | ⟨r, n, hr, -, rfl⟩
      · exact hlatest j d' hold hid'
      · exact absurd (mem_map.2 ⟨r, mem_of_getElem? hr, hid'⟩) hk
  · intro i j d d' hd hd' hij hproc hid
    rcases claim_cases hd' with hold' | ⟨r', n', hr', hj, rfl⟩
    · rcases claim_cases hd with hold | ⟨r, n, -, hi, rfl⟩
      · exact h.settled i j d d' hold hold' hij hproc hid
      · have := (List.getElem?_eq_some_iff.1 hold').1
        omega
    rcases claim_cases hd with hold | ⟨r, n, hr, hi, rfl⟩
    · -- an unfinished delivery of the claiming process would make the row unclaimable
      by_contra hp
      obtain ⟨m, hm, hcl, -, -⟩ := hleased r' (mem_of_getElem? hr')
      have := hok d (mem_of_getElem? hold) hproc hp m (by rw [hid]; exact hm)
      rw [this] at hcl
      cases hcl
    have := index_inj hnodup hr hr' hid
    omega

theorem linked_set {p : Phase} {t : Sys} (hd : s.deliveries[i]? = some d)
    (hdb : t.db.get k = s.db.get k) (hlog : currentClaim t.log k = currentClaim s.log k)
    (hset : t.deliveries = s.deliveries.set i { d with phase := p }) (h : Linked s k) :
    Linked t k := by
  rcases h with ⟨hnone, hrow⟩ | ⟨j, e, m, hcl, he, hid, hm, hlease, hlatest⟩
  · exact .inl ⟨hlog.trans hnone, fun m hm => hrow m (hdb.symm.trans hm)⟩
  have hlatest' : ∀ (n : Nat) (d' : Delivery), t.deliveries[n]? = some d' → d'.id = k →
      n ≤ j := by
    intro n d' hd' hid'
    rw [hset] at hd'
    rcases getElem?_set_cases hd' with ⟨rfl, rfl⟩ | ⟨-, hold⟩
    · exact hlatest n d hd hid'
    · exact hlatest n d' hold hid'
  have hlt : i < s.deliveries.length := (List.getElem?_eq_some_iff.1 hd).1
  by_cases hij : i = j
  · subst hij
    obtain rfl : d = e := some.inj (hd.symm.trans he)
    exact .inr ⟨i, { d with phase := p }, m, hlog.trans hcl,
      by rw [hset, getElem?_set_self hlt], hid, hdb.trans hm, hlease, hlatest'⟩
  exact .inr ⟨j, e, m, hlog.trans hcl,
    by rw [hset, getElem?_set_ne hij]; exact he, hid, hdb.trans hm, hlease, hlatest'⟩

/-- The claims of one process on one message stay settled in order. -/
theorem settled_set {p : Phase} {t : Sys} (h : CurrentInv f s) (hd : s.deliveries[i]? = some d)
    (hp : d.phase ≠ .done) (hset : t.deliveries = s.deliveries.set i { d with phase := p }) :
    ∀ (a b : Nat) (e e' : Delivery), t.deliveries[a]? = some e → t.deliveries[b]? = some e' →
      a < b → e.proc = e'.proc → e.id = e'.id → e.phase = .done := by
  intro a b e e' he he' hab hproc hid
  rw [hset] at he he'
  rcases getElem?_set_cases he with ⟨rfl, rfl⟩ | ⟨-, hold⟩
  · rcases getElem?_set_cases he' with ⟨hb, -⟩ | ⟨-, hold'⟩
    · omega
    · exact absurd (h.settled a b d e' hd hold' hab hproc hid) hp
  rcases getElem?_set_cases he' with ⟨rfl, rfl⟩ | ⟨-, hold'⟩
  · exact h.settled a b e d hold hd hab hproc hid
  · exact h.settled a b e e' hold hold' hab hproc hid

theorem currentInv_move {a : Progress} {p : Phase} (hd : s.deliveries[i]? = some d)
    (hp : d.progress f s.clock a = some p) (h : CurrentInv f s) : CurrentInv f (s.move i d p) where
  clock := h.clock
  linked := by
    intro k
    refine linked_set (p := p) hd rfl ?_ rfl (h.linked k)
    cases p <;> rfl
  settled := settled_set h hd (progress_not_done hp) rfl

theorem currentInv_record {random : ℚ} {result : Option Err} (hd : s.deliveries[i]? = some d)
    (hp : d.phase = .recording result) (h : CurrentInv f s) :
    CurrentInv f (s.record f i d random result) := by
  refine ⟨(SysStep.record (o := byNextAttempt) hd hp).clockInv h.clock, fun k => ?_,
    settled_set h hd (by simp [hp]) rfl⟩
  cases hres : ((outcomeOf f.backoff random s.clock d.msg result).exec
      s.db s.clock d.id d.proc).1 with
  | error e =>
    have hno : ¬ Owns s.db d.id d.proc := by
      intro hown
      rw [Outcome.exec_eq, updateLeased_ok_iff.2 hown] at hres
      cases hres
    refine linked_set (p := .done) hd ?_ ?_ rfl (h.linked k)
    · simp only [Sys.record, Outcome.exec_eq]
      exact updateLeased_lost hno k
    · simp only [Sys.record, hres]
  | ok u =>
  by_cases hk : d.id = k
  · -- the delivery's own message: the lease is given up
    left
    refine ⟨by simp only [Sys.record, hres]; rw [currentClaim, if_pos hk], ?_⟩
    intro m hm
    rw [record_get] at hm
    obtain ⟨row, hrow, rfl⟩ := map_eq_some_iff.1 hm
    rw [Outcome.exec_eq] at hres
    obtain ⟨row', hrow', hown⟩ := updateLeased_ok_iff.1 hres
    rw [hk] at hrow'
    obtain rfl : row' = row := some.inj (hrow'.symm.trans hrow)
    rw [whenLeased, if_pos ⟨by rw [get_id hrow, hk], hown⟩]
    cases outcomeOf f.backoff random s.clock d.msg result <;> rfl
  refine linked_set (p := .done) hd ?_ ?_ rfl (h.linked k)
  · rw [record_get]
    cases hrow : s.db.get k with
    | none => rfl
    | some row =>
    rw [map_some, whenLeased, if_neg]
    rintro ⟨hid, -⟩
    exact hk (by rw [← hid, get_id hrow])
  simp only [Sys.record, hres]
  rw [currentClaim, if_neg hk]

theorem mem_expired : k ∈ s.expired ↔ ∃ m, s.db.get k = some m ∧ leaseExpired s.clock m = true := by
  unfold Sys.expired
  constructor
  · intro h
    obtain ⟨m, hm, rfl⟩ := mem_map.1 h
    obtain ⟨hrow, hexp⟩ := mem_filter.1 hm
    exact ⟨m, mem_rows_iff.1 hrow, hexp⟩
  rintro ⟨m, hm, hexp⟩
  exact mem_map.2 ⟨m, mem_filter.2 ⟨Table.mem_of_get hm, hexp⟩, get_id hm⟩

theorem queue_unleased {op : Op} (hop : s.admits op = true)
    (h : ∀ m, s.db.get k = some m → m.leaseOwner = none) :
    ∀ m, (s.queue o op).db.get k = some m → m.leaseOwner = none := by
  intro m hm
  cases hk : s.db.get k with
  | none =>
    obtain ⟨newID, d, rfl⟩ := exec_get_new hk hm
    rfl
  | some m₀ =>
  have hstep : RowStep s.clock _ m₀ op (some m) := hm ▸ exec_step hk
  have hext : ∀ id w d, op ≠ .extendLease id w d := by
    rintro id w d rfl
    simp [Sys.admits] at hop
  rcases hstep.lease_columns hext with hnone | ⟨hsame, -⟩ | ⟨w, l, d, rfl, -⟩
  · exact hnone
  · exact hsame.trans (h m₀ hk)
  · simp [Sys.admits] at hop

theorem currentInv_queue {op : Op} (hop : s.admits op = true) (h : CurrentInv f s) :
    CurrentInv f (s.queue o op) := by
  refine ⟨(SysStep.queue hop).clockInv h.clock, fun k => ?_, h.settled⟩
  have hlog : k ∉ s.expired ∨ op ≠ .releaseExpiredLeases →
      currentClaim (s.queue o op).log k = currentClaim s.log k := by
    intro hor
    cases op with
    | releaseExpiredLeases =>
      rw [show (s.queue o .releaseExpiredLeases).log = s.expired.map .released ++ s.log from rfl,
        currentClaim_released, if_neg (hor.resolve_right (by simp))]
    | _ => rfl
  rcases h.linked k with ⟨hnone, hrow⟩ | ⟨i, d, m, hcl, hd, hid, hm, hlease, hlatest⟩
  · refine .inl ⟨?_, queue_unleased hop hrow⟩
    rw [hlog, hnone]
    left
    rw [mem_expired]
    rintro ⟨m, hm, hexp⟩
    -- an expired lease would have an owner
    have hsend : m.status = .sending := by
      simp only [leaseExpired, Bool.and_eq_true, decide_eq_true_eq] at hexp
      exact hexp.1
    have := ((h.clock k m hm).1.sending_iff.1 hsend).1
    rw [hrow m hm] at this
    simp at this
  by_cases hrel : op = .releaseExpiredLeases ∧ leaseExpired s.clock m = true
  · obtain ⟨rfl, hexp⟩ := hrel
    left
    constructor
    · rw [show (s.queue o .releaseExpiredLeases).log = s.expired.map .released ++ s.log from rfl,
        currentClaim_released, if_pos (mem_expired.2 ⟨m, hm, hexp⟩)]
    intro m' hm'
    have : (s.queue o .releaseExpiredLeases).db.get k = some (releaseSet s.clock m) := by
      refine (exec_get_some (o := o) hm).trans ?_
      rw [onRow, if_pos hexp]
    rw [← some.inj (this.symm.trans hm')]
    rfl
  right
  have hkept := queue_lease_kept (o := o) hop hm hlease hrel
  refine ⟨i, d, m, (hlog ?_).trans hcl, hd, hid, hkept, hlease, hlatest⟩
  by_cases hop' : op = .releaseExpiredLeases
  · left
    rw [mem_expired]
    rintro ⟨m', hm', hexp⟩
    exact hrel ⟨hop', some.inj (hm.symm.trans hm') ▸ hexp⟩
  · exact .inr hop'

theorem currentInv_step {t : Sys} {a : Act} (h : CurrentInv f s) (hok : NoReclaim s a)
    (hs : SysStep o f s a t) : CurrentInv f t := by
  cases hs with
  | tick => exact ⟨h.clock, h.linked, h.settled⟩
  | claim hlast => exact currentInv_claim hlast hok h
  | deliver hd hp => exact currentInv_move hd hp h
  | record hd hp => exact currentInv_record hd hp h
  | queue hop => exact currentInv_queue hop h

/-- **In every run in which no process claims a message one of its own deliveries
still works on, an outcome is recorded only by the delivery whose claim holds the
message.** -/
theorem outcome_guarded (o : RowOrder) (f : Fleet) (start : Int) (s : Sys)
    (h : Reach (sysStep o f) NoReclaim (.init start) s) : OutcomeGuard f s :=
  currentInv_guard (Reach.invariant (currentInv_init f start)
    (fun _ _ _ hinv hok hs => currentInv_step hinv hok (sysStep_cases hs)) h)

/-- A message is claimed, its load fails, and the failure is about to be written. -/
theorem outcome_guarded_once : ∃ s, runActions (sysStep byNextAttempt smallFleet) (.init 0)
        [enqueueOne, .tick 1, .claim (ascii "a") 1, .deliver 0 (.load healthyEnv ⟨some .mailbox⟩)]
          = some s ∧ OutcomeGuard smallFleet s := by
  refine ⟨_, rfl, outcome_guarded byNextAttempt smallFleet 0 _ ?_⟩
  have h0 : Reach (sysStep byNextAttempt smallFleet) NoReclaim (.init 0) (.init 0) := .refl
  refine (((h0.tail (a := enqueueOne) trivial rfl).tail (a := Act.tick 1) trivial rfl).tail
    (a := Act.claim (ascii "a") 1) ?_ rfl).tail
    (a := Act.deliver 0 (.load healthyEnv ⟨some .mailbox⟩)) trivial rfl
  intro d hd
  simp [Sys.queue, Sys.init] at hd

def busy : Err := newTransient (ascii "4.7.500") (ascii "Server busy") none

/-- One process claims a message at 1, waits past the end of the lease at 11,
claims it again at 12 and only then hears the result of the first delivery: the
row, held by the second claim, is deferred by the first. -/
theorem stale_delivery_records : ∃ s, runActions (sysStep byNextAttempt smallFleet) (.init 0)
        [enqueueOne, .tick 1, .claim (ascii "a") 1, .deliver 0 (.load healthyEnv {}), .tick 12,
          .claim (ascii "a") 1, .deliver 0 .acquire, .deliver 0 (.finish (some busy))] = some s ∧
      currentClaim s.log (ascii "m") = some 1 ∧ ¬ OutcomeGuard smallFleet s := by
  refine ⟨_, rfl, by decide, fun h => ?_⟩
  obtain ⟨-, hlost⟩ := h 0 _ _ 0 rfl rfl
  obtain ⟨⟨e, he⟩, -⟩ := hlost (by decide)
  -- the write of the first delivery in fact succeeds
  have hok : (Except.ok () : Except Err Unit) = .error e := he
  cases hok

end SmtpProxy.Queue
