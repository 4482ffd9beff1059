import SmtpProxy.Queue.Workers

/-!
# At most one `Send` of a message at a time

A claim hands a message to one delivery, and no other claim takes it while the
lease runs. That makes the running `Send` calls of one message exclusive as long
as every delivery acts within its own lease: it starts its `Send` early enough
for the timeout to end it before the lease does, and it writes its outcome
before the lease has expired (`InTime`). Nothing in the code enforces either.
`prepare` and `Limiter.Acquire` may take any time, and the lease is neither
extended nor looked at again before `Send`; see `waiting_outlives_lease`.
-/

namespace SmtpProxy.Queue

open Lib Store Transport Option

/-- Two different deliveries of one message are never both in `Send`. -/
def OneSend (s : Sys) : Prop :=
  ∀ (i j : Nat) (d d' : Delivery) (p p' : Transport.Message) (t t' : Int),
    s.deliveries[i]? = some d → s.deliveries[j]? = some d' → d.phase = .sending p t →
      d'.phase = .sending p' t' → d.id = d'.id → i = j

/-- The step keeps within the lease of the delivery that takes it: a `Send` starts
no later than a timeout before the lease ends, and an outcome is written no later
than the end of the lease. -/
def InTime (f : Fleet) (s : Sys) : Act → Prop
  | .deliver i .acquire => ∀ d : Delivery, s.deliveries[i]? = some d → s.clock + f.timeout ≤ d.expiry
  | .record i _ => ∀ d : Delivery, s.deliveries[i]? = some d → s.clock ≤ d.expiry
  | _ => True

def Delivery.Live (clock : Int) (d : Delivery) : Prop := d.phase ≠ .done ∧ clock ≤ d.expiry

/-- A live delivery's row carries exactly its lease, a message has at most one
live delivery, and a running `Send` is over before the lease. -/
structure Exclusive (f : Fleet) (s : Sys) : Prop where
  clock : ClockInv f.leaseFor ⟨s.db, s.last⟩
  held : ∀ (i : Nat) (d : Delivery), s.deliveries[i]? = some d → d.Live s.clock →
    ∃ m, s.db.get d.id = some m ∧ LeasedUntil d.proc d.expiry m
  unique : ∀ (i j : Nat) (d d' : Delivery), s.deliveries[i]? = some d →
    s.deliveries[j]? = some d' → d.Live s.clock → d'.Live s.clock → d.id = d'.id →
    i = j
  window : ∀ (i : Nat) (d : Delivery) (p : Transport.Message) (start : Int),
    s.deliveries[i]? = some d → d.phase = .sending p start → start + f.timeout ≤ d.expiry ∧
      s.clock ≤ start + f.timeout

variable {o : RowOrder} {f : Fleet} {s : Sys}

theorem exclusive_init (f : Fleet) (start : Int) : Exclusive f (.init start) where
  clock := init_clockInv f start
  held := by intro i d h; simp [Sys.init] at h
  unique := by intro i j d d' h; simp [Sys.init] at h
  window := by intro i d p start h; simp [Sys.init] at h

theorem exclusive_tick {now : Int} (hle : s.clock ≤ now)
    (hsend : ∀ d ∈ s.deliveries, d.mayWait f now = true) (h : Exclusive f s) :
    Exclusive f { s with clock := now } where
  clock := h.clock
  held := fun i d hd hlive => h.held i d hd ⟨hlive.1, hle.trans hlive.2⟩
  unique := fun i j d d' hd hd' hl hl' =>
    h.unique i j d d' hd hd' ⟨hl.1, hle.trans hl.2⟩ ⟨hl'.1, hle.trans hl'.2⟩
  window := by
    intro i d p start hd hp
    refine ⟨(h.window i d p start hd hp).1, ?_⟩
    have hwait := hsend d (List.mem_of_getElem? hd)
    simpa [Delivery.mayWait, hp] using hwait

theorem Exclusive.not_claimable (h : Exclusive f s) {i : Nat} {d : Delivery} {m : Store.Message}
    (hd : s.deliveries[i]? = some d) (hlive : d.Live s.clock) (hm : s.db.get d.id = some m) :
    claimable s.clock m = false := by
  obtain ⟨m', hm', hlease⟩ := h.held i d hd hlive
  rw [hm] at hm'
  exact some.inj hm' ▸ (leased_in_time hlease hlive.2).1

theorem exclusive_claim {w : Bytes} {limit : Int} (hlast : ∀ u ∈ s.last w, u < s.clock)
    (h : Exclusive f s) : Exclusive f (s.claim o f w limit) := by
  obtain ⟨hnodup, hleased, hframe⟩ := sys_claim_spec o limit h.clock hlast
  -- a returned row has no live delivery, for it was claimable
  have hfresh : ∀ (i : Nat) (d : Delivery), s.deliveries[i]? = some d → d.Live s.clock →
      ∀ r ∈ claimedRows (claimMessages o s.db s.clock w limit f.leaseFor).1, r.id ≠ d.id := by
    intro i d hd hlive r hr hid
    obtain ⟨m, hm, hcl, -, -⟩ := hleased r hr
    rw [h.not_claimable hd hlive (hid ▸ hm)] at hcl
    cases hcl
  refine ⟨(SysStep.claim hlast).clockInv h.clock, ?_, ?_, ?_⟩
  · intro i d hd hlive
    rcases claim_cases hd with hold | ⟨r, n, hr, -, rfl⟩
    · obtain ⟨m, hm, hlease⟩ := h.held i d hold hlive
      refine ⟨m, ?_, hlease⟩
      rw [hframe d.id, hm]
      intro hmem
      obtain ⟨r, hr, hid⟩ := List.mem_map.1 hmem
      exact hfresh i d hold hlive r hr hid
    obtain ⟨m, -, -, hrm, hget⟩ := hleased r (List.mem_of_getElem? hr)
    exact ⟨r, hget, by rw [hrm]; exact ⟨rfl, rfl, rfl⟩⟩
  · intro i j d d' hd hd' hl hl' hid
    rcases claim_cases hd with hold | ⟨r, n, hr, hi, rfl⟩ <;>
      rcases claim_cases hd' with hold' | ⟨r', n', hr', hj, rfl⟩
    · exact h.unique i j d d' hold hold' hl hl' hid
    · exact absurd hid.symm (hfresh i d hold hl r' (List.mem_of_getElem? hr'))
    · exact absurd hid (hfresh j d' hold' hl' r (List.mem_of_getElem? hr))
    have hn := index_inj hnodup hr hr' hid
    omega
  intro i d p start hd hp
  rcases claim_cases hd with hold | ⟨r, n, -, -, rfl⟩
  · exact h.window i d p start hold hp
  · cases hp

theorem exclusive_move {i : Nat} {a : Progress} {d : Delivery} {p : Phase}
    (hd : s.deliveries[i]? = some d) (hp : d.progress f s.clock a = some p)
    (hok : InTime f s (.deliver i a)) (h : Exclusive f s) : Exclusive f (s.move i d p) := by
  -- what is live now was live before, as the same delivery
  have hback : ∀ (j : Nat) (e : Delivery), (s.move i d p).deliveries[j]? = some e →
      e.Live s.clock → ∃ e' : Delivery, s.deliveries[j]? = some e' ∧ e'.Live s.clock ∧
        e'.id = e.id ∧ e'.proc = e.proc ∧
        e'.expiry = e.expiry := by
    intro j e he hlive
    rcases getElem?_set_cases he with ⟨rfl, rfl⟩ | ⟨-, hold⟩
    · exact ⟨d, hd, ⟨progress_not_done hp, hlive.2⟩, rfl, rfl, rfl⟩
    · exact ⟨e, hold, hlive, rfl, rfl, rfl⟩
  refine ⟨h.clock, ?_, ?_, ?_⟩
  · intro j e he hlive
    obtain ⟨e', he', hlive', hid, hproc, hexp⟩ := hback j e he hlive
    obtain ⟨m, hm, hlease⟩ := h.held j e' he' hlive'
    exact ⟨m, hid ▸ hm, hproc ▸ hexp ▸ hlease⟩
  · intro j k e e₂ he he₂ hl hl₂ hid
    obtain ⟨e', he', hlive', hid', -, -⟩ := hback j e he hl
    obtain ⟨e₂', he₂', hlive₂', hid₂', -, -⟩ := hback k e₂ he₂ hl₂
    exact h.unique j k e' e₂' he' he₂' hlive' hlive₂' (by rw [hid', hid₂', hid])
  intro j e q start he hq
  rcases getElem?_set_cases he with ⟨rfl, rfl⟩ | ⟨-, hold⟩
  · -- only the return of `Acquire` starts a `Send`
    obtain rfl : p = .sending q start := hq
    cases a with
    | load env ctx =>
      simp only [Delivery.progress] at hp
      split at hp
      · split at hp <;> cases some.inj hp
      · cases hp
    | acquire =>
      have htime := hok d hd
      simp only [Delivery.progress] at hp
      split at hp
      · split at hp
        · obtain ⟨-, rfl⟩ := Phase.sending.inj (some.inj hp)
          exact ⟨htime, by have := f.timeout_pos; show s.clock ≤ _; omega⟩
        · cases some.inj hp
      · cases hp
    | finish result =>
      simp only [Delivery.progress] at hp
      split at hp
      · cases some.inj hp
      · cases hp
    | abandon =>
    simp only [Delivery.progress] at hp
    split at hp
    · cases hp
    · cases some.inj hp
  · exact h.window j e q start hold hq

theorem exclusive_record {i : Nat} {random : ℚ} {d : Delivery} {result : Option Err}
    (hd : s.deliveries[i]? = some d) (hp : d.phase = .recording result)
    (hok : InTime f s (.record i random)) (h : Exclusive f s) :
    Exclusive f (s.record f i d random result) := by
  have hlive : d.Live s.clock := ⟨by simp [hp], hok d hd⟩
  have hback : ∀ (j : Nat) (e : Delivery),
      (s.record f i d random result).deliveries[j]? = some e → e.Live s.clock → j ≠ i ∧
        s.deliveries[j]? = some e := by
    intro j e he hl
    rcases getElem?_set_cases he with ⟨-, rfl⟩ | ⟨hne, hold⟩
    · exact absurd rfl hl.1
    · exact ⟨hne, hold⟩
  refine ⟨(SysStep.record (o := byNextAttempt) hd hp).clockInv h.clock, ?_, ?_, ?_⟩
  · intro j e he hl
    obtain ⟨hne, hold⟩ := hback j e he hl
    obtain ⟨m, hm, hlease⟩ := h.held j e hold hl
    refine ⟨m, ?_, hlease⟩
    -- the write is about another message
    rw [record_get, hm, map_some, whenLeased, if_neg]
    rintro ⟨hid, -⟩
    exact hne (h.unique j i e d hold hd hl hlive (by rw [← get_id hm, hid]))
  · intro j k e e' he he' hl hl' hid
    exact h.unique j k e e' (hback j e he hl).2 (hback k e' he' hl').2 hl hl' hid
  intro j e q start he hq
  rcases getElem?_set_cases he with ⟨-, rfl⟩ | ⟨-, hold⟩
  · cases hq
  · exact h.window j e q start hold hq

theorem exclusive_queue {op : Op} (hop : s.admits op = true) (h : Exclusive f s) :
    Exclusive f (s.queue o op) where
  clock := (SysStep.queue hop).clockInv h.clock
  held := by
    intro i d hd hlive
    obtain ⟨m, hm, hlease⟩ := h.held i d hd hlive
    exact ⟨m, queue_leased hop hm hlease hlive.2, hlease⟩
  unique := h.unique
  window := h.window

theorem exclusive_step {t : Sys} {a : Act} (h : Exclusive f s) (hok : InTime f s a)
    (hs : SysStep o f s a t) : Exclusive f t := by
  cases hs with
  | tick hle hsend => exact exclusive_tick hle hsend h
  | claim hlast => exact exclusive_claim hlast h
  | deliver hd hp => exact exclusive_move hd hp hok h
  | record hd hp => exact exclusive_record hd hp hok h
  | queue hop => exact exclusive_queue hop h

/-- **In every run whose deliveries keep within their leases, one message is never
in two `Send` calls at once** — in one process or in several. -/
theorem one_send_at_a_time (o : RowOrder) (f : Fleet) (start : Int) (s : Sys)
    (h : Reach (sysStep o f) (InTime f) (.init start) s) : OneSend s := by
  have hinv : Exclusive f s := Reach.invariant (exclusive_init f start)
      (fun _ _ _ hinv hok hs => exclusive_step hinv hok (sysStep_cases hs)) h
  intro i j d d' p p' u u' hd hd' hp hp' hid
  have hlive : ∀ {k : Nat} {e : Delivery} {q v}, s.deliveries[k]? = some e → e.phase = .sending q v →
      e.Live s.clock := by
    intro k e q v he hq
    obtain ⟨hend, hnow⟩ := hinv.window k e q v he hq
    exact ⟨by simp [hq], by omega⟩
  exact hinv.unique i j d d' hd hd' (hlive hd hp) (hlive hd' hp') hid

def smallFleet : Fleet where
  configured := fun _ => true
  backoff := {}
  leaseFor := 10
  timeout := 5
  timeout_pos := by decide
  timeout_lt := by decide

def enqueueOne : Act :=
  .queue (.enqueue (ascii "m") { mailboxID := some (ascii "b"), recipients := [ascii "r@y"] }
    (ascii "x"))

/-- One worker claims at 1 and starts to send at once, well within its lease. -/
theorem one_send_at_a_time_prompt : ∃ s, runActions (sysStep byNextAttempt smallFleet) (.init 0)
        [enqueueOne, .tick 1, .claim (ascii "a") 1, .deliver 0 (.load healthyEnv {}),
          .deliver 0 .acquire] = some s ∧ OneSend s := by
  refine ⟨_, rfl, one_send_at_a_time byNextAttempt smallFleet 0 _ ?_⟩
  have h0 : Reach (sysStep byNextAttempt smallFleet) (InTime smallFleet) (.init 0) (.init 0) :=
    .refl
  refine (((((h0.tail (a := enqueueOne) trivial rfl).tail (a := Act.tick 1) trivial rfl).tail
    (a := Act.claim (ascii "a") 1) trivial rfl).tail
    (a := Act.deliver 0 (.load healthyEnv {})) trivial rfl).tail
    (a := Act.deliver 0 .acquire) ?_ rfl)
  intro d hd
  cases hd
  decide

/-- The first delivery waits for its mailbox's budget until its lease, which ended
at 11, has expired; a second worker claims the message at 12 and sends it, and
then the first one sends it too. -/
theorem waiting_outlives_lease : ∃ s, runActions (sysStep byNextAttempt smallFleet) (.init 0)
        [enqueueOne, .tick 1, .claim (ascii "a") 1, .deliver 0 (.load healthyEnv {}), .tick 12,
          .claim (ascii "b") 1, .deliver 1 (.load healthyEnv {}), .deliver 1 .acquire,
          .deliver 0 .acquire] = some s ∧ ¬ OneSend s := by
  refine ⟨_, rfl, fun h => ?_⟩
  have := h 0 1 _ _ _ _ _ _ rfl rfl rfl rfl rfl
  exact absurd this (by decide)

end SmtpProxy.Queue
