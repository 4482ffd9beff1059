import SmtpProxy.Queue.RateLimit

/-!
# How many deliveries of a mailbox are in flight

Each semaphore is sound: the calls that hold an element of it are as many as are
in it, so at most three (`Slotted`). But a mailbox can have several semaphores at
once. When a call comes with another budget, or after `Forget`, the mailbox gets
a new and empty one while the calls that were given the old one go on using it
(`changed_budget_exceeds`). The limit holds for a mailbox whose semaphore is
replaced only when nobody uses it (`in_flight_le`).
-/

namespace SmtpProxy.Queue

open Lib List Option Function

/-- The calls for this mailbox that returned a slot which is not released yet. -/
def Acquires.inFlight (s : Acquires) (id : Bytes) : Nat :=
  s.calls.countP fun c => decide (c.phase = .returned) && decide (c.mailboxID = id)

def Acquires.holders (s : Acquires) (k : Nat) : Nat :=
  s.calls.countP fun c => c.holds && decide (c.object = k)

def Acquires.init (defaults : Budget) : Acquires := { limiter := newLimiter defaults }

/-! ## Every semaphore is sound -/

/-- Each semaphore contains one element for every call that holds a slot of it, and
has no more than three slots. -/
structure Slotted (s : Acquires) : Prop where
  held : ∀ k ml, s.limiter.objects[k]? = some ml → ml.held = s.holders k
  room : ∀ ml ∈ s.limiter.objects,
    (ml.held : Int) ≤ ml.slots ∧ ml.slots ≤ exchangeConcurrentConnections
  given : ∀ c ∈ s.calls, c.object < s.limiter.objects.length
  mapped : ∀ id k, s.limiter.mailbox id = some k → k < s.limiter.objects.length

variable {s t : Acquires} {a : LimiterAct} {i : Nat} {c : Acquire} {ml ml' : MailboxLimiter}
  {p : AcquirePhase}

theorem slotted_init (defaults : Budget) : Slotted (.init defaults) where
  held := fun k ml h => absurd h (by simp [Acquires.init, newLimiter])
  room := fun ml h => absurd h not_mem_nil
  given := fun c h => absurd h not_mem_nil
  mapped := fun id k h => absurd h (by simp [Acquires.init, newLimiter])

theorem slotted_move (h : Slotted s) (hc : s.calls[i]? = some c)
    (hsame : c.holds = ({ c with phase := p } : Acquire).holds) : Slotted (s.move i c p) where
  held := fun k ml hml => by
    rw [h.held k ml hml]
    exact (countP_set_same hc (by rw [hsame])).symm
  room := h.room
  given := forall_mem_set h.given (h.given c (mem_of_getElem? hc))
  mapped := h.mapped

/-- A call that moves and changes its semaphore by what it then holds of it. -/
theorem slotted_moveWith (h : Slotted s) (hc : s.calls[i]? = some c)
    (hml : s.limiter.objects[c.object]? = some ml)
    (hheld : ml'.held + c.holds.toNat = ml.held + ({ c with phase := p } : Acquire).holds.toNat)
    (hroom : (ml'.held : Int) ≤ ml'.slots ∧ ml'.slots ≤ exchangeConcurrentConnections) :
    Slotted (s.moveWith i c p ml') := by
  have hlen : (s.moveWith i c p ml').limiter.objects.length = s.limiter.objects.length :=
    length_set
  refine ⟨fun k m hm => ?_, forall_mem_set h.room hroom, ?_, ?_⟩
  · have hadd := countP_set_add hc { c with phase := p } fun c => c.holds && decide (c.object = k)
    show m.held = (s.calls.set i { c with phase := p }).countP
      fun c => c.holds && decide (c.object = k)
    rcases getElem?_set_cases hm with ⟨rfl, rfl⟩ | ⟨hne, hold⟩
    · have hbefore := h.held _ _ hml
      rw [Acquires.holders] at hbefore
      simp only [decide_true, Bool.and_true] at hadd
      omega
    have hbefore := h.held _ _ hold
    rw [Acquires.holders] at hbefore
    simp only [hne.symm, decide_false, Bool.and_false, Bool.toNat_false, Nat.add_zero] at hadd
    omega
  · rw [hlen]
    have hmoved : ({ c with phase := p } : Acquire).object < s.limiter.objects.length :=
      h.given c (mem_of_getElem? hc)
    exact forall_mem_set h.given hmoved
  rw [hlen]
  exact h.mapped

theorem held_pos (h : Slotted s) (hc : s.calls[i]? = some c) (hholds : c.holds = true)
    (hml : s.limiter.objects[c.object]? = some ml) : 1 ≤ ml.held := by
  rw [h.held _ _ hml]
  exact countP_pos_iff.2 ⟨c, mem_of_getElem? hc, by simp [hholds]⟩

/-- A call gets the object the map has for its mailbox, or a new one. -/
inductive ForMailbox (l : Limiter) (id : Bytes) (budget : Budget) (now : Int) :
    Limiter × Nat → Prop where
  | kept {k : Nat} (hk : l.mailbox id = some k)
      (hfits : (l.objects[k]?).any (·.fits (l.effective budget)) = true) :
      ForMailbox l id budget now (l, k)
  | rebuilt (hnew : ∀ k, l.mailbox id = some k →
        (l.objects[k]?).any (·.fits (l.effective budget)) = false) :
      ForMailbox l id budget now (l.rebuild id (l.effective budget) now)

theorem forMailbox_cases (l : Limiter) (id : Bytes) (budget : Budget) (now : Int) :
    ForMailbox l id budget now (l.forMailbox id budget now) := by
  unfold Limiter.forMailbox
  dsimp only
  split
  · next hnone => exact .rebuilt fun k hk => absurd (hnone.symm.trans hk) (by simp)
  next k hk =>
  split
  · next hfits => exact .kept hk hfits
  next hfits =>
  refine .rebuilt fun k' hk' => ?_
  rw [← some.inj (hk.symm.trans hk')]
  exact eq_false_of_ne_true hfits

theorem slotted_acquire (h : Slotted s) (id : Bytes) (budget : Budget) (now : Int) :
    Slotted { limiter := (s.limiter.forMailbox id budget now).1,
              calls := s.calls ++
                [{ mailboxID := id, object := (s.limiter.forMailbox id budget now).2 }] } := by
  have hr := forMailbox_cases s.limiter id budget now
  generalize s.limiter.forMailbox id budget now = r at hr
  -- the new call holds nothing yet
  have hholders : ∀ k, ({ limiter := r.1, calls := s.calls ++
      [{ mailboxID := id, object := r.2 }] } : Acquires).holders k = s.holders k := by
    intro k
    simp [Acquires.holders, Acquire.holds]
  cases hr with
  | @kept k hk hfits =>
    refine ⟨fun k m hm => (h.held k m hm).trans (hholders k).symm, h.room, ?_, h.mapped⟩
    exact forall_mem_append.2 ⟨h.given, forall_mem_singleton.2 (h.mapped id k hk)⟩
  | rebuilt =>
  have hlen : (s.limiter.rebuild id (s.limiter.effective budget) now).1.objects.length
      = s.limiter.objects.length + 1 := by simp [Limiter.rebuild]
  refine ⟨fun k m hm => ?_, ?_, ?_, fun id' k hk => ?_⟩
  · rw [hholders]
    simp only [Limiter.rebuild] at hm
    rcases Nat.lt_or_ge k s.limiter.objects.length with hlt | hge
    · rw [getElem?_append_left hlt] at hm
      exact h.held k m hm
    · -- nobody has been given the new object
      have hnone : s.holders k = 0 := by
        refine countP_eq_zero.2 fun c hc => ?_
        have hgiven := h.given c hc
        have hne : c.object ≠ k := by omega
        simp [hne]
      rw [getElem?_append_right hge, getElem?_singleton] at hm
      split at hm
      · rw [hnone, ← some.inj hm]
      · cases hm
  · have hperm : (s.limiter.effective budget).Permitted := Budget.clamp_permitted _
    refine forall_mem_append.2 ⟨h.room, forall_mem_singleton.2 ⟨?_, ?_⟩⟩
    · exact le_trans (by simp) hperm.one_le_maxConcurrent
    · exact hperm.maxConcurrent_le
  · rw [hlen]
    refine forall_mem_append.2 ⟨fun c hc => Nat.lt_succ_of_lt (h.given c hc), ?_⟩
    exact forall_mem_singleton.2 (Nat.lt_succ_self _)
  rw [hlen]
  simp only [Limiter.rebuild, update_apply] at hk
  split at hk
  · rw [← some.inj hk]
    exact Nat.lt_succ_self _
  · exact Nat.lt_succ_of_lt (h.mapped id' k hk)

/-- **Every step keeps the semaphores sound.** -/
theorem slotted_step (h : Slotted s) (hs : LimiterStep s a t) : Slotted t := by
  cases hs with
  | acquire => exact slotted_acquire h _ _ _
  | @slot i c ml hc hp hml hroom =>
    have hslots := h.room ml (mem_of_getElem? hml)
    refine slotted_moveWith h hc hml ?_ ⟨by push_cast; omega, hslots.2⟩
    simp [Acquire.holds, hp]
  | @take i now c ml r hc hp hml hr =>
    refine slotted_moveWith h hc hml ?_ (h.room ml (mem_of_getElem? hml))
    have hbefore : c.holds = true := by rcases hp with hp | hp <;> simp [Acquire.holds, hp]
    rw [hbefore]
    cases r.1.2 <;> rfl
  | leave hc hp => exact slotted_move h hc (by simp [Acquire.holds, hp])
  | @giveBack _ i c ml p ha hc hml =>
    have hslots := h.room ml (mem_of_getElem? hml)
    have hbefore : c.holds = true := by
      rcases ha with ⟨-, hp, -⟩ | ⟨-, hp, -⟩ <;> simp [Acquire.holds, hp]
    have hafter : ({ c with phase := p } : Acquire).holds = false := by
      rcases ha with ⟨-, -, rfl⟩ | ⟨-, -, rfl⟩ <;> rfl
    have hpos := held_pos h hc hbefore hml
    refine slotted_moveWith h hc hml ?_ ⟨by push_cast [hpos]; omega, hslots.2⟩
    rw [hbefore, hafter]
    simp only [Bool.toNat_true, Bool.toNat_false]
    omega
  | again => exact h
  | forget =>
  refine ⟨h.held, h.room, h.given, fun id' k hk => ?_⟩
  simp only [Limiter.forget, update_apply] at hk
  split at hk
  · cases hk
  · exact h.mapped id' k hk

/-! ## A mailbox whose semaphore is not replaced under its users -/

def Acquires.idle (s : Acquires) (id : Bytes) : Prop :=
  ∀ c ∈ s.calls, c.mailboxID = id → c.over = true

/-- The step does not replace this mailbox's limiter while a call uses it. -/
def Undisturbed (id : Bytes) (s : Acquires) : LimiterAct → Prop
  | .acquire id' budget _ => id' = id → s.idle id ∨
      ∃ k, s.limiter.mailbox id = some k ∧
        (s.limiter.objects[k]?).any (·.fits (s.limiter.effective budget)) = true
  | .forget id' => id' = id → s.idle id
  | _ => True

/-- Every call for this mailbox that is not over uses the object the map has. -/
def Undivided (id : Bytes) (s : Acquires) : Prop :=
  ∀ c ∈ s.calls, c.mailboxID = id → c.over = false → s.limiter.mailbox id = some c.object

variable {id : Bytes}

theorem undivided_move (h : Undivided id s) (hc : s.calls[i]? = some c) (hover : c.over = false)
    (hcalls : t.calls = s.calls.set i { c with phase := p })
    (hmap : t.limiter.mailbox = s.limiter.mailbox) : Undivided id t := by
  unfold Undivided
  rw [hcalls, hmap]
  exact forall_mem_set h fun hid _ => h c (mem_of_getElem? hc) hid hover

theorem undivided_acquire {id' : Bytes} {budget : Budget} {now : Int} (h : Undivided id s)
    (hok : Undisturbed id s (.acquire id' budget now)) :
    Undivided id { limiter := (s.limiter.forMailbox id' budget now).1,
                   calls := s.calls ++
                     [{ mailboxID := id', object := (s.limiter.forMailbox id' budget now).2 }] } := by
  have hr := forMailbox_cases s.limiter id' budget now
  generalize s.limiter.forMailbox id' budget now = r at hr
  cases hr with
  | kept hk =>
    refine forall_mem_append.2 ⟨h, forall_mem_singleton.2 fun hid _ => ?_⟩
    rw [← show id' = id from hid]
    exact hk
  | rebuilt hnew =>
  refine forall_mem_append.2 ⟨fun c hc hid hover => ?_, ?_⟩
  · by_cases heq : id' = id
    · -- a replaced object had no users
      rcases hok heq with hidle | ⟨k, hk, hfits⟩
      · exact absurd (hidle c hc hid) (by simp [hover])
      rw [heq] at hnew
      simp [hnew k hk] at hfits
    · show update s.limiter.mailbox id' _ id = some c.object
      rw [update_of_ne (Ne.symm heq)]
      exact h c hc hid hover
  refine forall_mem_singleton.2 fun hid _ => ?_
  rw [← show id' = id from hid]
  exact update_self ..

theorem undivided_step (h : Undivided id s) (hok : Undisturbed id s a) (hs : LimiterStep s a t) :
    Undivided id t := by
  cases hs with
  | acquire => exact undivided_acquire h hok
  | slot hc hp => exact undivided_move h hc (by simp [Acquire.over, hp]) rfl rfl
  | take hc hp =>
    exact undivided_move h hc (by rcases hp with hp | hp <;> simp [Acquire.over, hp]) rfl rfl
  | leave hc hp => exact undivided_move h hc (by simp [Acquire.over, hp]) rfl rfl
  | giveBack ha hc =>
    refine undivided_move h hc ?_ rfl rfl
    rcases ha with ⟨-, hp, -⟩ | ⟨-, hp, -⟩ <;> simp [Acquire.over, hp]
  | again => exact h
  | @forget id' =>
  intro c hc hid hover
  by_cases heq : id' = id
  · exact absurd (hok heq c hc hid) (by simp [hover])
  show update s.limiter.mailbox id' none id = some c.object
  rw [update_of_ne (Ne.symm heq)]
  exact h c hc hid hover

/-- With one semaphore in use, the mailbox has at most as many deliveries in flight
as it has slots. -/
theorem inFlight_le_holders (h : Undivided id s) {k : Nat} (hk : s.limiter.mailbox id = some k) :
    s.inFlight id ≤ s.holders k := by
  refine countP_mono_left fun c hc hcount => ?_
  simp only [Bool.and_eq_true, decide_eq_true_eq] at hcount ⊢
  have hobject := h c hc hcount.2 (by simp [Acquire.over, hcount.1])
  exact ⟨by simp [Acquire.holds, hcount.1], some.inj (hobject.symm.trans hk)⟩

/-- **A mailbox stays within Exchange's concurrency limit as long as its limiter is
replaced only when no call uses it.** For any defaults, in every run in which no
call for the mailbox that comes with another effective budget, and no `Forget` of
it, meets a call that still waits or holds a slot, at most three deliveries of
the mailbox are in flight. -/
theorem in_flight_le (defaults : Budget) (id : Bytes) {s : Acquires}
    (h : Reach limiterStep (Undisturbed id) (.init defaults) s) :
    (s.inFlight id : Int) ≤ exchangeConcurrentConnections := by
  have hinv : Slotted s ∧ Undivided id s := by
    refine Reach.invariant (I := fun s => Slotted s ∧ Undivided id s)
      ⟨slotted_init defaults, fun c hc => absurd hc not_mem_nil⟩ ?_ h
    intro u a v ⟨hslot, hdiv⟩ hok hs
    have hstep := limiterStep_cases hs
    exact ⟨slotted_step hslot hstep, undivided_step hdiv hok hstep⟩
  obtain ⟨hslot, hdiv⟩ := hinv
  rcases Nat.eq_zero_or_pos (s.inFlight id) with hzero | hpos
  · rw [hzero]
    decide
  obtain ⟨c, hc, hcount⟩ := countP_pos_iff.1 hpos
  simp only [Bool.and_eq_true, decide_eq_true_eq] at hcount
  have hk := hdiv c hc hcount.2 (by simp [Acquire.over, hcount.1])
  obtain ⟨ml, hml⟩ : ∃ ml, s.limiter.objects[c.object]? = some ml :=
    ⟨_, getElem?_eq_getElem (hslot.given c hc)⟩
  have hroom := hslot.room ml (mem_of_getElem? hml)
  have hle := inFlight_le_holders hdiv hk
  rw [← hslot.held _ _ hml] at hle
  omega

def threeAtOnce (perMinute : Int) : Budget := ⟨perMinute, 3⟩

/-- One call of `Acquire`, the `i`-th, from its beginning to its return. -/
def acquired (i : Nat) (budget : Budget) : List LimiterAct :=
  [.acquire (ascii "b") budget 0, .slot i, .take i 0]

def threeInFlight : List LimiterAct :=
  acquired 0 (threeAtOnce 20) ++ acquired 1 (threeAtOnce 20) ++ acquired 2 (threeAtOnce 20)

instance (id : Bytes) (s : Acquires) : (a : LimiterAct) → Decidable (Undisturbed id s a)
  | .acquire id' budget _ => inferInstanceAs (Decidable (id' = id →
      (∀ c ∈ s.calls, c.mailboxID = id → c.over = true) ∨ ∃ k ∈ s.limiter.mailbox id,
        (s.limiter.objects[k]?).any (·.fits (s.limiter.effective budget)) = true))
  | .forget id' =>
    inferInstanceAs (Decidable (id' = id → ∀ c ∈ s.calls, c.mailboxID = id → c.over = true))
  | .slot _ | .take _ _ | .cancel _ | .release _ => isTrue trivial

/-- Three calls with the same budget: the limit is reached. -/
theorem in_flight_le_three :
    ∃ s, runActions limiterStep (.init ⟨30, 2⟩) threeInFlight = some s ∧
      s.inFlight (ascii "b") = 3 ∧
      (s.inFlight (ascii "b") : Int) ≤ exchangeConcurrentConnections := by
  have hthree : (runActions limiterStep (.init ⟨30, 2⟩) threeInFlight).map
      (·.inFlight (ascii "b")) = some 3 := by decide +kernel
  obtain ⟨s, hs, hcount⟩ := map_eq_some_iff.1 hthree
  exact ⟨s, hs, hcount,
    in_flight_le ⟨30, 2⟩ (ascii "b") (reach_of_runActions _ (by decide +kernel) hs)⟩

/-- Three deliveries are in flight when the mailbox's rate is changed; the next
call finds an empty semaphore, and a fourth is in flight. -/
theorem changed_budget_exceeds : ((runActions limiterStep (.init ⟨30, 2⟩)
        (threeInFlight ++ acquired 3 (threeAtOnce 10))).map
      (·.inFlight (ascii "b"))) = some 4 := by
  decide +kernel

end SmtpProxy.Queue
