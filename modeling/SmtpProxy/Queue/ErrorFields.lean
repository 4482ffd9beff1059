import SmtpProxy.Queue.Exclusion

/-!
# The error columns of a message

Each outcome write sets its own part of the error columns. `Fail` and `Defer` set
all three, `MarkSent` clears the two texts and leaves `last_error_permanent` as it
is, and no other statement touches them. So the columns agree with the status
except in one history: a message that failed for good, was requeued by an operator
and then got through is `sent` with a permanent error (`requeued_then_sent`).
-/

namespace SmtpProxy.Queue

open Lib Store Transport Option

/-! ## What the columns should say -/

/-- The columns that every outcome write sets agree with the status. -/
structure OutcomeFields (m : Store.Message) : Prop where
  sent : m.status = .sent → m.lastError = [] ∧ m.lastErrorCode = []
  failed : m.status = .failed → m.lastErrorPermanent = true
  deferred : m.status = .deferred → m.lastErrorPermanent = false

structure ErrorFields (db : DB) : Prop where
  outcome : ∀ k m, db.get k = some m → OutcomeFields m
  sent : ∀ k m, db.get k = some m → m.status = .sent → m.lastErrorPermanent = false

/-- The operation is one that callers make: a failure is one that `recordFailure`
writes, for some message and some error. -/
def Driven : Op → Prop
  | .defer _ _ f retryAt => ∃ b random now m e, recordFailure b random now m e = .deferred f retryAt
  | .fail _ _ f => ∃ b random now m e, recordFailure b random now m e = .failed f
  | _ => True

def queueOp (o : RowOrder) (db : DB) (a : Int × Op) : Option DB := some (exec o db a.1 a.2).2

/-- The operation does not send a message whose last failure was final. -/
def Clean (db : DB) (a : Int × Op) : Prop :=
  ∀ id owner, a.2 = .markSent id owner → ∀ m, db.get id = some m → m.leaseOwner = some owner →
    m.lastErrorPermanent = false

/-! ## One step -/

variable {m : Store.Message}

theorem recordFailure_failed {b : Backoff} {random : ℚ} {now : Int} {e : Err} {f : Failure}
    (h : recordFailure b random now m e = .failed f) : f.permanent = true := by
  unfold recordFailure at h
  dsimp only at h
  split at h
  · next hperm =>
    obtain ⟨t, ht, htp⟩ := (any_eq_true _ _).1 hperm
    rw [← Outcome.failed.inj h, asFailure, ht]
    exact htp
  split at h
  · rw [← Outcome.failed.inj h]
  · cases h

variable {m' : Store.Message}

theorem RowStep.outcomeFields {now : Int} {taken : Bool} {op : Op} (hdriven : Driven op)
    (hm : OutcomeFields m) (h : RowStep now taken m op (some m')) : OutcomeFields m' := by
  cases h with
  | same => exact hm
  | claimed => constructor <;> exact fun hs => absurd hs (by simp [leaseTo])
  | extended => exact ⟨hm.sent, hm.failed, hm.deferred⟩
  | sent => exact ⟨fun _ => ⟨rfl, rfl⟩, fun hs => absurd hs (by simp [sentSet]),
      fun hs => absurd hs (by simp [sentSet])⟩
  | deferred => exact ⟨fun hs => absurd hs (by simp [deferSet]),
      fun hs => absurd hs (by simp [deferSet]), fun _ => rfl⟩
  | failed =>
    obtain ⟨b, random, at_, msg, e, hrec⟩ := hdriven
    exact ⟨fun hs => absurd hs (by simp [failSet]), fun _ => recordFailure_failed hrec,
      fun hs => absurd hs (by simp [failSet])⟩
  | requeued => constructor <;> exact fun hs => absurd hs (by simp [requeueSet])
  | held => constructor <;> exact fun hs => absurd hs (by simp [holdSet])
  | released => constructor <;> exact fun hs => absurd hs (by simp [releaseSet])

/-- A row that is sent after a step was sent before it, or is sent now with the flag it had. -/
theorem RowStep.sent_cases {now : Int} {taken : Bool} {op : Op}
    (h : RowStep now taken m op (some m')) (hs : m'.status = .sent) :
    (m.status = .sent ∧ m'.lastErrorPermanent = m.lastErrorPermanent) ∨
    (∃ owner, op = .markSent m.id owner ∧ m.leaseOwner = some owner) ∧
      m'.lastErrorPermanent = m.lastErrorPermanent := by
  cases h with
  | same => exact .inl ⟨hs, rfl⟩
  | claimed => simp [leaseTo] at hs
  | extended => exact .inl ⟨hs, rfl⟩
  | sent hid hown => exact .inr ⟨⟨_, hid ▸ rfl, hown⟩, rfl⟩
  | deferred => simp [deferSet] at hs
  | failed => simp [failSet] at hs
  | requeued => simp [requeueSet] at hs
  | held => simp [holdSet] at hs
  | released => simp [releaseSet] at hs

variable {o : RowOrder} {db db' : DB} {now : Int} {op : Op}

theorem row_cases {k : Bytes} (h : (exec o db now op).2.get k = some m') :
    (∃ m taken, db.get k = some m ∧ RowStep now taken m op (some m')) ∨
      m'.status = .queued ∧ m'.lastErrorPermanent = false := by
  cases hk : db.get k with
  | some m => exact .inl ⟨m, _, rfl, h ▸ exec_step hk⟩
  | none =>
    obtain ⟨newID, d, rfl⟩ := exec_get_new hk h
    exact .inr ⟨rfl, rfl⟩

theorem outcomeFields_step (hdriven : Driven op) (h : ∀ k m, db.get k = some m → OutcomeFields m) :
    ∀ k m, (exec o db now op).2.get k = some m → OutcomeFields m := by
  intro k m' hm'
  obtain ⟨m, taken, hm, hrow⟩ | ⟨hqueued, -⟩ := row_cases hm'
  · exact RowStep.outcomeFields hdriven (h k m hm) hrow
  · constructor <;> exact fun hs => absurd (hqueued.symm.trans hs) (by simp)

/-- **A step keeps the columns right exactly if it sends no message that failed for good.** -/
theorem errorFields_step_iff (hdriven : Driven op) (h : ErrorFields db) :
    ErrorFields (exec o db now op).2 ↔ Clean db (now, op) := by
  constructor
  · rintro h' id owner rfl m hm hown
    have hsent : (exec o db now (.markSent id owner)).2.get id = some (sentSet now m) := by
      rw [exec_get_some hm, onRow, whenLeased, if_pos ⟨get_id hm, hown⟩]
    have hflag : (sentSet now m).lastErrorPermanent = false := h'.sent id _ hsent rfl
    exact hflag
  intro hclean
  refine ⟨outcomeFields_step hdriven h.outcome, fun k m' hm' hs => ?_⟩
  obtain ⟨m, taken, hm, hrow⟩ | ⟨-, hflag⟩ := row_cases hm'
  · obtain ⟨hsent, hflag⟩ | ⟨⟨owner, hop, hown⟩, hflag⟩ := RowStep.sent_cases hrow hs
    · rw [hflag]
      exact h.sent k m hm hsent
    · rw [hflag]
      exact hclean m.id owner hop m (by rwa [get_id hm]) hown
  · exact hflag

/-! ## Runs -/

theorem errorFields_empty : ErrorFields .empty := by
  constructor <;> exact fun k m h => absurd h (by simp [DB.empty, DB.get])

/-- **The error columns along every run**: a failed and a deferred row say so and a sent row has
no text; the flag of a sent row is right as long as no message is sent whose last failure was
final, and wrong after the first step that does so. -/
theorem error_fields_agree (o : RowOrder) :
    (∀ db, Reach (queueOp o) (fun _ a => Driven a.2) .empty db →
      ∀ k m, db.get k = some m → OutcomeFields m) ∧
    (∀ db, Reach (queueOp o) (fun db a => Driven a.2 ∧ Clean db a) .empty db → ErrorFields db) ∧
    ∀ db, Reach (queueOp o) (fun db a => Driven a.2 ∧ Clean db a) .empty db →
      ∀ now op, Driven op → (ErrorFields (exec o db now op).2 ↔ Clean db (now, op)) := by
  have hclean : ∀ db, Reach (queueOp o) (fun db a => Driven a.2 ∧ Clean db a) .empty db →
      ErrorFields db := by
    intro db h
    refine Reach.invariant errorFields_empty ?_ h
    rintro s ⟨now, op⟩ t hs ⟨hdriven, hok⟩ hstep
    rw [← some.inj hstep]
    exact (errorFields_step_iff hdriven hs).2 hok
  refine ⟨fun db h => ?_, hclean, fun db h now op hdriven => errorFields_step_iff hdriven (hclean db h)⟩
  refine Reach.invariant (I := fun db => ∀ k m, DB.get db k = some m → OutcomeFields m)
    errorFields_empty.outcome ?_ h
  rintro s ⟨now, op⟩ t hs hdriven hstep
  rw [← some.inj hstep]
  exact outcomeFields_step hdriven hs

/-! ## Samples -/

def sentAtOnce : List (Int × Op) :=
  [(0, .enqueue (ascii "m") { recipients := [ascii "r@y"] } (ascii "x")),
    (1, .claim (ascii "a") 1 10), (2, .markSent (ascii "m") (ascii "a"))]

theorem sentAtOnce_agrees : ∃ db, runActions (queueOp byNextAttempt) .empty sentAtOnce = some db ∧
      (db.get (ascii "m")).map (·.status) = some .sent ∧ ErrorFields db := by
  refine ⟨_, rfl, rfl, (error_fields_agree byNextAttempt).2.1 _
    (reach_of_runActions sentAtOnce ⟨⟨trivial, ?_⟩, fun t ht => ⟨⟨trivial, ?_⟩,
      fun u hu => ⟨⟨trivial, ?_⟩, fun _ _ => trivial⟩⟩⟩ rfl)⟩
  · exact fun id owner hop => absurd hop (by simp)
  · exact fun id owner hop => absurd hop (by simp)
  intro id owner hop m hm _
  obtain ⟨rfl, rfl⟩ := Op.markSent.inj hop
  rw [← some.inj hu, ← some.inj ht] at hm
  rw [← some.inj hm]
  rfl

def noMailbox : Env := { healthyEnv with mailbox := fun _ => .error .noRows }

/-- The message fails for good, an operator requeues it, and the second attempt gets through: the
row is sent and still says that its error is permanent. -/
theorem requeued_then_sent : ∃ s, runActions (sysStep byNextAttempt smallFleet) (.init 0)
        [enqueueOne, .tick 1, .claim (ascii "a") 1, .deliver 0 (.load noMailbox {}), .record 0 0,
          .queue (.requeue (ascii "m")), .tick 2, .claim (ascii "a") 1,
          .deliver 1 (.load healthyEnv {}), .deliver 1 .acquire, .deliver 1 (.finish none),
          .record 1 0] = some s ∧
      (s.db.get (ascii "m")).map (fun m => (m.status, m.lastErrorPermanent)) = some (.sent, true) ∧
      ¬ ErrorFields s.db := by
  refine ⟨_, rfl, rfl, fun h => ?_⟩
  exact absurd (h.sent (ascii "m") _ rfl rfl) (by decide)

end SmtpProxy.Queue
