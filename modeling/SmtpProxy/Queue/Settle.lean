import SmtpProxy.Queue.Deliver

/-!
# When a delivery settles its message

Three laws of one execution of `deliver`, each with the condition under which the
code keeps it.

* A message is failed for good only for a reason that lasts (`Excused`). The
  code turns every error of `prepare` into a permanent one, so a load that
  fails for a passing reason kills the message: the law holds exactly when no
  load fails otherwise than by a missing row, or the write does not happen.
* A message the upstream accepted ends `sent`. The outcome is written under the
  runner's own context, so a shutdown between the acceptance and the write loses
  it, and the message goes out again when its lease has expired.
* The delivery metric tells what was written. Its label only looks at the error,
  so it says `deferred` where the message was given up.
-/

namespace SmtpProxy.Queue

open Lib Store Transport Option

/-! ## Loads -/

inductive LoadFails (env : Env) (ctx : Ctx) (m : Store.Message) : Err → Prop where
  | mailbox {id : Bytes} {e : Err} (hid : m.mailboxID = some id)
      (he : env.getMailbox ctx id = .error e) : LoadFails env ctx m e
  | credential {id : Bytes} {mb : Mailbox} {e : Err} (hid : m.mailboxID = some id)
      (hmb : env.getMailbox ctx id = .ok mb) (hen : mb.enabled = true)
      (he : env.getCredential ctx mb.oauthCredentialID = .error e) : LoadFails env ctx m e
  | body {id : Bytes} {mb : Mailbox} {c : OAuthCredential} {e : Err} (hid : m.mailboxID = some id)
      (hmb : env.getMailbox ctx id = .ok mb) (hen : mb.enabled = true)
      (hc : env.getCredential ctx mb.oauthCredentialID = .ok c)
      (he : env.getBody ctx m.id = .error e) : LoadFails env ctx m e

def Disabled (env : Env) (ctx : Ctx) (m : Store.Message) : Prop :=
  ∃ id mb, m.mailboxID = some id ∧ env.getMailbox ctx id = .ok mb ∧ mb.enabled = false

variable {env : Env} {ctx : Ctx} {m : Store.Message}

theorem prepare_error {e : Err} (h : prepare env ctx m = .error e) :
    m.mailboxID = none ∨ (∃ e', LoadFails env ctx m e') ∨ Disabled env ctx m := by
  unfold prepare at h
  split at h
  · next hid => exact .inl hid
  next id hid =>
  right
  split at h
  · next he => exact .inl ⟨_, .mailbox hid he⟩
  next mb hmb =>
  split at h
  · next hen => exact .inr ⟨id, mb, hid, hmb, by simpa using hen⟩
  next hen =>
  have hen : mb.enabled = true := by simpa using hen
  split at h
  · next he => exact .inl ⟨_, .credential hid hmb hen he⟩
  next c hc =>
  split at h
  · next he => exact .inl ⟨_, .body hid hmb hen hc he⟩
  · cases h

/-- A failed load is an error of `prepare`, and neither a missing mailbox id nor a
disabled mailbox, and there is only one. -/
theorem LoadFails.spec {e : Err} (h : LoadFails env ctx m e) :
    (∃ e', prepare env ctx m = .error e') ∧ m.mailboxID ≠ none ∧ ¬ Disabled env ctx m ∧
      ∀ e', LoadFails env ctx m e' → e' = e := by
  cases h with
  | mailbox hid he =>
    refine ⟨⟨_, by simp only [prepare, hid, he]; rfl⟩, by simp [hid], ?_, ?_⟩
    · rintro ⟨id, mb, hid', hmb, -⟩
      simp_all
    intro e' h'
    cases h' <;> simp_all
  | credential hid hmb hen he =>
    refine ⟨⟨_, by simp only [prepare, hid, hmb, hen, he]; rfl⟩, by simp [hid], ?_, ?_⟩
    · rintro ⟨id, mb, hid', hmb', hdis⟩
      simp_all
    intro e' h'
    cases h' <;> simp_all
  | body hid hmb hen hc he =>
  refine ⟨⟨_, by simp only [prepare, hid, hmb, hen, hc, he]; rfl⟩, by simp [hid], ?_, ?_⟩
  · rintro ⟨id, mb, hid', hmb', hdis⟩
    simp_all
  intro e' h'
  cases h' <;> simp_all

/-! ## Failing a message for good -/

/-- A reason that lasts: one for which the message may be given up. -/
inductive Excused (r : Runner) (env : Env) (ctx : Ctx) (m : Store.Message) : Prop where
  | noMailbox (h : m.mailboxID = none)
  | missing {e : Err} (h : LoadFails env ctx m e) (hnf : e.is errNotFound = true)
  | disabled (h : Disabled env ctx m)
  | unroutable {p : Transport.Message} (hp : prepare env ctx m = .ok p)
      (hb : r.transports p.mailbox.transport = none)
  | permanent {p : Transport.Message} {b : Backend} {e : Err} (hp : prepare env ctx m = .ok p)
      (hb : r.transports p.mailbox.transport = some b) (hs : b.send ctx p = some e)
      (hperm : isPermanent e = true)
  | exhausted {p : Transport.Message} {b : Backend} {e : Err} (hp : prepare env ctx m = .ok p)
      (hb : r.transports p.mailbox.transport = some b) (hs : b.send ctx p = some e)
      (hgive : r.backoff.nextAttemptAfter env.random env.now (m.attempts + 1) m.receivedAt
        (retryAfter e) = none)

/-- The outcome write of one execution, on the tables `db`. -/
def deliverAndCommit (r : Runner) (env : Env) (ctx : Ctx) (m : Store.Message) (db : DB)
    (now : Int) : Except Err Unit × DB :=
  commit ctx db now m.id r.workerID (deliver r env ctx m).outcome

def Writes (r : Runner) (env : Env) (ctx : Ctx) (m : Store.Message) (db : DB) (now : Int)
    (status : MessageStatus) : Prop :=
  (deliver r env ctx m).outcome.isSome ∧ (deliverAndCommit r env ctx m db now).1 = .ok () ∧
    ∃ row, (deliverAndCommit r env ctx m db now).2.get m.id = some row ∧ row.status = status

/-- Temporary trouble does not kill the message: `failed` is written only for a
lasting reason, and any other error leaves it deferred or under its lease. -/
structure TroubleLaw (r : Runner) (env : Env) (ctx : Ctx) (m : Store.Message) (db : DB)
    (now : Int) : Prop where
  failed : Writes r env ctx m db now .failed → Excused r env ctx m
  otherwise : ¬ Excused r env ctx m → (deliver r env ctx m).sendResult ≠ some none →
    Writes r env ctx m db now .deferred ∨
      (deliverAndCommit r env ctx m db now).2.get m.id = db.get m.id

theorem writes_iff {r : Runner} {db : DB} {now : Int} {status : MessageStatus} {w : Outcome}
    (hw : (deliver r env ctx m).outcome = some w) :
    Writes r env ctx m db now status ↔
      w.status = status ∧ ctx.done .outcome = false ∧ Owns db m.id r.workerID := by
  unfold Writes deliverAndCommit
  rw [hw, commit_ok_iff]
  constructor
  · rintro ⟨-, hok, row, hrow, hst⟩
    obtain ⟨row', -, hrow'⟩ := commit_row (commit_ok_iff.2 hok)
    rw [hrow] at hrow'
    rw [some.inj hrow', w.set_status] at hst
    exact ⟨hst, hok⟩
  rintro ⟨hst, hok⟩
  obtain ⟨row, -, hrow⟩ := commit_row (commit_ok_iff (w := w).2 hok)
  exact ⟨rfl, hok, _, hrow, by rw [w.set_status, hst]⟩

/-- Where no load fails for a passing reason, the execution's outcome is excused
or temporary. -/
theorem outcome_excused {r : Runner} {w : Outcome}
    (hload : ∀ e, LoadFails env ctx m e → e.is errNotFound = true)
    (hw : (deliver r env ctx m).outcome = some w) :
    (w.status = .sent ∧ (deliver r env ctx m).sendResult = some none) ∨ w.status = .deferred ∨
      Excused r env ctx m := by
  have hcourse := deliver_course r env ctx m
  generalize deliver r env ctx m = d at hcourse hw ⊢
  cases hcourse with
  | unprepared hp =>
    right; right
    rcases prepare_error hp with hid | ⟨e, he⟩ | hdis
    · exact .noMailbox hid
    · exact .missing he (hload e he)
    · exact .disabled hdis
  | shutDown => cases hw
  | unroutable hp hb => exact .inr (.inr (.unroutable hp hb))
  | accepted =>
    rw [← some.inj hw]
    exact .inl ⟨rfl, rfl⟩
  | refused hp hb hs =>
  right
  rw [← some.inj hw]
  rcases recordFailure_cases r.backoff env.random env.now m _ with ⟨-, hperm | hgive⟩ | hdef
  · exact .inr (.permanent hp hb hs hperm)
  · exact .inr (.exhausted hp hb hs hgive)
  · exact .inl hdef

theorem not_excused_of_loadFails {r : Runner} {e : Err} (h : LoadFails env ctx m e)
    (hnf : e.is errNotFound ≠ true) : ¬ Excused r env ctx m := by
  obtain ⟨⟨e', hp⟩, hid, hdis, huniq⟩ := h.spec
  rintro (hnone | ⟨h', hnf'⟩ | hd | ⟨hp', -⟩ | ⟨hp', -, -, -⟩ | ⟨hp', -, -, -⟩)
  · exact hid hnone
  · exact hnf (huniq _ h' ▸ hnf')
  · exact hdis hd
  all_goals cases hp.symm.trans hp'

/-- **A message is failed only for lasting reasons, exactly when no load fails for
a passing one** — or the failure cannot be recorded. -/
theorem trouble_law_iff (r : Runner) (env : Env) (ctx : Ctx) (m : Store.Message) (db : DB)
    (now : Int) :
    TroubleLaw r env ctx m db now ↔
      (∀ e, LoadFails env ctx m e → e.is errNotFound = true) ∨ ctx.done .outcome = true ∨
        ¬ Owns db m.id r.workerID := by
  constructor
  · intro hlaw
    by_contra hcond
    simp only [not_or, not_forall, not_not, Bool.not_eq_true] at hcond
    obtain ⟨⟨e, he, hnf⟩, hctx, hown⟩ := hcond
    obtain ⟨⟨e', hp⟩, -⟩ := he.spec
    have hw : (deliver r env ctx m).outcome
        = some (recordFailure r.backoff env.random env.now m (prepareFailure e')) := by
      simp [deliver, hp]
    refine not_excused_of_loadFails he (by simp [hnf]) (hlaw.failed ((writes_iff hw).2 ?_))
    refine ⟨?_, hctx, hown⟩
    rw [prepareFailure, recordFailure_permanent (isPermanent_newPermanent ..)]
    rfl
  intro hcond
  -- either the outcome is excused or temporary, or nothing is written at all
  cases hw : (deliver r env ctx m).outcome with
  | none =>
    refine ⟨fun h => absurd h.1 (by simp [hw]), fun _ _ => .inr ?_⟩
    simp [deliverAndCommit, hw, commit]
  | some w =>
  by_cases hok : (commit ctx db now m.id r.workerID (some w)).1 = .ok ()
  · obtain ⟨hctx, hown⟩ := commit_ok_iff.1 hok
    have hload : ∀ e, LoadFails env ctx m e → e.is errNotFound = true := by
      rcases hcond with h | h | h
      · exact h
      · simp [h] at hctx
      · exact absurd hown h
    rcases outcome_excused hload hw with ⟨hst, hsent⟩ | hst | hex
    · refine ⟨fun h => ?_, fun _ hsend => absurd hsent hsend⟩
      have := ((writes_iff hw).1 h).1
      exact absurd (hst.symm.trans this) (by decide)
    · refine ⟨fun h => ?_, fun _ _ => .inl ((writes_iff hw).2 ⟨hst, hctx, hown⟩)⟩
      have := ((writes_iff hw).1 h).1
      exact absurd (hst.symm.trans this) (by decide)
    · exact ⟨fun _ => hex, fun hno => absurd hex hno⟩
  refine ⟨fun h => absurd h.2.1 (by rw [deliverAndCommit, hw]; exact hok), fun _ _ => ?_⟩
  right
  rw [deliverAndCommit, hw]
  exact commit_unchanged hok m.id

/-- A runner with the SMTP transport, whose upstream accepts everything. -/
def relayRunner : Runner where
  workerID := ascii "w"
  transports := fun
    | .smtp => some ⟨ascii "smtp", fun ctx m =>
        (Relay.send ⟨[], id⟩ { token := fun _ => .ok (ascii "t") } ctx m).2⟩
    | .graph => none
  backoff := {}

def claimedMessage : Store.Message where
  id := ascii "m"
  mailboxID := some (ascii "b")
  recipients := [ascii "r@y"]
  status := .sending
  leaseOwner := some (ascii "w")
  leaseExpiresAt := some 10

def claimedDB : DB := ⟨⟨[claimedMessage], by simp⟩, ⟨[⟨ascii "m", ascii "x"⟩], by simp⟩⟩

/-- A database timeout while the mailbox is loaded fails the message for good. -/
theorem load_timeout_kills : (deliverAndCommit relayRunner
        { healthyEnv with mailbox := fun _ => .error (.other (.new (ascii "i/o timeout"))) }
        {} claimedMessage claimedDB 5).1 = .ok () ∧
    ((deliverAndCommit relayRunner
        { healthyEnv with mailbox := fun _ => .error (.other (.new (ascii "i/o timeout"))) }
        {} claimedMessage claimedDB 5).2.get (ascii "m")).map Store.Message.status
      = some .failed ∧
    ¬ Excused relayRunner
        { healthyEnv with mailbox := fun _ => .error (.other (.new (ascii "i/o timeout"))) }
        {} claimedMessage := by
  refine ⟨rfl, by decide, ?_⟩
  exact not_excused_of_loadFails (.mailbox (show _ = some (ascii "b") from rfl) rfl) (by decide)

/-! ## Recording an acceptance -/

/-- The message is sent, and while its row is kept no claim returns it. -/
def SentForGood (o : RowOrder) (s : QueueState) (k : Bytes) : Prop :=
  (∃ row, s.db.get k = some row ∧ row.status = .sent) ∧
    ∀ t, Reach (queueStep o) (KeepsRow o k) s t → ∀ now owner limit leaseFor,
      ¬ HandsOut o t.db now k (.claim owner limit leaseFor)

theorem Outcome.exec_queueInv {db : DB} {now : Int} {id owner : Bytes} {w : Outcome}
    (o : RowOrder) (h : QueueInv db) : QueueInv (w.exec db now id owner).2 := by
  rw [w.exec_op o]
  exact Store.exec_queueInv h

/-- **What the upstream accepted is recorded, exactly when the context is not done
before the outcome is written.** Recorded, the message is never claimed again. -/
theorem accepted_is_recorded_iff (o : RowOrder) {r : Runner} {env : Env} {ctx : Ctx}
    {m : Store.Message} {db : DB} {now : Int} (hinv : QueueInv db)
    (hsent : (deliver r env ctx m).sendResult = some none) (hown : Owns db m.id r.workerID) :
    ((deliverAndCommit r env ctx m db now).1 = .ok () ∧
        SentForGood o ⟨now, (deliverAndCommit r env ctx m db now).2⟩ m.id) ↔
      ctx.done .outcome = false := by
  have hw : (deliver r env ctx m).outcome = some .sent := by
    have hcourse := deliver_course r env ctx m
    generalize deliver r env ctx m = d at hcourse hsent ⊢
    cases hcourse with
    | accepted => rfl
    | refused | unprepared | shutDown | unroutable => cases hsent
  unfold deliverAndCommit
  rw [hw]
  constructor
  · rintro ⟨hok, -⟩
    exact (commit_ok_iff.1 hok).1
  intro hctx
  have hok : (commit _ _ now _ _ (some .sent)).1 = .ok () := commit_ok_iff.2 ⟨hctx, hown⟩
  obtain ⟨row, -, hrow⟩ := commit_row hok
  have hinv' : QueueInv (commit ctx db now m.id r.workerID (some .sent)).2 := by
    simp only [commit, hctx, Bool.false_eq_true, if_false]
    exact Outcome.exec_queueInv o hinv
  exact ⟨hok, ⟨_, hrow, rfl⟩, fun t ht => sent_not_handedOut hinv' hrow rfl ht⟩

theorem claimedDB_queueInv : QueueInv claimedDB where
  lease := by
    intro k m h
    obtain rfl : m = claimedMessage := by
      simpa [claimedDB] using Table.mem_of_get h
    exact .inl (by decide)
  body := by
    intro k
    by_cases hk : ascii "m" = k
    · subst hk
      rfl
    · simp [DB.get, claimedDB, Table.get, claimedMessage, hk]

/-- Without a shutdown the accepted message is recorded. -/
theorem accepted_is_recorded_undisturbed :
    ((deliverAndCommit relayRunner healthyEnv {} claimedMessage claimedDB 5).1 = .ok () ∧
        SentForGood byNextAttempt
          ⟨5, (deliverAndCommit relayRunner healthyEnv {} claimedMessage claimedDB 5).2⟩
          claimedMessage.id) ↔
      Ctx.done {} .outcome = false :=
  accepted_is_recorded_iff byNextAttempt claimedDB_queueInv (by decide) ⟨claimedMessage, rfl, rfl⟩

/-- A shutdown during the SMTP dialogue: the upstream accepts the message, the
outcome is not written, and once the lease has expired another worker is handed
the same message. -/
theorem shutdown_resends :
    (deliver relayRunner healthyEnv ⟨some .dialogue⟩ claimedMessage).sendResult = some none ∧
    Owns claimedDB (ascii "m") relayRunner.workerID ∧
    (deliverAndCommit relayRunner healthyEnv ⟨some .dialogue⟩ claimedMessage claimedDB 5).2.get
      (ascii "m") = some claimedMessage ∧
    HandsOut byNextAttempt
      (deliverAndCommit relayRunner healthyEnv ⟨some .dialogue⟩ claimedMessage claimedDB 5).2
      11 (ascii "m") (.claim (ascii "v") 1 10) :=
  ⟨by decide, ⟨claimedMessage, rfl, rfl⟩, rfl, ⟨_, rfl, by decide⟩⟩

/-! ## The metric -/

def DeliveryLabel.status : DeliveryLabel → MessageStatus
  | .sent => .sent
  | .failed => .failed
  | .deferred => .deferred

def MetricTells (r : Runner) (env : Env) (ctx : Ctx) (m : Store.Message) (db : DB) (now : Int) :
    Prop :=
  ∃ label row, (deliver r env ctx m).metric = some label ∧
    (deliverAndCommit r env ctx m db now).2.get m.id = some row ∧ row.status = label.status

def GivenUp (r : Runner) (env : Env) (m : Store.Message) (e : Err) : Prop :=
  r.backoff.nextAttemptAfter env.random env.now (m.attempts + 1) m.receivedAt (retryAfter e) = none

theorem recordFailure_status (b : Backoff) (random : ℚ) (now : Int) (m : Store.Message) (e : Err) :
    (recordFailure b random now m e).status = .failed ↔ isPermanent e = true ∨
      b.nextAttemptAfter random now (m.attempts + 1) m.receivedAt (retryAfter e) = none := by
  unfold recordFailure
  dsimp only
  split
  · next hperm => exact ⟨fun _ => .inl hperm, fun _ => rfl⟩
  next hperm =>
  split
  · next hnone => exact ⟨fun _ => .inr hnone, fun _ => rfl⟩
  next hsome =>
  refine ⟨fun h => absurd h (by simp [Outcome.status]), ?_⟩
  rintro (h | h)
  · exact absurd h hperm
  · cases hsome.symm.trans h

/-- The label of a refused delivery is the status that is written, unless a passing error
was the last. -/
theorem outcomeFor_status_iff (r : Runner) (env : Env) (m : Store.Message) (e : Err) :
    (recordFailure r.backoff env.random env.now m e).status = (outcomeFor e).status ↔
      (isPermanent e = false → ¬ GivenUp r env m e) := by
  have hfailed := recordFailure_status r.backoff env.random env.now m e
  have hcases := recordFailure_cases r.backoff env.random env.now m e
  unfold outcomeFor
  cases hperm : isPermanent e with
  | true => exact ⟨fun _ h => absurd h (by simp), fun _ => hfailed.2 (.inl hperm)⟩
  | false =>
  rw [hperm] at hfailed
  show _ = MessageStatus.deferred ↔ _
  constructor
  · intro hdefer _ hgiven
    have := hfailed.2 (.inr hgiven)
    exact absurd (hdefer.symm.trans this) (by decide)
  intro hleft
  obtain ⟨hst, -⟩ | hdefer := hcases
  · obtain h | h := hfailed.1 hst
    · cases h
    · exact absurd h (hleft rfl)
  · exact hdefer

/-- **The metric tells what was recorded, exactly unless a passing error used up the last
attempt or the time.** -/
theorem metric_tells_iff {r : Runner} {env : Env} {ctx : Ctx} {m : Store.Message} {db : DB} {now : Int}
    {result : Option Err} (hsend : (deliver r env ctx m).sendResult = some result)
    (hok : (deliverAndCommit r env ctx m db now).1 = .ok ()) :
    MetricTells r env ctx m db now ↔
      ∀ e, result = some e → isPermanent e = false → ¬ GivenUp r env m e := by
  -- what the label has to agree with is the status of the outcome
  have hstatus : ∀ {w : Outcome} {label : DeliveryLabel}, (deliver r env ctx m).outcome = some w →
      (deliver r env ctx m).metric = some label →
      (MetricTells r env ctx m db now ↔ w.status = label.status) := by
    intro w label hw hlabel
    have hwrite : deliverAndCommit r env ctx m db now = commit ctx db now m.id r.workerID (some w) := by
      rw [deliverAndCommit, hw]
    rw [hwrite] at hok
    obtain ⟨before, -, hrow⟩ := commit_row hok
    constructor
    · rintro ⟨label', row, hlabel', hrow', hsame⟩
      rw [hwrite, hrow] at hrow'
      rw [← some.inj hrow', w.set_status] at hsame
      rwa [← some.inj (hlabel.symm.trans hlabel')] at hsame
    intro hsame
    refine ⟨label, _, hlabel, hwrite ▸ hrow, ?_⟩
    rw [w.set_status, hsame]
  have hcourse := deliver_course r env ctx m
  generalize deliver r env ctx m = d at hcourse hsend hstatus
  cases hcourse with
  | unprepared | shutDown | unroutable => cases hsend
  | accepted =>
    cases hsend
    rw [hstatus rfl rfl]
    exact ⟨fun _ e he => absurd he (by simp), fun _ => rfl⟩
  | @refused _ _ e _ _ _ =>
  cases hsend
  rw [hstatus rfl rfl, outcomeFor_status_iff]
  constructor
  · intro h e' he'
    rwa [← some.inj he']
  intro h
  exact h e rfl

/-- A runner that gives up after so many attempts, and whose upstream is busy. -/
def busyRunner (maxAttempts : Int) : Runner where
  workerID := ascii "w"
  transports := fun _ => some ⟨ascii "smtp", fun _ _ =>
    some (newTransient (ascii "4.7.500") (ascii "Server busy") none)⟩
  backoff := { maxAttempts }

/-- An accepted message is counted as sent, and one that is put off as put off. -/
theorem outcomes_counted : MetricTells relayRunner healthyEnv {} claimedMessage claimedDB 5 ∧
    MetricTells (busyRunner 8) healthyEnv {} claimedMessage claimedDB 5 := by
  constructor
  · exact (metric_tells_iff (show (deliver relayRunner healthyEnv {} claimedMessage).sendResult =
      some none by decide) rfl).2 fun e he => absurd he (by simp)
  refine (metric_tells_iff (show (deliver (busyRunner 8) healthyEnv {} claimedMessage).sendResult =
    some (some (newTransient (ascii "4.7.500") (ascii "Server busy") none)) by decide) rfl).2 ?_
  intro e he _
  obtain rfl := some.inj he
  exact nofun

/-- **A message that is given up is counted as put off.** -/
theorem givenUp_counted_deferred :
    (deliver (busyRunner 1) healthyEnv {} claimedMessage).metric = some .deferred ∧
    (deliverAndCommit (busyRunner 1) healthyEnv {} claimedMessage claimedDB 5).1 = .ok () ∧
    ((deliverAndCommit (busyRunner 1) healthyEnv {} claimedMessage claimedDB 5).2.get
      (ascii "m")).map Store.Message.status = some .failed :=
  ⟨by decide, rfl, by decide⟩

end SmtpProxy.Queue
