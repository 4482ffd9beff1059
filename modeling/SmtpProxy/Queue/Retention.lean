import SmtpProxy.Store.Rows

/-!
# How long finished messages are kept

`Runner.purge` of `internal/queue/worker.go`. Sent and failed messages have a retention
time each, and one that is not positive means that they are kept. The runner skips the
purge where neither is set; where one is, it computes both cutoffs, and the other one's
is the time of the purge or later. So the setting that is on decides for both
categories (`retention_iff`). Log lines are left out.
-/

namespace SmtpProxy.Queue

open Lib Store Option

/-- The two options of the runner; both are `int64`s. -/
structure Retention where
  retainSent : Int
  retainFailed : Int
  sentRange : -2 ^ 63 ≤ retainSent ∧ retainSent < 2 ^ 63
  failedRange : -2 ^ 63 ≤ retainFailed ∧ retainFailed < 2 ^ 63

/-- `now.Add(-d)`: the sign is changed in 64 bits. -/
def cutoff (now d : Int) : Int := now + int64 (-d)

/-- `Runner.purge`, whose statement succeeds. -/
def Retention.purge (ret : Retention) (now : Int) (db : DB) : DB :=
  if ret.retainSent ≤ 0 ∧ ret.retainFailed ≤ 0 then db
  else (Store.purge db (cutoff now ret.retainSent) (cutoff now ret.retainFailed)).2

def Retention.expired (ret : Retention) (now : Int) (m : Message) : Bool :=
  (decide (m.status = .sent) && decide (0 < ret.retainSent) &&
      decide (ret.retainSent < now - m.updatedAt)) ||
    (decide (m.status = .failed) && decide (0 < ret.retainFailed) &&
      decide (ret.retainFailed < now - m.updatedAt))

/-- A purge deletes the rows that have outlived their retention time and no others. -/
def RetentionLaw (ret : Retention) (now : Int) (db : DB) : Prop :=
  ∀ k, (ret.purge now db).get k = (db.get k).filter fun m => !ret.expired now m

/-- No finished row of a category that is to be kept lies before its cutoff. -/
def Unharmed (ret : Retention) (now : Int) (db : DB) : Prop :=
  ∀ k m, db.get k = some m →
    (m.status = .sent → ret.retainSent ≤ 0 → 0 < ret.retainFailed →
      cutoff now ret.retainSent ≤ m.updatedAt) ∧
    (m.status = .failed → ret.retainFailed ≤ 0 → 0 < ret.retainSent →
      cutoff now ret.retainFailed ≤ m.updatedAt)

theorem cutoff_eq {now d : Int} (hpos : 0 < d) (hmax : d < 2 ^ 63) : cutoff now d = now - d := by
  rw [cutoff, int64_eq (by omega) (by omega)]
  omega

section
variable {ret : Retention} {now : Int} {db : DB}

theorem expired_off (hoff : ret.retainSent ≤ 0 ∧ ret.retainFailed ≤ 0) (m : Message) :
    ret.expired now m = false := by
  have hsent : ¬ 0 < ret.retainSent := by omega
  have hfailed : ¬ 0 < ret.retainFailed := by omega
  simp [Retention.expired, hsent, hfailed]

theorem purgeable_iff (hon : ¬ (ret.retainSent ≤ 0 ∧ ret.retainFailed ≤ 0)) (m : Message) :
    purgeable (cutoff now ret.retainSent) (cutoff now ret.retainFailed) m = ret.expired now m ↔
      (m.status = .sent → ret.retainSent ≤ 0 → 0 < ret.retainFailed →
        cutoff now ret.retainSent ≤ m.updatedAt) ∧
      (m.status = .failed → ret.retainFailed ≤ 0 → 0 < ret.retainSent →
        cutoff now ret.retainFailed ≤ m.updatedAt) := by
  have hsent : 0 < ret.retainSent → cutoff now ret.retainSent = now - ret.retainSent :=
    fun hpos => cutoff_eq hpos ret.sentRange.2
  have hfailed : 0 < ret.retainFailed → cutoff now ret.retainFailed = now - ret.retainFailed :=
    fun hpos => cutoff_eq hpos ret.failedRange.2
  rw [Bool.eq_iff_iff]
  unfold purgeable Retention.expired
  cases m.status with
  | sent =>
    simp only [decide_true, Bool.true_and, reduceCtorEq, decide_false, Bool.false_and, Bool.or_false,
      Bool.and_eq_true, decide_eq_true_eq, forall_const, false_implies, and_true]
    omega
  | failed =>
    simp only [decide_true, Bool.true_and, reduceCtorEq, decide_false, Bool.false_and,
      Bool.false_or, Bool.and_eq_true, decide_eq_true_eq, forall_const, false_implies, true_and]
    omega
  | queued | sending | deferred | held => simp

theorem filter_some_eq_iff {m : Message} {p q : Message → Bool} :
    (some m).filter p = (some m).filter q ↔ p m = q m := by
  rw [filter_some, filter_some]
  cases p m <;> cases q m <;> simp

theorem get_purge (hon : ¬ (ret.retainSent ≤ 0 ∧ ret.retainFailed ≤ 0)) (k : Bytes) :
    (ret.purge now db).get k = (db.get k).filter fun m =>
      !purgeable (cutoff now ret.retainSent) (cutoff now ret.retainFailed) m := by
  rw [Retention.purge, if_neg hon]
  exact get_delete db _ k

/-- A purge that runs is right exactly if its `WHERE` selects the expired rows. -/
theorem law_iff_purgeable (hon : ¬ (ret.retainSent ≤ 0 ∧ ret.retainFailed ≤ 0)) :
    RetentionLaw ret now db ↔ ∀ k m, db.get k = some m →
      purgeable (cutoff now ret.retainSent) (cutoff now ret.retainFailed) m = ret.expired now m := by
  constructor
  · intro hlaw k m hm
    have hk := (get_purge hon k).symm.trans (hlaw k)
    rw [hm, filter_some_eq_iff] at hk
    exact Bool.not_inj hk
  intro hsame k
  rw [get_purge hon]
  cases hm : db.get k with
  | none => rw [filter_none, filter_none]
  | some m => rw [filter_some_eq_iff, hsame k m hm]

theorem law_off (hoff : ret.retainSent ≤ 0 ∧ ret.retainFailed ≤ 0) : RetentionLaw ret now db := by
  intro k
  rw [Retention.purge, if_pos hoff]
  cases db.get k with
  | none => rfl
  | some m => rw [filter_some, expired_off hoff, Bool.not_false, if_pos rfl]

end

/-- **A purge keeps to both retention times exactly if no finished row of a category that
is to be kept lies before the cutoff computed for it.** -/
theorem retention_iff (ret : Retention) (now : Int) (db : DB) :
    RetentionLaw ret now db ↔ Unharmed ret now db := by
  by_cases hoff : ret.retainSent ≤ 0 ∧ ret.retainFailed ≤ 0
  · refine ⟨fun _ k m _ => ⟨fun _ _ hpos => ?_, fun _ _ hpos => ?_⟩, fun _ => law_off hoff⟩
    · exact absurd hpos (not_lt.2 hoff.2)
    · exact absurd hpos (not_lt.2 hoff.1)
  rw [law_iff_purgeable hoff]
  constructor
  · intro h k m hm
    exact (purgeable_iff hoff m).1 (h k m hm)
  intro h k m hm
  exact (purgeable_iff hoff m).2 (h k m hm)

def keepSent : Retention where
  retainSent := 0
  retainFailed := 3600000000000
  sentRange := by decide
  failedRange := by decide

def justSent : DB :=
  ⟨⟨[{ id := ascii "m", status := .sent, updatedAt := 9 }], by simp⟩, ⟨[], by simp⟩⟩

/-- **With no retention time for sent messages, one that was just sent is deleted** because
failed ones have one. -/
theorem justSent_purged : (justSent.get (ascii "m")).isSome = true ∧
      ((keepSent.purge 10 justSent).get (ascii "m")).isSome = false := by
  decide

end SmtpProxy.Queue
