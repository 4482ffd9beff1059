import SmtpProxy.Store.Claim

/-!
# The life of a row

What `LeaseInv` buys for a single message over a whole run. `sent` is final
although no statement mentions it: every statement that writes a row names an
owner, which a sent row has not, or a status it does not have. `held` ends only
through `Requeue`; `attempts` counts the recorded outcomes; a row goes only
through `Delete` or `Purge`; and a row that is waiting or leased becomes
claimable when its time comes (`claimableFrom`), so nothing is stranded.
-/

namespace SmtpProxy.Store

open Lib

/-! ## One step -/

variable {now : Int} {m : Message}

theorem RowStep.attempts {taken : Bool} {op : Op} {m' : Message}
    (h : RowStep now taken m op (some m')) :
    (Settles m op → m'.attempts = m.attempts + 1) ∧ (¬ Settles m op → m'.attempts = m.attempts) := by
  cases h with
  | same hno => exact ⟨fun h => absurd h hno, fun _ => rfl⟩
  | sent hid hown => exact ⟨fun _ => rfl, fun h => absurd ⟨hid, hown⟩ h⟩
  | deferred hid hown => exact ⟨fun _ => rfl, fun h => absurd ⟨hid, hown⟩ h⟩
  | failed hid hown => exact ⟨fun _ => rfl, fun h => absurd ⟨hid, hown⟩ h⟩
  | _ => exact ⟨fun h => h.elim, fun _ => rfl⟩

theorem RowStep.removed {taken : Bool} {op : Op} (h : RowStep now taken m op none) :
    (op = .delete m.id ∧ m.status ≠ .sending) ∨
    ((∃ sentBefore failedBefore, op = .purge sentBefore failedBefore) ∧
      (m.status = .sent ∨ m.status = .failed)) := by
  cases h with
  | deleted hid hst => exact .inl ⟨hid ▸ rfl, hst⟩
  | purged hp =>
  refine .inr ⟨⟨_, _, rfl⟩, ?_⟩
  simp only [purgeable, Bool.or_eq_true, Bool.and_eq_true, decide_eq_true_eq] at hp
  exact hp.imp And.left And.left

theorem RowStep.at_rest {taken : Bool} {op : Op} {m' : Message} (hinv : LeaseInv m)
    (hs : m.status = .sent ∨ m.status = .held ∧ op ≠ .requeue m.id)
    (htaken : taken = true → claimable now m = true) (h : RowStep now taken m op (some m')) :
    m' = m := by
  have hst : m.status = .sent ∨ m.status = .held := hs.imp id And.left
  have hown : m.leaseOwner = none := hinv.owner_none (by rcases hst with h | h <;> rw [h] <;> decide)
  cases h with
  | same => rfl
  | claimed ht => exact absurd (htaken ht) (by rcases hst with h | h <;> simp [claimable, h])
  | extended hid ho => cases ho.symm.trans hown
  | sent hid ho => cases ho.symm.trans hown
  | deferred hid ho => cases ho.symm.trans hown
  | failed hid ho => cases ho.symm.trans hown
  | requeued hid hin =>
    rcases hs with hsent | ⟨-, hop⟩
    · exact absurd (hsent ▸ hin) (by decide)
    · exact absurd (by rw [hid]) hop
  | held hid hin => rcases hst with h | h <;> exact absurd (h ▸ hin) (by decide)
  | released hexp => exact absurd hexp (by rcases hst with h | h <;> simp [leaseExpired, h])

/-! ## Claims of a row -/

/-- The reading from which a claim may take the row. -/
def claimableFrom (m : Message) : Int :=
  match m.status, m.leaseExpiresAt with
  | .sending, some e => e + 1
  | _, _ => m.nextAttemptAt

/-- A row that is not at rest is claimable from `claimableFrom` on, and not before. -/
theorem claimable_iff_from (hinv : LeaseInv m)
    (hs : m.status ≠ .sent ∧ m.status ≠ .failed ∧ m.status ≠ .held) (now : Int) :
    claimable now m = true ↔ claimableFrom m ≤ now := by
  rw [claimable_iff_eligible hinv.sending_iff]
  unfold Eligible claimableFrom
  rcases hinv with ⟨hsend, -, he⟩ | ⟨hns, -, -⟩
  · obtain ⟨e, he⟩ := Option.isSome_iff_exists.1 he
    simp only [hsend, he]
    constructor
    · rintro (⟨h | h, -⟩ | ⟨-, e', he', hlt⟩)
      · cases h
      · cases h
      · have := Option.some.inj he'
        omega
    intro h
    exact .inr ⟨trivial, e, rfl, by omega⟩
  cases hst : m.status with
  | queued | deferred => simp
  | sending => exact absurd hst hns
  | sent => exact absurd hst hs.1
  | failed => exact absurd hst hs.2.1
  | held => exact absurd hst hs.2.2

variable {o : RowOrder}

theorem handsOut_of_claimable {db : DB} {limit leaseFor : Int} {owner k : Bytes}
    (hk : db.get k = some m) (hcl : claimable now m = true) (howner : owner ≠ [])
    (hroom : db.messages.rows.length ≤ limit) :
    HandsOut o db now k (.claim owner limit leaseFor) := by
  have hrow := Table.mem_of_get hk
  have hlen : (o.sort (db.messages.rows.filter (claimable now))).length ≤ limit.toNat := by
    rw [(o.perm _).length_eq]
    exact (List.length_filter_le ..).trans (by omega)
  have hmem : k ∈ claimIDs o db now limit := by
    unfold claimIDs
    rw [List.take_of_length_le hlen]
    exact List.mem_map.2 ⟨m, (o.perm _).mem_iff.2 (List.mem_filter.2 ⟨hrow, hcl⟩), get_id hk⟩
  have hpos : 0 < db.messages.rows.length := List.length_pos_of_mem hrow
  refine handsOut_of_picked hk ?_
  simp only [picked, Bool.and_eq_true, decide_eq_true_eq, List.contains_iff_mem]
  exact ⟨⟨howner, by omega⟩, hmem⟩

/-! ## Runs -/

def KeepsRow (o : RowOrder) (k : Bytes) (s : QueueState) (a : Int × Op) : Prop :=
  (exec o s.db a.1 a.2).2.get k ≠ none

def Requeues (k : Bytes) (s : QueueState) (a : Int × Op) : Prop :=
  a.2 = .requeue k ∧ (requeue s.db a.1 k).1 = .ok ()

theorem at_rest_reach {ok : QueueState → Int × Op → Prop} {k : Bytes} {s t : QueueState}
    (hinv : QueueInv s.db) (hk : s.db.get k = some m) (hkeep : ∀ s a, ok s a → KeepsRow o k s a)
    (hs : m.status = .sent ∨ m.status = .held ∧ ∀ s a, ok s a → ¬ Requeues k s a)
    (h : Reach (queueStep o) ok s t) : QueueInv t.db ∧ t.db.get k = some m := by
  refine Reach.invariant (I := fun t => QueueInv t.db ∧ t.db.get k = some m) ⟨hinv, hk⟩ ?_ h
  rintro s ⟨now, op⟩ t ⟨hinv, hk⟩ hok hstep
  rw [queueStep_db hstep]
  refine ⟨exec_queueInv hinv, ?_⟩
  obtain ⟨m', hm'⟩ := Option.ne_none_iff_exists'.1 (hkeep s (now, op) hok)
  have hrow : RowStep now _ m op (some m') := hm' ▸ exec_step hk
  rw [hm', hrow.at_rest (hinv.lease k m hk) ?_ (picked_claimable hk)]
  refine hs.imp id fun ⟨hheld, hno⟩ => ⟨hheld, fun hop => hno s (now, op) hok ⟨?_, ?_⟩⟩
  · rw [hop, get_id hk]
  · exact updateInStatus_ok_iff.2 ⟨m, hk, by rw [hheld]; decide⟩

theorem sent_not_handedOut {k : Bytes} {s t : QueueState} (hinv : QueueInv s.db)
    (hk : s.db.get k = some m) (hs : m.status = .sent)
    (h : Reach (queueStep o) (KeepsRow o k) s t) (now : Int) (owner : Bytes)
    (limit leaseFor : Int) : ¬ HandsOut o t.db now k (.claim owner limit leaseFor) := by
  intro hout
  obtain ⟨-, hkt⟩ := at_rest_reach hinv hk (fun _ _ hok => hok) (.inl hs) h
  rcases handsOut_cases hkt hout with hcl | hlease
  · simp [claimable, hs] at hcl
  · exact absurd (hs.symm.trans hlease.1) (by decide)

/-- What holds of every row in a state `s`, and of every row over every step and
every run from it. -/
structure RowLaws (o : RowOrder) (s : QueueState) : Prop where
  /-- A row is `sending` exactly while both lease columns are set. -/
  leased : ∀ k m, s.db.get k = some m →
    (m.status = .sending ↔ m.leaseOwner.isSome ∧ m.leaseExpiresAt.isSome)
  /-- A sent row stays as it is until it is removed. -/
  sent : ∀ k m, s.db.get k = some m → m.status = .sent →
    ∀ t, Reach (queueStep o) (KeepsRow o k) s t → t.db.get k = some m
  /-- A held row is returned by no claim until a `Requeue` on it succeeded. -/
  held : ∀ k m, s.db.get k = some m → m.status = .held →
    ∀ t, Reach (queueStep o) (fun s a => KeepsRow o k s a ∧ ¬ Requeues k s a) s t →
    ∀ now owner limit leaseFor, ¬ HandsOut o t.db now k (.claim owner limit leaseFor)
  /-- `attempts` increases by one exactly with a recorded outcome. -/
  attempts : ∀ now op t, queueStep o s (now, op) = some t → ∀ k m m', s.db.get k = some m →
    t.db.get k = some m' →
    (RecordsOutcome s.db now k op → m'.attempts = m.attempts + 1) ∧
    (¬ RecordsOutcome s.db now k op → m'.attempts = m.attempts)
  /-- A row goes only through `Delete` or `Purge`. -/
  removed : ∀ now op t, queueStep o s (now, op) = some t → ∀ k m, s.db.get k = some m →
    t.db.get k = none →
    (op = .delete k ∧ m.status ≠ .sending) ∨
    ((∃ sentBefore failedBefore, op = .purge sentBefore failedBefore) ∧
      (m.status = .sent ∨ m.status = .failed))
  /-- Every row has its body and every body its row. -/
  body : ∀ k, (s.db.get k).isSome ↔ (s.db.blobs.get k).isSome
  /-- A row that is not at rest is claimable from some reading on, and every claim
  from then on that has room for it returns it. -/
  claimable : ∀ k m, s.db.get k = some m →
    m.status ≠ .sent ∧ m.status ≠ .failed ∧ m.status ≠ .held →
    ∀ now, (Store.claimable now m = true ↔ claimableFrom m ≤ now) ∧
      ∀ owner (limit leaseFor : Int), claimableFrom m ≤ now → owner ≠ [] →
        s.db.messages.rows.length ≤ limit → HandsOut o s.db now k (.claim owner limit leaseFor)

theorem rowLaws_of_queueInv {s : QueueState} (hinv : QueueInv s.db) : RowLaws o s where
  leased := fun k m hk => (hinv.lease k m hk).sending_iff
  sent := fun k m hk hs t h =>
    (at_rest_reach hinv hk (fun _ _ hok => hok) (.inl hs) h).2
  held := by
    intro k m hk hs t h now owner limit leaseFor hout
    obtain ⟨-, hkt⟩ := at_rest_reach hinv hk (fun _ _ hok => hok.1)
      (.inr ⟨hs, fun _ _ hok => hok.2⟩) h
    rcases handsOut_cases hkt hout with hcl | hlease
    · simp [Store.claimable, hs] at hcl
    · exact absurd (hs.symm.trans hlease.1) (by decide)
  attempts := by
    intro now op t hstep k m m' hk hm'
    rw [recordsOutcome_iff hk]
    rw [queueStep_db hstep] at hm'
    exact RowStep.attempts (hm' ▸ exec_step hk)
  removed := by
    intro now op t hstep k m hk hnone
    rw [queueStep_db hstep] at hnone
    rw [← get_id hk]
    exact RowStep.removed (hnone ▸ exec_step hk)
  body := fun k => by rw [hinv.body k]
  claimable := by
    intro k m hk hs now
    have hiff := claimable_iff_from (hinv.lease k m hk) hs now
    exact ⟨hiff, fun owner limit leaseFor hle howner hroom =>
      handsOut_of_claimable hk (hiff.2 hle) howner hroom⟩

/-- **The queue's row laws hold in every state of every run** that starts from an
empty table and executes any operations at non-decreasing clock readings. -/
theorem queue_row_laws (o : RowOrder) (start : Int) (s : QueueState)
    (h : Reach (queueStep o) AnyStep (.init start) s) : RowLaws o s :=
  rowLaws_of_queueInv (queueInv_reachable h)

/-- A message enqueued at 3 and claimed at 5. -/
theorem queue_row_laws_claimed : ∃ s, runActions (queueStep byNextAttempt) (.init 0)
      [(3, .enqueue (ascii "m") { recipients := [ascii "a@b"] } (ascii "x")),
        (5, .claim (ascii "w") 1 10)] = some s ∧ RowLaws byNextAttempt s :=
  ⟨_, rfl, queue_row_laws byNextAttempt 0 _ (reach_of_runActions
      [(3, .enqueue (ascii "m") { recipients := [ascii "a@b"] } (ascii "x")),
        (5, .claim (ascii "w") 1 10)] ⟨trivial, fun _ _ => ⟨trivial, fun _ _ => trivial⟩⟩ rfl)⟩

end SmtpProxy.Store
