import SmtpProxy.Store.Rows

/-!
# Claims are exact and disjoint

`ClaimMessages` is two statements. The `UPDATE` leases the first `limit`
claimable rows in order of `next_attempt_at`; the read-back then selects by
owner and expiry alone. The two agree only because no other row can carry the
same owner and the same expiry: one worker's earlier leases were written at
earlier clock readings with the same duration (`readBack_claimUpdate`).
-/

namespace SmtpProxy.Store

open Lib List Option Table Function

/-! ## The lease invariant

The outcome writes guard only on `lease_owner`, the operator actions and the housekeeping only
on `status`, the claim on both. `LeaseInv` ties the two together: a row is `sending` exactly
when it carries a lease. -/

section

/-- A row carries a lease exactly while it is `sending`. -/
def LeaseInv (m : Message) : Prop :=
  (m.status = .sending ∧ m.leaseOwner.isSome ∧ m.leaseExpiresAt.isSome) ∨
  (m.status ≠ .sending ∧ m.leaseOwner = none ∧ m.leaseExpiresAt = none)

variable {m : Message}

theorem LeaseInv.sending_iff (h : LeaseInv m) :
    m.status = .sending ↔ m.leaseOwner.isSome ∧ m.leaseExpiresAt.isSome := by
  rcases h with ⟨hs, ho, he⟩ | ⟨hs, ho, he⟩
  · exact ⟨fun _ => ⟨ho, he⟩, fun _ => hs⟩
  rw [ho]
  exact ⟨fun h => absurd h hs, fun h => absurd h.1 (by simp)⟩

theorem LeaseInv.sending_of_owner {owner : Bytes} (h : LeaseInv m)
    (hown : m.leaseOwner = some owner) : m.status = .sending := by
  rcases h with ⟨hs, _, _⟩ | ⟨_, ho, _⟩
  · exact hs
  rw [hown] at ho
  cases ho

theorem LeaseInv.owner_none (h : LeaseInv m) (hs : m.status ≠ .sending) : m.leaseOwner = none := by
  rcases h with ⟨hs', _, _⟩ | ⟨_, ho, _⟩
  · exact absurd hs' hs
  · exact ho

theorem leaseInv_released (hs : m.status ≠ .sending) (ho : m.leaseOwner = none)
    (he : m.leaseExpiresAt = none) : LeaseInv m :=
  .inr ⟨hs, ho, he⟩

variable {now : Int}

theorem RowStep.leaseInv {taken : Bool} {op : Op} {m' : Message} (h : LeaseInv m)
    (hs : RowStep now taken m op (some m')) : LeaseInv m' := by
  cases hs with
  | same => exact h
  | claimed => exact .inl ⟨rfl, rfl, rfl⟩
  | extended hid hown =>
    exact .inl ⟨h.sending_of_owner hown, by simp [extendSet, hown], rfl⟩
  | sent => exact leaseInv_released (by simp [sentSet]) rfl rfl
  | deferred => exact leaseInv_released (by simp [deferSet]) rfl rfl
  | failed => exact leaseInv_released (by simp [failSet]) rfl rfl
  | requeued => exact leaseInv_released (by simp [requeueSet]) rfl rfl
  | held => exact leaseInv_released (by simp [holdSet]) rfl rfl
  | released => exact leaseInv_released (by simp [releaseSet]) rfl rfl

theorem enqueueDefaults_leaseInv (now : Int) (newID : Bytes) (d : Draft) :
    LeaseInv (enqueueDefaults now newID none d.message) :=
  leaseInv_released (by simp [enqueueDefaults]) rfl rfl

/-! ## Messages and bodies -/

structure QueueInv (db : DB) : Prop where
  lease : ∀ k m, db.get k = some m → LeaseInv m
  body : ∀ k, (db.get k).isSome = (db.blobs.get k).isSome

theorem queueInv_empty : QueueInv .empty where
  lease := by intro k m h; simp [DB.empty, DB.get] at h
  body := by intro k; rfl

variable {db : DB}

theorem delete_body (p : Message → Bool) (h : ∀ k, (db.get k).isSome = (db.blobs.get k).isSome)
    (k : Bytes) : ((db.delete p).get k).isSome = ((db.delete p).blobs.get k).isSome := by
  have hb : (db.delete p).blobs.get k
      = (db.blobs.get k).filter fun b => !(db.get b.messageID).any p :=
    get_deleteWhere ..
  rw [get_delete, hb]
  have hk := h k
  cases hm : db.get k with
  | none =>
    rw [hm] at hk
    cases hbk : db.blobs.get k with
    | none => rfl
    | some b => rw [hbk] at hk; cases hk
  | some m =>
  rw [hm] at hk
  cases hbk : db.blobs.get k with
  | none => rw [hbk] at hk; cases hk
  | some b =>
  have hid : b.messageID = k := key_of_get hbk
  simp only [filter_some, hid, hm, any_some]
  cases p m <;> rfl

theorem update_body {p : Message → Bool} {set : Message → Message} {hset : ∀ m, (set m).id = m.id}
    (h : ∀ k, (db.get k).isSome = (db.blobs.get k).isSome) (k : Bytes) :
    ((db.update p set hset).get k).isSome = ((db.update p set hset).blobs.get k).isSome := by
  rw [get_update, blobs_update, isSome_map]
  exact h k

variable {o : RowOrder}

theorem claimMessages_body {owner : Bytes} {limit : Int} {leaseFor : Int}
    (h : ∀ k, (db.get k).isSome = (db.blobs.get k).isSome) (k : Bytes) :
    ((claimMessages o db now owner limit leaseFor).2.get k).isSome
      = ((claimMessages o db now owner limit leaseFor).2.blobs.get k).isSome := by
  unfold claimMessages
  split
  · exact h k
  split
  · exact h k
  dsimp only
  split <;> exact update_body h k

theorem exec_body {op : Op} (h : ∀ k, (db.get k).isSome = (db.blobs.get k).isSome) (k : Bytes) :
    ((exec o db now op).2.get k).isSome = ((exec o db now op).2.blobs.get k).isSome := by
  cases op with
  | enqueue newID d body =>
    show ((enqueue db now newID none d.message (some body)).2.get k).isSome
      = ((enqueue db now newID none d.message (some body)).2.blobs.get k).isSome
    rcases enqueue_cases db now newID d body with ⟨e, he⟩ | ⟨row, messages, blobs, -, hm, hb, he⟩
    · rw [he]
      exact h k
    rw [he]
    show (messages.get k).isSome = (blobs.get k).isSome
    rw [get_insert hm, get_insert hb]
    by_cases hk : row.id = k
    · simp [hk]
    simp only [hk, if_false]
    exact h k
  | claim owner limit leaseFor => exact claimMessages_body h k
  | delete | purge => exact delete_body _ h k
  | _ => exact update_body h k

theorem exec_queueInv {op : Op} (h : QueueInv db) : QueueInv (exec o db now op).2 where
  lease := by
    intro k m' hm'
    cases hk : db.get k with
    | some m =>
      exact RowStep.leaseInv (h.lease k m hk) (hm' ▸ exec_step hk)
    | none =>
      obtain ⟨newID, d, rfl⟩ := exec_get_new hk hm'
      exact enqueueDefaults_leaseInv now newID d
  body := exec_body h.body

/-! ## Runs -/

/-- The queue between two operations: its tables and the last clock reading. -/
structure QueueState where
  clock : Int
  db : DB

def QueueState.init (start : Int) : QueueState := ⟨start, .empty⟩

def queueStep (o : RowOrder) (s : QueueState) (a : Int × Op) : Option QueueState :=
  if s.clock ≤ a.1 then some ⟨a.1, (exec o s.db a.1 a.2).2⟩ else none

theorem queueStep_db {s t : QueueState} {a : Int × Op} (h : queueStep o s a = some t) :
    t.db = (exec o s.db a.1 a.2).2 := by
  unfold queueStep at h
  split at h
  · rw [← some.inj h]
  · cases h

abbrev AnyStep : QueueState → Int × Op → Prop := fun _ _ => True

theorem queueInv_reachable {start : Int} {s : QueueState}
    (h : Reach (queueStep o) AnyStep (.init start) s) : QueueInv s.db := by
  refine Reach.invariant (I := fun s => QueueInv s.db) queueInv_empty ?_ h
  intro s a t hinv _ hs
  rw [queueStep_db hs]
  exact exec_queueInv hinv

end

/-! ## Eligibility -/

/-- A row is due: waiting with its time come, or abandoned by its worker. -/
def Eligible (now : Int) (m : Message) : Prop :=
  ((m.status = .queued ∨ m.status = .deferred) ∧ m.nextAttemptAt ≤ now) ∨
  (m.status = .sending ∧ ∃ e, m.leaseExpiresAt = some e ∧ e < now)

instance (now : Int) (m : Message) : Decidable (Eligible now m) :=
  inferInstanceAs (Decidable (_ ∨ (_ ∧ ∃ e, m.leaseExpiresAt = some e ∧ e < now)))

variable {now : Int} {m : Message}

/-- Where the lease columns agree with the status, the three-way lease condition
of the sub-select adds nothing. -/
theorem claimable_iff_eligible
    (h : m.status = .sending ↔ m.leaseOwner.isSome ∧ m.leaseExpiresAt.isSome) :
    claimable now m = true ↔ Eligible now m := by
  unfold claimable Eligible
  simp only [Bool.and_eq_true, Bool.or_eq_true, decide_eq_true_eq, any_eq_true_iff_get]
  constructor
  · rintro ⟨(⟨hs, hn⟩ | ⟨hs, he⟩), -⟩
    · exact .inl ⟨hs, hn⟩
    · obtain ⟨hsome, hlt⟩ := he
      exact .inr ⟨hs, _, (some_get hsome).symm, hlt⟩
  rintro (⟨hs, hn⟩ | ⟨hs, e, he, hlt⟩)
  · refine ⟨.inl ⟨hs, hn⟩, ?_⟩
    have hns : ¬(m.leaseOwner.isSome ∧ m.leaseExpiresAt.isSome) := by
      rw [← h]
      rcases hs with hs | hs <;> rw [hs] <;> decide
    left
    by_cases ho : m.leaseOwner.isSome
    · exact .inr (by simpa using fun he => hns ⟨ho, he⟩)
    · exact .inl (by simpa using ho)
  have hget : ∃ hsome : m.leaseExpiresAt.isSome, m.leaseExpiresAt.get hsome < now :=
    ⟨by simp [he], by simpa [he] using hlt⟩
  exact ⟨.inr ⟨hs, hget⟩, .inr hget⟩

/-! ## What the sub-select takes -/

theorem sorted_ids_nodup (o : RowOrder) (db : DB) (now : Int) :
    ((o.sort (db.messages.rows.filter (claimable now))).map Message.id).Nodup :=
  ((o.perm _).map Message.id).nodup_iff.2 ((filter_sublist.map Message.id).nodup db.messages.nodup)

theorem claimIDs_nodup (o : RowOrder) (db : DB) (now : Int) (limit : Int) :
    (claimIDs o db now limit).Nodup := by
  unfold claimIDs
  rw [map_take]
  exact (sorted_ids_nodup o db now).sublist (take_sublist _ _)

theorem claimIDs_length (o : RowOrder) (db : DB) (now : Int) (limit : Int) :
    (claimIDs o db now limit).length = min limit.toNat (db.count (claimable now)) := by
  unfold claimIDs DB.count
  rw [length_map, length_take, (o.perm _).length_eq]

variable {o : RowOrder} {db : DB} {limit : Int} {k : Bytes}

theorem mem_claimIDs (h : k ∈ claimIDs o db now limit) :
    ∃ m, db.get k = some m ∧ claimable now m = true := by
  obtain ⟨m, hm, rfl⟩ := List.mem_map.1 h
  obtain ⟨hrow, hcl⟩ := mem_filter.1 ((o.perm _).mem_iff.1 (mem_of_mem_take hm))
  exact ⟨m, mem_rows_iff.1 hrow, hcl⟩

/-- A claimable row that is left out is not due before one that is taken. -/
theorem claimIDs_earliest {k' : Bytes} {m' : Message} (hk : k ∈ claimIDs o db now limit)
    (hm : db.get k = some m) (hm' : db.get k' = some m') (hcl : claimable now m' = true)
    (hk' : k' ∉ claimIDs o db now limit) : m.nextAttemptAt ≤ m'.nextAttemptAt := by
  obtain ⟨a, ha, hak⟩ := List.mem_map.1 hk
  have hrow : a ∈ db.messages.rows :=
    (mem_filter.1 ((o.perm _).mem_iff.1 (mem_of_mem_take ha))).1
  have ham : a = m := by
    have := mem_rows_iff.1 hrow
    rw [hak, hm] at this
    exact (some.inj this).symm
  have hmem' : m' ∈ o.sort (db.messages.rows.filter (claimable now)) :=
    (o.perm _).mem_iff.2 (mem_filter.2 ⟨mem_of_get hm', hcl⟩)
  have hsplit := o.sorted (db.messages.rows.filter (claimable now))
  rw [← take_append_drop limit.toNat (o.sort _)] at hmem' hsplit
  rcases mem_append.1 hmem' with hin | hout
  · exact absurd (List.mem_map.2 ⟨m', hin, get_id hm'⟩) hk'
  · exact ham ▸ (pairwise_append.1 hsplit).2.2 a ha m' hout

def claimRows (o : RowOrder) (db : DB) (now : Int) (limit : Int) : List Message :=
  db.messages.rows.filter fun m => (claimIDs o db now limit).contains m.id

theorem claimRows_ids (o : RowOrder) (db : DB) (now : Int) (limit : Int) :
    ((claimRows o db now limit).map Message.id).Perm (claimIDs o db now limit) := by
  have hnodup : ((claimRows o db now limit).map Message.id).Nodup :=
    db.messages.nodup.sublist (filter_sublist.map Message.id)
  refine (perm_ext_iff_of_nodup hnodup (claimIDs_nodup o db now limit)).2 fun k => ?_
  constructor
  · intro hk
    obtain ⟨m, hm, rfl⟩ := List.mem_map.1 hk
    simpa using (mem_filter.1 hm).2
  intro hk
  obtain ⟨m, hm, -⟩ := mem_claimIDs hk
  exact List.mem_map.2 ⟨m, mem_filter.2
    ⟨mem_of_get hm, by simpa [get_id hm] using hk⟩, get_id hm⟩

/-! ## The read-back -/

/-- This worker's leases were all written at earlier clock readings, with the
one lease duration. -/
def EarlierLeases (db : DB) (now : Int) (owner : Bytes) (leaseFor : Int) : Prop :=
  ∀ k m, db.get k = some m → m.leaseOwner = some owner →
    ∀ e, m.leaseExpiresAt = some e → ∃ t, t < now ∧ e = t + leaseFor

variable {owner : Bytes} {leaseFor : Int}

/-- **The read-back finds what the `UPDATE` leased.** The two statements are tied
only by owner and expiry; no older lease of this worker has the new expiry. -/
theorem readBack_claimUpdate (hearlier : EarlierLeases db now owner leaseFor) :
    readBack o (claimUpdate o db now owner limit leaseFor) owner (now + leaseFor)
      = o.sort ((claimRows o db now limit).map (leaseTo owner (now + leaseFor) now)) := by
  unfold readBack
  congr 1
  show (List.map _ db.messages.rows).filter _ = _
  rw [List.filter_map]
  have hsel : ∀ m ∈ db.messages.rows, (holdsLease owner (now + leaseFor) ∘
      fun m => if (claimIDs o db now limit).contains m.id
        then leaseTo owner (now + leaseFor) now m else m) m
        = (claimIDs o db now limit).contains m.id := by
    intro m hm
    simp only [Function.comp]
    by_cases hp : (claimIDs o db now limit).contains m.id = true
    · rw [if_pos hp, hp]
      simp [holdsLease, leaseTo]
    rw [if_neg hp, Bool.eq_false_iff.2 hp]
    simp only [holdsLease, Bool.and_eq_false_iff, decide_eq_false_iff_not]
    by_cases hown : m.leaseOwner = some owner
    · left; right
      intro he
      obtain ⟨t, ht, hte⟩ := hearlier m.id m (mem_rows_iff.1 hm) hown _ he
      omega
    · exact .inl (.inl hown)
  rw [filter_congr hsel]
  apply map_congr_left
  intro m hm
  rw [if_pos (mem_filter.1 hm).2]

/-- What one `ClaimMessages` call does, given the tables before and after it and
the rows it returned. -/
structure ClaimSpec (db db' : DB) (now : Int) (owner : Bytes) (limit : Int)
    (leaseFor : Int) (rows : List Message) : Prop where
  distinct : (rows.map Message.id).Nodup
  size : rows.length = min limit.toNat (db.count fun m => decide (Eligible now m))
  leased : ∀ r ∈ rows, ∃ m, db.get r.id = some m ∧ Eligible now m ∧
    r = leaseTo owner (now + leaseFor) now m ∧ db'.get r.id = some r
  frame : ∀ k, k ∉ rows.map Message.id → db'.get k = db.get k
  earliest : ∀ r ∈ rows, ∀ k m, db.get k = some m → Eligible now m →
    k ∉ rows.map Message.id → r.nextAttemptAt ≤ m.nextAttemptAt

/-- The status agrees with the lease columns throughout a table. -/
def SendingIffLeased (db : DB) : Prop :=
  ∀ k m, db.get k = some m →
    (m.status = .sending ↔ m.leaseOwner.isSome ∧ m.leaseExpiresAt.isSome)

theorem count_eligible (h : SendingIffLeased db) :
    (db.count fun m => decide (Eligible now m)) = db.count (claimable now) := by
  unfold DB.count
  congr 1
  apply filter_congr
  intro m hm
  rw [Bool.eq_iff_iff, decide_eq_true_iff]
  exact (claimable_iff_eligible (h m.id m (mem_rows_iff.1 hm))).symm

theorem claimMessages_ok (howner : owner ≠ []) (hlimit : 0 < limit)
    (hearlier : EarlierLeases db now owner leaseFor) :
    ∃ rows, (claimMessages o db now owner limit leaseFor).1 = .ok rows ∧
      rows.Perm ((claimRows o db now limit).map (leaseTo owner (now + leaseFor) now)) := by
  unfold claimMessages
  rw [if_neg howner, if_neg (by omega)]
  dsimp only
  split
  · next h0 =>
    refine ⟨[], rfl, ?_⟩
    rw [show claimRows o db now limit = [] from length_eq_zero_iff.1 h0]
    exact .nil
  refine ⟨_, rfl, ?_⟩
  rw [readBack_claimUpdate hearlier]
  exact o.perm _

/-- **One call is exact.** -/
theorem claimMessages_spec (hinv : SendingIffLeased db) (howner : owner ≠ []) (hlimit : 0 < limit)
    (hearlier : EarlierLeases db now owner leaseFor) :
    ∃ rows, (claimMessages o db now owner limit leaseFor).1 = .ok rows ∧
      ClaimSpec db (claimMessages o db now owner limit leaseFor).2 now owner limit leaseFor rows := by
  obtain ⟨rows, hok, hperm⟩ := claimMessages_ok (o := o) howner hlimit hearlier
  have hids : (rows.map Message.id).Perm (claimIDs o db now limit) := by
    have h1 := hperm.map Message.id
    rw [List.map_map] at h1
    exact h1.trans (claimRows_ids o db now limit)
  have hpick : ∀ k, picked o db now k (.claim owner limit leaseFor)
      = (claimIDs o db now limit).contains k := by
    intro k
    simp [picked, howner, hlimit]
  refine ⟨rows, hok, ?_⟩
  refine ⟨hids.nodup_iff.2 (claimIDs_nodup o db now limit), ?_, ?_, ?_, ?_⟩
  · rw [← length_map (f := Message.id), hids.length_eq, claimIDs_length, count_eligible hinv]
  · intro r hr
    obtain ⟨m, hm, rfl⟩ := List.mem_map.1 (hperm.mem_iff.1 hr)
    obtain ⟨hrow, hsel⟩ := mem_filter.1 hm
    have hget := mem_rows_iff.1 hrow
    obtain ⟨m', hm', hcl⟩ := mem_claimIDs (contains_iff_mem.1 hsel)
    have hmm : m' = m := some.inj (hm'.symm.trans hget)
    refine ⟨m, hget, (claimable_iff_eligible (hinv _ _ hget)).1 (hmm ▸ hcl), rfl, ?_⟩
    show (claimMessages o db now owner limit leaseFor).2.get m.id = _
    rw [claimMessages_get, hget, map_some, hpick, if_pos hsel]
  · intro k hk
    rw [claimMessages_get]
    cases hget : db.get k with
    | none => rfl
    | some m =>
    have hno : (claimIDs o db now limit).contains k = false := by
      rw [Bool.eq_false_iff]
      exact fun h => hk (hids.mem_iff.2 (contains_iff_mem.1 h))
    rw [map_some, hpick, get_id hget, hno]
    rfl
  intro r hr k m hm hel hk
  obtain ⟨m₀, hm₀, rfl⟩ := List.mem_map.1 (hperm.mem_iff.1 hr)
  obtain ⟨hrow, hsel⟩ := mem_filter.1 hm₀
  show m₀.nextAttemptAt ≤ m.nextAttemptAt
  exact claimIDs_earliest (contains_iff_mem.1 hsel) (mem_rows_iff.1 hrow) hm
    ((claimable_iff_eligible (hinv _ _ hm)).2 hel)
    (fun h => hk (hids.mem_iff.2 h))

/-! ## Handing out and giving up -/

/-- The operation is a claim that returns this message. -/
def HandsOut (o : RowOrder) (db : DB) (now : Int) (k : Bytes) : Op → Prop
  | .claim owner limit leaseFor =>
    ∃ rows, (claimMessages o db now owner limit leaseFor).1 = .ok rows ∧
      k ∈ rows.map Message.id
  | _ => False

/-- The operation gives up the lease on this message: an outcome that was
recorded, or the release of an expired lease. -/
def GivesUp (db : DB) (now : Int) (k : Bytes) (op : Op) : Prop :=
  RecordsOutcome db now k op ∨
    (op = .releaseExpiredLeases ∧ ∃ m, db.get k = some m ∧ leaseExpired now m = true)

def LeasedUntil (owner : Bytes) (until_ : Int) (m : Message) : Prop :=
  m.status = .sending ∧ m.leaseOwner = some owner ∧ m.leaseExpiresAt = some until_

theorem holdsLease_iff {until_ : Int} :
    holdsLease owner until_ m = true ↔ LeasedUntil owner until_ m := by
  simp only [holdsLease, LeasedUntil, Bool.and_eq_true, decide_eq_true_eq]
  tauto

theorem claim_returned {rows : List Message} {r : Message}
    (hok : (claimMessages o db now owner limit leaseFor).1 = .ok rows) (hr : r ∈ rows) :
    (claimMessages o db now owner limit leaseFor).2.get r.id = some r ∧
      LeasedUntil owner (now + leaseFor) r := by
  unfold claimMessages at hok ⊢
  by_cases howner : owner = []
  · rw [if_pos howner] at hok
    cases hok
  by_cases hlimit : limit ≤ 0
  · rw [if_neg howner, if_pos hlimit] at hok
    cases hok
    cases hr
  rw [if_neg howner, if_neg hlimit] at hok ⊢
  dsimp only at hok ⊢
  split at hok
  · cases hok
    cases hr
  next hcount =>
  rw [if_neg hcount]
  cases hok
  obtain ⟨hrow, hheld⟩ := mem_filter.1 ((o.perm _).mem_iff.1 hr)
  exact ⟨mem_rows_iff.1 hrow, holdsLease_iff.1 hheld⟩

theorem handsOut_of_picked {op : Op} (hk : db.get k = some m) (h : picked o db now k op = true) :
    HandsOut o db now k op := by
  cases op with
  | claim owner limit leaseFor =>
    have hget : (claimMessages o db now owner limit leaseFor).2.get k
        = some (leaseTo owner (now + leaseFor) now m) := by
      rw [claimMessages_get, hk, map_some, get_id hk, if_pos h]
    simp only [picked, Bool.and_eq_true, decide_eq_true_eq] at h
    obtain ⟨⟨howner, hlimit⟩, hsel⟩ := h
    show ∃ rows, (claimMessages o db now owner limit leaseFor).1 = .ok rows ∧ _
    unfold claimMessages at hget ⊢
    rw [if_neg howner, if_neg (by omega)] at hget ⊢
    dsimp only at hget ⊢
    split
    · next hzero =>
      have := count_eq_zero_iff.1 hzero k m hk
      rw [get_id hk, hsel] at this
      simp at this
    next hcount =>
    rw [if_neg hcount] at hget
    refine ⟨_, rfl, List.mem_map.2 ⟨leaseTo owner (now + leaseFor) now m, ?_, ?_⟩⟩
    · refine (o.perm _).mem_iff.2 (mem_filter.2
        ⟨mem_of_get hget, ?_⟩)
      simp [holdsLease, leaseTo]
    · exact (show m.id = k from get_id hk)
  | _ => simp [picked] at h

theorem handsOut_cases (hk : db.get k = some m)
    (h : HandsOut o db now k (.claim owner limit leaseFor)) :
    claimable now m = true ∨ LeasedUntil owner (now + leaseFor) m := by
  obtain ⟨rows, hok, hmem⟩ := h
  obtain ⟨r, hr, hrk⟩ := List.mem_map.1 hmem
  obtain ⟨hget, hlease⟩ := claim_returned hok hr
  rw [hrk, claimMessages_get, hk, map_some] at hget
  by_cases hp : picked o db now m.id (.claim owner limit leaseFor) = true
  · exact .inl (picked_claimable (by rw [get_id hk]; exact hk) hp)
  rw [if_neg hp] at hget
  exact .inr (some.inj hget ▸ hlease)

theorem handsOut_stored (h : HandsOut o db now k (.claim owner limit leaseFor)) :
    ∃ m, db.get k = some m := by
  obtain ⟨rows, hok, hmem⟩ := h
  obtain ⟨r, hr, hrk⟩ := List.mem_map.1 hmem
  obtain ⟨hget, -⟩ := claim_returned hok hr
  rw [hrk, claimMessages_get] at hget
  obtain ⟨m, hm, -⟩ := map_eq_some_iff.1 hget
  exact ⟨m, hm⟩

/-- **A leased row keeps its lease** through every operation that neither hands
it out again, nor gives it up, nor extends it. -/
theorem lease_kept {op : Op} {until_ : Int} (hk : db.get k = some m)
    (hlease : LeasedUntil owner until_ m) (hno : ¬ HandsOut o db now k op)
    (hgive : ¬ GivesUp db now k op) (hext : ∀ id w d, op ≠ .extendLease id w d) :
    (exec o db now op).2.get k = some m := by
  have hsettles : ¬ Settles m op := fun h => hgive (.inl ((recordsOutcome_iff hk).2 h))
  have hstep : RowStep now _ m op ((exec o db now op).2.get k) := exec_step hk
  generalize (exec o db now op).2.get k = r at hstep
  cases hstep with
  | same => rfl
  | claimed htaken => exact absurd (handsOut_of_picked hk htaken) hno
  | extended => exact absurd rfl (hext _ _ _)
  | sent hid hown => exact absurd ⟨hid, hown⟩ hsettles
  | deferred hid hown => exact absurd ⟨hid, hown⟩ hsettles
  | failed hid hown => exact absurd ⟨hid, hown⟩ hsettles
  -- the operator's statements and the purge select other states than `sending`
  | requeued hid hst => exact absurd (hlease.1 ▸ hst) (by decide)
  | held hid hst => exact absurd (hlease.1 ▸ hst) (by decide)
  | deleted hid hst => exact absurd hlease.1 hst
  | released hexp => exact absurd (.inr ⟨rfl, m, hk, hexp⟩) hgive
  | purged hp => simp [purgeable, hlease.1] at hp

/-! ## Claims in a run -/

/-- The tables, and the last clock reading each process used for a claim. -/
structure ClaimState where
  db : DB
  last : Bytes → Option Int

/-- One operation at a clock reading. Every claim leases for the one configured
duration, and a process's readings strictly increase; no worker extends a lease. -/
def claimStep (o : RowOrder) (leaseFor : Int) (s : ClaimState) (a : Int × Op) :
    Option ClaimState :=
  match a.2 with
  | .claim owner limit d =>
    if d = leaseFor ∧ ∀ t ∈ s.last owner, t < a.1 then
      some ⟨(exec o s.db a.1 (.claim owner limit d)).2, update s.last owner (some a.1)⟩
    else none
  | .extendLease _ _ _ => none
  | op => some ⟨(exec o s.db a.1 op).2, s.last⟩

variable {t : ClaimState}

theorem claimStep_cases {s : ClaimState} {op : Op} (h : claimStep o leaseFor s (now, op) = some t) :
    t.db = (exec o s.db now op).2 ∧ (∀ id w d, op ≠ .extendLease id w d) ∧
    ((∃ owner limit, op = .claim owner limit leaseFor ∧ (∀ u ∈ s.last owner, u < now) ∧
        t.last = update s.last owner (some now)) ∨
      ((∀ owner limit d, op ≠ .claim owner limit d) ∧ t.last = s.last)) := by
  cases op with
  | claim owner limit d =>
    simp only [claimStep] at h
    split at h
    · next hc =>
      obtain ⟨rfl, hlt⟩ := hc
      cases h
      exact ⟨rfl, by simp, .inl ⟨owner, limit, rfl, hlt, rfl⟩⟩
    · cases h
  | extendLease id w d => simp [claimStep] at h
  | _ =>
    cases h
    exact ⟨rfl, by simp, .inr ⟨by simp, rfl⟩⟩

theorem claimStep_last_mono {s : ClaimState} {a : Int × Op} {u : Int}
    (h : claimStep o leaseFor s a = some t) (hu : s.last owner = some u) :
    ∃ u', t.last owner = some u' ∧ u ≤ u' := by
  obtain ⟨-, -, ⟨w, limit, -, hlt, hlast⟩ | ⟨-, hlast⟩⟩ := claimStep_cases h
  · rw [hlast]
    by_cases hw : owner = w
    · subst hw
      exact ⟨a.1, update_self .., Int.le_of_lt (hlt u hu)⟩
    · exact ⟨u, by rw [update_of_ne hw]; exact hu, Int.le_refl u⟩
  · exact ⟨u, by rw [hlast]; exact hu, Int.le_refl u⟩

/-- Every lease in the table was written by a claim its owner has already made. -/
def ClockInv (leaseFor : Int) (s : ClaimState) : Prop :=
  ∀ k m, s.db.get k = some m → LeaseInv m ∧
    ∀ owner e, m.leaseOwner = some owner → m.leaseExpiresAt = some e →
      ∃ t u, s.last owner = some u ∧ t ≤ u ∧ e = t + leaseFor

/-- The lease columns of a row after an operation other than an extension are
those it had, or none, or the ones the claim wrote. -/
theorem RowStep.lease_columns {taken : Bool} {op : Op} {m' : Message}
    (hext : ∀ id w d, op ≠ .extendLease id w d) (h : RowStep now taken m op (some m')) :
    m'.leaseOwner = none ∨
    (m'.leaseOwner = m.leaseOwner ∧ m'.leaseExpiresAt = m.leaseExpiresAt) ∨
    ∃ owner limit leaseFor, op = .claim owner limit leaseFor ∧
      m' = leaseTo owner (now + leaseFor) now m := by
  cases h with
  | same => exact .inr (.inl ⟨rfl, rfl⟩)
  | claimed => exact .inr (.inr ⟨_, _, _, rfl, rfl⟩)
  | extended => exact absurd rfl (hext _ _ _)
  | _ => exact .inl rfl

theorem claimStep_clockInv {s : ClaimState} {a : Int × Op} (hinv : ClockInv leaseFor s)
    (h : claimStep o leaseFor s a = some t) : ClockInv leaseFor t := by
  obtain ⟨now, op⟩ := a
  obtain ⟨hdb, hext, hcase⟩ := claimStep_cases h
  intro k m' hm'
  rw [hdb] at hm'
  cases hk : s.db.get k with
  | none =>
    obtain ⟨newID, d, rfl⟩ := exec_get_new hk hm'
    refine ⟨enqueueDefaults_leaseInv now newID d, ?_⟩
    intro owner e ho
    simp [enqueueDefaults, Draft.message] at ho
  | some m =>
  have hstep : RowStep now _ m op (some m') := hm' ▸ exec_step hk
  obtain ⟨hlease, hclock⟩ := hinv k m hk
  refine ⟨hstep.leaseInv hlease, ?_⟩
  intro owner e ho he
  rcases hstep.lease_columns hext with hnone | ⟨hsame, hsame'⟩ | ⟨w, limit, d, hop, rfl⟩
  · rw [hnone] at ho
    cases ho
  · obtain ⟨u, v, hv, huv, he'⟩ := hclock owner e (hsame ▸ ho) (hsame' ▸ he)
    obtain ⟨v', hv', hle⟩ := claimStep_last_mono h hv
    exact ⟨u, v', hv', Int.le_trans huv hle, he'⟩
  obtain rfl := some.inj ho
  obtain rfl := some.inj he
  rcases hcase with ⟨w', limit', hop', -, hlast⟩ | ⟨hno, -⟩
  · obtain ⟨rfl, rfl, rfl⟩ := Op.claim.inj (hop.symm.trans hop')
    exact ⟨now, now, by rw [hlast, update_self], Int.le_refl now, rfl⟩
  · exact absurd hop (hno w limit d)

/-- The step conditions of a stretch of a run in which a message is neither
handed out again nor given up. -/
def KeptOut (o : RowOrder) (k : Bytes) (s : ClaimState) (a : Int × Op) : Prop :=
  ¬ HandsOut o s.db a.1 k a.2 ∧ ¬ GivesUp s.db a.1 k a.2

/-- A handed-out row keeps its lease while it is neither handed out again nor
given up, and its owner's clock stays at or past the claim. -/
theorem keptOut_lease {until_ : Int} {u : ClaimState} (hk : t.db.get k = some m)
    (hlease : LeasedUntil owner until_ m) (hlast : ∃ v, t.last owner = some v ∧ now ≤ v)
    (h : Reach (claimStep o leaseFor) (KeptOut o k) t u) :
    u.db.get k = some m ∧ ∃ v, u.last owner = some v ∧ now ≤ v := by
  refine Reach.invariant (I := fun u => u.db.get k = some m ∧ ∃ v, u.last owner = some v ∧ now ≤ v)
    ⟨hk, hlast⟩ ?_ h
  rintro s ⟨now', op⟩ s' ⟨hget, v, hv, hle⟩ ⟨hno, hgive⟩ hs
  obtain ⟨hdb, hext, -⟩ := claimStep_cases hs
  obtain ⟨v', hv', hvv⟩ := claimStep_last_mono hs hv
  refine ⟨?_, v', hv', Int.le_trans hle hvv⟩
  rw [hdb]
  exact lease_kept hget hlease hno hgive hext

/-- A message under a lease is handed out again only after the lease expired. -/
theorem handsOut_expired {now' : Int} {owner' : Bytes} {limit' : Int} {u v : ClaimState}
    (hk : u.db.get k = some m) (hlease : LeasedUntil owner (now + leaseFor) m)
    (hlast : ∃ w, u.last owner = some w ∧ now ≤ w)
    (hs : claimStep o leaseFor u (now', .claim owner' limit' leaseFor) = some v)
    (hout : HandsOut o u.db now' k (.claim owner' limit' leaseFor)) : now + leaseFor < now' := by
  rcases handsOut_cases hk hout with hcl | ⟨-, hown, hexp⟩
  · simp only [claimable, hlease.1, hlease.2.2] at hcl
    exact (by simpa using hcl : now + leaseFor < now' ∧ _).1
  · -- read back without being picked: the same owner at the same reading
    have howner : owner = owner' := some.inj (hlease.2.1.symm.trans hown)
    have hsame : now + leaseFor = now' + leaseFor := some.inj (hlease.2.2.symm.trans hexp)
    obtain ⟨-, -, ⟨w, limit, hop, hlt, -⟩ | ⟨hno, -⟩⟩ := claimStep_cases hs
    · obtain ⟨rfl, -, -⟩ := Op.claim.inj hop
      obtain ⟨x, hx, hle⟩ := hlast
      have := hlt x (howner ▸ hx)
      omega
    · exact absurd rfl (hno owner' limit' leaseFor)

/-- **Claims are correct and disjoint.** One call returns exactly the rows its
`UPDATE` leased (`ClaimSpec`), for every table whose status agrees with its
lease columns and in which this worker's leases stem from earlier readings; in
every run from an empty table each claim is such a call. And from any state, a
message handed out under one claim is, until it is given up, handed out again
only by a claim whose reading lies after the expiry of the first lease. -/
theorem claims_exact_and_disjoint (o : RowOrder) (leaseFor : Int) :
    (∀ (db : DB) (now : Int) (owner : Bytes) (limit : Int), SendingIffLeased db →
      owner ≠ [] → 0 < limit → EarlierLeases db now owner leaseFor →
      ∃ rows, (claimMessages o db now owner limit leaseFor).1 = .ok rows ∧
        ClaimSpec db (claimMessages o db now owner limit leaseFor).2 now owner limit leaseFor rows) ∧
    (∀ s, Reach (claimStep o leaseFor) (fun _ _ => True) ⟨.empty, fun _ => none⟩ s →
      ∀ now owner limit t, owner ≠ [] → 0 < limit →
      claimStep o leaseFor s (now, .claim owner limit leaseFor) = some t →
      ∃ rows, (claimMessages o s.db now owner limit leaseFor).1 = .ok rows ∧
        ClaimSpec s.db t.db now owner limit leaseFor rows) ∧
    (∀ (s t : ClaimState) (now : Int) (owner : Bytes) (limit : Int) (k : Bytes),
      claimStep o leaseFor s (now, .claim owner limit leaseFor) = some t →
      HandsOut o s.db now k (.claim owner limit leaseFor) →
      ∀ u, Reach (claimStep o leaseFor) (KeptOut o k) t u →
      ∀ now' owner' limit' v,
      claimStep o leaseFor u (now', .claim owner' limit' leaseFor) = some v →
      HandsOut o u.db now' k (.claim owner' limit' leaseFor) → now + leaseFor < now') := by
  refine ⟨?_, ?_, ?_⟩
  · intro db now owner limit hinv howner hlimit hearlier
    exact claimMessages_spec hinv howner hlimit hearlier
  · intro s hreach now owner limit t howner hlimit hs
    have hclock : ClockInv leaseFor s := by
      refine Reach.invariant (I := ClockInv leaseFor) ?_ ?_ hreach
      · intro k m h
        simp [DB.empty, DB.get] at h
      intro s a t hinv _ hs
      exact claimStep_clockInv hinv hs
    obtain ⟨hdb, -, ⟨w, limit', hop, hlt, -⟩ | ⟨hno, -⟩⟩ := claimStep_cases hs
    · obtain ⟨rfl, rfl, -⟩ := Op.claim.inj hop
      rw [hdb]
      refine claimMessages_spec (fun k m hk => (hclock k m hk).1.sending_iff) howner hlimit ?_
      intro k m hk hown e he
      obtain ⟨x, y, hy, hxy, hex⟩ := (hclock k m hk).2 owner e hown he
      exact ⟨x, Int.lt_of_le_of_lt hxy (hlt y hy), hex⟩
    · exact absurd rfl (hno owner limit leaseFor)
  intro s t now owner limit k hs hout u hreach now' owner' limit' v hv hout'
  obtain ⟨hdb, -, ⟨w, limit₀, hop, -, hlast⟩ | ⟨hno, -⟩⟩ := claimStep_cases hs
  · obtain ⟨rfl, -, -⟩ := Op.claim.inj hop
    obtain ⟨rows, hok, hmem⟩ := hout
    obtain ⟨r, hr, rfl⟩ := List.mem_map.1 hmem
    obtain ⟨hget, hlease⟩ := claim_returned hok hr
    have hget' : t.db.get r.id = some r := hdb ▸ hget
    have hnow : ∃ v, t.last owner = some v ∧ now ≤ v :=
      ⟨now, by rw [hlast, update_self], Int.le_refl now⟩
    obtain ⟨hu, hlast'⟩ := keptOut_lease hget' hlease hnow hreach
    exact handsOut_expired hu hlease hlast' hv hout'
  · exact absurd rfl (hno owner limit leaseFor)

def oneQueued : DB := ⟨⟨[{ id := ascii "m", nextAttemptAt := 3 }], by simp⟩, .empty⟩

/-- The message goes to the first worker at 5 and to a second one at 16, past the
lease that ended at 15. -/
theorem claims_exact_and_disjoint_oneQueued :
    (∃ rows, (claimMessages byNextAttempt oneQueued 5 (ascii "a") 1 10).1 = .ok rows ∧
      ClaimSpec oneQueued (claimMessages byNextAttempt oneQueued 5 (ascii "a") 1 10).2
        5 (ascii "a") 1 10 rows) ∧
    (5 : Int) + 10 < 16 := by
  obtain ⟨hexact, -, hagain⟩ := claims_exact_and_disjoint byNextAttempt 10
  have hrow : ∀ k m, oneQueued.get k = some m → m = { id := ascii "m", nextAttemptAt := 3 } := by
    intro k m h
    simpa [oneQueued] using mem_of_get h
  refine ⟨hexact oneQueued 5 (ascii "a") 1 ?_ (by decide) (by decide) ?_, ?_⟩
  · intro k m h
    rw [hrow k m h]
    decide
  · intro k m h hown
    rw [hrow k m h] at hown
    exact absurd hown (by decide)
  exact hagain ⟨oneQueued, fun _ => none⟩ _ 5 (ascii "a") 1 (ascii "m")
    (by simp [claimStep]; rfl) ⟨_, rfl, by decide⟩ _ .refl 16 (ascii "b") 1 _
    (by simp [claimStep, update, ascii]; rfl) ⟨_, rfl, by decide⟩

end SmtpProxy.Store
