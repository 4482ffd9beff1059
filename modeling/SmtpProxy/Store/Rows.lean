import SmtpProxy.Lib.Reach
import SmtpProxy.Store.Messages

/-!
# The queue, row by row

Every statement of `messages.go` acts on each row by itself, apart from the
claim's `ORDER BY … LIMIT`, which decides which claimable rows it takes.
`onRow` says once what each operation does to a row, and `exec_get_some` proves
that the table operation is exactly this row operation applied to every row. All
invariants of the queue are proved about `onRow` and carried to the tables by
that one theorem.
-/

namespace SmtpProxy.Store

open Lib Option Table

/-- The operations on the queue, with the arguments their callers choose. -/
inductive Op where
  | enqueue (newID : Bytes) (d : Draft) (body : Bytes)
  | claim (owner : Bytes) (limit : Int) (leaseFor : Int)
  | extendLease (id owner : Bytes) (leaseFor : Int)
  | markSent (id owner : Bytes)
  | defer (id owner : Bytes) (f : Failure) (retryAt : Int)
  | fail (id owner : Bytes) (f : Failure)
  | requeue (id : Bytes)
  | hold (id : Bytes)
  | delete (id : Bytes)
  | releaseExpiredLeases
  | purge (sentBefore failedBefore : Int)

def noRows {α : Type} (r : Except Err α × DB) : Except Err (List Message) × DB :=
  (r.1.map fun _ => [], r.2)

/-- Execute one operation at clock reading `now`. -/
def exec (o : RowOrder) (db : DB) (now : Int) : Op → Except Err (List Message) × DB
  | .enqueue newID d body => noRows (enqueue db now newID none d.message (some body))
  | .claim owner limit leaseFor => claimMessages o db now owner limit leaseFor
  | .extendLease id owner leaseFor => noRows (extendLease db now id owner leaseFor)
  | .markSent id owner => noRows (markSent db now id owner)
  | .defer id owner f retryAt => noRows (deferMessage db now id owner f retryAt)
  | .fail id owner f => noRows (failMessage db now id owner f)
  | .requeue id => noRows (requeue db now id)
  | .hold id => noRows (hold db now id)
  | .delete id => noRows (deleteMessage db id)
  | .releaseExpiredLeases => (.ok [], (releaseExpiredLeases db now).2)
  | .purge sentBefore failedBefore => (.ok [], (purge db sentBefore failedBefore).2)

def picked (o : RowOrder) (db : DB) (now : Int) (id : Bytes) : Op → Bool
  | .claim owner limit _ =>
    decide (owner ≠ []) && decide (0 < limit) && (claimIDs o db now limit).contains id
  | _ => false

def whenLeased (id owner : Bytes) (set : Message → Message) (m : Message) : Message :=
  if m.id = id ∧ m.leaseOwner = some owner then set m else m

def whenStatus (id : Bytes) (statuses : List MessageStatus) (set : Message → Message)
    (m : Message) : Message :=
  if m.id = id ∧ m.status ∈ statuses then set m else m

/-- What an operation does to one row; `none` is removal. `taken` is the claim's
choice for this row. -/
def onRow (now : Int) (taken : Bool) : Op → Message → Option Message
  | .enqueue _ _ _, m => some m
  | .claim owner _ leaseFor, m =>
    some (if taken then leaseTo owner (now + leaseFor) now m else m)
  | .extendLease id owner leaseFor, m => some (whenLeased id owner (extendSet now leaseFor) m)
  | .markSent id owner, m => some (whenLeased id owner (sentSet now) m)
  | .defer id owner f retryAt, m => some (whenLeased id owner (deferSet now f retryAt) m)
  | .fail id owner f, m => some (whenLeased id owner (failSet now f) m)
  | .requeue id, m => some (whenStatus id [.failed, .deferred, .held] (requeueSet now) m)
  | .hold id, m => some (whenStatus id [.queued, .deferred, .failed] (holdSet now) m)
  | .delete id, m => if m.id = id ∧ m.status ≠ .sending then none else some m
  | .releaseExpiredLeases, m => some (if leaseExpired now m then releaseSet now m else m)
  | .purge sentBefore failedBefore, m =>
    if purgeable sentBefore failedBefore m then none else some m

/-- The operation is an outcome write by the worker that owns the row. -/
def Settles (m : Message) : Op → Prop
  | .markSent id owner => m.id = id ∧ m.leaseOwner = some owner
  | .defer id owner _ _ => m.id = id ∧ m.leaseOwner = some owner
  | .fail id owner _ => m.id = id ∧ m.leaseOwner = some owner
  | _ => False

/-- Everything an operation can do to a row, with the guard under which it does
it. -/
inductive RowStep (now : Int) (taken : Bool) (m : Message) : Op → Option Message → Prop where
  | same {op : Op} (hno : ¬ Settles m op) : RowStep now taken m op (some m)
  | claimed {owner : Bytes} {limit leaseFor : Int} (htaken : taken = true) :
      RowStep now taken m (.claim owner limit leaseFor)
        (some (leaseTo owner (now + leaseFor) now m))
  | extended {id owner : Bytes} {leaseFor : Int} (hid : m.id = id)
      (hown : m.leaseOwner = some owner) :
      RowStep now taken m (.extendLease id owner leaseFor) (some (extendSet now leaseFor m))
  | sent {id owner : Bytes} (hid : m.id = id) (hown : m.leaseOwner = some owner) :
      RowStep now taken m (.markSent id owner) (some (sentSet now m))
  | deferred {id owner : Bytes} {f : Failure} {retryAt : Int} (hid : m.id = id)
      (hown : m.leaseOwner = some owner) :
      RowStep now taken m (.defer id owner f retryAt) (some (deferSet now f retryAt m))
  | failed {id owner : Bytes} {f : Failure} (hid : m.id = id)
      (hown : m.leaseOwner = some owner) :
      RowStep now taken m (.fail id owner f) (some (failSet now f m))
  | requeued {id : Bytes} (hid : m.id = id) (hst : m.status ∈ [.failed, .deferred, .held]) :
      RowStep now taken m (.requeue id) (some (requeueSet now m))
  | held {id : Bytes} (hid : m.id = id) (hst : m.status ∈ [.queued, .deferred, .failed]) :
      RowStep now taken m (.hold id) (some (holdSet now m))
  | deleted {id : Bytes} (hid : m.id = id) (hst : m.status ≠ .sending) :
      RowStep now taken m (.delete id) none
  | released (hexp : leaseExpired now m = true) :
      RowStep now taken m .releaseExpiredLeases (some (releaseSet now m))
  | purged {sentBefore failedBefore : Int} (hp : purgeable sentBefore failedBefore m = true) :
      RowStep now taken m (.purge sentBefore failedBefore) none

theorem onRow_step (now : Int) (taken : Bool) (op : Op) (m : Message) :
    RowStep now taken m op (onRow now taken op m) := by
  cases op with
  | enqueue newID d body => exact .same id
  | claim owner limit leaseFor =>
    cases taken with
    | true => exact .claimed rfl
    | false => exact .same id
  | extendLease k owner leaseFor =>
    rw [onRow, whenLeased]
    split
    · next h => exact .extended h.1 h.2
    · exact .same id
  | markSent k owner =>
    rw [onRow, whenLeased]
    split
    · next h => exact .sent h.1 h.2
    · next h => exact .same h
  | defer k owner f retryAt =>
    rw [onRow, whenLeased]
    split
    · next h => exact .deferred h.1 h.2
    · next h => exact .same h
  | fail k owner f =>
    rw [onRow, whenLeased]
    split
    · next h => exact .failed h.1 h.2
    · next h => exact .same h
  | requeue k =>
    rw [onRow, whenStatus]
    split
    · next h => exact .requeued h.1 h.2
    · exact .same id
  | hold k =>
    rw [onRow, whenStatus]
    split
    · next h => exact .held h.1 h.2
    · exact .same id
  | delete k =>
    rw [onRow]
    split
    · next h => exact .deleted h.1 h.2
    · exact .same id
  | releaseExpiredLeases =>
    rw [onRow]
    split
    · next h => exact .released h
    · exact .same id
  | purge sentBefore failedBefore =>
  rw [onRow]
  split
  · next h => exact .purged h
  · exact .same id

/-! ## The tables, pointwise -/

@[simp] theorem get_update (db : DB) (p : Message → Bool) (set : Message → Message)
    (hset : ∀ m, (set m).id = m.id) (k : Bytes) :
    (db.update p set hset).get k = (db.get k).map fun m => if p m then set m else m :=
  get_updateWhere db.messages p set hset k

@[simp] theorem get_delete (db : DB) (p : Message → Bool) (k : Bytes) :
    (db.delete p).get k = (db.get k).filter fun m => !p m :=
  get_deleteWhere ..

@[simp] theorem blobs_update (db : DB) (p : Message → Bool) (set : Message → Message)
    (hset : ∀ m, (set m).id = m.id) : (db.update p set hset).blobs = db.blobs := rfl

variable {db : DB} {k : Bytes} {m : Message}

theorem get_id (h : db.get k = some m) : m.id = k := key_of_get h

theorem mem_rows_iff : m ∈ db.messages.rows ↔ db.get m.id = some m :=
  ⟨get_key, mem_of_get⟩

theorem count_eq_zero_iff {p : Message → Bool} :
    db.count p = 0 ↔ ∀ k m, db.get k = some m → p m = false := by
  unfold DB.count
  rw [List.length_eq_zero_iff, List.filter_eq_nil_iff]
  constructor
  · intro h k m hk
    simpa using h m (mem_of_get hk)
  intro h m hm
  simpa using h m.id m (mem_rows_iff.1 hm)

theorem count_id_eq_zero_iff (db : DB) (id : Bytes) (g : Message → Bool) :
    db.count (fun m => decide (m.id = id) && g m) = 0 ↔ ¬ ∃ m, db.get id = some m ∧ g m = true := by
  rw [count_eq_zero_iff]
  constructor
  · rintro h ⟨m, hm, hg⟩
    have hfalse := h id m hm
    rw [get_id hm, hg] at hfalse
    simp at hfalse
  intro h k m hk
  by_cases hid : m.id = id
  · have hg : g m = false := by
      rw [Bool.eq_false_iff]
      intro hg
      exact h ⟨m, by rw [← hid, get_id hk]; exact hk, hg⟩
    simp [hg]
  · simp [hid]

variable {id owner : Bytes} {set : Message → Message} {hset : ∀ m, (set m).id = m.id}

theorem updateLeased_ok_iff : (updateLeased db id owner set hset).1 = .ok () ↔
      ∃ m, db.get id = some m ∧ m.leaseOwner = some owner := by
  have hzero := count_id_eq_zero_iff db id fun m => decide (m.leaseOwner = some owner)
  simp only [decide_eq_true_eq] at hzero
  show requireOneRow _ _ = .ok () ↔ _
  unfold requireOneRow
  split
  · next h0 => simpa using hzero.1 h0
  · next h0 => simpa using not_not.1 fun h => h0 (hzero.2 h)

theorem updateInStatus_ok_iff {statuses : List MessageStatus} :
    (updateInStatus db id statuses set hset).1 = .ok () ↔
      ∃ m, db.get id = some m ∧ m.status ∈ statuses := by
  have hzero := count_id_eq_zero_iff db id fun m => statuses.contains m.status
  simp only [List.contains_iff_mem] at hzero
  show requireAction _ _ _ = .ok () ↔ _
  unfold requireAction
  split
  · next hpos => simpa using not_not.1 fun h => (Nat.pos_iff_ne_zero.1 hpos) (hzero.2 h)
  next hpos =>
  have hno := hzero.1 (by omega)
  split <;> simpa using hno

/-! ## `exec` is `onRow` on every row -/

variable {o : RowOrder} {now : Int} {op : Op}

/-- Nothing is picked outside an accepted claim, and what a claim picks was
claimable. -/
theorem picked_claimable (hk : db.get k = some m) (h : picked o db now k op = true) :
    claimable now m = true := by
  cases op with
  | claim owner limit leaseFor =>
    simp only [picked, Bool.and_eq_true, List.contains_iff_mem] at h
    obtain ⟨m', hm', hid⟩ := List.mem_map.1 h.2
    have hsel := (o.perm _).mem_iff.1 (List.mem_of_mem_take hm')
    obtain ⟨hrow, hcl⟩ := List.mem_filter.1 hsel
    have hsame : some m' = some m := by rw [← mem_rows_iff.1 hrow, hid, hk]
    rw [← some.inj hsame]
    exact hcl
  | _ => simp [picked] at h

theorem claimMessages_get {limit : Int} {leaseFor : Int} :
    (claimMessages o db now owner limit leaseFor).2.get k = (db.get k).map fun m =>
      if picked o db now m.id (.claim owner limit leaseFor)
      then leaseTo owner (now + leaseFor) now m else m := by
  unfold claimMessages
  by_cases howner : owner = []
  · simp [howner, picked]
  by_cases hlimit : limit ≤ 0
  · simp [howner, hlimit, picked, Int.not_lt.2 hlimit]
  have hpick : ∀ m : Message, picked o db now m.id (.claim owner limit leaseFor)
      = (claimIDs o db now limit).contains m.id := by
    intro m
    simp [picked, howner, Int.not_le.1 hlimit]
  rw [if_neg howner, if_neg hlimit]
  have hupd : (claimUpdate o db now owner limit leaseFor).get k = (db.get k).map fun m =>
      if picked o db now m.id (.claim owner limit leaseFor)
      then leaseTo owner (now + leaseFor) now m else m := by
    simp only [hpick]
    exact get_update ..
  split <;> exact hupd

theorem updateLeased_get :
    (updateLeased db id owner set hset).2.get k = (db.get k).map (whenLeased id owner set) := by
  show (db.update _ set hset).get k = _
  rw [get_update]
  congr 1
  funext m
  simp [whenLeased]

theorem updateLeased_lost (h : ¬ ∃ m, db.get id = some m ∧ m.leaseOwner = some owner) (k : Bytes) :
    (updateLeased db id owner set hset).2.get k = db.get k := by
  rw [updateLeased_get]
  cases hk : db.get k with
  | none => rfl
  | some m =>
  rw [map_some, whenLeased, if_neg]
  rintro ⟨hid, hown⟩
  exact h ⟨m, by rw [← hid, get_id hk]; exact hk, hown⟩

theorem updateInStatus_get {statuses : List MessageStatus} :
    (updateInStatus db id statuses set hset).2.get k
      = (db.get k).map (whenStatus id statuses set) := by
  show (db.update _ set hset).get k = _
  rw [get_update]
  congr 1
  funext m
  simp [whenStatus]

theorem enqueue_cases (db : DB) (now : Int) (newID : Bytes) (d : Draft) (body : Bytes) :
    (∃ e, enqueue db now newID none d.message (some body) = (.error e, db)) ∨
    ∃ row messages blobs, row = enqueueDefaults now newID none d.message ∧
      db.messages.insert row = some messages ∧ db.blobs.insert ⟨row.id, body⟩ = some blobs ∧
      enqueue db now newID none d.message (some body) = (.ok row.id, ⟨messages, blobs⟩) := by
  simp only [enqueue]
  cases hm : db.messages.insert (enqueueDefaults now newID none d.message) with
  | none => exact .inl ⟨_, rfl⟩
  | some messages =>
  dsimp only
  cases hb : db.blobs.insert ⟨(enqueueDefaults now newID none d.message).id, body⟩ with
  | none => exact .inl ⟨_, rfl⟩
  | some blobs => exact .inr ⟨_, messages, blobs, rfl, hm, hb, rfl⟩

theorem enqueue_get (db : DB) (now : Int) (newID : Bytes) (d : Draft) (body k : Bytes) :
    (enqueue db now newID none d.message (some body)).2.get k = db.get k ∨
    db.get k = none ∧ (enqueueDefaults now newID none d.message).id = k ∧
      (enqueue db now newID none d.message (some body)).2.get k
        = some (enqueueDefaults now newID none d.message) := by
  rcases enqueue_cases db now newID d body with ⟨e, he⟩ | ⟨row, messages, blobs, hrow, hm, hb, he⟩
  · rw [he]
    exact .inl rfl
  rw [he]
  show messages.get k = db.messages.get k ∨ _
  by_cases hk : row.id = k
  · right
    refine ⟨?_, hrow ▸ hk, ?_⟩
    · rw [← hk]
      exact insert_free hm
    show messages.get k = _
    rw [get_insert hm, if_pos hk, hrow]
  left
  rw [get_insert hm, if_neg hk]

/-- **The table operation is the row operation on every stored row.** -/
theorem exec_get_some (hk : db.get k = some m) :
    (exec o db now op).2.get k = onRow now (picked o db now k op) op m := by
  have hid := get_id hk
  cases op with
  | enqueue newID d body =>
    rcases enqueue_get db now newID d body k with h | ⟨h, -, -⟩
    · exact h.trans hk
    rw [hk] at h
    cases h
  | claim owner limit leaseFor =>
    show (claimMessages o db now owner limit leaseFor).2.get k = _
    rw [claimMessages_get, hk, map_some, hid]
    rfl
  | extendLease | markSent | defer | fail => exact updateLeased_get.trans (by rw [hk]; rfl)
  | requeue | hold => exact updateInStatus_get.trans (by rw [hk]; rfl)
  | delete id =>
    refine (get_delete db _ k).trans ?_
    rw [hk, onRow, filter_some]
    by_cases hc : m.id = id ∧ m.status ≠ .sending
    · rw [if_pos hc, if_neg (by simp [hc.1, hc.2])]
    · rw [if_neg hc, if_pos (by simpa [Classical.or_iff_not_imp_left] using hc)]
  | releaseExpiredLeases =>
    refine (get_update ..).trans ?_
    rw [hk]
    rfl
  | purge sentBefore failedBefore =>
  refine (get_delete db _ k).trans ?_
  rw [hk, onRow, filter_some]
  cases purgeable sentBefore failedBefore m <;> rfl

/-- What one operation does to a stored row. -/
theorem exec_step (hk : db.get k = some m) :
    RowStep now (picked o db now k op) m op ((exec o db now op).2.get k) := by
  rw [exec_get_some hk]
  exact onRow_step ..

/-- The operation is an outcome write on this message, and it succeeds. -/
def RecordsOutcome (db : DB) (now : Int) (k : Bytes) : Op → Prop
  | .markSent id owner => id = k ∧ (markSent db now id owner).1 = .ok ()
  | .defer id owner f retryAt => id = k ∧ (deferMessage db now id owner f retryAt).1 = .ok ()
  | .fail id owner f => id = k ∧ (failMessage db now id owner f).1 = .ok ()
  | _ => False

theorem recordsOutcome_iff (hk : db.get k = some m) :
    RecordsOutcome db now k op ↔ Settles m op := by
  have hleased : ∀ {id owner : Bytes} {set : Message → Message} {hset : ∀ m, (set m).id = m.id},
      (id = k ∧ (updateLeased db id owner set hset).1 = .ok ()) ↔
        (m.id = id ∧ m.leaseOwner = some owner) := by
    intro id owner set hset
    rw [updateLeased_ok_iff, get_id hk, eq_comm (a := id)]
    refine and_congr_right fun hid => ?_
    rw [← hid, hk]
    simp
  cases op with
  | markSent | defer | fail => exact hleased
  | _ => exact Iff.rfl

theorem exec_get_none (o : RowOrder) (now : Int) (op : Op) (hk : db.get k = none) :
    (exec o db now op).2.get k = none ∨
    ∃ newID d body, op = .enqueue newID d body ∧ (enqueueDefaults now newID none d.message).id = k ∧
      (exec o db now op).2.get k = some (enqueueDefaults now newID none d.message) := by
  cases op with
  | enqueue newID d body =>
    rcases enqueue_get db now newID d body k with h | ⟨-, hid, h⟩
    · exact .inl (h.trans hk)
    · exact .inr ⟨newID, d, body, rfl, hid, h⟩
  | claim owner limit leaseFor =>
    left
    show (claimMessages o db now owner limit leaseFor).2.get k = _
    rw [claimMessages_get, hk]
    rfl
  | extendLease | markSent | defer | fail => exact .inl (updateLeased_get.trans (by rw [hk]; rfl))
  | requeue | hold => exact .inl (updateInStatus_get.trans (by rw [hk]; rfl))
  | delete id => exact .inl ((get_delete db _ k).trans (by rw [hk]; rfl))
  | releaseExpiredLeases => exact .inl ((get_update ..).trans (by rw [hk]; rfl))
  | purge sentBefore failedBefore => exact .inl ((get_delete db _ k).trans (by rw [hk]; rfl))

theorem exec_get_new (hk : db.get k = none) (hm : (exec o db now op).2.get k = some m) :
    ∃ newID, ∃ d : Draft, m = enqueueDefaults now newID none d.message := by
  rcases exec_get_none o now op hk with hn | ⟨newID, d, body, -, -, hn⟩
  · cases hn.symm.trans hm
  · exact ⟨newID, d, some.inj (hm.symm.trans hn)⟩

end SmtpProxy.Store
