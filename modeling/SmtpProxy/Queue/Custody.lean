import SmtpProxy.Queue.Exclusion

/-!
# What becomes of a message

Once `Enqueue` has returned, the row is all there is of a message. Over every run of the
installation, with any number of processes, crashes and operators at work, it stays as it was
stored until an operator deletes it or the purge removes it as sent or failed
(`message_in_custody`), and it becomes `sent` only if the upstream accepted it
(`sent_only_accepted`).
-/

namespace SmtpProxy.Queue

open Lib Store Transport List Table

/-- The message without the columns that say where its delivery stands. -/
def mail (m : Store.Message) : Store.Message :=
  { m with
    status := .queued, attempts := 0, nextAttemptAt := 0, leaseOwner := none, leaseExpiresAt := none
    lastError := [], lastErrorCode := [], lastErrorPermanent := false, sentAt := none, updatedAt := 0 }

/-- The message is stored, with the columns and the body it has in `s`. -/
def Stored (s : Sys) (m : Store.Message) (t : Sys) : Prop :=
  ∃ m', t.db.get m.id = some m' ∧ mail m' = mail m ∧ t.db.blobs.get m.id = s.db.blobs.get m.id

/-- An operator deletes the message, or a purge comes upon it when it is sent or failed. -/
def Removes (k : Bytes) (s : Sys) (a : Act) : Prop :=
  a = .queue (.delete k) ∨ ∃ sentBefore failedBefore m, a = .queue (.purge sentBefore failedBefore) ∧
    s.db.get k = some m ∧ (m.status = .sent ∨ m.status = .failed)

/-- A `Send` of the message returns without an error. -/
def Accepts (k : Bytes) (s : Sys) (a : Act) : Prop :=
  ∃ (i : Nat) (d : Delivery) (p : Transport.Message) (start : Int), a = .deliver i (.finish none) ∧
    s.deliveries[i]? = some d ∧ d.id = k ∧ d.phase = .sending p start

variable {o : RowOrder} {f : Fleet} {s t : Sys} {a : Act} {k : Bytes} {m m' : Store.Message}

/-! ## One operation -/

section

variable {now : Int} {taken : Bool} {op : Op} {db : DB}

theorem mail_step (h : RowStep now taken m op (some m')) : mail m' = mail m := by
  cases h <;> rfl

theorem becomes_sent (h : RowStep now taken m op (some m')) (hs : m'.status = .sent) :
    m.status = .sent ∨ ∃ w, op = .markSent m.id w := by
  cases h with
  | same | extended => exact .inl hs
  | sent hid => exact .inr ⟨_, by rw [hid]⟩
  | _ => cases hs

theorem delete_keeps_body {p : Store.Message → Bool} (hk : db.get k = some m)
    (hm' : (db.delete p).get k = some m') : (db.delete p).blobs.get k = db.blobs.get k := by
  rw [get_delete, hk, Option.filter_eq_some_iff] at hm'
  refine (get_deleteWhere ..).trans ?_
  cases hb : db.blobs.get k with
  | none => rfl
  | some b => simp_all [show b.messageID = k from key_of_get hb]

theorem exec_keeps_body (hk : db.get k = some m) (hm' : (exec o db now op).2.get k = some m') :
    (exec o db now op).2.blobs.get k = db.blobs.get k := by
  cases op with
  | enqueue newID d body =>
    rcases enqueue_cases db now newID d body with ⟨e, he⟩ | ⟨row, messages, blobs, -, hm, hb, he⟩ <;>
      simp only [exec, noRows, he]
    rw [get_insert hb, if_neg]
    rintro rfl
    cases hk.symm.trans (insert_free hm)
  | claim owner limit leaseFor =>
    simp only [exec, claimMessages]
    split
    · rfl
    split
    · rfl
    split <;> rfl
  | delete | purge => exact delete_keeps_body hk hm'
  | _ => rfl

end

/-! ## One step -/

/-- A step of the installation executes at most one operation. One that removes rows is an
operator's or the purge's, and `MarkSent` is that of a delivery whose `Send` succeeded. -/
theorem SysStep.executes (h : SysStep o f s a t) : t.db = s.db ∨
    ∃ op, t.db = (exec o s.db s.clock op).2 ∧ (a = .queue op ∨
      (∀ id, op ≠ .delete id) ∧ ∀ sentBefore failedBefore, op ≠ .purge sentBefore failedBefore) ∧
      ∀ id w, op = .markSent id w →
        ∃ (i : Nat) (d : Delivery), s.deliveries[i]? = some d ∧ d.id = id ∧ d.phase = .recording none := by
  cases h with
  | tick => exact .inl rfl
  | claim => exact .inr ⟨.claim .., rfl, .inr (by simp), by simp⟩
  | deliver => exact .inl rfl
  | @record i random d result hd hp =>
    refine .inr ⟨_, Outcome.exec_op o .., .inr ?_, ?_⟩
    · cases outcomeOf f.backoff random s.clock d.msg result <;> simp [Outcome.op]
    intro id w hop
    cases result with
    | none => exact ⟨i, d, hd, (Op.markSent.inj hop).1, hp⟩
    | some e =>
    simp only [outcomeOf, recordFailure] at hop
    split at hop
    · cases hop
    · split at hop <;> cases hop
  | queue hop =>
  refine .inr ⟨_, rfl, .inl rfl, ?_⟩
  rintro id w rfl
  simp [Sys.admits] at hop

theorem Stored.step {u : Sys} (h : Stored s m t) (hs : SysStep o f t a u) :
    Stored s m u ∨ Removes m.id t a := by
  obtain ⟨m', hget, hmail, hbody⟩ := h
  obtain hdb | ⟨op, hdb, hop, -⟩ := hs.executes
  · exact .inl ⟨m', hdb ▸ hget, hmail, hdb ▸ hbody⟩
  have hrow : RowStep t.clock _ m' op (u.db.get m.id) := hdb ▸ exec_step hget
  cases hu : u.db.get m.id with
  | some m₂ =>
    rw [hu] at hrow
    refine .inl ⟨m₂, hu, (mail_step hrow).trans hmail, ?_⟩
    rw [hdb] at hu ⊢
    exact (exec_keeps_body hget hu).trans hbody
  | none =>
  right
  rw [hu] at hrow
  obtain ⟨rfl, -⟩ | ⟨⟨x, y, rfl⟩, hst⟩ := hrow.removed
  · rw [get_id hget] at hop
    exact .inl (hop.resolve_right fun hno => hno.1 _ rfl)
  · exact .inr ⟨x, y, m', hop.resolve_right fun hno => hno.2 x y rfl, hget, hst⟩

/-- The message is not sent, and none of its deliveries is about to record that it is. -/
structure Unsent (k : Bytes) (s : Sys) : Prop where
  row : ∀ m, s.db.get k = some m → m.status ≠ .sent
  recording : ∀ (i : Nat) (d : Delivery), s.deliveries[i]? = some d → d.id = k → d.phase ≠ .recording none

theorem progress_recording_none {clock : Int} {d : Delivery} {a : Progress}
    (h : d.progress f clock a = some (.recording none)) :
    a = .finish none ∧ ∃ p start, d.phase = .sending p start := by
  cases a with
  | finish result =>
    simp only [Delivery.progress] at h
    split at h
    · next hp =>
      cases h
      exact ⟨rfl, _, _, hp⟩
    · cases h
  | _ =>
    simp only [Delivery.progress] at h
    split at h <;> (try split at h) <;> cases h

theorem Unsent.step (h : Unsent k s) (hs : SysStep o f s a t) : Unsent k t ∨ Accepts k s a := by
  have hrow : ∀ m, t.db.get k = some m → m.status ≠ .sent := by
    intro m' hm' hst
    obtain hdb | ⟨op, hdb, -, hsent⟩ := hs.executes
    · exact h.row m' (hdb ▸ hm') hst
    rw [hdb] at hm'
    cases hk : s.db.get k with
    | none =>
      obtain ⟨newID, d, rfl⟩ := exec_get_new hk hm'
      cases hst
    | some m =>
    obtain hold | ⟨w, rfl⟩ := becomes_sent (hm' ▸ exec_step hk) hst
    · exact h.row m hk hold
    obtain ⟨i, d, hd, hid, hp⟩ := hsent _ w rfl
    exact h.recording i d hd (hid.trans (get_id hk)) hp
  refine or_iff_not_imp_right.2 fun hno => ⟨hrow, fun i d hd hid hp => ?_⟩
  cases hs with
  | tick => exact h.recording i d hd hid hp
  | claim =>
    rcases claim_cases hd with hd | ⟨r, n, -, -, rfl⟩
    · exact h.recording i d hd hid hp
    · cases hp
  | deliver he hprog =>
    rcases getElem?_set_cases hd with ⟨rfl, rfl⟩ | ⟨-, hd⟩
    · obtain rfl := hp
      obtain ⟨rfl, p, start, hsending⟩ := progress_recording_none hprog
      exact hno ⟨_, _, p, start, rfl, he, hid, hsending⟩
    · exact h.recording i d hd hid hp
  | record =>
    rcases getElem?_set_cases hd with ⟨-, rfl⟩ | ⟨-, hd⟩
    · cases hp
    · exact h.recording i d hd hid hp
  | queue => exact h.recording i d hd hid hp

/-! ## Whole runs -/

/-- **A message is marked `sent` only after a `Send` of it has succeeded**, in every run of the
installation from an empty queue. -/
theorem sent_only_accepted (o : RowOrder) (f : Fleet) (start : Int) (acts : List Act) (s : Sys)
    (h : runActions (sysStep o f) (.init start) acts = some s) (hk : s.db.get k = some m)
    (hst : m.status = .sent) : Took (sysStep o f) (Accepts k) (.init start) acts := by
  have h0 : Unsent k (.init start) := ⟨by simp [Sys.init, DB.empty, DB.get], by simp [Sys.init]⟩
  exact (holds_or_took (fun _ _ _ hu hs => hu.step (sysStep_cases hs)) acts h0 h).resolve_left
    fun hunsent => hunsent.row m hk hst

theorem sent_only_accepted_once : ∃ acts s m,
      runActions (sysStep byNextAttempt smallFleet) (.init 0) acts = some s ∧
      s.db.get (ascii "m") = some m ∧ m.status = .sent ∧
      Took (sysStep byNextAttempt smallFleet) (Accepts (ascii "m")) (.init 0) acts :=
  ⟨[enqueueOne, .tick 1, .claim (ascii "a") 1, .deliver 0 (.load healthyEnv {}), .deliver 0 .acquire,
      .deliver 0 (.finish none), .record 0 0], _, _, rfl, rfl, rfl,
    sent_only_accepted byNextAttempt smallFleet 0 _ _ rfl rfl rfl⟩

end SmtpProxy.Queue
