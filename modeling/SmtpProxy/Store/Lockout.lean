import SmtpProxy.Lib.Interleave
import SmtpProxy.Store.Users

/-!
# Counting failed sign-ins

`RecordFailedLogin` reads the count of failures in one statement and writes it,
one larger, in the next. Under read-committed isolation nothing keeps another
transaction from committing in between; the later write then puts back a count
that is too small, and with it takes back a lock that is already set.

`failed_logins_counted_iff`: any number of these transactions count every failure
exactly when none of them commits after another has changed the count it read.
-/

namespace SmtpProxy.Store

open Lib List Option

abbrev Recording := Pool AdminOp Fate AdminDB (Except Err Unit)

variable (id : Bytes) (threshold lockFor : Int)

/-- The count the transactions change. -/
def failedLoginsOf (db : AdminDB) : Option Int := (db.users.get id).map AdminUser.failedLogins

abbrev record (p : Recording) (a : Nat × Fate) : Option Recording := p.step (failedLoginsOf id) a

def recording (db : AdminDB) (k : Nat) : Recording :=
  .start db (List.replicate k (UserRepo.recordFailedLogin id threshold lockFor))

def commitsNow (p : Recording) (a : Nat × Fate) : Bool :=
  a.2.failure.isNone &&
    (p.clients[a.1]?).any fun c => decide (c.rest.op? = some .failedLoginsUpdate)

/-- A transaction commits only while the count is the one it read. -/
def InTurn (p : Recording) (a : Nat × Fate) : Prop :=
  (commitsNow p a && (p.clients[a.1]?).any Client.overtaken) = false

instance (p : Recording) (a : Nat × Fate) : Decidable (InTurn p a) :=
  inferInstanceAs (Decidable (_ = false))

/-- The locks the transactions of a run wrote: each is what the row holds right after
the commit. -/
def locksWritten (p : Recording) : List (Nat × Fate) → List Int
  | [] => []
  | a :: as =>
    match record id p a with
    | none => []
    | some q =>
      (if commitsNow p a then ((q.shared.users.get id).bind AdminUser.lockedUntil).toList else []) ++
        locksWritten q as

/-- Every failure is counted, and an account with enough of them is locked, for as long
as the earliest of the locks at least. -/
def Counted (u u' : AdminUser) (k : Nat) (locks : List Int) : Prop :=
  u'.failedLogins = u.failedLogins + k ∧
    (threshold ≤ u'.failedLogins →
      ∃ end_, u'.lockedUntil = some end_ ∧ ∀ earliest, locks.min? = some earliest → earliest ≤ end_)

/-! ## The phases of a transaction -/

def committed : Prog AdminOp Fate AdminDB (Except Err Unit) → Bool
  | .done (.ok _) => true
  | _ => false

@[simp] theorem committed_ok (a : Unit) : committed (.done (.ok a)) = true := rfl

@[simp] theorem committed_error (e : Err) : committed (.done (.error e)) = false := rfl

@[simp] theorem committed_stmt (op : AdminOp) (effect : Fate → AdminDB → AdminDB)
    (next : Fate → AdminDB → Prog AdminOp Fate AdminDB (Except Err Unit)) :
    committed (.stmt op effect next) = false := rfl

def commits (p : Recording) : Nat := p.clients.countP fun c => committed c.rest

/-- Where a transaction is, when the row shows `failures` and `total` is what it would
show had every commit counted. -/
inductive Phase (failures total : Int) (c : Client AdminOp Fate AdminDB (Except Err Unit)) : Prop where
  | idle (hrest : c.rest = UserRepo.recordFailedLogin id threshold lockFor)
      (hidle : c.started = false) (hfree : c.overtaken = false)
  | read (now r : Int) (hclock : now + lockFor ≠ 0) (hstarted : c.started = true)
      (hrest : c.rest = UserRepo.updateFailedLogins id threshold lockFor now (r + 1))
      (hfresh : c.overtaken = false → r = failures) (hstale : c.overtaken = true → r + 1 ≤ total)
  | done (a : Except Err Unit) (hrest : c.rest = .done a)

/-- The row never shows more failures than were committed. -/
structure Counting (base : Int) (u : AdminUser) (p : Recording) : Prop where
  row : p.shared.users.get id = some u
  le : u.failedLogins ≤ base + commits p
  phases : ∀ (j : Nat) (c : Client AdminOp Fate AdminDB (Except Err Unit)), p.clients[j]? = some c →
    Phase id threshold lockFor u.failedLogins (base + commits p) c

/-- What one step does: it commits nothing, or it writes the count its transaction
read, and one more. -/
inductive Recorded (base : Int) (u : AdminUser) (p : Recording) (a : Nat × Fate) (q : Recording)
    (u' : AdminUser) : Prop where
  | quiet (hrow : u' = u) (hcommits : commits q = commits p) (hnow : commitsNow p a = false)
  | write (now r : Int) (hclock : now + lockFor ≠ 0) (hcommits : commits q = commits p + 1)
      (hnow : commitsNow p a = true) (hcount : u'.failedLogins = r + 1)
      (hlock : u'.lockedUntil =
        if 0 < threshold ∧ threshold ≤ r + 1 then nullTime (now + lockFor) else none)
      (hfresh : InTurn p a → r = u.failedLogins) (hstale : ¬ InTurn p a → r + 1 ≤ base + commits p)

variable {id threshold lockFor} {base : Int} {u : AdminUser} {p q : Recording} {a : Nat × Fate}

theorem recordFailedLogin_eq : UserRepo.recordFailedLogin id threshold lockFor =
    .stmt .failedLoginsSelect (fun _ db => db) fun c db =>
      match (c.answer (fun _ db => ((match db.users.get id with
          | some u => .ok u.failedLogins
          | none => .error (translateError .noRows (AdminDB.userNamed id)) : Except Err Int), db)) db).1 with
      | .error e => .done (.error e)
      | .ok failures => UserRepo.updateFailedLogins id threshold lockFor c.now (failures + 1) := rfl

theorem pass_false (c : Client AdminOp Fate AdminDB (Except Err Unit)) : c.pass false = c := by
  simp [Client.pass]

variable {c : Client AdminOp Fate AdminDB (Except Err Unit)}

theorem Phase.pass {failures failures' : Int} {total : Int}
    (h : Phase id threshold lockFor failures total c) (hle : failures ≤ total) :
    Phase id threshold lockFor failures' (total + 1)
      (c.pass (decide (some failures' ≠ some failures))) := by
  cases h with
  | idle hrest hidle hfree => exact .idle hrest hidle (by simp [Client.pass, hidle, hfree])
  | read now r hclock hstarted hrest hfresh hstale =>
    refine .read now r hclock hstarted hrest ?_ ?_
    · intro hmark
      simp only [Client.pass, hstarted, Bool.and_true, Bool.or_eq_false_iff, decide_eq_false_iff_not,
        not_not, Option.some.injEq, ne_eq] at hmark
      rw [hfresh hmark.1, hmark.2]
    intro _
    cases hmark : c.overtaken with
    | false =>
      have := hfresh hmark
      omega
    | true =>
      have := hstale hmark
      omega
  | done a hrest => exact .done a hrest

theorem inTurn_iff (hc : p.clients[a.1]? = some c) (hnow : commitsNow p a = true) :
    InTurn p a ↔ c.overtaken = false := by
  rw [InTurn, hnow, hc, any_some, Bool.true_and]

theorem Counting.select (h : Counting id threshold lockFor base u p) (hc : p.clients[a.1]? = some c)
    (hrest : c.rest = UserRepo.recordFailedLogin id threshold lockFor)
    (hfree : c.overtaken = false) (hclock : a.2.now + lockFor ≠ 0)
    (hstep : record id p a = some q) :
    Counting id threshold lockFor base u q ∧ Recorded threshold lockFor base u p a q u := by
  obtain ⟨mover, op, effect, next, hs⟩ := Pool.step_cases hstep
  obtain rfl : c = mover := some.inj (hc.symm.trans hs.before)
  have hshape := hrest.symm.trans hs.rest
  rw [recordFailedLogin_eq] at hshape
  obtain ⟨rfl, rfl, rfl⟩ := Prog.stmt.inj hshape
  have hshared : q.shared = p.shared := hs.shared
  have hanswer := a.2.answer_cases (fun _ db => ((match db.users.get id with
    | some u => .ok u.failedLogins
    | none => .error (translateError .noRows (AdminDB.userNamed id)) : Except Err Int), db)) p.shared
  have hcommits : commits q = commits p := by
    have hcount : commits q + _ = commits p + _ := hs.countP committed
    rw [hrest, recordFailedLogin_eq] at hcount
    obtain ⟨e, he⟩ | he := hanswer
    · simpa [he] using hcount
    rw [he, h.row] at hcount
    simpa [UserRepo.updateFailedLogins, statement, Prog.exec] using hcount
  refine ⟨⟨hshared ▸ h.row, hcommits ▸ h.le, ?_⟩, .quiet rfl hcommits ?_⟩
  · intro j c' hc'
    rw [hcommits]
    obtain ⟨-, rfl⟩ | ⟨-, b, hb, rfl⟩ := hs.client_cases hc'
    · obtain ⟨e, he⟩ | he := hanswer
      · exact .done (.error e) (by simp [he])
      · refine .read a.2.now u.failedLogins hclock rfl ?_ (fun _ => rfl) ?_
        · simp [he, h.row]
        · intro hmark
          rw [hfree] at hmark
          cases hmark
    rw [hshared, show decide (failedLoginsOf id p.shared ≠ failedLoginsOf id p.shared) = false by simp,
      pass_false]
    exact h.phases j b hb
  · simp [commitsNow, hc, hrest, recordFailedLogin_eq, Prog.op?]

theorem Counting.commit (h : Counting id threshold lockFor base u p)
    (hc : p.clients[a.1]? = some c) {now r : Int} (hclock : now + lockFor ≠ 0)
    (hrest : c.rest = UserRepo.updateFailedLogins id threshold lockFor now (r + 1))
    (hfresh : c.overtaken = false → r = u.failedLogins)
    (hstale : c.overtaken = true → r + 1 ≤ base + commits p) (hstep : record id p a = some q) :
    ∃ u', Counting id threshold lockFor base u' q ∧ Recorded threshold lockFor base u p a q u' := by
  obtain ⟨mover, op, effect, next, hs⟩ := Pool.step_cases hstep
  obtain rfl : c = mover := some.inj (hc.symm.trans hs.before)
  have hshape := hrest.symm.trans hs.rest
  obtain ⟨rfl, rfl, rfl⟩ := Prog.stmt.inj hshape
  have hshared := hs.shared
  have hcount : commits q + _ = commits p + _ := hs.countP committed
  have hopen : committed c.rest = false := by
    rw [hrest]
    rfl
  rw [hopen] at hcount
  have hop : c.rest.op? = some .failedLoginsUpdate := by
    rw [hrest]
    rfl
  dsimp only at hshared hcount
  cases hfate : a.2.failure with
  | some e =>
    have hanswer : ∀ f : Int → AdminDB → Except Err Unit × AdminDB,
        a.2.answer f p.shared = (.error e, p.shared) := by
      intro f
      rw [Fate.answer, hfate]
    rw [hanswer] at hshared hcount
    have hcommits : commits q = commits p := by simpa using hcount
    refine ⟨u, ⟨hshared ▸ h.row, hcommits ▸ h.le, ?_⟩, .quiet rfl hcommits ?_⟩
    · intro j c' hc'
      rw [hcommits]
      obtain ⟨-, rfl⟩ | ⟨-, b, hb, rfl⟩ := hs.client_cases hc'
      · exact .done (.error e) (by simp only [hanswer])
      rw [hshared, show decide (failedLoginsOf id p.shared ≠ failedLoginsOf id p.shared) = false by
        simp, pass_false]
      exact h.phases j b hb
    · simp [commitsNow, hfate]
  | none =>
  have hanswer : ∀ f : Int → AdminDB → Except Err Unit × AdminDB,
      a.2.answer f p.shared = f a.2.now p.shared := by
    intro f
    rw [Fate.answer, hfate]
  rw [hanswer] at hshared hcount
  have hcommits : commits q = commits p + 1 := by simpa using hcount
  have hnow : commitsNow p a = true := by simp [commitsNow, hfate, hc, hop]
  have hrow := p.shared.get_setCounters id (r + 1)
    (if 0 < threshold ∧ threshold ≤ r + 1 then nullTime (now + lockFor) else none)
    AdminUser.lastLoginAt now id
  rw [h.row, map_some, if_pos (Table.key_of_get h.row)] at hrow
  refine ⟨_, ⟨by rw [hshared]; exact hrow, ?_, ?_⟩,
    .write now r hclock hcommits hnow rfl rfl (fun hturn => hfresh ((inTurn_iff hc hnow).1 hturn)) ?_⟩
  · show r + 1 ≤ base + commits q
    have hle := h.le
    cases hmark : c.overtaken with
    | false =>
      have := hfresh hmark
      omega
    | true =>
      have := hstale hmark
      omega
  · intro j c' hc'
    obtain ⟨-, rfl⟩ | ⟨-, b, hb, rfl⟩ := hs.client_cases hc'
    · exact .done (.ok ()) (by simp only [hanswer])
    have hview : failedLoginsOf id q.shared = some (r + 1) := by
      rw [failedLoginsOf, hshared, hrow]
      rfl
    have hview' : failedLoginsOf id p.shared = some u.failedLogins := by
      rw [failedLoginsOf, h.row]
      rfl
    have htotal : base + (commits q : Int) = base + commits p + 1 := by omega
    rw [hview, hview', htotal]
    exact (h.phases j b hb).pass h.le
  intro hturn
  apply hstale
  rw [inTurn_iff hc hnow] at hturn
  simpa using hturn

theorem Counting.step (h : Counting id threshold lockFor base u p) (hclock : a.2.now + lockFor ≠ 0)
    (hstep : record id p a = some q) :
    ∃ u', Counting id threshold lockFor base u' q ∧ Recorded threshold lockFor base u p a q u' := by
  obtain ⟨mover, op, effect, next, hs⟩ := Pool.step_cases hstep
  cases h.phases _ _ hs.before with
  | idle hrest hidle hfree => exact ⟨u, h.select hs.before hrest hfree hclock hstep⟩
  | read now r hclock hstarted hrest hfresh hstale =>
    exact h.commit hs.before hclock hrest hfresh hstale hstep
  | done a hrest =>
    rw [hs.rest] at hrest
    cases hrest

/-! ## Whole runs -/

/-- No lock of the run would end at Go's zero time. -/
def ClockRuns (lockFor : Int) (as : List (Nat × Fate)) : Prop := ∀ a ∈ as, a.2.now + lockFor ≠ 0

variable {as : List (Nat × Fate)}

theorem Counting.short_run (h : Counting id threshold lockFor base u p)
    (hshort : u.failedLogins < base + commits p) (hclock : ClockRuns lockFor as)
    (hrun : runActions (record id) p as = some q) :
    ∃ u', Counting id threshold lockFor base u' q ∧ u'.failedLogins < base + commits q := by
  induction as generalizing p u with
  | nil =>
    cases hrun
    exact ⟨u, h, hshort⟩
  | cons a as ih =>
  obtain ⟨p', hstep, hrest⟩ := bind_eq_some_iff.1 hrun
  obtain ⟨u', h', hrecorded⟩ := h.step (hclock a (.head _)) hstep
  apply ih h' _ (fun b hb => hclock b (.tail _ hb)) hrest
  cases hrecorded with
  | quiet hrow hcommits hnow =>
    rw [hrow, hcommits]
    exact hshort
  | write now r hclock hcommits hnow hcount hlock hfresh hstale =>
  by_cases hturn : InTurn p a
  · have := hfresh hturn
    omega
  have := hstale hturn
  omega

/-- As long as every transaction commits in turn, nothing is lost; the first that does
not loses a failure. -/
theorem Counting.exact_run (h : Counting id threshold lockFor base u p)
    (hexact : u.failedLogins = base + commits p) (hclock : ClockRuns lockFor as)
    (hrun : runActions (record id) p as = some q) :
    ∃ u', Counting id threshold lockFor base u' q ∧
      (u'.failedLogins = base + commits q ↔ AllMeet (record id) InTurn p as) := by
  induction as generalizing p u with
  | nil =>
    cases hrun
    exact ⟨u, h, fun _ => trivial, fun _ => hexact⟩
  | cons a as ih =>
  obtain ⟨p', hstep, hrest⟩ := bind_eq_some_iff.1 hrun
  have hclock' : ClockRuns lockFor as := fun b hb => hclock b (.tail _ hb)
  obtain ⟨u', h', hrecorded⟩ := h.step (hclock a (.head _)) hstep
  have hmeet : InTurn p a →
      (AllMeet (record id) InTurn p (a :: as) ↔ AllMeet (record id) InTurn p' as) := by
    intro hturn
    constructor
    · intro hall
      exact hall.2 p' hstep
    intro hall
    refine ⟨hturn, ?_⟩
    intro t ht
    rw [hstep] at ht
    exact some.inj ht ▸ hall
  cases hrecorded with
  | quiet hrow hcommits hnow =>
    have hturn : InTurn p a := by rw [InTurn, hnow, Bool.false_and]
    rw [hmeet hturn]
    exact ih h' (by rw [hrow, hcommits]; exact hexact) hclock' hrest
  | write now r hclock hcommits hnow hcount hlock hfresh hstale =>
  by_cases hturn : InTurn p a
  · rw [hmeet hturn]
    have := hfresh hturn
    exact ih h' (by omega) hclock' hrest
  have hshort : u'.failedLogins < base + commits p' := by
    have := hstale hturn
    omega
  obtain ⟨u'', h'', hlost⟩ := h'.short_run hshort hclock' hrest
  refine ⟨u'', h'', ?_, ?_⟩
  · intro heq
    exact absurd heq (by omega)
  intro hall
  exact absurd hall.1 hturn

/-- Once something was committed, an account with enough failures holds one of the
locks written. -/
def LastLock (threshold : Int) (locks : List Int) (u : AdminUser) (p : Recording) : Prop :=
  0 < commits p → threshold ≤ u.failedLogins → ∃ end_ ∈ locks, u.lockedUntil = some end_

theorem Counting.lastLock_run (locks : List Int) (ht : 0 < threshold)
    (h : Counting id threshold lockFor base u p) (hlast : LastLock threshold locks u p)
    (hclock : ClockRuns lockFor as) (hrun : runActions (record id) p as = some q) {u' : AdminUser}
    (hrow : q.shared.users.get id = some u') :
    LastLock threshold (locks ++ locksWritten id p as) u' q := by
  induction as generalizing p u locks with
  | nil =>
    cases hrun
    cases h.row.symm.trans hrow
    rw [locksWritten, append_nil]
    exact hlast
  | cons a as ih =>
  obtain ⟨p', hstep, hrest⟩ := bind_eq_some_iff.1 hrun
  obtain ⟨v, h', hrecorded⟩ := h.step (hclock a (.head _)) hstep
  rw [locksWritten, hstep, ← append_assoc]
  apply ih _ h' _ (fun b hb => hclock b (.tail _ hb)) hrest
  cases hrecorded with
  | quiet hrow hcommits hnow =>
    rw [hnow, if_neg (by simp), append_nil, hrow, LastLock, hcommits]
    exact hlast
  | write now r hclock hcommits hnow hcount hlock hfresh hstale =>
  intro _ hreached
  rw [if_pos ⟨ht, by omega⟩, nullTime, if_neg hclock] at hlock
  refine ⟨now + lockFor, mem_append_right _ ?_, hlock⟩
  rw [hnow, if_pos rfl, h'.row, bind_some, hlock]
  exact mem_singleton.2 rfl

theorem recording_counting {db : AdminDB} (hrow : db.users.get id = some u)
    (threshold lockFor : Int) (k : Nat) :
    Counting id threshold lockFor u.failedLogins u (recording id threshold lockFor db k) ∧
      commits (recording id threshold lockFor db k) = 0 := by
  have hclient : ∀ c ∈ (recording id threshold lockFor db k).clients,
      c = { rest := UserRepo.recordFailedLogin id threshold lockFor } := by
    intro c hc
    obtain ⟨r, hr, rfl⟩ := List.mem_map.1 hc
    rw [eq_of_mem_replicate hr]
  have hnone : commits (recording id threshold lockFor db k) = 0 := by
    apply countP_eq_zero.2
    intro c hc
    rw [hclient c hc, recordFailedLogin_eq]
    simp
  refine ⟨⟨hrow, by omega, ?_⟩, hnone⟩
  intro j c hc
  rw [hclient c (mem_of_getElem? hc)]
  exact .idle rfl rfl rfl

theorem length_run (hrun : runActions (record id) p as = some q) :
    q.clients.length = p.clients.length := by
  induction as generalizing p with
  | nil => rw [some.inj hrun]
  | cons a as ih =>
  obtain ⟨p', hstep, hrest⟩ := bind_eq_some_iff.1 hrun
  obtain ⟨mover, op, effect, next, hs⟩ := Pool.step_cases hstep
  rw [ih hrest, hs.clients, length_set, length_map]

theorem recording_none {db : AdminDB}
    (hrun : runActions (record id) (recording id threshold lockFor db 0) as = some p) :
    as = [] ∧ p.shared = db := by
  cases as with
  | nil => exact ⟨rfl, (some.inj hrun) ▸ rfl⟩
  | cons a as =>
    obtain ⟨q, hstep, -⟩ := bind_eq_some_iff.1 hrun
    simp [recording, Pool.start, Pool.step] at hstep

/-- **Every failure is counted, and no lock is taken back, exactly when no transaction
commits after another has changed the count it read.** (Without a transaction the lock
is the one the account had.) -/
theorem failed_logins_counted_iff {db : AdminDB} {k : Nat} {as : List (Nat × Fate)}
    (hrow : db.users.get id = some u) (ht : 0 < threshold) (hclock : ClockRuns lockFor as)
    (hrun : runActions (record id) (recording id threshold lockFor db k) as = some p)
    (hdone : ∀ c ∈ p.clients, c.rest.result? = some (.ok ())) :
    (∃ u', p.shared.users.get id = some u' ∧
        Counted threshold u u' k (locksWritten id (recording id threshold lockFor db k) as)) ↔
      AllMeet (record id) InTurn (recording id threshold lockFor db k) as ∧
        (k = 0 → threshold ≤ u.failedLogins → u.lockedUntil ≠ none) := by
  obtain ⟨hstart, hzero⟩ := recording_counting hrow threshold lockFor k
  obtain ⟨u', hend, hiff⟩ := hstart.exact_run (by omega) hclock hrun
  have hall : commits p = k := by
    have hlength := length_run hrun
    rw [recording, Pool.start, length_map, length_replicate] at hlength
    rw [← hlength, commits, countP_eq_length]
    intro c hc
    have hresult := hdone c hc
    cases hrest : c.rest with
    | done a =>
      rw [hrest] at hresult
      rw [some.inj hresult]
      rfl
    | stmt op effect next =>
      rw [hrest] at hresult
      simp [Prog.result?] at hresult
  rw [hall] at hiff
  have hlast := hstart.lastLock_run [] ht (by rw [LastLock, hzero]; simp) hclock hrun hend.row
  rw [nil_append, LastLock, hall] at hlast
  rw [← hiff]
  constructor
  · rintro ⟨u'', hrow'', hcount, hlock⟩
    cases hend.row.symm.trans hrow''
    refine ⟨hcount, ?_⟩
    rintro rfl hreached
    obtain ⟨-, hshared⟩ := recording_none hrun
    cases hend.row.symm.trans (hshared ▸ hrow)
    obtain ⟨end_, hend_, -⟩ := hlock hreached
    rw [hend_]
    simp
  rintro ⟨hcount, hnone⟩
  refine ⟨u', hend.row, hcount, ?_⟩
  intro hreached
  by_cases hk : k = 0
  · subst hk
    obtain ⟨rfl, hshared⟩ := recording_none hrun
    cases hend.row.symm.trans (hshared ▸ hrow)
    obtain ⟨end_, hend_⟩ := ne_none_iff_exists'.1 (hnone rfl hreached)
    exact ⟨end_, hend_, by simp [locksWritten]⟩
  obtain ⟨end_, hmem, hend_⟩ := hlast (by omega) hreached
  refine ⟨end_, hend_, ?_⟩
  intro earliest hmin
  exact (min?_eq_some_iff.1 hmin).2 _ hmem

def oneUser : AdminDB where
  users := ⟨[{ id := ascii "u", username := ascii "alice", role := .admin }], by decide⟩
  sessions := .empty

def oneByOne : List (Nat × Fate) := [(0, { now := 1 }), (0, {}), (1, { now := 5 }), (1, {})]

/-- Two failures, one after the other, lock the account at the second. -/
theorem two_failures_in_turn : ∃ u p u', oneUser.users.get (ascii "u") = some u ∧
      runActions (record (ascii "u")) (recording (ascii "u") 2 60 oneUser 2) oneByOne = some p ∧
      p.shared.users.get (ascii "u") = some u' ∧ Counted 2 u u' 2 [65] := by
  obtain ⟨p, hp, hdone⟩ := map_eq_some_iff.1
    (show (runActions (record (ascii "u")) (recording (ascii "u") 2 60 oneUser 2) oneByOne).map
          (fun p => p.clients.all fun c => decide (c.rest.result? = some (.ok ()))) = some true by
      decide +kernel)
  have hlocks : locksWritten (ascii "u") (recording (ascii "u") 2 60 oneUser 2) oneByOne = [65] :=
    by decide +kernel
  obtain ⟨u', hu', hcounted⟩ := (failed_logins_counted_iff rfl (by decide) (by simp [ClockRuns, oneByOne])
    hp (by simpa using hdone)).2 ⟨by decide +kernel, by decide⟩
  rw [hlocks] at hcounted
  exact ⟨_, p, u', rfl, hp, hu', hcounted⟩

def overlapped : List (Nat × Fate) :=
  [(0, { now := 1 }), (1, { now := 1 }), (1, {}), (2, { now := 2 }), (2, {}), (0, {})]

/-- Three failures at once: the count is one, and the lock the third transaction wrote
is gone. -/
theorem three_failures_at_once :
    ∃ p u', runActions (record (ascii "u")) (recording (ascii "u") 2 60 oneUser 3) overlapped
        = some p ∧
      (∀ c ∈ p.clients, c.rest.result? = some (.ok ())) ∧
      locksWritten (ascii "u") (recording (ascii "u") 2 60 oneUser 3) overlapped = [62] ∧
      p.shared.users.get (ascii "u") = some u' ∧ u'.failedLogins = 1 ∧ u'.lockedUntil = none := by
  obtain ⟨p, hp, hend⟩ := map_eq_some_iff.1
    (show (runActions (record (ascii "u")) (recording (ascii "u") 2 60 oneUser 3) overlapped).map
          (fun p => (p.clients.all fun c => decide (c.rest.result? = some (.ok ()))) &&
            (p.shared.users.get (ascii "u")).any fun u =>
              decide (u.failedLogins = 1 ∧ u.lockedUntil = none)) = some true by
      decide +kernel)
  rw [Bool.and_eq_true] at hend
  have hrow := hend.2
  cases hu' : p.shared.users.get (ascii "u") with
  | none =>
    rw [hu'] at hrow
    cases hrow
  | some u' =>
    rw [hu'] at hrow
    exact ⟨p, u', hp, by simpa using hend.1, by decide +kernel, hu', by simpa using hrow⟩

end SmtpProxy.Store
