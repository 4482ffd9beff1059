import SmtpProxy.Adminapi.Accounts
import SmtpProxy.App.Auth
import SmtpProxy.Lib.Interleave

/-!
# Sign-ins and what an administrator changes meanwhile

A sign-in that renews a hash reads a whole row, takes its time over the password, and
writes the whole row back. What an administrator has changed in between is undone: a
disabled account is enabled again, and the old password is back.

`sign_in_keeps_change` says that this is the only way. As long as no sign-in writes the
settings of a row that have changed since it began, the row has what the administrator
wrote, for SMTP accounts and for admin users.
-/

namespace SmtpProxy.Adminapi

open Lib Policy Store App Adminauth Table

/-! ## The settings of one row -/

section

variable {ρ : Type} {key : ρ → Bytes} (settings : ρ → ρ) (id : Bytes)

def rowView (t : Table Bytes ρ key) : Option ρ := (t.get id).map settings

def RowHas (P : ρ → Prop) (v : Option ρ) : Prop := ∃ r, v = some r ∧ P r

variable {settings id} {t : Table Bytes ρ key} {P : ρ → Prop}

theorem rowHas_rowView (hP : ∀ r, P (settings r) ↔ P r) :
    RowHas P (rowView settings id t) ↔ RowHas P (t.get id) := by
  constructor
  · rintro ⟨s, hs, hp⟩
    obtain ⟨r, hr, rfl⟩ := Option.map_eq_some_iff.1 hs
    exact ⟨r, hr, (hP r).1 hp⟩
  rintro ⟨r, hr, hp⟩
  exact ⟨settings r, by rw [rowView, hr, Option.map_some], (hP r).2 hp⟩

theorem rowView_updateKey {k : Bytes} {f : ρ → ρ} (hf : ∀ r, key (f r) = key r) :
    rowView settings id (t.updateWhere (fun r => key r = k) f hf) =
      if k = id then (t.get id).map fun r => settings (f r) else rowView settings id t := by
  unfold rowView
  rw [get_updateWhere, Option.map_map]
  cases hget : t.get id with
  | none => split <;> rfl
  | some r =>
  have hkey := key_of_get hget
  by_cases hk : k = id
  · simp [hk, hkey]
  · simp [hk, hkey, Ne.symm hk]

/-- A row that is written back over what it was read from keeps what the change needs, if it does
itself. -/
theorem RowHas.writtenBack (hP : ∀ r, P (settings r) ↔ P r) {k : Bytes} {a : ρ} {f : ρ → ρ}
    (hf : ∀ r, key (f r) = key r) (hread : k = id → rowView settings id t = some (settings a))
    (hkeeps : P a → ∀ r, P (f r)) (h : RowHas P (rowView settings id t)) :
    RowHas P (rowView settings id (t.updateWhere (fun r => key r = k) f hf)) := by
  rw [rowView_updateKey]
  split
  · next hk =>
    obtain ⟨s, hs, hp⟩ := h
    obtain ⟨r, hr, -⟩ := Option.map_eq_some_iff.1 hs
    cases (hread hk).symm.trans hs
    rw [hr]
    exact ⟨_, rfl, (hP _).2 (hkeeps ((hP a).1 hp) r)⟩
  · exact h

theorem rowView_unseen {q : ρ → Bool} {f : ρ → ρ} (hf : ∀ r, key (f r) = key r)
    (hsame : ∀ r, settings (f r) = settings r) :
    rowView settings id (t.updateWhere q f hf) = rowView settings id t := by
  unfold rowView
  rw [get_updateWhere, Option.map_map]
  congr 1
  funext r
  rw [Function.comp_apply]
  split
  · exact hsame r
  · rfl

end

variable (srv : Server) (g : GoText)

/-! ## SMTP accounts -/

/-- The columns of an account but for the times. -/
def accountSettings (a : AccountRow) : AccountRow :=
  { a with lastUsedAt := none, createdAt := 0, updatedAt := 0 }

def accountView (id : Bytes) (db : Config) : Option AccountRow := rowView accountSettings id db.accounts

inductive AccountChange where
  | update (req : AccountRequest)
  | resetPassword (random : Except Err Entropy) (given : Option Bytes)

def AccountChange.program (id : Bytes) : AccountChange → ConfigProg Bool
  | .update req => Response.succeeded <$> handleUpdateAccount srv g id (.ok req)
  | .resetPassword random given =>
    Response.succeeded <$> handleResetAccountPassword srv random id (.ok given)

def AccountChange.Holds (a : AccountRow) : AccountChange → Prop
  | .update req => req.apply a = a
  | .resetPassword random given =>
    ∃ password generated,
      hashedPassword srv.passwords given random = .ok (password, generated, a.passwordHash)

structure SMTPSignIn where
  username : Bytes
  password : Bytes
  remote : IP

def SMTPSignIn.program (c : SMTPSignIn) : ConfigProg Bool :=
  Except.isOk <$> signIn srv.net g srv.passwords c.username c.password c.remote

variable {srv g} {id : Bytes}

theorem AccountRequest.apply_apply (req : AccountRequest) (a : AccountRow) :
    req.apply (req.apply a) = req.apply a := by
  unfold AccountRequest.apply
  congr 1
  · congr 1
    · split <;> rfl
    · cases req.defaultMailboxID <;> rfl
    · split <;> rfl
    · cases req.allowCIDRs <;> rfl
    · cases req.enabled <;> rfl
  · split <;> rfl
  · cases req.rateLimitPerMin <;> rfl

theorem AccountChange.holds_settings (change : AccountChange) (a : AccountRow) :
    change.Holds srv (accountSettings a) ↔ change.Holds srv a := by
  cases change with
  | resetPassword random given => exact Iff.rfl
  | update req =>
  show accountSettings (req.apply a) = accountSettings a ↔ req.apply a = a
  constructor
  · intro h
    -- a request leaves the times alone, so they can be put back
    exact congrArg (fun s : AccountRow =>
      { s with lastUsedAt := a.lastUsedAt, createdAt := a.createdAt, updatedAt := a.updatedAt }) h
  intro h
  rw [h]

variable {change : AccountChange} {a : AccountRow}

theorem AccountChange.Holds.assign (h : change.Holds srv a) (now : Int) (r : AccountRow) :
    change.Holds srv (a.assign now r) := by
  cases change with
  | resetPassword random given => exact h
  | update req => exact congrArg (fun x : AccountRow => x.assign now r) h

variable {password : Bytes}

/-- A hash made with today's parameters is not renewed, and a renewed hash is all that a
sign-in writes. -/
theorem AccountChange.Holds.rehashed (hlaw : srv.passwords.Lawful) (h : change.Holds srv a)
    (hverify : srv.passwords.verifyPassword a.passwordHash password = .ok (true, true))
    (hash : Bytes) : change.Holds srv { a with passwordHash := hash } := by
  cases change with
  | update req =>
    exact congrArg (fun x : AccountRow => { x with passwordHash := hash }) (show req.apply a = a from h)
  | resetPassword random given =>
  obtain ⟨_, _, hnew⟩ := h
  have hfresh := (hlaw.hashPassword (hashedPassword_ok hnew).2).2
  exact absurd hverify (hfresh.not_renewed password)

/-! ### The administrator -/

theorem accountUpdate_commits {α : Type} {k : AccountRow × Except Err Unit → ConfigProg α}
    {ok : α → Prop} (hid : a.id = id) (hholds : change.Holds srv a)
    (hfailed : ∀ a e, (k (a, .error e)).Commits (fun db => RowHas (change.Holds srv) (accountView id db)) ok)
    (hdone : ∀ a, (k (a, .ok ())).Keeps (fun db => RowHas (change.Holds srv) (accountView id db))
      fun _ => True) :
    (AccountRepo.update a >>= k).Commits (fun db => RowHas (change.Holds srv) (accountView id db)) ok := by
  apply Prog.commits_exec
  intro c db
  obtain ⟨e, he⟩ | ⟨⟨r, hr⟩, he⟩ := db.answer_updateAccount c a
  · rw [he]
    exact .inl (hfailed _ e)
  rw [he]
  refine .inr ⟨?_, hdone _⟩
  apply (rowHas_rowView change.holds_settings).2
  refine ⟨a.assign c.now r, ?_, hholds.assign c.now r⟩
  rw [db.get_writeAccount, ← hid, hr, Option.map_some, if_pos (key_of_get hr)]

theorem finishAccount_keeps {I : Config → Prop}
    (hI : ∀ db links senders, I db → I { db with links, senders }) (a : AccountRow)
    (req : AccountRequest) (answer : AccountResponse → Response AccountPayload) :
    (finishAccount a req answer).Keeps I fun _ => True := by
  have hlinks : (applyAccountLinks a.id req).Keeps I fun _ => True := by
    unfold applyAccountLinks
    refine .bind ?_
    have hmail : (applyMailboxes a.id req.mailboxIDs).Keeps I fun _ => True := by
      unfold applyMailboxes
      split
      · trivial
      apply statement_keeps (fun _ => trivial)
      intro now db hdb
      obtain ⟨e, he⟩ | ⟨-, he⟩ := db.setMailboxes_cases a.id _
      · rw [he]
        exact ⟨hdb, trivial⟩
      rw [he]
      exact ⟨hI db _ db.senders hdb, trivial⟩
    apply hmail.mono
    intro linked _
    split
    · trivial
    unfold applySenders
    split
    · trivial
    apply statement_keeps (fun _ => trivial)
    intro now db hdb
    obtain ⟨e, he⟩ | he := db.setAllowedSenders_cases a.id _
    · rw [he]
      exact ⟨hdb, trivial⟩
    rw [he]
    exact ⟨hI db db.links _ hdb, trivial⟩
  unfold finishAccount answerAccount orFail
  refine .bind ?_
  apply hlinks.mono
  intro linked _
  split
  · trivial
  refine .bind ?_
  apply (toAccountResponse_readOnly a).keeps.mono
  intro resp _
  split <;> trivial

theorem AccountChange.commits (change : AccountChange) :
    (change.program srv g id).Commits (fun db => RowHas (change.Holds srv) (accountView id db))
      (· = true) := by
  cases change with
  | update req =>
    refine .map ?_
    unfold handleUpdateAccount updateAccount orFail
    refine .after ?_
    apply AccountRepo.get_keeps
    · intro e
      simp
    intro a hid
    dsimp only [unlessDeclared, ifValid, whenStored]
    split
    · simp [Response.error, Response.succeeded]
    split
    · refine accountUpdate_commits hid (req.apply_apply a) ?_ ?_
      · intro a e
        simp
      · intro a
        exact finishAccount_keeps (fun db links senders h => h) a req _
    · simp [Response.validation, Response.succeeded]
  | resetPassword random given =>
  refine .map ?_
  unfold handleResetAccountPassword resetAccountPassword orFail
  refine .after ?_
  apply AccountRepo.get_keeps
  · intro e
    simp
  intro a hid
  dsimp only [withPassword, whenStored]
  split
  · simp
  next hhashed =>
  refine accountUpdate_commits hid ⟨_, _, hhashed⟩ ?_ ?_
  · intro a e
    simp
  intro a
  trivial

/-! ### The sign-in -/

theorem accountView_touch (db : Config) (k : Bytes) (at_ : Int) :
    accountView id (db.touchAccount k at_) = accountView id db :=
  rowView_unseen (f := fun r : AccountRow => { r with lastUsedAt := some at_ }) (fun _ => rfl)
    fun _ => rfl

theorem rehashAccount_steady (hlaw : srv.passwords.Lawful) {v : Option AccountRow}
    (hread : a.id = id → v = some (accountSettings a))
    (hverify : srv.passwords.verifyPassword a.passwordHash password = .ok (true, true)) :
    (rehashAccount srv.passwords a password).Steady (accountView id) (RowHas (change.Holds srv))
      (fun _ _ => True) v := by
  unfold rehashAccount
  split
  · trivial
  next hash hhash =>
  refine .bind ?_
  apply Prog.steady_exec
  intro c db hdb
  refine ⟨?_, trivial⟩
  subst hdb
  obtain ⟨e, he⟩ | ⟨-, he⟩ := db.answer_updateAccount c { a with passwordHash := hash }
  · rw [he]
    exact fun h => h
  rw [he]
  exact RowHas.writtenBack change.holds_settings (AccountRow.assign_id _ c.now) hread
    fun h r => (h.rehashed hlaw hverify hash).assign c.now r

/-- What a sign-in read is what is watched, if it is that row. -/
def Read (id : Bytes) (v : Option AccountRow) (found : Except Err AccountRow) : Prop :=
  ∀ a, found = .ok a → a.id = id → v = some (accountSettings a)

theorem getByUsername_read (username : Bytes) (v : Option AccountRow) :
    (AccountRepo.getByUsername username).Keeps (fun db => accountView id db = v) (Read id v) := by
  apply query_keeps
  · intro e a ha
    cases ha
  intro db hdb a ha hid
  split at ha
  · next r hfind =>
    cases ha
    rw [← hdb, accountView, rowView, ← hid, get_key (List.mem_of_find?_eq_some hfind),
      Option.map_some]
  · cases ha

theorem recordUse_steady (hlaw : srv.passwords.Lawful) {needsRehash : Bool}
    {v : Option AccountRow} (hread : a.id = id → v = some (accountSettings a))
    (hverify : srv.passwords.verifyPassword a.passwordHash password = .ok (true, needsRehash)) :
    (recordUse srv.passwords a password needsRehash).Steady (accountView id)
      (RowHas (change.Holds srv)) (fun _ _ => True) v := by
  have htouch : ∀ w, (AccountRepo.touchLastUsed a.id >>= fun _ => pure ()).Steady (accountView id)
      (RowHas (change.Holds srv)) (fun _ _ => True) w := by
    intro w
    refine .bind ?_
    apply Prog.Keeps.steady (P := fun _ => True)
    · apply statement_keeps (fun _ => trivial)
      intro now db hdb
      exact ⟨(accountView_touch db a.id now).trans hdb, trivial⟩
    intro _ _
    trivial
  unfold recordUse
  cases needsRehash with
  | false => exact htouch v
  | true =>
  refine .bind ?_
  apply (rehashAccount_steady hlaw hread hverify).mono
  intro _ w _
  exact htouch w

/-- **A sign-in that has read what is there undoes nothing.** -/
theorem signIn_steady (hlaw : srv.passwords.Lawful) (change : AccountChange) (username password : Bytes)
    (remote : IP) (v : Option AccountRow) :
    (signIn srv.net g srv.passwords username password remote).Steady (accountView id)
      (RowHas (change.Holds srv)) (fun _ _ => True) v := by
  unfold signIn authenticateWith
  refine .bind ?_
  apply (getByUsername_read username v).steady
  intro found hread
  cases found with
  | error e =>
    dsimp only
    split <;> trivial
  | ok a =>
  dsimp only
  cases hverify : srv.passwords.verifyPassword a.passwordHash password with
  | error e => trivial
  | ok verified =>
  obtain ⟨matched, needsRehash⟩ := verified
  cases matched with
  | false => trivial
  | true =>
  cases a.enabled with
  | false => trivial
  | true =>
  simp only [Bool.not_true, Bool.false_eq_true, if_false]
  refine .bind ?_
  apply Prog.Keeps.steady (P := fun _ => True)
  · exact .bind (query_reads.mono fun _ _ => trivial)
  intro senders _
  cases senders with
  | error e => trivial
  | ok allowed =>
  dsimp only
  split
  · trivial
  refine .bind ?_
  apply Prog.Keeps.steady (P := fun _ => True)
  · exact .bind (query_reads.mono fun _ _ => trivial)
  intro listed _
  cases listed with
  | error e => trivial
  | ok mailboxes =>
    refine .bind ?_
    exact recordUse_steady hlaw (hread a rfl) hverify

/-! ## Admin users -/

/-- The columns of a user but for the login counters and the times. -/
def userSettings (u : AdminUser) : AdminUser :=
  { u with failedLogins := 0, lockedUntil := none, lastLoginAt := none, createdAt := 0, updatedAt := 0 }

def userView (id : Bytes) (db : AdminDB) : Option AdminUser := rowView userSettings id db.users

inductive UserChange where
  | update (req : UpdateUserRequest)
  | setPassword (password : Bytes)

def UserChange.program (srv : Server) (id : Bytes) : UserChange → AdminProg Bool
  | .update req => Response.succeeded <$> handleUpdateUser id (.ok req)
  | .setPassword password => Response.succeeded <$> handleSetUserPassword srv id (.ok password)

def UserChange.Holds (srv : Server) (u : AdminUser) : UserChange → Prop
  | .update req => req.apply u = some u
  | .setPassword password => ∃ hash, srv.passwords.hashPassword password = .ok hash ∧
      u.passwordHash = some hash

structure LocalSignIn where
  cfg : LocalConfig
  username : Bytes
  password : Bytes

def LocalSignIn.program (srv : Server) (c : LocalSignIn) : AdminProg Bool :=
  Except.isOk <$> Adminauth.authenticate srv.passwords c.cfg c.username c.password

variable {req : UpdateUserRequest} {u : AdminUser}

theorem UpdateUserRequest.apply_apply {changed : AdminUser} (h : req.apply u = some changed) :
    req.apply changed = some changed := by
  unfold UpdateUserRequest.apply at h ⊢
  cases hrole : req.role with
  | none =>
    rw [hrole] at h
    cases h
    cases req.email <;> cases req.displayName <;> cases req.disabled <;> rfl
  | some text =>
  rw [hrole] at h
  obtain ⟨role, hparse, rfl⟩ := Option.map_eq_some_iff.1 h
  dsimp only
  rw [hparse]
  cases req.email <;> cases req.displayName <;> cases req.disabled <;> rfl

theorem UpdateUserRequest.apply_eq_self : req.apply u = some u ↔
      ((req.email.map trimSpace).getD u.email = u.email ∧
        (req.displayName.map trimSpace).getD u.displayName = u.displayName ∧
        req.disabled.getD u.disabled = u.disabled) ∧
      ∀ text, req.role = some text → parseRole text = some u.role := by
  obtain ⟨id, username, email, displayName, passwordHash, role⟩ := u
  unfold UpdateUserRequest.apply
  cases req.role with
  | none => simp
  | some text =>
  cases hparse : parseRole text with
  | none => simp [hparse]
  | some parsed => simp [hparse]; tauto

theorem UserChange.holds_settings (change : UserChange) (u : AdminUser) :
    change.Holds srv (userSettings u) ↔ change.Holds srv u := by
  cases change with
  | setPassword password => exact Iff.rfl
  | update req =>
    exact UpdateUserRequest.apply_eq_self.trans (UpdateUserRequest.apply_eq_self (u := u)).symm

theorem UserChange.Holds.assign {change : UserChange} (h : change.Holds srv u) (now : Int)
    (r : AdminUser) : change.Holds srv (u.assign now r) := by
  cases change with
  | setPassword password => exact h
  | update req =>
    have hself := (UpdateUserRequest.apply_eq_self (u := u)).1 h
    exact UpdateUserRequest.apply_eq_self.2 hself

theorem UserChange.Holds.rehashed (hlaw : srv.passwords.Lawful) {change : UserChange}
    (h : change.Holds srv u)
    (hverify : srv.passwords.verifyPassword (u.passwordHash.getD []) password = .ok (true, true))
    (hash : Option Bytes) : change.Holds srv { u with passwordHash := hash } := by
  cases change with
  | update req =>
    have hself := (UpdateUserRequest.apply_eq_self (u := u)).1 h
    exact UpdateUserRequest.apply_eq_self.2 hself
  | setPassword new =>
  obtain ⟨stored, hstored, hrow⟩ := h
  rw [hrow] at hverify
  exact absurd hverify ((hlaw.hashPassword hstored).2.not_renewed password)

/-! ### The administrator -/

theorem userUpdate_commits {change : UserChange} {α : Type}
    {k : AdminUser × Except Err Unit → AdminProg α} {ok : α → Prop} (hid : u.id = id)
    (hholds : change.Holds srv u)
    (hfailed : ∀ u e, (k (u, .error e)).Commits (fun db => RowHas (change.Holds srv) (userView id db)) ok)
    (hdone : ∀ u, (k (u, .ok ())).Keeps (fun db => RowHas (change.Holds srv) (userView id db)) fun _ => True) :
    (UserRepo.update u >>= k).Commits (fun db => RowHas (change.Holds srv) (userView id db)) ok := by
  apply Prog.commits_exec
  intro c db
  dsimp only
  obtain ⟨e, he⟩ | ⟨⟨r, hr⟩, he⟩ := db.answer_updateUser c u
  · rw [he]
    exact .inl (hfailed _ e)
  rw [he]
  refine .inr ⟨?_, hdone _⟩
  apply (rowHas_rowView change.holds_settings).2
  refine ⟨u.assign c.now r, ?_, hholds.assign c.now r⟩
  rw [db.get_writeUser, ← hid, hr, Option.map_some, if_pos (key_of_get hr)]

theorem deleteForUser_keeps {I : AdminDB → Prop} (hI : ∀ db sessions, I db → I { db with sessions })
    (userID : Bytes) : (SessionRepo.deleteForUser userID).Keeps I fun _ => True := by
  unfold SessionRepo.deleteForUser
  refine .bind ?_
  apply statement_keeps (fun _ => trivial)
  intro now db hdb
  exact ⟨hI db _ hdb, trivial⟩

theorem storeUser_commits (srv : Server) {changed : AdminUser} (hid : changed.id = id)
    (happly : req.apply u = some changed) (previousRole : Role)
    (answer : AdminUser → Response Payload) :
    (storeUser (fun p => p) changed previousRole fun user => return answer user : AdminProg _).Commits
      (fun db => RowHas ((UserChange.update req).Holds srv) (userView id db))
      fun resp => resp.succeeded = true := by
  unfold storeUser whenStored
  refine userUpdate_commits hid (UpdateUserRequest.apply_apply happly) ?_ ?_
  · intro u e
    simp
  intro u
  refine .bind ?_
  unfold endSessions
  split
  · refine .bind ?_
    apply (deleteForUser_keeps (fun db sessions h => h) u.id).mono
    intro _ _
    trivial
  · trivial

theorem setPassword_commits (hlaw : srv.passwords.Lawful)
    {k : Except Err Unit → AdminProg (Response Payload)} (hid : u.id = id)
    (hfailed : ∀ e, (k (.error e)).Commits
      (fun db => RowHas ((UserChange.setPassword password).Holds srv) (userView id db)) fun resp => resp.succeeded = true)
    (hdone : ∀ set, (k set).Keeps
      (fun db => RowHas ((UserChange.setPassword password).Holds srv) (userView id db)) fun _ => True) :
    (Adminauth.setPassword srv.passwords u password >>= k).Commits
      (fun db => RowHas ((UserChange.setPassword password).Holds srv) (userView id db))
      fun resp => resp.succeeded = true := by
  unfold Adminauth.setPassword
  cases hhash : srv.passwords.hashPassword password with
  | error e => exact hfailed _
  | ok hash =>
  dsimp only
  rw [bind_assoc]
  refine userUpdate_commits hid ⟨hash, hhash, if_neg (hlaw.hashPassword hhash).1⟩ ?_ ?_
  · intro u e
    exact hfailed e
  intro u
  dsimp only
  rw [bind_assoc]
  refine .bind ?_
  apply (deleteForUser_keeps (fun db sessions h => h) u.id).mono
  intro deleted _
  exact hdone _

theorem UserChange.commits (hlaw : srv.passwords.Lawful) (change : UserChange) :
    (change.program srv id).Commits (fun db => RowHas (change.Holds srv) (userView id db))
      (· = true) := by
  cases change with
  | update req =>
    refine .map ?_
    unfold handleUpdateUser updateUser orFail
    refine .after ?_
    apply UserRepo.get_keeps
    · intro e
      simp
    intro u hid
    dsimp only
    split
    · simp [Response.validation, Response.succeeded]
    next changed happly =>
    have hstore := storeUser_commits srv ((apply_id happly).trans hid) happly u.role
      fun user => .json 200 (.user (toUserResponse user))
    unfold unlessLast
    split
    · refine .after ?_
      unfold requireAnotherAdmin
      refine .bind ?_
      apply query_reads.mono
      intro users _
      split
      · simp [Response.error, Response.succeeded]
      split
      · exact hstore
      · simp [Response.error, Response.succeeded]
    · exact hstore
  | setPassword password =>
    refine .map ?_
    unfold handleSetUserPassword setUserPassword
    split
    · simp [Response.error, Response.succeeded]
    dsimp only [withBody, ifValid, orFail]
    split
    case h_2 => simp [Response.validation, Response.succeeded]
    refine .after ?_
    apply UserRepo.get_keeps
    · intro e
      simp
    intro u hid
    dsimp only
    split
    · simp [Response.error, Response.succeeded]
    refine setPassword_commits hlaw hid ?_ ?_
    · intro e
      simp
    intro set
    split <;> trivial

/-! ### The sign-in -/

theorem userView_counters (db : AdminDB) (k : Bytes) (failedLogins : Int) (lockedUntil : Option Int)
    (lastLoginAt : AdminUser → Option Int) (now : Int) :
    userView id (db.setCounters k failedLogins lockedUntil lastLoginAt now) = userView id db :=
  rowView_unseen (f := fun r : AdminUser =>
    { r with failedLogins, lockedUntil, lastLoginAt := lastLoginAt r, updatedAt := now }) (fun _ => rfl)
    fun _ => rfl

theorem rehash_steady (hlaw : srv.passwords.Lawful) {change : UserChange} {v : Option AdminUser}
    (hread : u.id = id → v = some (userSettings u))
    (hverify : srv.passwords.verifyPassword (u.passwordHash.getD []) password = .ok (true, true)) :
    (Adminauth.rehash srv.passwords u password).Steady (userView id) (RowHas (change.Holds srv))
      (fun _ _ => True) v := by
  unfold Adminauth.rehash
  split
  · trivial
  next hash hhash =>
  refine .bind ?_
  apply Prog.steady_exec
  intro c db hdb
  refine ⟨?_, trivial⟩
  subst hdb
  dsimp only
  obtain ⟨e, he⟩ | ⟨-, he⟩ := db.answer_updateUser c { u with passwordHash := nullString hash }
  · rw [he]
    exact fun h => h
  rw [he]
  exact RowHas.writtenBack change.holds_settings (AdminUser.assign_id _ c.now) hread
    fun h r => (h.rehashed hlaw hverify _).assign c.now r

theorem signedIn_steady (hlaw : srv.passwords.Lawful) {change : UserChange} {needsRehash : Bool}
    {v : Option AdminUser} (hread : u.id = id → v = some (userSettings u))
    (hverify : srv.passwords.verifyPassword (u.passwordHash.getD []) password = .ok (true, needsRehash)) :
    (signedIn srv.passwords u password needsRehash).Steady (userView id) (RowHas (change.Holds srv))
      (fun _ _ => True) v := by
  have hrecord : ∀ (u : AdminUser) (w : Option AdminUser),
      (UserRepo.recordSuccessfulLogin u.id >>= fun _ => pure (Except.ok u : Except Err AdminUser)).Steady
        (userView id) (RowHas (change.Holds srv)) (fun _ _ => True) w := by
    intro u w
    refine .bind ?_
    apply Prog.Keeps.steady (P := fun _ => True)
    · apply statement_keeps (fun _ => trivial)
      intro now db hdb
      exact ⟨(userView_counters db ..).trans hdb, trivial⟩
    intro _ _
    trivial
  unfold signedIn
  cases needsRehash with
  | false => exact hrecord u v
  | true =>
  refine .bind ?_
  apply (rehash_steady hlaw hread hverify).mono
  intro u w _
  exact hrecord u w

/-- **A sign-in that has read what is there undoes nothing.** -/
theorem authenticate_steady (hlaw : srv.passwords.Lawful) (change : UserChange) (cfg : LocalConfig)
    (username password : Bytes) (v : Option AdminUser) :
    (Adminauth.authenticate srv.passwords cfg username password).Steady (userView id)
      (RowHas (change.Holds srv)) (fun _ _ => True) v := by
  unfold Adminauth.authenticate
  split
  · trivial
  refine .bind ?_
  apply (timedQuery_keeps (R := fun found => ∀ u, found.2 = .ok u → u.id = id →
    v = some (userSettings u)) _ _).steady
  · intro found hread
    obtain ⟨now, found⟩ := found
    cases found with
    | error e => trivial
    | ok u =>
    dsimp only
    split
    · trivial
    split
    · trivial
    cases hverify : srv.passwords.verifyPassword (u.passwordHash.getD []) password with
    | error e => trivial
    | ok verified =>
    obtain ⟨matched, needsRehash⟩ := verified
    cases matched with
    | false =>
      refine .bind ?_
      apply (recordFailure_keeps (fun db _ _ _ _ _ hdb => (userView_counters db ..).trans hdb)
        u).steady
      intro _ _
      trivial
    | true =>
    dsimp only
    split
    · trivial
    · exact signedIn_steady hlaw (hread u rfl) hverify
  · intro now e u hu
    cases hu
  · intro now db hdb u hu hid
    dsimp only at hu
    split at hu
    · next found hfind =>
      cases hu
      rw [← hdb, userView, rowView, ← hid, (db.findByUsername_some hfind).2, Option.map_some]
    · cases hu

/-! ## Every interleaving -/

/-- **A sign-in never undoes what an administrator has changed**, in every run in which no
sign-in writes settings that have changed since it began: the row has what the change wrote
from the moment on in which it was carried out. -/
theorem sign_in_keeps_change (srv : Server) (g : GoText) (hlaw : srv.passwords.Lawful) (id : Bytes) :
    (∀ (change : AccountChange) (signIns : List SMTPSignIn) (db : Config)
        (p : Pool ConfigOp Fate Config Bool),
      Reach (Pool.step (accountView id)) (Pool.OthersInTime (accountView id))
        (.start db (change.program srv g id :: signIns.map (SMTPSignIn.program srv g))) p →
      p.firstResult = some true → RowHas (change.Holds srv) (p.shared.accounts.get id)) ∧
    ∀ (change : UserChange) (signIns : List LocalSignIn) (db : AdminDB)
        (p : Pool AdminOp Fate AdminDB Bool),
      Reach (Pool.step (userView id)) (Pool.OthersInTime (userView id))
        (.start db (change.program srv id :: signIns.map (LocalSignIn.program srv))) p →
      p.firstResult = some true → RowHas (change.Holds srv) (p.shared.users.get id) := by
  constructor
  · intro change signIns db p hrun hdone
    apply (rowHas_rowView change.holds_settings).1
    refine Pool.commits (J := RowHas (change.Holds srv)) change.commits ?_ hrun hdone rfl
    intro r hr v
    obtain ⟨s, -, rfl⟩ := List.mem_map.1 hr
    exact Prog.Steady.map (signIn_steady hlaw change s.username s.password s.remote v)
  intro change signIns db p hrun hdone
  apply (rowHas_rowView change.holds_settings).1
  refine Pool.commits (J := RowHas (change.Holds srv)) (change.commits hlaw) ?_ hrun hdone rfl
  intro r hr v
  obtain ⟨s, -, rfl⟩ := List.mem_map.1 hr
  exact Prog.Steady.map (authenticate_steady hlaw change s.cfg s.username s.password v)

def weakAccount : Config where
  credentials := .empty
  mailboxes := .empty
  accounts := ⟨[{ id := ascii "a", username := ascii "printer", passwordHash := ascii "Wpw" }], by simp⟩

def weakUser : AdminDB where
  users := ⟨[{ id := ascii "a", username := ascii "alice", passwordHash := some (ascii "Wold"),
               role := .admin }], by simp⟩
  sessions := .empty

/-- The account is disabled while somebody signs in with it. -/
def disabling : Pool ConfigOp Fate Config Bool :=
  .start weakAccount
    ((AccountChange.update { enabled := some false }).program (plainServer {}) bareText (ascii "a") ::
      [⟨ascii "printer", ascii "pw", []⟩].map (SMTPSignIn.program (plainServer {}) bareText))

/-- The user is given another password while somebody signs in with the old one. -/
def resetting : Pool AdminOp Fate AdminDB Bool :=
  .start weakUser
    ((UserChange.setPassword (ascii "new password")).program (plainServer {}) (ascii "a") ::
      [⟨{}, ascii "alice", ascii "old"⟩].map (LocalSignIn.program (plainServer {})))

/-- Each sign-in has renewed the hash before the administrator begins. -/
theorem weak_rows_in_turn : (∃ p, runActions (Pool.step (accountView (ascii "a"))) disabling
        (Pool.turns {} [1, 1, 1, 1, 1, 0, 0, 0, 0]) = some p ∧
      RowHas ((AccountChange.update { enabled := some false }).Holds (plainServer {}))
        (p.shared.accounts.get (ascii "a"))) ∧
    ∃ p, runActions (Pool.step (userView (ascii "a"))) resetting
        (Pool.turns {} [1, 1, 1, 0, 0, 0]) = some p ∧
      RowHas ((UserChange.setPassword (ascii "new password")).Holds (plainServer {}))
        (p.shared.users.get (ascii "a")) := by
  have hlaw : (plainServer {}).passwords.Lawful := plainPasswords_lawful
  constructor
  · obtain ⟨p, hp, hdone⟩ := Option.map_eq_some_iff.1
      (show (runActions (Pool.step (accountView (ascii "a"))) disabling
          (Pool.turns {} [1, 1, 1, 1, 1, 0, 0, 0, 0])).map
            (fun p => p.firstResult) = some (some true) by decide +kernel)
    exact ⟨p, hp, (sign_in_keeps_change (plainServer {}) bareText hlaw (ascii "a")).1 _ _ _ p
      (reach_of_runActions _ (by decide +kernel) hp) hdone⟩
  obtain ⟨p, hp, hdone⟩ := Option.map_eq_some_iff.1
    (show (runActions (Pool.step (userView (ascii "a"))) resetting
        (Pool.turns {} [1, 1, 1, 0, 0, 0])).map
          (fun p => p.firstResult) = some (some true) by decide +kernel)
  exact ⟨p, hp, (sign_in_keeps_change (plainServer {}) bareText hlaw (ascii "a")).2 _ _ _ p
    (reach_of_runActions _ (by decide +kernel) hp) hdone⟩

/-- Each sign-in has read the row before the administrator changes it, and writes it back
afterwards: the account is enabled again, and the old password is back. -/
theorem weak_rows_written_back : (∃ p, runActions (Pool.step (accountView (ascii "a"))) disabling
        (Pool.turns {} [1, 0, 0, 0, 0, 1, 1, 1, 1]) = some p ∧
      p.firstResult = some true ∧
      (p.shared.accounts.get (ascii "a")).map (fun a => (a.enabled, a.passwordHash)) =
        some (true, ascii "#pw")) ∧
    ∃ p, runActions (Pool.step (userView (ascii "a"))) resetting
        (Pool.turns {} [1, 0, 0, 0, 1, 1]) = some p ∧
      p.firstResult = some true ∧
      (p.shared.users.get (ascii "a")).map (fun u => u.passwordHash) = some (some (ascii "#old")) := by
  constructor
  · obtain ⟨p, hp, hafter⟩ := Option.map_eq_some_iff.1
      (show (runActions (Pool.step (accountView (ascii "a"))) disabling
          (Pool.turns {} [1, 0, 0, 0, 0, 1, 1, 1, 1])).map
            (fun p => (p.firstResult,
              (p.shared.accounts.get (ascii "a")).map fun a => (a.enabled, a.passwordHash))) =
          some (some true, some (true, ascii "#pw")) by decide +kernel)
    obtain ⟨hdone, hrow⟩ := Prod.mk.inj hafter
    exact ⟨p, hp, hdone, hrow⟩
  obtain ⟨p, hp, hafter⟩ := Option.map_eq_some_iff.1
    (show (runActions (Pool.step (userView (ascii "a"))) resetting
        (Pool.turns {} [1, 0, 0, 0, 1, 1])).map (fun p => (p.firstResult,
            (p.shared.users.get (ascii "a")).map fun u => u.passwordHash)) =
        some (some true, some (some (ascii "#old"))) by decide +kernel)
  obtain ⟨hdone, hrow⟩ := Prod.mk.inj hafter
  exact ⟨p, hp, hdone, hrow⟩

end SmtpProxy.Adminapi
