import SmtpProxy.Store.Statement

/-!
# Admin users and their sessions

`internal/store/users.go` and `internal/store/sessions.go`: the people who may
sign in to the management interface, and the sessions they hold. `AdminDB` is a
committed state of the two tables; the repositories' methods are programs that
issue statements on it.

`Update` writes a whole row, as its caller read it some statements ago; only the
login counters, `last_login_at` and `created_at` are left as they are. Deleting a
user deletes its sessions (`ON DELETE CASCADE`).
-/

namespace SmtpProxy.Store

open Lib List Table

/-- What an admin user may do. The schema restricts the column to these. -/
inductive Role where
  | admin
  | operator
  | viewer
  deriving DecidableEq

/-- Where an admin user's identity comes from. -/
inductive UserSource where
  | sourceLocal
  | sourceOIDC
  deriving DecidableEq

/-- One row of `admin_users`. -/
structure AdminUser where
  id : Bytes
  username : Bytes
  email : Bytes := []
  displayName : Bytes := []
  passwordHash : Option Bytes := none
  role : Role
  source : UserSource := .sourceLocal
  subject : Option Bytes := none
  totpSecretEnc : Bytes := []
  totpEnrolledAt : Option Int := none
  disabled : Bool := false
  failedLogins : Int := 0
  lockedUntil : Option Int := none
  lastLoginAt : Option Int := none
  createdAt : Int := 0
  updatedAt : Int := 0
  deriving DecidableEq

def AdminUser.lockedAt (u : AdminUser) (now : Int) : Bool := u.lockedUntil.any fun t => decide (now < t)

/-- The row `r` after `Update` has written `u` over it. -/
def AdminUser.assign (u : AdminUser) (now : Int) (r : AdminUser) : AdminUser :=
  { u with
    id := r.id
    failedLogins := r.failedLogins
    lockedUntil := r.lockedUntil
    lastLoginAt := r.lastLoginAt
    createdAt := r.createdAt
    updatedAt := now }

theorem AdminUser.assign_id (u : AdminUser) (now : Int) (r : AdminUser) :
    (u.assign now r).id = r.id := rfl

/-- The row `Create` inserts, with the id it draws if there is none. -/
def AdminUser.created (u : AdminUser) (newID : Bytes) (now : Int) : AdminUser :=
  { u with id := if u.id = [] then newID else u.id, createdAt := now, updatedAt := now }

/-- One row of `admin_sessions`. -/
structure Session where
  id : Bytes
  userID : Bytes
  tokenHash : Bytes
  csrfToken : Bytes := []
  ip : Bytes := []
  userAgent : Bytes := []
  createdAt : Int := 0
  lastSeenAt : Int := 0
  expiresAt : Int
  deriving DecidableEq

/-- The session is past its lifetime. -/
def Session.expiredAt (s : Session) (now : Int) : Bool := decide (s.expiresAt ≤ now)

/-- The session has been unused for longer than the idle timeout, if there is one. -/
def Session.idleAt (s : Session) (idleTimeout now : Int) : Bool :=
  decide (0 < idleTimeout ∧ idleTimeout < now - s.lastSeenAt)

structure AdminDB where
  users : Table Bytes AdminUser AdminUser.id
  sessions : Table Bytes Session Session.id

inductive AdminOp where
  | userCreate
  | userGet
  | userGetByUsername
  | userGetBySubject
  | userList
  | userUpdate
  | userDelete
  | failedLoginsSelect
  | failedLoginsUpdate
  | recordSuccessfulLogin
  | sessionCreate
  | sessionLookup
  | sessionTouch
  | sessionDelete
  | sessionDeleteForUser
  | sessionPurgeExpired
  deriving DecidableEq

abbrev AdminProg := Prog AdminOp Fate AdminDB

namespace AdminDB

variable (db : AdminDB)

def userNamed (name : Bytes) : Bytes := ascii "user " ++ name

def findByUsername (username : Bytes) : Option AdminUser :=
  db.users.rows.find? fun u => decide (u.username = username)

/-- One user by the subject an identity provider gives it. -/
def findBySubject (source : UserSource) (subject : Bytes) : Option AdminUser :=
  db.users.rows.find? fun u => decide (u.source = source ∧ u.subject = some subject)

/-- Another row holds a value that has to be unique: a username, or a subject of
the same identity provider. -/
def userConflict (u : AdminUser) : Bool :=
  db.users.rows.any fun r =>
    decide (r.id ≠ u.id ∧
      (r.username = u.username ∨ (u.subject ≠ none ∧ r.source = u.source ∧ r.subject = u.subject)))

/-- `INSERT INTO admin_users`. -/
def insertUser (u : AdminUser) : Except Err Unit × AdminDB :=
  if db.userConflict u then (.error (translateError .uniqueViolation (userNamed u.username)), db)
  else
    match db.users.insert u with
    | none => (.error (translateError .uniqueViolation (userNamed u.username)), db)
    | some users => (.ok (), { db with users })

def writeUser (now : Int) (u : AdminUser) : AdminDB :=
  { db with users := db.users.updateWhere (fun r => r.id = u.id) (u.assign now) (u.assign_id now) }

/-- `UPDATE admin_users SET … WHERE id = ?`, with the number of rows checked. -/
def updateUser (now : Int) (u : AdminUser) : Except Err Unit × AdminDB :=
  if (db.users.get u.id).isNone then (.error (sentinelFor errNotFound (userNamed u.id)), db)
  else if db.userConflict u then
    (.error (translateError .uniqueViolation (userNamed u.username)), db)
  else (.ok (), db.writeUser now u)

/-- `DELETE FROM admin_users WHERE id = ?`, which takes the sessions along. -/
def deleteUser (id : Bytes) : Except Err Unit × AdminDB :=
  if (db.users.get id).isNone then (.error (sentinelFor errNotFound (userNamed id)), db)
  else
    (.ok (), { users := db.users.deleteWhere fun u => u.id = id
               sessions := db.sessions.deleteWhere fun s => s.userID = id })

def setCounters (id : Bytes) (failedLogins : Int) (lockedUntil : Option Int)
    (lastLoginAt : AdminUser → Option Int) (now : Int) : AdminDB :=
  let users := db.users.updateWhere (fun r => r.id = id)
    (fun r => { r with failedLogins, lockedUntil, lastLoginAt := lastLoginAt r, updatedAt := now })
    fun _ => rfl
  { db with users }

/-- `INSERT INTO admin_sessions`. -/
def insertSession (now : Int) (s : Session) : Except Err Unit × AdminDB :=
  let s := { s with createdAt := if s.createdAt = 0 then now else s.createdAt, lastSeenAt := now }
  if (db.users.get s.userID).isNone then
    (.error (translateError .foreignKeyViolation (ascii "session")), db)
  else if db.sessions.rows.any fun r => r.tokenHash = s.tokenHash then
    (.error (translateError .uniqueViolation (ascii "session")), db)
  else
    match db.sessions.insert s with
    | none => (.error (translateError .uniqueViolation (ascii "session")), db)
    | some sessions => (.ok (), { db with sessions })

/-- The session with a token's hash, joined with its user. -/
def findSession (tokenHash : Bytes) : Option (Session × AdminUser) :=
  match db.sessions.rows.find? fun s => decide (s.tokenHash = tokenHash) with
  | none => none
  | some s => (db.users.get s.userID).map fun u => (s, u)

theorem answer_updateUser (c : Fate) (u : AdminUser) :
    (∃ e, c.answer (fun now db => updateUser db now u) db = (.error e, db)) ∨
      (∃ r, db.users.get u.id = some r) ∧
        c.answer (fun now db => updateUser db now u) db = (.ok (), db.writeUser c.now u) := by
  obtain ⟨e, he⟩ | he := c.answer_cases (fun now db => updateUser db now u) db
  · exact .inl ⟨e, he⟩
  rw [he]
  unfold updateUser
  split
  · exact .inl ⟨_, rfl⟩
  next hsome =>
  split
  · exact .inl ⟨_, rfl⟩
  · exact .inr ⟨Option.ne_none_iff_exists'.1 (by simpa using hsome), rfl⟩

theorem insertUser_cases (u : AdminUser) : (∃ e, db.insertUser u = (.error e, db)) ∨
      ∃ users, db.users.insert u = some users ∧
        (∀ r ∈ db.users.rows, u.subject ≠ none → ¬(r.source = u.source ∧ r.subject = u.subject)) ∧
        db.insertUser u = (.ok (), { db with users }) := by
  unfold insertUser
  split
  · exact .inl ⟨_, rfl⟩
  next hfree =>
  split
  · exact .inl ⟨_, rfl⟩
  next users hinsert =>
  refine .inr ⟨users, hinsert, ?_, rfl⟩
  intro r hr hsubject hsame
  apply hfree
  refine any_eq_true.2 ⟨r, hr, decide_eq_true ⟨?_, .inr ⟨hsubject, hsame⟩⟩⟩
  intro hid
  exact get_eq_none_iff.1 (insert_free hinsert) r hr hid

theorem findBySubject_some {source : UserSource} {subject : Bytes} {u : AdminUser}
    (h : db.findBySubject source subject = some u) :
    u.source = source ∧ u.subject = some subject ∧ db.users.get u.id = some u := by
  have hkey : u.source = source ∧ u.subject = some subject := by simpa using find?_some h
  exact ⟨hkey.1, hkey.2, get_key (mem_of_find?_eq_some h)⟩

theorem findByUsername_some {username : Bytes} {u : AdminUser}
    (h : db.findByUsername username = some u) : u.username = username ∧ db.users.get u.id = some u :=
  ⟨by simpa using find?_some h, get_key (mem_of_find?_eq_some h)⟩

theorem find_updateWhere (p : AdminUser → Bool) (f : AdminUser → AdminUser)
    (hf : ∀ r, (f r).id = r.id) (username : Bytes)
    (hname : ∀ r ∈ db.users.rows, p r = true → (f r).username = r.username) :
    (db.users.updateWhere p f hf).rows.find? (fun u => decide (u.username = username)) =
      (db.findByUsername username).map fun r => if p r then f r else r := by
  show (db.users.rows.map _).find? _ = _
  rw [find?_map, findByUsername]
  congr 1
  apply find?_agree
  intro r hr
  show decide ((if p r = true then f r else r).username = username) = decide (r.username = username)
  split
  · next hp => rw [hname r hr hp]
  · rfl

theorem findByUsername_setCounters (id : Bytes) (failedLogins : Int) (lockedUntil : Option Int)
    (lastLoginAt : AdminUser → Option Int) (now : Int) (username : Bytes) :
    (db.setCounters id failedLogins lockedUntil lastLoginAt now).findByUsername username =
      (db.findByUsername username).map fun r =>
        if r.id = id then
          { r with failedLogins, lockedUntil, lastLoginAt := lastLoginAt r, updatedAt := now }
        else r := by
  have hfind := db.find_updateWhere (fun r => decide (r.id = id))
    (fun r => { r with failedLogins, lockedUntil, lastLoginAt := lastLoginAt r, updatedAt := now })
    (fun _ => rfl) username (fun _ _ _ => rfl)
  simp only [decide_eq_true_eq] at hfind
  exact hfind

theorem findSession_some {tokenHash : Bytes} {s : Session} {u : AdminUser}
    (h : db.findSession tokenHash = some (s, u)) :
    s ∈ db.sessions.rows ∧ s.tokenHash = tokenHash ∧ db.users.get s.userID = some u := by
  unfold findSession at h
  split at h
  · cases h
  next s' hfind =>
  obtain ⟨u', hu', heq⟩ := Option.map_eq_some_iff.1 h
  cases heq
  exact ⟨mem_of_find?_eq_some hfind, by simpa using find?_some hfind, hu'⟩

theorem insertSession_cases (now : Int) (s : Session) :
    (∃ e, db.insertSession now s = (.error e, db)) ∨ ∃ row sessions, row =
          { s with createdAt := if s.createdAt = 0 then now else s.createdAt, lastSeenAt := now } ∧
        (∀ r ∈ db.sessions.rows, r.tokenHash ≠ s.tokenHash) ∧ db.sessions.insert row = some sessions ∧
        (db.users.get s.userID).isSome ∧
        db.insertSession now s = (.ok (), { db with sessions }) := by
  unfold insertSession
  dsimp only
  split
  · exact .inl ⟨_, rfl⟩
  next huser =>
  split
  · exact .inl ⟨_, rfl⟩
  next hfree =>
  split
  · exact .inl ⟨_, rfl⟩
  next sessions hinsert =>
  refine .inr ⟨_, sessions, rfl, ?_, hinsert, by simpa [Option.isSome_iff_ne_none] using huser, rfl⟩
  intro r hr heq
  apply hfree
  exact any_eq_true.2 ⟨r, hr, by simpa using heq⟩

theorem get_setCounters (id : Bytes) (failedLogins : Int) (lockedUntil : Option Int)
    (lastLoginAt : AdminUser → Option Int) (now : Int) (k : Bytes) :
    (db.setCounters id failedLogins lockedUntil lastLoginAt now).users.get k =
      (db.users.get k).map fun r =>
        if r.id = id then
          { r with failedLogins, lockedUntil, lastLoginAt := lastLoginAt r, updatedAt := now }
        else r := by
  rw [setCounters, get_updateWhere]
  simp

theorem get_writeUser (now : Int) (u : AdminUser) (k : Bytes) : (db.writeUser now u).users.get k =
      (db.users.get k).map fun r => if r.id = u.id then u.assign now r else r := by
  show (db.users.updateWhere _ _ (u.assign_id now)).get k = _
  rw [get_updateWhere]
  simp

end AdminDB

/-! ## `UserRepo` -/

namespace UserRepo

/-- `UserRepo.Create`, with the caller's copy of the row. -/
def create (newID : Bytes) (u : AdminUser) : AdminProg (AdminUser × Except Err Unit) :=
  stamping .userCreate (u.created newID) fun now db => db.insertUser (u.created newID now)

def get (id : Bytes) : AdminProg (Except Err AdminUser) :=
  query .userGet fun db =>
    match db.users.get id with
    | some u => .ok u
    | none => .error (translateError .noRows (AdminDB.userNamed id))

theorem get_keeps {I : AdminDB → Prop} {Q : Except Err AdminUser → Prop} (id : Bytes)
    (herror : ∀ e, Q (.error e)) (hok : ∀ u, u.id = id → Q (.ok u)) : (get id).Keeps I Q := by
  apply query_keeps herror
  intro db _
  cases hget : db.users.get id with
  | none => exact herror _
  | some u => exact hok u (key_of_get hget)

/-- `UserRepo.GetByUsername`, with the time it answers. -/
def getByUsername (username : Bytes) : AdminProg (Int × Except Err AdminUser) :=
  timedQuery .userGetByUsername fun db =>
    match db.findByUsername username with
    | some u => .ok u
    | none => .error (translateError .noRows (AdminDB.userNamed username))

def getBySubject (source : UserSource) (subject : Bytes) : AdminProg (Except Err AdminUser) :=
  query .userGetBySubject fun db =>
    match db.findBySubject source subject with
    | some u => .ok u
    | none => .error (translateError .noRows (ascii "user with subject " ++ subject))

theorem getBySubject_run (source : UserSource) (subject : Bytes) (env : AdminOp → Fate)
    (db : AdminDB) :
    (∃ e, (getBySubject source subject).run env db = (.error e, db)) ∨
      ∃ u, (getBySubject source subject).run env db = (.ok u, db) ∧
        u.source = source ∧ u.subject = some subject ∧ db.users.get u.id = some u := by
  obtain ⟨e, hrun⟩ | hrun := query_run .userGetBySubject _ env db
  · exact .inl ⟨e, hrun⟩
  cases hfind : db.findBySubject source subject with
  | none =>
    rw [hfind] at hrun
    exact .inl ⟨_, hrun⟩
  | some u =>
    rw [hfind] at hrun
    exact .inr ⟨u, hrun, db.findBySubject_some hfind⟩

/-- `UserRepo.List`, ordered by username. -/
def list : AdminProg (Except Err (List AdminUser)) :=
  query .userList fun db => .ok (db.users.rows.insertionSort fun a b => a.username ≤ b.username)

/-- `UserRepo.Update`. It stamps the caller's copy before it writes. -/
def update (u : AdminUser) : AdminProg (AdminUser × Except Err Unit) :=
  .exec .userUpdate fun c db =>
    let written := c.answer (fun now db => db.updateUser now u) db
    (({ u with updatedAt := c.now }, written.1), written.2)

def delete (id : Bytes) : AdminProg (Except Err Unit) :=
  statement .userDelete fun _ db => db.deleteUser id

/-- What `RecordFailedLogin` reads: the count, and the time it began. -/
def selectFailedLogins (id : Bytes) : AdminProg (Int × Except Err Int) :=
  timedQuery .failedLoginsSelect fun db =>
    match db.users.get id with
    | some u => .ok u.failedLogins
    | none => .error (translateError .noRows (AdminDB.userNamed id))

/-- What `RecordFailedLogin` writes for a count of failures. -/
def updateFailedLogins (id : Bytes) (threshold lockFor now failures : Int) :
    AdminProg (Except Err Unit) :=
  let lockedUntil := if 0 < threshold ∧ threshold ≤ failures then nullTime (now + lockFor) else none
  statement .failedLoginsUpdate fun _ db =>
    (.ok (), db.setCounters id failures lockedUntil AdminUser.lastLoginAt now)

/-- `RecordFailedLogin`: two statements in a transaction. Nobody sees what the second
writes before it is committed, and nobody else can write to the row meanwhile, so its
effect is that of the commit. -/
def recordFailedLogin (id : Bytes) (threshold lockFor : Int) : AdminProg (Except Err Unit) := do
  let (now, found) ← selectFailedLogins id
  match found with
  | .error e => return .error e
  | .ok failures => updateFailedLogins id threshold lockFor now (failures + 1)

def recordSuccessfulLogin (id : Bytes) : AdminProg (Except Err Unit) :=
  statement .recordSuccessfulLogin fun now db =>
    (.ok (), db.setCounters id 0 none (fun _ => some now) now)

end UserRepo

/-! ## `SessionRepo` -/

namespace SessionRepo

def delete (id : Bytes) : AdminProg (Except Err Unit) :=
  statement .sessionDelete fun _ db =>
    (.ok (), { db with sessions := db.sessions.deleteWhere fun s => s.id = id })

def touch (id : Bytes) : AdminProg (Except Err Unit) :=
  statement .sessionTouch fun now db =>
    let sessions := db.sessions.updateWhere (fun s => s.id = id)
      (fun s => { s with lastSeenAt := now }) fun _ => rfl
    (.ok (), { db with sessions })

def deleteForUser (userID : Bytes) : AdminProg (Except Err Unit) := do
  let deleted ← statement .sessionDeleteForUser fun _ db =>
    (.ok (), { db with sessions := db.sessions.deleteWhere fun s => s.userID = userID })
  return deleted.mapError (wrapping (ascii "store: deleting sessions for " ++ userID))

def purgeExpired : AdminProg (Except Err Unit) := do
  let deleted ← statement .sessionPurgeExpired fun now db =>
    (.ok (), { db with sessions := db.sessions.deleteWhere fun s => s.expiresAt < now })
  return deleted.mapError (wrapping (ascii "store: purging expired sessions"))

/-- An error that wraps `ErrNotFound`: the session is there, but does not count. -/
def notLive (why : String) : Err := sentinelFor errNotFound (ascii why)

/-- `SessionRepo.Lookup`: the live session for a token, with its user. A session
found dead is deleted on the way; whether that succeeds does not matter. -/
def lookup (hashSessionToken : Bytes → Bytes) (token : Bytes) (idleTimeout : Int) :
    AdminProg (Except Err (Session × AdminUser)) := do
  let (now, found) ← timedQuery .sessionLookup fun db =>
    match db.findSession (hashSessionToken token) with
    | some found => .ok found
    | none => .error (translateError .noRows (ascii "session"))
  match found with
  | .error e => return .error e
  | .ok (s, u) =>
    if s.expiredAt now then
      let _ ← delete s.id
      return .error (notLive "the session has expired")
    else if s.idleAt idleTimeout now then
      let _ ← delete s.id
      return .error (notLive "the session was idle too long")
    else if u.disabled then return .error (notLive "the account is disabled")
    else return .ok (s, u)

theorem lookup_ok {hashSessionToken : Bytes → Bytes} {token : Bytes} {idleTimeout : Int}
    {env : AdminOp → Fate} {db : AdminDB} {s : Session} {u : AdminUser}
    (h : ((lookup hashSessionToken token idleTimeout).run env db).1 = .ok (s, u)) :
    db.findSession (hashSessionToken token) = some (s, u) := by
  rw [lookup, Prog.run_bind] at h
  obtain ⟨e, hrun⟩ | hrun := timedQuery_run .sessionLookup _ env db
  · rw [hrun] at h
    cases h
  rw [hrun] at h
  cases hfind : db.findSession (hashSessionToken token) with
  | none =>
    rw [hfind] at h
    cases h
  | some found =>
  rw [hfind] at h
  dsimp only at h
  split at h
  · cases h
  split at h
  · cases h
  split at h
  · cases h
  · exact congrArg some (Except.ok.inj h)

end SessionRepo

end SmtpProxy.Store
