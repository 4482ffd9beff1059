import SmtpProxy.App.Auth
import SmtpProxy.Store.Users

/-!
# Password sign-in to the management interface

`LocalAuthenticator` of `internal/adminauth/local.go`. A password is compared with
the row one statement read; what the sign-in then writes (a renewed hash, the
login counters) it writes in later statements, the renewed hash together with
every other column of the row as it was read.

The decoy hash of an unknown user only costs time, and logging is left out.
-/

namespace SmtpProxy.Adminauth

open Lib Store App

def errInvalidCredentials : Err :=
  ⟨.sentinel (ascii "adminauth: incorrect username or password"), []⟩

def errLockedOut : Err :=
  ⟨.sentinel (ascii "adminauth: too many failed attempts; try again later"), []⟩

def errLocalDisabled : Err := ⟨.sentinel (ascii "adminauth: password sign-in is disabled"), []⟩

structure LocalConfig where
  enabled : Bool := true
  lockoutThreshold : Int := 0
  lockoutDuration : Int := 0
  deriving DecidableEq

variable (p : Passwords) (cfg : LocalConfig)

/-- `LocalAuthenticator.recordFailure`: an error is only logged. -/
def recordFailure (user : AdminUser) : AdminProg Unit := do
  let _ ← UserRepo.recordFailedLogin user.id cfg.lockoutThreshold cfg.lockoutDuration

/-- `LocalAuthenticator.rehash`: the caller's copy of the row afterwards. -/
def rehash (user : AdminUser) (password : Bytes) : AdminProg AdminUser :=
  match p.hashPassword password with
  | .error _ => return user
  | .ok updated => do
    let (user, _) ← UserRepo.update { user with passwordHash := nullString updated }
    return user

def signedIn (user : AdminUser) (password : Bytes) (needsRehash : Bool) :
    AdminProg (Except Err AdminUser) := do
  let user ← if needsRehash then rehash p user password else pure user
  let _ ← UserRepo.recordSuccessfulLogin user.id
  return .ok user

def authenticate (username password : Bytes) : AdminProg (Except Err AdminUser) :=
  if !cfg.enabled then return .error errLocalDisabled
  else do
    let (now, found) ← UserRepo.getByUsername username
    match found with
    | .error e => return .error (if e.is errNotFound then errInvalidCredentials else e)
    | .ok user =>
      if user.lockedAt now then return .error errLockedOut
      else if user.passwordHash.getD [] = [] then return .error errInvalidCredentials
      else
        match p.verifyPassword (user.passwordHash.getD []) password with
        | .error _ => return .error errInvalidCredentials
        | .ok (false, _) =>
          recordFailure cfg user
          return .error errInvalidCredentials
        | .ok (true, needsRehash) =>
          -- a disabled account is told from a wrong password by not being counted
          if user.disabled then return .error errInvalidCredentials
          else signedIn p user password needsRehash

def setPassword (user : AdminUser) (password : Bytes) : AdminProg (Except Err Unit) :=
  match p.hashPassword password with
  | .error e => return .error (wrapping (ascii "adminauth: hashing the password") e)
  | .ok hash => do
    let (user, updated) ← UserRepo.update { user with passwordHash := nullString hash }
    match updated with
    | .error e => return .error e
    | .ok () =>
      let deleted ← SessionRepo.deleteForUser user.id
      return deleted.mapError (wrapping (ascii "adminauth: revoking sessions after a password change"))

/-! ## What a sign-in keeps -/

variable {p cfg} {I : AdminDB → Prop}

theorem recordFailure_keeps (hcounters : ∀ db id failures locked lastLogin now,
      I db → I (db.setCounters id failures locked lastLogin now)) (user : AdminUser) :
    (recordFailure cfg user).Keeps I fun _ => True := by
  unfold recordFailure UserRepo.recordFailedLogin
  rw [bind_assoc]
  refine .bind ?_
  apply timedQuery_keeps
  · intro now e
    trivial
  intro now db _
  dsimp only
  split
  · trivial
  refine .bind ?_
  apply statement_keeps (fun _ => trivial)
  intro now db hdb
  exact ⟨hcounters _ _ _ _ _ _ hdb, trivial⟩

variable {password : Bytes}

theorem rehash_keeps {user : AdminUser}
    (hwrite : ∀ db hash now, p.hashPassword password = .ok hash → I db →
      I (db.writeUser now { user with passwordHash := nullString hash })) :
    (rehash p user password).Keeps I fun copy => copy.id = user.id := by
  unfold rehash
  split
  · rfl
  next hash hhash =>
  refine .bind ?_
  apply Prog.keeps_exec
  intro c db hdb
  refine ⟨?_, rfl⟩
  dsimp only
  obtain ⟨e, he⟩ | ⟨-, he⟩ := db.answer_updateUser c { user with passwordHash := nullString hash }
  · rw [he]
    exact hdb
  rw [he]
  exact hwrite db hash c.now hhash hdb

theorem signedIn_keeps {user : AdminUser} {needsRehash : Bool}
    (hcounters : ∀ db id failures locked lastLogin now, I db →
      I (db.setCounters id failures locked lastLogin now))
    (hwrite : needsRehash = true → ∀ db hash now, p.hashPassword password = .ok hash → I db →
      I (db.writeUser now { user with passwordHash := nullString hash })) :
    (signedIn p user password needsRehash).Keeps I fun found =>
      ∀ u, found = .ok u → u.id = user.id := by
  have hrecord : ∀ copy : AdminUser, copy.id = user.id →
      (UserRepo.recordSuccessfulLogin copy.id >>= fun _ => pure (Except.ok copy : Except Err AdminUser)).Keeps
        I fun found => ∀ u, found = .ok u → u.id = user.id := by
    intro copy hid
    refine .bind ?_
    have hanswer : ∀ u, (Except.ok copy : Except Err AdminUser) = .ok u → u.id = user.id := by
      intro u hu
      cases hu
      exact hid
    apply statement_keeps (fun _ => hanswer)
    intro now db hdb
    exact ⟨hcounters _ _ _ _ _ _ hdb, hanswer⟩
  unfold signedIn
  cases needsRehash with
  | false => exact hrecord user rfl
  | true =>
  refine .bind ?_
  apply (rehash_keeps (hwrite rfl)).mono
  intro copy hid
  exact hrecord copy hid

/-- A sign-in keeps what is kept by the login counters and by a renewed hash. Whoever is
signed in has a row whose hash the password matched; `P` is what is known of the rows it
reads. -/
theorem authenticate_keeps {P : AdminUser → Prop} (username : Bytes)
    (hread : ∀ db u, I db → db.users.get u.id = some u → P u)
    (hcounters : ∀ db id failures locked lastLogin now, I db →
      I (db.setCounters id failures locked lastLogin now))
    (hrehash : ∀ db u hash now, P u →
      p.verifyPassword (u.passwordHash.getD []) password = .ok (true, true) →
      p.hashPassword password = .ok hash → I db → I (db.writeUser now { u with passwordHash := nullString hash })) :
    (authenticate p cfg username password).Keeps I fun found => ∀ u, found = .ok u →
      ∃ row needsRehash, P row ∧ u.id = row.id ∧
        p.verifyPassword (row.passwordHash.getD []) password = .ok (true, needsRehash) := by
  have hfailed : ∀ e u, (Except.error e : Except Err AdminUser) = .ok u →
      ∃ row needsRehash, P row ∧ u.id = row.id ∧
        p.verifyPassword (row.passwordHash.getD []) password = .ok (true, needsRehash) :=
    fun e u h => absurd h (by simp)
  unfold authenticate
  split
  · exact hfailed _
  refine .bind ?_
  apply timedQuery_keeps
  · intro now e
    exact hfailed _
  intro now db hdb
  cases hfind : db.findByUsername username with
  | none => exact hfailed _
  | some user =>
  have hP : P user := hread db user hdb (db.findByUsername_some hfind).2
  dsimp only
  split
  · exact hfailed _
  split
  · exact hfailed _
  cases hverify : p.verifyPassword (user.passwordHash.getD []) password with
  | error e => exact hfailed _
  | ok verified =>
  obtain ⟨matched, needsRehash⟩ := verified
  cases matched with
  | false =>
    refine .bind ?_
    apply (recordFailure_keeps hcounters user).mono
    intro _ _
    exact hfailed _
  | true =>
  dsimp only
  split
  · exact hfailed _
  have hsigned : (signedIn p user password needsRehash).Keeps I fun found =>
      ∀ u, found = .ok u → u.id = user.id := by
    apply signedIn_keeps hcounters
    intro hneeds db hash now hhash hdb
    exact hrehash db user hash now hP (hneeds ▸ hverify) hhash hdb
  apply hsigned.mono
  intro found hid u hu
  exact ⟨user, needsRehash, hP, hid u hu, hverify⟩

end SmtpProxy.Adminauth
