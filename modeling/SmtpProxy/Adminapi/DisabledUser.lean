import SmtpProxy.Adminapi.Users
import SmtpProxy.Lib.Reach

/-!
# What a disabled admin account looks like

`Authenticate` checks the password of a disabled account before it refuses it, so
that a disabled account looks like a wrong password. The two differ in one thing:
a wrong password is counted, and the right password of a disabled account is not.
Whoever sends the right password often enough therefore never meets the lockout a
wrong one would bring, and learns that it is right.
-/

namespace SmtpProxy.Adminapi

open Lib Store App Adminauth Option

/-- One request to `handleLogin`: when it is made, which statements fail, and the
password it carries. -/
structure Attempt where
  now : Int
  failures : AdminOp → Option Err := fun _ => none
  r : HTTPRequest
  draw : SessionDraw
  password : Bytes

def Attempt.env (a : Attempt) (op : AdminOp) : Fate := ⟨a.now, a.failures op⟩

variable (srv : Server) (username : Bytes)

def attempt (db : AdminDB) (a : Attempt) : Response Payload × AdminDB :=
  (handleLogin srv a.r a.draw (.ok ⟨username, a.password⟩)).run a.env db

def answers : AdminDB → List Attempt → List (Response Payload)
  | _, [] => []
  | db, a :: as => (attempt srv username db a).1 :: answers (attempt srv username db a).2 as

/-- The hash of a user is that of this password. -/
def HasPassword (p : Passwords) (u : AdminUser) (password : Bytes) : Prop :=
  ∃ hash weak, u.passwordHash = some hash ∧ hash ≠ [] ∧ p.IsHashOf hash password weak

/-- An attempt after another: each finds the tables as the last one left them. -/
def nextAttempt (db : AdminDB) (a : Attempt) : Option AdminDB := some (attempt srv username db a).2

/-- The password is sent only while the account is locked (or to a database that does
not answer). -/
def OnlyWhileLocked (password : Bytes) (db : AdminDB) (a : Attempt) : Prop :=
  a.password = password →
    (a.failures .userGetByUsername).isSome ∨ (db.findByUsername username).any fun u => u.lockedAt a.now

instance (password : Bytes) (db : AdminDB) (a : Attempt) :
    Decidable (OnlyWhileLocked username password db a) :=
  inferInstanceAs (Decidable (_ → _))

/-! ## An attempt that is refused -/

/-- The error of `Authenticate` for an account that does not let anybody in. -/
def refusalError (cfg : LocalConfig) (a : Attempt) (locked : Bool) : Err :=
  if !cfg.enabled then errLocalDisabled
  else
    match a.failures .userGetByUsername with
    | some e => if e.is errNotFound then errInvalidCredentials else e
    | none => if locked then errLockedOut else errInvalidCredentials

/-- The answer of an account that does not let anybody in. -/
def refusal (a : Attempt) (locked : Bool) : Response Payload :=
  match srv.localAuth with
  | none => .error 403 "forbidden" "password sign-in is disabled"
  | some cfg =>
    if username = [] ∨ a.password = [] then
      .validation [Response.field "password" "required", Response.field "username" "required"]
    else signInFailure (refusalError cfg a locked)

/-- The attempt gets as far as comparing the password. -/
def compares (cfg : LocalConfig) (a : Attempt) (locked : Bool) : Bool :=
  cfg.enabled && (a.failures .userGetByUsername).isNone && !locked &&
    decide (a.password.length ≤ maxPasswordLen)

/-- The tables after a refused attempt: a password that was compared and is wrong has been
counted. -/
def afterRefusal (password : Bytes) (a : Attempt) (u : AdminUser) (db : AdminDB) : AdminDB :=
  match srv.localAuth with
  | none => db
  | some cfg =>
    if username = [] ∨ a.password = [] then db
    else if compares cfg a (u.lockedAt a.now) = true ∧ a.password ≠ password then
      ((recordFailure cfg u).run a.env db).2
    else db

def failedOnce (cfg : LocalConfig) (now : Int) (u : AdminUser) : AdminUser :=
  { u with
    failedLogins := u.failedLogins + 1
    lockedUntil :=
      if 0 < cfg.lockoutThreshold ∧ cfg.lockoutThreshold ≤ u.failedLogins + 1 then
        nullTime (now + cfg.lockoutDuration)
      else none
    updatedAt := now }

def recorded (cfg : LocalConfig) (a : Attempt) (u : AdminUser) : AdminUser :=
  if (a.failures .failedLoginsSelect).isNone && (a.failures .failedLoginsUpdate).isNone then
    failedOnce cfg a.now u
  else u

def tallied (password : Bytes) (a : Attempt) (u : AdminUser) : AdminUser :=
  match srv.localAuth with
  | none => u
  | some cfg =>
    if username = [] ∨ a.password = [] then u
    else if compares cfg a (u.lockedAt a.now) = true ∧ a.password ≠ password then recorded cfg a u
    else u

variable {srv username} {db : AdminDB} {a : Attempt} {u : AdminUser} {password : Bytes}

theorem Attempt.answer (a : Attempt) {β : Type} (op : AdminOp)
    (f : Int → AdminDB → Except Err β × AdminDB) (db : AdminDB) : (a.env op).answer f db =
      match a.failures op with
      | some e => (.error e, db)
      | none => f a.now db := rfl

theorem authenticate_refused {p : Passwords} (cfg : LocalConfig)
    (hfind : db.findByUsername username = some u) (hpassword : HasPassword p u password)
    (hnot : a.password = password → u.disabled = true) :
    (Adminauth.authenticate p cfg username a.password).run a.env db =
      (.error (refusalError cfg a (u.lockedAt a.now)),
        if compares cfg a (u.lockedAt a.now) = true ∧ a.password ≠ password then
          ((recordFailure cfg u).run a.env db).2
        else db) := by
  obtain ⟨hash, weak, hhash, hne, hverify⟩ := hpassword
  unfold Adminauth.authenticate refusalError compares
  cases hon : cfg.enabled with
  | false => simp
  | true =>
  have hnow : (a.env .userGetByUsername).now = a.now := rfl
  simp only [Bool.not_true, Bool.false_eq_true, if_false, Prog.run_bind, UserRepo.getByUsername,
    timedQuery, Prog.run_exec, a.answer, hnow, Bool.true_and]
  cases hfate : a.failures .userGetByUsername with
  | some e => simp
  | none =>
  simp only [hfind, isNone_none, Bool.true_and, hhash, getD_some, if_neg hne,
    Passwords.verifyPassword]
  cases hlocked : u.lockedAt a.now with
  | true => simp
  | false =>
  by_cases hlong : maxPasswordLen < a.password.length
  · simp [hlong, show ¬ a.password.length ≤ maxPasswordLen by omega]
  rw [if_neg hlong, hverify a.password]
  by_cases hright : a.password = password
  · simp [hright, hnot hright]
  · simp [hright, show a.password.length ≤ maxPasswordLen by omega]

/-- **What an attempt comes to** when the password is wrong or the account disabled. -/
theorem attempt_refused (hfind : db.findByUsername username = some u)
    (hpassword : HasPassword srv.passwords u password) (hnot : a.password = password → u.disabled = true) :
    attempt srv username db a =
      (refusal srv username a (u.lockedAt a.now), afterRefusal srv username password a u db) := by
  unfold attempt handleLogin refusal afterRefusal
  cases hlocal : srv.localAuth with
  | none => rfl
  | some cfg =>
  by_cases hempty : username = [] ∨ a.password = []
  · simp only [if_pos hempty]
    rfl
  simp only [if_neg hempty, Prog.run_bind, authenticate_refused cfg hfind hpassword hnot]
  rfl

theorem recordFailure_find (cfg : LocalConfig) (hfind : db.findByUsername username = some u) :
    ((recordFailure cfg u).run a.env db).2.findByUsername username = some (recorded cfg a u) := by
  obtain ⟨-, hget⟩ := db.findByUsername_some hfind
  have hnow : (a.env .failedLoginsSelect).now = a.now := rfl
  unfold recorded
  simp only [recordFailure, UserRepo.recordFailedLogin, UserRepo.selectFailedLogins,
    Prog.run_bind, timedQuery, Prog.run_exec, a.answer, hnow]
  cases a.failures .failedLoginsSelect with
  | some e => simp [hfind]
  | none =>
  simp only [hget, UserRepo.updateFailedLogins, statement, Prog.run_exec, a.answer]
  cases a.failures .failedLoginsUpdate with
  | some e => simp [hfind]
  | none =>
    simp only [Prog.run_pure, db.findByUsername_setCounters, hfind, map_some, if_pos]
    rfl

theorem afterRefusal_find (hfind : db.findByUsername username = some u) :
    (afterRefusal srv username password a u db).findByUsername username =
      some (tallied srv username password a u) := by
  unfold afterRefusal tallied
  cases srv.localAuth with
  | none => exact hfind
  | some cfg =>
  simp only
  split
  · exact hfind
  split
  · exact recordFailure_find cfg hfind
  · exact hfind

/-! ## Two accounts side by side -/

/-- Two accounts with the same counters: the first is disabled and has the one password,
the second has the other. -/
structure Alike (p : Passwords) (password other : Bytes) (u₁ u₂ : AdminUser) : Prop where
  failedLogins : u₁.failedLogins = u₂.failedLogins
  lockedUntil : u₁.lockedUntil = u₂.lockedUntil
  disabled : u₁.disabled = true
  first : HasPassword p u₁ password
  second : HasPassword p u₂ other

variable {p : Passwords} {other : Bytes} {u₁ u₂ : AdminUser} {db₁ db₂ : AdminDB}

theorem Alike.lockedAt (h : Alike p password other u₁ u₂) (now : Int) :
    u₁.lockedAt now = u₂.lockedAt now := by
  unfold AdminUser.lockedAt
  rw [h.lockedUntil]

theorem Alike.recorded (h : Alike p password other u₁ u₂) (cfg : LocalConfig) :
    Alike p password other (recorded cfg a u₁) (recorded cfg a u₂) := by
  unfold Adminapi.recorded
  split
  · exact ⟨by simp [failedOnce, h.failedLogins], by simp [failedOnce, h.failedLogins], h.disabled,
      h.first, h.second⟩
  · exact h

/-- An attempt is counted for both accounts or for neither, if the right password of the
first is not compared. -/
theorem Alike.tallied (srv : Server) (username : Bytes) (h : Alike p password other u₁ u₂)
    (hright : a.password = password →
      (a.failures .userGetByUsername).isSome ∨ u₁.lockedAt a.now = true)
    (hother : a.password ≠ other) :
    Alike p password other (tallied srv username password a u₁) (tallied srv username other a u₂) := by
  unfold Adminapi.tallied
  cases srv.localAuth with
  | none => exact h
  | some cfg =>
  have hsame : (compares cfg a (u₁.lockedAt a.now) = true ∧ a.password ≠ password) ↔
      (compares cfg a (u₂.lockedAt a.now) = true ∧ a.password ≠ other) := by
    rw [← h.lockedAt]
    refine ⟨fun hc => ⟨hc.1, hother⟩, fun hc => ⟨hc.1, fun heq => ?_⟩⟩
    have hcompares := hc.1
    rcases hright heq with hfailed | hlocked
    · simp [compares, isNone_eq_false_iff.2 hfailed] at hcompares
    · simp [compares, hlocked] at hcompares
  simp only [hsame]
  split
  · exact h
  split
  · exact h.recorded cfg
  · exact h

theorem Alike.answer (h : Alike srv.passwords password other u₁ u₂)
    (hfind₁ : db₁.findByUsername username = some u₁) (hfind₂ : db₂.findByUsername username = some u₂)
    (hother : a.password ≠ other) :
    (attempt srv username db₁ a).1 = (attempt srv username db₂ a).1 := by
  rw [attempt_refused hfind₁ h.first fun _ => h.disabled,
    attempt_refused hfind₂ h.second fun heq => absurd heq hother, h.lockedAt]

/-- **A disabled account looks like a wrong password.** An account that is disabled answers
a sequence of attempts as one whose password none of them carries, if every attempt but
the last carries the right password only while the account is locked. -/
theorem disabled_looks_wrong (as : List Attempt)
    (hfind₁ : db₁.findByUsername username = some u₁) (hfind₂ : db₂.findByUsername username = some u₂)
    (halike : Alike srv.passwords password other u₁ u₂) (hother : ∀ a ∈ as, a.password ≠ other)
    (hlocked : AllMeet (nextAttempt srv username) (OnlyWhileLocked username password) db₁ as.dropLast) :
    answers srv username db₁ as = answers srv username db₂ as := by
  induction as generalizing db₁ db₂ u₁ u₂ with
  | nil => rfl
  | cons a as ih =>
  have hanswer := halike.answer hfind₁ hfind₂ (hother a List.mem_cons_self)
  cases as with
  | nil => simp only [answers, hanswer]
  | cons b bs =>
  obtain ⟨hright, hrest⟩ := hlocked
  unfold OnlyWhileLocked at hright
  rw [hfind₁] at hright
  have hafter := halike.tallied srv username hright (hother a List.mem_cons_self)
  have hdb₁ := attempt_refused (a := a) hfind₁ halike.first fun _ => halike.disabled
  have hdb₂ := attempt_refused (a := a) hfind₂ halike.second fun heq =>
    absurd heq (hother a List.mem_cons_self)
  unfold answers
  rw [hanswer]
  refine congrArg _ (ih ?_ ?_ hafter (fun c hc => hother c (.tail _ hc)) (hrest _ rfl))
  · rw [hdb₁]
    exact afterRefusal_find hfind₁
  rw [hdb₂]
  exact afterRefusal_find hfind₂

/-- A server that locks an account at the first failure. -/
def strictServer : Server := plainServer { lockoutThreshold := 1, lockoutDuration := 60 }

def oneUser (disabled : Bool) (password : Bytes) : AdminDB where
  users :=
    ⟨[{ id := ascii "u", username := ascii "bob", role := .viewer, disabled,
        passwordHash := some (35 :: password) }], by simp⟩
  sessions := .empty

def tryAt (now : Int) (password : Bytes) : Attempt :=
  { now, r := { remoteAddr := [], forwardedFor := [], userAgent := [] },
    draw := { id := [], token := .ok [], csrf := .ok [] }, password }

/-- A wrong password locks the account; the right one then makes no difference. -/
theorem oneUser_locked_alike : answers strictServer (ascii "bob") (oneUser true (ascii "right"))
        [tryAt 0 (ascii "wrong"), tryAt 1 (ascii "right"), tryAt 2 (ascii "wrong")] =
      answers strictServer (ascii "bob") (oneUser false (ascii "other"))
        [tryAt 0 (ascii "wrong"), tryAt 1 (ascii "right"), tryAt 2 (ascii "wrong")] := by
  have hlaw : ∀ u : AdminUser, ∀ password, u.passwordHash = some (35 :: password) →
      HasPassword strictServer.passwords u password :=
    fun u password hhash => ⟨35 :: password, false, hhash, by simp, fun tried => rfl⟩
  exact disabled_looks_wrong _ rfl rfl
    ⟨rfl, rfl, rfl, hlaw _ (ascii "right") rfl, hlaw _ (ascii "other") rfl⟩ (by decide)
    (by decide +kernel)

/-- The right password of a disabled account, sent twice: it does not lock the account, as
a wrong one does. -/
theorem oneUser_right_twice : (answers strictServer (ascii "bob") (oneUser true (ascii "right"))
        [tryAt 0 (ascii "right"), tryAt 1 (ascii "right")]).map (·.status) = [401, 401] ∧
      (answers strictServer (ascii "bob") (oneUser false (ascii "other"))
        [tryAt 0 (ascii "right"), tryAt 1 (ascii "right")]).map (·.status) = [401, 429] := by
  decide +kernel

end SmtpProxy.Adminapi
