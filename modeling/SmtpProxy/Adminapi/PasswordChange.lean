import SmtpProxy.Adminapi.Users
import SmtpProxy.Lib.Interleave

/-!
# A changed password and the sessions of the old one

`SetPassword` stores the new hash and then ends the user's sessions. A sign-in checks
the password in one statement and stores its session in a later one, so a sign-in that
is under way when the password is changed gets a session that survives it.

`password_change_ends_sessions` says that no other sign-in with the old password does.
-/

namespace SmtpProxy.Adminapi

open Lib Store App Adminauth Table

variable (srv : Server) (new : Bytes)

/-- The user's hash is that of the new password. -/
def storesPassword (u : AdminUser) : Bool :=
  match srv.passwords.hashPassword new with
  | .error _ => false
  | .ok hash => decide (u.passwordHash = some hash)

def passwordStored (id : Bytes) (db : AdminDB) : Bool := (db.users.get id).any (storesPassword srv new)

def hasSession (id : Bytes) (db : AdminDB) : Bool := db.sessions.rows.any fun s => s.userID = id

def passwordView (id : Bytes) (db : AdminDB) : Bool × Bool := (passwordStored srv new id db, hasSession id db)

inductive PasswordChange where
  | own (user : AdminUser) (current : Bytes)
  | byAdmin (id : Bytes)

def PasswordChange.userID : PasswordChange → Bytes
  | .own user _ => user.id
  | .byAdmin id => id

def PasswordChange.program : PasswordChange → AdminProg Bool
  | .own user current => Response.succeeded <$> handleChangeOwnPassword srv user (.ok ⟨current, new⟩)
  | .byAdmin id => Response.succeeded <$> handleSetUserPassword srv id (.ok new)

/-- A sign-in: the request, what is drawn for its session, and the name it carries. -/
structure Login where
  r : HTTPRequest
  draw : SessionDraw
  username : Bytes

def Login.program (old : Bytes) (l : Login) : AdminProg Bool :=
  Response.succeeded <$> handleLogin srv l.r l.draw (.ok ⟨l.username, old⟩)

/-- `Lookup` accepts no session of the user, whatever the time. -/
def NoneAccepted (id : Bytes) (db : AdminDB) : Prop :=
  ∀ token idleTimeout env s u,
    ((SessionRepo.lookup srv.hashSessionToken token idleTimeout).run env db).1 = .ok (s, u) →
      s.userID ≠ id

variable {srv new} {id : Bytes} {db : AdminDB}

/-! ## What the statements do to what is watched -/

theorem passwordStored_counters (k : Bytes) (failures : Int) (locked : Option Int)
    (lastLogin : AdminUser → Option Int) (now : Int) :
    passwordStored srv new id (db.setCounters k failures locked lastLogin now) =
      passwordStored srv new id db := by
  unfold passwordStored
  rw [db.get_setCounters]
  cases db.users.get id with
  | none => rfl
  | some u =>
    rw [Option.map_some, Option.any_some, Option.any_some]
    split <;> rfl

theorem passwordStored_other {u : AdminUser} (hne : u.id ≠ id) (now : Int) :
    passwordStored srv new id (db.writeUser now u) = passwordStored srv new id db := by
  unfold passwordStored
  rw [db.get_writeUser]
  cases hget : db.users.get id with
  | none => rfl
  | some r =>
  have hid : r.id ≠ u.id := by
    rw [key_of_get hget]
    exact Ne.symm hne
  rw [Option.map_some, if_neg hid]

theorem passwordStored_write (srv : Server) (new : Bytes) (db : AdminDB) (u : AdminUser) (now : Int) :
    passwordStored srv new u.id (db.writeUser now u) =
      ((db.users.get u.id).isSome && storesPassword srv new u) := by
  unfold passwordStored
  rw [db.get_writeUser]
  cases hget : db.users.get u.id with
  | none => rfl
  | some r =>
    rw [Option.map_some, if_pos (key_of_get hget)]
    rfl

theorem hasSession_insert {s : Session} {sessions : Table Bytes Session Session.id}
    (hinsert : db.sessions.insert s = some sessions) (hne : s.userID ≠ id) :
    hasSession id { db with sessions } = hasSession id db := by
  rw [Bool.eq_iff_iff]
  unfold hasSession
  simp only [List.any_eq_true, decide_eq_true_eq]
  constructor
  · rintro ⟨x, hx, hid⟩
    obtain hold | rfl := (mem_insert hinsert).1 hx
    · exact ⟨x, hold, hid⟩
    · exact absurd hid hne
  rintro ⟨x, hx, hid⟩
  exact ⟨x, (mem_insert hinsert).2 (.inl hx), hid⟩

theorem hasSession_deleted :
    hasSession id { db with sessions := db.sessions.deleteWhere fun s => s.userID = id } = false := by
  unfold hasSession
  apply List.any_eq_false.2
  intro s hs
  simpa using (List.mem_filter.1 hs).2

/-! ## The passwords -/

variable {old : Bytes}

theorem storesPassword_not_matched (hlaw : srv.passwords.Lawful) (hold : old ≠ new)
    {u : AdminUser} (hstores : storesPassword srv new u = true) (needsRehash : Bool) :
    srv.passwords.verifyPassword (u.passwordHash.getD []) old ≠ .ok (true, needsRehash) := by
  unfold storesPassword at hstores
  split at hstores
  · cases hstores
  next hash hhash =>
  rw [of_decide_eq_true hstores, Option.getD_some, Passwords.verifyPassword]
  split
  · simp
  rw [(hlaw.hashPassword hhash).2 old]
  simp [hold]

theorem storesPassword_renewed (hlaw : srv.passwords.Lawful) {hash : Bytes} (hold : old ≠ new)
    (hhash : srv.passwords.hashPassword old = .ok hash) (u : AdminUser) :
    storesPassword srv new { u with passwordHash := nullString hash } = false := by
  obtain ⟨hne, hof⟩ := hlaw.hashPassword hhash
  unfold storesPassword
  split
  · rfl
  next hash' hhash' =>
  apply decide_eq_false
  rw [nullString, if_neg hne]
  intro heq
  cases heq
  have hboth := (hof old).symm.trans ((hlaw.hashPassword hhash').2 old)
  simp [hold] at hboth

/-! ## A sign-in with the old password -/

section

variable {I : AdminDB → Prop}

theorem completeSignIn_keeps {user : AdminUser}
    (hinsert : ∀ db s sessions, s.userID = user.id → db.sessions.insert s = some sessions → I db →
      I { db with sessions }) (r : HTTPRequest) (draw : SessionDraw) :
    (completeSignIn srv user r draw).Keeps I fun _ => True := by
  have hissue : (issue srv.net srv.hashSessionToken srv.sessions user r draw).Keeps I fun _ => True := by
    unfold issue
    split
    · trivial
    · trivial
    apply Prog.keeps_exec
    intro c db hdb
    refine ⟨?_, trivial⟩
    dsimp only
    obtain ⟨e, he⟩ | he := c.answer_cases (fun now (db : AdminDB) => db.insertSession now _) db
    · rw [he]
      exact hdb
    rw [he]
    obtain ⟨e, he⟩ | ⟨row, sessions, hrow, -, hrows, -, he⟩ := db.insertSession_cases c.now _
    · rw [he]
      exact hdb
    rw [he]
    exact hinsert db row sessions (by rw [hrow]; rfl) hrows hdb
  unfold completeSignIn
  refine .bind ?_
  apply hissue.mono
  intro issued _
  split <;> trivial

/-- A sign-in keeps what the login counters, a renewed hash and a session for a row that
matched keep. -/
theorem Login.keeps {P : AdminUser → Prop} {old : Bytes} (l : Login)
    (hread : ∀ db u, I db → db.users.get u.id = some u → P u)
    (hcounters : ∀ db id failures locked lastLogin now,
      I db → I (db.setCounters id failures locked lastLogin now))
    (hrehash : ∀ db u hash now, P u →
      srv.passwords.verifyPassword (u.passwordHash.getD []) old = .ok (true, true) →
      srv.passwords.hashPassword old = .ok hash → I db →
      I (db.writeUser now { u with passwordHash := nullString hash }))
    (hinsert : ∀ db u needsRehash s sessions, P u →
      srv.passwords.verifyPassword (u.passwordHash.getD []) old = .ok (true, needsRehash) →
      s.userID = u.id → db.sessions.insert s = some sessions → I db → I { db with sessions }) :
    (l.program srv old).Keeps I fun _ => True := by
  apply Prog.Keeps.map
  unfold handleLogin
  split
  · trivial
  dsimp only
  split
  · trivial
  refine .bind ?_
  apply (authenticate_keeps l.username hread hcounters hrehash).mono
  intro found hfound
  cases found with
  | error e => trivial
  | ok user =>
  obtain ⟨row, needsRehash, hP, hid, hverify⟩ := hfound user rfl
  apply completeSignIn_keeps
  intro db s sessions hs hinserted hdb
  exact hinsert db row needsRehash s sessions hP hverify (hs.trans hid) hinserted hdb

end

/-- With the new password stored, a sign-in with the old one is not seen. -/
theorem Login.unseen (hlaw : srv.passwords.Lawful) (hold : old ≠ new) (l : Login)
    {v : Bool × Bool} (hv : v.1 = true) :
    (l.program srv old).Keeps (fun db => passwordView srv new id db = v) fun _ => True := by
  -- the row it reads has the new hash, if it is the user's
  have hother : ∀ u : AdminUser, (u.id = id → storesPassword srv new u = true) → ∀ needsRehash,
      srv.passwords.verifyPassword (u.passwordHash.getD []) old = .ok (true, needsRehash) →
      u.id ≠ id :=
    fun u hP needsRehash hverify hid => storesPassword_not_matched hlaw hold (hP hid) needsRehash hverify
  apply Login.keeps (P := fun u => u.id = id → storesPassword srv new u = true)
  · intro db u hdb hget hid
    have hstored : passwordStored srv new id db = true := (congrArg Prod.fst hdb).trans hv
    rw [passwordStored, ← hid, hget, Option.any_some] at hstored
    exact hstored
  · intro db k failures locked lastLogin now hdb
    rw [← hdb]
    exact Prod.ext (passwordStored_counters ..) rfl
  · intro db u hash now hP hverify _ hdb
    rw [← hdb]
    exact Prod.ext (passwordStored_other (u := { u with passwordHash := nullString hash })
      (hother u hP true hverify) now) rfl
  intro db u needsRehash s sessions hP hverify hs hinsert hdb
  rw [← hdb]
  refine Prod.ext rfl (hasSession_insert hinsert ?_)
  rw [hs]
  exact hother u hP needsRehash hverify

theorem Login.stores_not (hlaw : srv.passwords.Lawful) (hold : old ≠ new) (l : Login) :
    (l.program srv old).Keeps (fun db => ¬ (passwordView srv new id db).1 = true) fun _ => True := by
  apply Login.keeps (P := fun _ => True)
  · intro db u _ _
    trivial
  · intro db k failures locked lastLogin now hdb
    show ¬ passwordStored srv new id _ = true
    rw [passwordStored_counters]
    exact hdb
  · intro db u hash now _ _ hhash hdb
    show ¬ passwordStored srv new id _ = true
    by_cases hid : u.id = id
    · rw [← hid]
      have hwritten := passwordStored_write srv new db { u with passwordHash := nullString hash } now
      rw [hwritten, storesPassword_renewed hlaw hold hhash u, Bool.and_false]
      exact Bool.false_ne_true
    rw [passwordStored_other (u := { u with passwordHash := nullString hash }) hid]
    exact hdb
  intro db u needsRehash s sessions _ _ _ _ hdb
  exact hdb

theorem Login.steady (hlaw : srv.passwords.Lawful) (hold : old ≠ new) (l : Login)
    {J : Bool × Bool → Prop} (hJ : ∀ v, J v → v.1 = true) (v : Bool × Bool) :
    (l.program srv old).Steady (passwordView srv new id) J (fun _ _ => True) v := by
  by_cases hv : v.1 = true
  · exact (l.unseen hlaw hold hv).steady fun _ _ => trivial
  · exact (l.stores_not hlaw hold).steady_of_not hJ hv

/-! ## Setting the password -/

/-- First the password is stored, then the sessions end. -/
def passwordGoals : List (Bool × Bool → Prop) := [fun v => v.1 = true, fun v => v.2 = false]

theorem setPassword_attains (hlaw : srv.passwords.Lawful) {u : AdminUser} {α : Type} {ok : α → Prop}
    {k : Except Err Unit → AdminProg α}
    (hfailed : ∀ e met todo, (k (.error e)).Attains (passwordView srv new u.id) ok met todo)
    (hdone : (k (.ok ())).Attains (passwordView srv new u.id) ok passwordGoals []) :
    (setPassword srv.passwords u new >>= k).Attains (passwordView srv new u.id) ok [] passwordGoals := by
  unfold setPassword
  cases hhash : srv.passwords.hashPassword new with
  | error e => exact hfailed _ _ _
  | ok hash =>
  have hne := (hlaw.hashPassword hhash).1
  have hstores : storesPassword srv new { u with passwordHash := nullString hash } = true := by
    simp [storesPassword, hhash, nullString, hne]
  dsimp only
  rw [bind_assoc]
  apply Prog.attains_exec
  intro c db _
  dsimp only
  obtain ⟨e, he⟩ | ⟨⟨r, hr⟩, he⟩ :=
    db.answer_updateUser c { u with passwordHash := nullString hash }
  · rw [he]
    exact .inl ⟨by simp, hfailed _ _ _⟩
  rw [he]
  refine .inr ⟨by simp, ?_, ?_⟩
  · show passwordStored srv new u.id _ = true
    rw [passwordStored_write srv new db { u with passwordHash := nullString hash } c.now, hr, hstores]
    rfl
  · -- the password is stored; ending the sessions leaves it so
    dsimp only
    unfold SessionRepo.deleteForUser statement
    simp only [bind_assoc]
    apply Prog.attains_exec
    intro c db hmet
    obtain ⟨e, he⟩ | he := c.answer_cases (fun _ (db : AdminDB) =>
      ((.ok (), { db with sessions := db.sessions.deleteWhere fun s => s.userID = u.id }) :
        Except Err Unit × AdminDB)) db
    · rw [he]
      exact .inl ⟨hmet, hfailed _ _ _⟩
    rw [he]
    refine .inr ⟨?_, hasSession_deleted, hdone⟩
    intro J hJ
    obtain rfl := List.mem_singleton.1 hJ
    exact hmet _ (List.mem_singleton_self _)

theorem PasswordChange.attains (hlaw : srv.passwords.Lawful) (change : PasswordChange) :
    (change.program srv new).Attains (passwordView srv new change.userID) (· = true) []
      passwordGoals := by
  cases change with
  | own user current =>
    apply Prog.Attains.map
    unfold handleChangeOwnPassword
    split
    · simp [Response.error, Response.succeeded]
    split
    · simp [Response.error, Response.succeeded]
    dsimp only
    split
    · simp [Response.validation, Response.succeeded]
    apply Prog.Attains.after
    apply (Prog.keeps_of_forall _ (by simp)).mono
    intro checked _
    cases checked with
    | error e => simp [Response.error, Response.succeeded]
    | ok _ =>
    refine setPassword_attains hlaw ?_ ?_
    · intro e met todo
      simp
    · simp
  | byAdmin id =>
  apply Prog.Attains.map
  unfold handleSetUserPassword setUserPassword
  split
  · simp [Response.error, Response.succeeded]
  dsimp only [withBody, ifValid, orFail]
  split
  case h_2 => simp [Response.validation, Response.succeeded]
  apply Prog.Attains.after
  apply UserRepo.get_keeps
  · intro e
    simp
  intro u hid
  obtain rfl : u.id = id := hid
  dsimp only
  split
  · simp [Response.error, Response.succeeded]
  refine setPassword_attains hlaw ?_ ?_
  · intro e met todo
    simp
  · simp

/-! ## Every interleaving -/

theorem noneAccepted_of_hasSession (h : hasSession id db = false) : NoneAccepted srv id db := by
  intro token idleTimeout env s u hacc hid
  have hmem := (db.findSession_some (SessionRepo.lookup_ok hacc)).1
  exact List.any_eq_false.1 h s hmem (decide_eq_true hid)

/-- **A password change ends every session obtained with the old password**, in every run in
which no sign-in stores a session or a renewed hash after another request has changed whether
the new password is stored, or whether the user has a session, since it began. -/
theorem password_change_ends_sessions (srv : Server) (hlaw : srv.passwords.Lawful) {old new : Bytes}
    (hold : old ≠ new) (change : PasswordChange) (logins : List Login) (db : AdminDB)
    {p : Pool AdminOp Fate AdminDB Bool}
    (hrun : Reach (Pool.step (passwordView srv new change.userID))
      (Pool.OthersInTime (passwordView srv new change.userID))
      (.start db (change.program srv new :: logins.map (Login.program srv old))) p)
    (hset : p.firstResult = some true) : NoneAccepted srv change.userID p.shared := by
  have hgoals := Pool.attains (change.attains hlaw) ?_ hrun hset rfl
  · exact noneAccepted_of_hasSession (hgoals _ (.tail _ (List.mem_singleton_self _)))
  intro r hr met hmet v
  obtain ⟨l, -, rfl⟩ := List.mem_map.1 hr
  cases met with
  | nil => exact Prog.steady_of_forall (by simp)
  | cons J Js =>
  -- what is reached first is that the password is stored
  obtain ⟨rest, hrest⟩ := hmet
  obtain ⟨rfl, -⟩ := List.cons.inj hrest
  exact l.steady hlaw hold (fun v hv => hv _ (.head _)) v

def signedOut : AdminDB where
  users := ⟨[{ id := ascii "a", username := ascii "alice", passwordHash := some (ascii "#old"),
               role := .admin }], by simp⟩
  sessions := .empty

/-- The password is changed while somebody signs in with the old one. -/
def changing : Pool AdminOp Fate AdminDB Bool :=
  .start signedOut ((PasswordChange.byAdmin (ascii "a")).program (plainServer {}) (ascii "new password") ::
    [⟨{ remoteAddr := [] }, ⟨ascii "s", .ok (ascii "t"), .ok []⟩, ascii "alice"⟩].map
      (Login.program (plainServer {}) (ascii "old")))

def changedIn (order : List Nat) : Option (Pool AdminOp Fate AdminDB Bool) :=
  runActions (Pool.step (passwordView (plainServer {}) (ascii "new password") (ascii "a"))) changing
    (Pool.turns {} order)

/-- The sign-in is over before the password is changed. -/
theorem changing_in_turn : ∃ p, changedIn [1, 1, 1, 0, 0, 0] = some p ∧
      NoneAccepted (plainServer {}) (ascii "a") p.shared := by
  obtain ⟨p, hp, hset⟩ := Option.map_eq_some_iff.1
    (show (changedIn [1, 1, 1, 0, 0, 0]).map (fun p => p.firstResult) = some (some true) by
      decide +kernel)
  exact ⟨p, hp, password_change_ends_sessions (plainServer {}) plainPasswords_lawful (by decide)
    (.byAdmin (ascii "a")) _ _ (reach_of_runActions _ (by decide +kernel) hp) hset⟩

/-- The session of the token is found, and whose it is. -/
def signedOnAs (db : AdminDB) : Option Bytes :=
  ((SessionRepo.lookup (plainServer {}).hashSessionToken (ascii "t") 0).run (fun _ => {})
    db).1.toOption.map fun found => found.1.userID

/-- The sign-in has checked the old password before it is changed, and stores its session
after the sessions were ended: it is accepted. -/
theorem changing_under_way : ∃ p, changedIn [1, 0, 0, 0, 1, 1] = some p ∧
      p.clients.map (fun c => c.rest.result?) = [some true, some true] ∧
      signedOnAs p.shared = some (ascii "a") := by
  obtain ⟨p, hp, hafter⟩ := Option.map_eq_some_iff.1
    (show (changedIn [1, 0, 0, 0, 1, 1]).map (fun p =>
        (p.clients.map (fun c => c.rest.result?), signedOnAs p.shared)) =
      some ([some true, some true], some (ascii "a")) by decide +kernel)
  obtain ⟨hfinished, hacc⟩ := Prod.mk.inj hafter
  exact ⟨p, hp, hfinished, hacc⟩

end SmtpProxy.Adminapi
