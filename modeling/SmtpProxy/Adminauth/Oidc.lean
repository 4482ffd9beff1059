import Mathlib.Data.List.MinMax
import SmtpProxy.Adminapi.Users

/-!
# Single sign-on

`resolveUser` of `internal/adminauth/oidc.go`: the claims of a verified ID token
become a user of the management interface. The role comes from the claims on every
sign-in; a user seen before is brought in step with them, a new one is created if
the configuration allows it.

The role is a maximum: `roleFor` keeps the best role seen so far, which is `List.argmax`
over what the mappings assign to the values of the claim, so neither the order of the
values nor a repeated one matters.

Fetching and verifying the token happens before; log lines are left out.
-/

namespace SmtpProxy.Adminauth

open Lib Store Policy Adminapi List Option Table

/-- One element of a claim that is an array: only the strings are read. -/
inductive ClaimItem where
  | string (s : Bytes)
  | other
  deriving DecidableEq

/-- The value of a claim, by the cases the code tells apart. -/
inductive ClaimValue where
  | string (s : Bytes)
  | number (text : Bytes)
  | list (items : List ClaimItem)
  | strings (ss : List Bytes)
  | other
  deriving DecidableEq

/-- `Claims`; `raw` is the map of all claims. -/
structure Claims where
  subject : Bytes
  email : Bytes := []
  preferredUsername : Bytes := []
  name : Bytes := []
  raw : Bytes → Option ClaimValue := fun _ => none

def ClaimItem.asString : ClaimItem → Option Bytes
  | .string s => some s
  | .other => none

def Claims.value (c : Claims) (name : Bytes) : Bytes :=
  if name = [] then []
  else
    match c.raw name with
    | some (.string s) => s
    | some (.number text) => text
    | _ => []

def Claims.values (c : Claims) (name : Bytes) : List Bytes :=
  if name = [] then []
  else
    match c.raw name with
    | some (.string s) => [s]
    | some (.list items) => items.filterMap ClaimItem.asString
    | some (.strings ss) => ss
    | _ => []

structure OIDCConfig where
  usernameClaim : Bytes := []
  roleClaim : Bytes := []
  roleMappings : Bytes → Option Bytes := fun _ => none
  defaultRole : Bytes := []
  allowSignup : Bool := false

def errNoRole : Err :=
  ⟨.sentinel (ascii "adminauth: the identity provider returned no claim matching a role"), []⟩

def errSignupDisabled : Err :=
  ⟨.sentinel (ascii "adminauth: this account has not been added to the proxy"), []⟩

def notARole (g : GoText) (s : Bytes) : Err :=
  ⟨.plain (ascii "adminauth: " ++ g.quote s ++
    ascii " is not a valid role (expected admin, operator or viewer)"), []⟩

def rank : Role → Nat
  | .admin => 3
  | .operator => 2
  | .viewer => 1

def morePrivileged (a b : Role) : Bool := decide (rank b < rank a)

/-- The loop of `roleFor` at one value of the claim: `best` is the role so far. -/
def betterRole (cfg : OIDCConfig) (best : Option Role) (v : Bytes) : Option Role :=
  match cfg.roleMappings v with
  | none => best
  | some mapped =>
    match parseRole mapped with
    | none => best
    | some role =>
      match best with
      | none => some role
      | some b => if morePrivileged role b then some role else some b

variable (g : GoText) (cfg : OIDCConfig)

def roleFor (claims : Claims) : Except Err Role :=
  match (claims.values cfg.roleClaim).foldl (betterRole cfg) none with
  | some best => .ok best
  | none =>
    if cfg.defaultRole = [] then .error errNoRole
    else
      match parseRole cfg.defaultRole with
      | some role => .ok role
      | none => .error (notARole g cfg.defaultRole)

def usernameFor (claims : Claims) : Bytes :=
  if claims.value cfg.usernameClaim ≠ [] then claims.value cfg.usernameClaim
  else
    ([claims.preferredUsername, claims.email, claims.subject].find? fun candidate =>
      decide (candidate ≠ [])).getD []

def synced (user : AdminUser) (claims : Claims) (role : Role) : AdminUser :=
  { user with
    role
    username := if usernameFor cfg claims ≠ [] then usernameFor cfg claims else user.username
    email := claims.email
    displayName := claims.name }

/-- `syncExisting`. What revoking the sessions and recording the sign-in answer is only
logged. -/
def syncExisting (user : AdminUser) (claims : Claims) (role : Role) :
    AdminProg (Except Err AdminUser) :=
  if user.disabled then return .error errInvalidCredentials
  else do
    let (updated, written) ← UserRepo.update (synced cfg user claims role)
    match written with
    | .error e => return .error e
    | .ok () =>
      if user.role ≠ role then
        let _ ← SessionRepo.deleteForUser user.id
      let _ ← UserRepo.recordSuccessfulLogin user.id
      return .ok updated

def provisioned (claims : Claims) (role : Role) : AdminUser where
  id := []
  username := usernameFor cfg claims
  email := claims.email
  displayName := claims.name
  role := role
  source := .sourceOIDC
  subject := nullString claims.subject

def provision (newID : Bytes) (claims : Claims) (role : Role) : AdminProg (Except Err AdminUser) :=
  if usernameFor cfg claims = [] then
    return .error ⟨.plain (ascii "adminauth: the identity provider returned no " ++
      g.quote cfg.usernameClaim ++ ascii " claim to use as a username"), []⟩
  else do
    let (user, inserted) ← UserRepo.create newID (provisioned cfg claims role)
    match inserted with
    | .error e => return .error e
    | .ok () =>
      let _ ← UserRepo.recordSuccessfulLogin user.id
      return .ok user

def resolveUser (newID : Bytes) (claims : Claims) : AdminProg (Except Err AdminUser) :=
  match roleFor g cfg claims with
  | .error e => return .error e
  | .ok role => do
    let found ← UserRepo.getBySubject .sourceOIDC claims.subject
    match found with
    | .ok existing => syncExisting cfg existing claims role
    | .error e =>
      if ¬ e.is errNotFound then return .error e
      else if ¬ cfg.allowSignup then return .error errSignupDisabled
      else provision g cfg newID claims role

/-! ## The role -/

/-- What the mappings assign to a value of the claim: nothing if none names it, or if
the one that does names no role. -/
def OIDCConfig.assigned (v : Bytes) : Option Role := (cfg.roleMappings v).bind parseRole

theorem rank_injective : Function.Injective rank := by
  intro a b h
  cases a <;> cases b <;> first | rfl | exact absurd h (by decide)

theorem foldl_betterRole (values : List Bytes) :
    values.foldl (betterRole cfg) none = (values.filterMap cfg.assigned).argmax rank := by
  rw [List.argmax, foldl_filterMap]
  congr 1
  funext best v
  unfold betterRole OIDCConfig.assigned
  cases cfg.roleMappings v with
  | none => rfl
  | some mapped =>
  dsimp only [bind_some]
  cases parseRole mapped with
  | none => rfl
  | some role =>
  cases best with
  | none => rfl
  | some b => simp [List.argAux, morePrivileged]

/-- A role is the highest-ranked of those assigned to the values of the claim, or there
is none and it is the default. -/
def Granted (claims : Claims) (role : Role) : Prop :=
  (∃ v ∈ claims.values cfg.roleClaim, cfg.assigned v = some role) ∧
      (∀ v ∈ claims.values cfg.roleClaim, ∀ r, cfg.assigned v = some r → rank r ≤ rank role) ∨
    (∀ v ∈ claims.values cfg.roleClaim, cfg.assigned v = none) ∧
      parseRole cfg.defaultRole = some role

variable {g cfg}

theorem granted_of_roleFor {claims : Claims} {role : Role} (h : roleFor g cfg claims = .ok role) :
    Granted cfg claims role := by
  unfold roleFor at h
  rw [foldl_betterRole] at h
  cases hbest : ((claims.values cfg.roleClaim).filterMap cfg.assigned).argmax rank with
  | some best =>
    rw [hbest] at h
    obtain rfl : best = role := Except.ok.inj h
    left
    refine ⟨mem_filterMap.1 (argmax_mem hbest), ?_⟩
    intro v hv r hr
    exact le_of_mem_argmax (mem_filterMap.2 ⟨v, hv, hr⟩) hbest
  | none =>
  rw [hbest] at h
  right
  refine ⟨filterMap_eq_nil_iff.1 (argmax_eq_none.1 hbest), ?_⟩
  dsimp only at h
  split at h
  · cases h
  split at h
  · next hparse =>
    rw [hparse, Except.ok.inj h]
  · cases h

/-- The maximum depends on nothing but which roles are assigned to some value. -/
theorem argmax_rank_congr {l l' : List Role} (h : ∀ r, r ∈ l ↔ r ∈ l') :
    l.argmax rank = l'.argmax rank := by
  cases hl : l.argmax rank with
  | none =>
    rw [argmax_eq_none] at hl
    subst hl
    symm
    rw [argmax_eq_none, eq_nil_iff_forall_not_mem]
    intro r hr
    exact absurd ((h r).2 hr) not_mem_nil
  | some best =>
  have hbest : best ∈ l' := (h best).1 (argmax_mem hl)
  cases hl' : l'.argmax rank with
  | none =>
    rw [argmax_eq_none] at hl'
    subst hl'
    cases hbest
  | some best' =>
  have hbest' : best' ∈ l := (h best').2 (argmax_mem hl')
  have hle : rank best ≤ rank best' := le_of_mem_argmax hbest hl'
  have hge : rank best' ≤ rank best := le_of_mem_argmax hbest' hl
  rw [rank_injective (Nat.le_antisymm hle hge)]

/-- Configurations and claims that assign the same roles to the values of the claim, with
the same default, give the same role or the same error. -/
theorem roleFor_congr {cfg' : OIDCConfig} {claims claims' : Claims}
    (hdefault : cfg'.defaultRole = cfg.defaultRole)
    (h : ∀ r, (∃ v ∈ claims'.values cfg'.roleClaim, cfg'.assigned v = some r) ↔
      ∃ v ∈ claims.values cfg.roleClaim, cfg.assigned v = some r) :
    roleFor g cfg' claims' = roleFor g cfg claims := by
  have hmax : (claims'.values cfg'.roleClaim).foldl (betterRole cfg') none =
      (claims.values cfg.roleClaim).foldl (betterRole cfg) none := by
    rw [foldl_betterRole, foldl_betterRole]
    apply argmax_rank_congr
    intro r
    rw [mem_filterMap, mem_filterMap]
    exact h r
  rw [roleFor, roleFor, hmax, hdefault]

def OIDCConfig.without (cfg : OIDCConfig) (v : Bytes) : OIDCConfig :=
  { cfg with roleMappings := fun x => if x = v then none else cfg.roleMappings x }

theorem assigned_without {v : Bytes} (hunknown : cfg.assigned v = none) (x : Bytes) :
    (cfg.without v).assigned x = cfg.assigned x := by
  unfold OIDCConfig.without OIDCConfig.assigned at *
  dsimp only
  by_cases hx : x = v
  · rw [if_pos hx, hx, hunknown]
    rfl
  · rw [if_neg hx]

/-! ## The user -/

/-- What two states of the tables have to agree on if only the user with key `id` is
signed on: the rows of all others, and the sessions of all others. -/
structure Apart (id : Bytes) (db t : AdminDB) : Prop where
  users : ∀ k, k ≠ id → t.users.get k = db.users.get k
  sessions : ∀ x ∈ db.sessions.rows, x.userID ≠ id → x ∈ t.sessions.rows
  noNew : ∀ x ∈ t.sessions.rows, x ∈ db.sessions.rows

/-- The row of a user says of it what sign-on decides by. -/
structure Stored (db : AdminDB) (u : AdminUser) : Prop where
  row : ∃ r, db.users.get u.id = some r ∧ r.source = u.source ∧ r.subject = u.subject ∧
    r.role = u.role ∧ r.disabled = u.disabled

theorem Apart.trans {id : Bytes} {db t t' : AdminDB} (h : Apart id db t) (h' : Apart id t t') :
    Apart id db t' where
  users k hk := (h'.users k hk).trans (h.users k hk)
  sessions x hx hid := h'.sessions x (h.sessions x hx hid) hid
  noNew x hx := h.noNew x (h'.noNew x hx)

/-- A row may change under its own key only. -/
theorem Apart.of_users {id : Bytes} {db t : AdminDB} (hsessions : t.sessions = db.sessions)
    (h : ∀ k, k ≠ id → t.users.get k = db.users.get k) : Apart id db t where
  users := h
  sessions _ hx _ := hsessions ▸ hx
  noNew _ hx := hsessions ▸ hx

theorem ne_of_get {db : AdminDB} {k id : Bytes} {r : AdminUser} (h : db.users.get k = some r)
    (hk : k ≠ id) : r.id ≠ id := by
  rw [key_of_get h]
  exact hk

theorem recordSuccessfulLogin_run (env : AdminOp → Fate) {db : AdminDB} {u : AdminUser}
    (h : Stored db u) :
    let t := ((UserRepo.recordSuccessfulLogin u.id).run env db).2
    Apart u.id db t ∧ Stored t u ∧ t.sessions = db.sessions := by
  obtain ⟨r, hr, hsame⟩ := h.row
  obtain ⟨e, hrun⟩ | hrun := statement_run AdminOp.recordSuccessfulLogin
    (fun now db => (Except.ok (), AdminDB.setCounters db u.id 0 none (fun _ => some now) now)) env db
  · rw [UserRepo.recordSuccessfulLogin, hrun]
    exact ⟨.of_users rfl fun _ _ => rfl, h, rfl⟩
  rw [UserRepo.recordSuccessfulLogin, hrun]
  refine ⟨.of_users rfl ?_, ⟨?_⟩, rfl⟩
  · intro k hk
    rw [AdminDB.get_setCounters]
    cases hget : db.users.get k with
    | none => rfl
    | some row => rw [map_some, if_neg (ne_of_get hget hk)]
  rw [AdminDB.get_setCounters, hr, map_some, if_pos (key_of_get hr)]
  exact ⟨_, rfl, hsame⟩

theorem deleteForUser_run (id : Bytes) (env : AdminOp → Fate) (db : AdminDB) :
    let t := ((SessionRepo.deleteForUser id).run env db).2
    t.users = db.users ∧ Apart id db t ∧
      ((env .sessionDeleteForUser).failure = none → ∀ x ∈ t.sessions.rows, x.userID ≠ id) := by
  rw [SessionRepo.deleteForUser, Prog.run_bind, statement, Prog.run_exec, Fate.answer]
  cases (env AdminOp.sessionDeleteForUser).failure with
  | some e => exact ⟨rfl, .of_users rfl fun _ _ => rfl, by simp⟩
  | none =>
  refine ⟨rfl, ⟨fun _ _ => rfl, ?_, ?_⟩, fun _ => ?_⟩
  · intro x hx hid
    exact mem_filter.2 ⟨hx, by simpa using hid⟩
  · intro x hx
    exact (mem_filter.1 hx).1
  intro x hx
  simpa using (mem_filter.1 hx).2

structure Created (cfg : OIDCConfig) (db t : AdminDB) (u : AdminUser) : Prop where
  allowed : cfg.allowSignup = true
  unknown : ∀ r ∈ db.users.rows, ¬(r.source = u.source ∧ r.subject = u.subject)
  fresh : db.users.get u.id = none
  sessions : t.sessions = db.sessions

/-- The user was there, not disabled. Its sessions end with its role, unless the
statement that revokes them fails. -/
structure Synced (env : AdminOp → Fate) (db t : AdminDB) (u old : AdminUser) : Prop where
  row : db.users.get u.id = some old
  source : old.source = u.source
  subject : old.subject = u.subject
  enabled : old.disabled = false
  kept : old.role = u.role → t.sessions = db.sessions
  revoked : old.role ≠ u.role → (env .sessionDeleteForUser).failure = none →
    ∀ x ∈ t.sessions.rows, x.userID ≠ u.id

structure SignedOn (cfg : OIDCConfig) (subject : Bytes) (env : AdminOp → Fate) (db t : AdminDB)
    (u : AdminUser) : Prop where
  source : u.source = .sourceOIDC
  subject : u.subject = some subject
  enabled : u.disabled = false
  stored : Stored t u
  apart : Apart u.id db t
  origin : Created cfg db t u ∨ ∃ old, Synced env db t u old

theorem update_run (u : AdminUser) (env : AdminOp → Fate) (db : AdminDB) :
    (∃ e, (UserRepo.update u).run env db =
        (({ u with updatedAt := (env .userUpdate).now }, .error e), db)) ∨
      (UserRepo.update u).run env db = (({ u with updatedAt := (env .userUpdate).now }, .ok ()),
            db.writeUser (env .userUpdate).now u) ∧
        ∃ r, db.users.get u.id = some r := by
  rw [UserRepo.update, Prog.run_exec]
  obtain ⟨e, he⟩ | ⟨hrow, hok⟩ := db.answer_updateUser (env .userUpdate) u
  · left
    refine ⟨e, ?_⟩
    rw [he]
  right
  refine ⟨?_, hrow⟩
  rw [hok]

theorem writeUser_apart (now : Int) (u : AdminUser) (db : AdminDB) :
    Apart u.id db (db.writeUser now u) := by
  refine .of_users rfl ?_
  intro k hk
  rw [AdminDB.get_writeUser]
  cases hget : db.users.get k with
  | none => rfl
  | some row => rw [map_some, if_neg (ne_of_get hget hk)]

theorem writeUser_stored (now : Int) {u : AdminUser} {db : AdminDB}
    (hrow : ∃ r, db.users.get u.id = some r) : Stored (db.writeUser now u) u := by
  obtain ⟨r, hr⟩ := hrow
  constructor
  rw [AdminDB.get_writeUser, hr, map_some, if_pos (key_of_get hr)]
  exact ⟨_, rfl, rfl, rfl, rfl, rfl⟩

theorem Stored.of_users {db t : AdminDB} {u : AdminUser} (h : Stored db u)
    (husers : t.users = db.users) : Stored t u :=
  ⟨husers ▸ h.row⟩

variable (g cfg) (claims : Claims) (role : Role) (env : AdminOp → Fate) (db : AdminDB)

theorem syncExisting_run {user : AdminUser} (hrow : db.users.get user.id = some user)
    (hsource : user.source = .sourceOIDC) (hsubject : user.subject = some claims.subject) :
    (∃ e, (syncExisting cfg user claims role).run env db = (.error e, db)) ∨
      ∃ u t, (syncExisting cfg user claims role).run env db = (.ok u, t) ∧ u.role = role ∧
        SignedOn cfg claims.subject env db t u := by
  unfold syncExisting
  cases hoff : user.disabled with
  | true => exact .inl ⟨_, rfl⟩
  | false =>
  simp only [Bool.false_eq_true, if_false, Prog.run_bind]
  obtain ⟨e, hrun⟩ | ⟨hrun, hthere⟩ := update_run (synced cfg user claims role) env db
  · rw [hrun]
    exact .inl ⟨e, rfl⟩
  rw [hrun]
  right
  have hwritten := writeUser_apart (env .userUpdate).now (synced cfg user claims role) db
  have hstored : Stored _ (synced cfg user claims role) :=
    writeUser_stored (env .userUpdate).now hthere
  generalize hdb : db.writeUser (env .userUpdate).now (synced cfg user claims role) = db₁
    at hwritten hstored
  have hsessions : db₁.sessions = db.sessions := by
    rw [← hdb]
    rfl
  by_cases hrole : user.role = role
  · -- the role stays, and with it the sessions
    obtain ⟨hlogin, hkept, hsame⟩ := recordSuccessfulLogin_run env hstored
    simp only [hrole, ne_eq, not_true, if_false, Prog.run_pure, Prog.run_bind]
    refine ⟨_, _, rfl, rfl, hsource, hsubject, hoff, ⟨hkept.row⟩, hwritten.trans hlogin, ?_⟩
    exact .inr ⟨user, hrow, rfl, rfl, hoff, fun _ => hsame.trans hsessions,
      fun hne => absurd hrole hne⟩
  obtain ⟨husers, hrevoke, hgone⟩ := deleteForUser_run user.id env db₁
  obtain ⟨hlogin, hkept, hsame⟩ := recordSuccessfulLogin_run env (hstored.of_users husers)
  simp only [hrole, ne_eq, not_false_eq_true, if_true, Prog.run_bind, Prog.run_pure]
  refine ⟨_, _, rfl, rfl, hsource, hsubject, hoff, ⟨hkept.row⟩,
    (hwritten.trans hrevoke).trans hlogin, ?_⟩
  refine .inr ⟨user, hrow, rfl, rfl, hoff, fun h => absurd h hrole, ?_⟩
  intro _ hdone x hx
  exact hgone hdone x (hsame ▸ hx)

theorem provision_run (newID : Bytes) (hsubject : claims.subject ≠ [])
    (hallowed : cfg.allowSignup = true) :
    (∃ e, (provision g cfg newID claims role).run env db = (.error e, db)) ∨
      ∃ u t, (provision g cfg newID claims role).run env db = (.ok u, t) ∧ u.role = role ∧
        SignedOn cfg claims.subject env db t u := by
  unfold provision
  split
  · exact .inl ⟨_, rfl⟩
  rw [Prog.run_bind, UserRepo.create]
  obtain ⟨e, hrun⟩ | hrun := stamping_run AdminOp.userCreate
    ((provisioned cfg claims role).created newID)
    (fun now db => db.insertUser ((provisioned cfg claims role).created newID now)) env db
  · rw [hrun]
    exact .inl ⟨e, rfl⟩
  rw [hrun]
  have hnull : ((provisioned cfg claims role).created newID (env .userCreate).now).subject =
      some claims.subject := if_neg hsubject
  generalize hu : (provisioned cfg claims role).created newID (env .userCreate).now = u at hnull
  obtain ⟨e, he⟩ | ⟨users, hinsert, hunknown, hok⟩ := db.insertUser_cases u
  · rw [he]
    exact .inl ⟨e, rfl⟩
  rw [hok]
  right
  have hstored : Stored { db with users } u :=
    ⟨u, (get_insert hinsert u.id).trans (if_pos rfl), rfl, rfl, rfl, rfl⟩
  have hinserted : Apart u.id db { db with users } := by
    refine .of_users rfl ?_
    intro k hk
    exact (get_insert hinsert k).trans (if_neg (Ne.symm hk))
  obtain ⟨hlogin, hkept, hsame⟩ := recordSuccessfulLogin_run env hstored
  simp only [Prog.run_bind, Prog.run_pure]
  refine ⟨u, _, rfl, ?_, ?_, hnull, ?_, hkept, hinserted.trans hlogin, .inl ?_⟩
  · rw [← hu]
    rfl
  · rw [← hu]
    rfl
  · rw [← hu]
    rfl
  refine ⟨hallowed, ?_, insert_free hinsert, hsame⟩
  intro r hr
  exact hunknown r hr (by rw [hnull]; simp)

/-- Whatever the statements answer, a sign-on fails and changes nothing, or signs on the
user of its subject with the role of `roleFor`. -/
theorem resolveUser_run (newID : Bytes) (hsubject : claims.subject ≠ []) :
    (∃ e, (resolveUser g cfg newID claims).run env db = (.error e, db)) ∨
      ∃ u t, (resolveUser g cfg newID claims).run env db = (.ok u, t) ∧
        roleFor g cfg claims = .ok u.role ∧ SignedOn cfg claims.subject env db t u := by
  unfold resolveUser
  cases hrole : roleFor g cfg claims with
  | error e => exact .inl ⟨e, rfl⟩
  | ok role =>
  simp only [Prog.run_bind]
  obtain ⟨e, hrun⟩ | ⟨existing, hrun, hsource, hsub, hrow⟩ :=
    UserRepo.getBySubject_run .sourceOIDC claims.subject env db
  · rw [hrun]
    dsimp only
    split
    · exact .inl ⟨e, rfl⟩
    split
    · exact .inl ⟨errSignupDisabled, rfl⟩
    next hallowed =>
    obtain hfailed | ⟨u, t, hok, rfl, hsigned⟩ :=
      provision_run g cfg claims role env db newID hsubject (Decidable.not_not.1 hallowed)
    · exact .inl hfailed
    · exact .inr ⟨u, t, hok, rfl, hsigned⟩
  rw [hrun]
  obtain hfailed | ⟨u, t, hok, rfl, hsigned⟩ :=
    syncExisting_run cfg claims role env db hrow hsource hsub
  · exact .inl hfailed
  · exact .inr ⟨u, t, hok, rfl, hsigned⟩

/-- Single sign-on touches its own user only, and grants the role of the claims. Whatever
the statements answer, it fails and changes nothing, or signs on the user of its subject.
The role depends on the set of values of the claim: not on their order or repetition, not
on whether one value comes as a string or a list, and not on mappings to unknown roles. -/
theorem signOn_own_user (newID : Bytes) (hsubject : claims.subject ≠ []) :
    ((∃ e, (resolveUser g cfg newID claims).run env db = (.error e, db)) ∨
      ∃ u t, (resolveUser g cfg newID claims).run env db = (.ok u, t) ∧
        Granted cfg claims u.role ∧ SignedOn cfg claims.subject env db t u) ∧
    (∀ claims' : Claims, (∀ v, v ∈ claims'.values cfg.roleClaim ↔ v ∈ claims.values cfg.roleClaim) →
        roleFor g cfg claims' = roleFor g cfg claims) ∧
    (∀ claims' : Claims, ∀ v, claims.raw cfg.roleClaim = some (.string v) →
      claims'.raw cfg.roleClaim = some (.list [.string v]) →
        roleFor g cfg claims' = roleFor g cfg claims) ∧
    ∀ v mapped, cfg.roleMappings v = some mapped → parseRole mapped = none →
      roleFor g (cfg.without v) claims = roleFor g cfg claims := by
  refine ⟨?_, ?_, ?_, ?_⟩
  · obtain hfailed | ⟨u, t, hrun, hrole, hsigned⟩ :=
      resolveUser_run g cfg claims env db newID hsubject
    · exact .inl hfailed
    · exact .inr ⟨u, t, hrun, granted_of_roleFor hrole, hsigned⟩
  · intro claims' hvalues
    apply roleFor_congr rfl
    intro r
    simp only [hvalues]
  · intro claims' v hstring hlist
    have hsame : claims'.values cfg.roleClaim = claims.values cfg.roleClaim := by
      rw [Claims.values, Claims.values, hstring, hlist]
      rfl
    apply roleFor_congr rfl
    intro r
    rw [hsame]
  intro v mapped hmapped hunknown
  have hnone : cfg.assigned v = none := by
    rw [OIDCConfig.assigned, hmapped, bind_some, hunknown]
  apply roleFor_congr
  · rfl
  intro r
  simp only [assigned_without hnone]
  rfl

/-- A directory whose operators are operators here; another of its groups is mapped to a
role there is not. -/
def opsDirectory : OIDCConfig where
  roleClaim := ascii "groups"
  roleMappings v :=
    if v = ascii "ops" then some (ascii "operator")
    else if v = ascii "root" then some (ascii "owner")
    else none

def opsToken : Claims where
  subject := ascii "s1"
  preferredUsername := ascii "kim"
  raw name :=
    if name = ascii "groups" then
      some (.list [.string (ascii "root"), .other, .string (ascii "ops"), .string (ascii "staff")])
    else none

def opsUser : AdminUser where
  id := [1]
  username := ascii "kim"
  role := .admin
  source := .sourceOIDC
  subject := some (ascii "s1")

def beforeDemotion : AdminDB where
  users := ⟨[opsUser, { id := [2], username := ascii "root", role := .admin }], by decide⟩
  sessions := ⟨[{ id := [3], userID := [1], tokenHash := [4], expiresAt := 9 },
    { id := [5], userID := [2], tokenHash := [6], expiresAt := 9 }], by decide⟩

/-- The admin comes back as an operator, and keeps no session. -/
theorem opsToken_signsOn :
    ((resolveUser bareText opsDirectory [7] opsToken).run (fun _ => {}) beforeDemotion).1.toOption.map
        AdminUser.role = some .operator ∧
      ((∃ e, (resolveUser bareText opsDirectory [7] opsToken).run (fun _ => {}) beforeDemotion =
          (.error e, beforeDemotion)) ∨
        ∃ u t, (resolveUser bareText opsDirectory [7] opsToken).run (fun _ => {}) beforeDemotion =
            (.ok u, t) ∧
          Granted opsDirectory opsToken u.role ∧
          SignedOn opsDirectory opsToken.subject (fun _ => {}) beforeDemotion t u) :=
  ⟨by decide +kernel, (signOn_own_user bareText opsDirectory opsToken (fun _ => {}) beforeDemotion [7]
    (by decide)).1⟩

end SmtpProxy.Adminauth
