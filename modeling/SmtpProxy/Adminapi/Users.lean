import SmtpProxy.Adminauth.Local
import SmtpProxy.Adminauth.Sessions

/-!
# Managing admin users

What a handler of the management interface answers (`internal/adminapi/errors.go`), the
handlers of `internal/adminapi/users.go` that change a user, and those of
`internal/adminapi/auth.go` that sign one in or change a password. Each is a
program of the statements it issues; the actor is the user the session belongs
to. Entries in the audit log, cookies and log lines are left out.
-/

namespace SmtpProxy.Adminapi

open Lib Store App Adminauth

/-- `APIError`. The fields are printed in the order of their names. -/
structure APIError where
  code : Bytes
  message : Bytes
  fields : List (Bytes × Bytes) := []
  deriving DecidableEq

/-- An HTTP answer: its status, and a body that is an error or a value. -/
structure Response (β : Type) where
  status : Nat
  body : Option (Except APIError β) := none
  deriving DecidableEq

namespace Response

variable {β : Type}

def json (status : Nat) (v : β) : Response β := ⟨status, some (.ok v)⟩

def noContent : Response β := ⟨204, none⟩

def error (status : Nat) (code message : String) : Response β :=
  ⟨status, some (.error ⟨ascii code, ascii message, []⟩)⟩

def validation (fields : List (Bytes × Bytes)) : Response β :=
  ⟨422, some (.error ⟨ascii "validation_failed", ascii "some fields are not valid", fields⟩)⟩

def field (name message : String) : Bytes × Bytes := (ascii name, ascii message)

def badRequest (why : Bytes) : Response β :=
  ⟨400, some (.error ⟨ascii "bad_request", ascii "the request body could not be read: " ++ why, []⟩)⟩

def ofStore (e : Err) : Response β :=
  if e.is errStateConflict then
    error 409 "conflict" "operation conflicts with current state; refresh and try again"
  else if e.is errNotFound then error 404 "not_found" "not found"
  else if e.is errConflict then error 409 "conflict" "that name is already in use"
  else if e.is errReferenced then
    error 409 "still_referenced" "something else still refers to this; remove that first"
  else if e.is errImmutable then
    error 409 "managed_externally"
      "this object is declared in the bootstrap file and cannot be edited here"
  else error 500 "internal_error" "something went wrong"

def succeeded (r : Response β) : Bool := r.status < 300

@[simp] theorem succeeded_ofStore (e : Err) : (ofStore e : Response β).succeeded = false := by
  unfold ofStore
  split
  · rfl
  split
  · rfl
  split
  · rfl
  split
  · rfl
  · split <;> rfl

end Response

/-- A request body as `decodeJSON` read it. -/
abbrev Decoded (α : Type) := Except Bytes α

/-! ## Handlers

A handler is written over any way to carry out the statements of the repositories (`on`), and up
to what follows when it has done its work (`done`): here on their own tables and without the audit
log, in `Site` on the whole store and with it. -/

section

variable {m : Type → Type} [Monad m] {α β ρ : Type}

def withBody (body : Decoded α) (k : α → m (Response β)) : m (Response β) :=
  match body with
  | .error why => return .badRequest why
  | .ok req => k req

def orFail (p : m (Except Err α)) (k : α → m (Response β)) : m (Response β) := do
  let found ← p
  match found with
  | .error e => return .ofStore e
  | .ok a => k a

/-- Go on with the copy of a row that was written, or answer the error. -/
def whenStored (p : m (ρ × Except Err Unit)) (k : ρ → m (Response β)) : m (Response β) := do
  let (row, written) ← p
  match written with
  | .error e => return .ofStore e
  | .ok () => k row

def ifValid (fields : List (Bytes × Bytes)) (k : m (Response β)) : m (Response β) :=
  match fields with
  | [] => k
  | fields => return .validation fields

end

inductive Permission where
  | runDiagnostics
  | viewStatus
  | viewConfig
  | viewAudit
  | manageQueue
  | readMessageBody
  | manageAccounts
  | manageMailboxes
  | manageCredentials
  | manageUsers
  | manageSettings
  deriving DecidableEq

/-- `PermissionsFor`, in the order of `AllPermissions`. -/
def permissionsFor : Role → List Permission
  | .viewer => [.viewStatus, .viewConfig]
  | .operator => [.runDiagnostics, .viewStatus, .viewConfig, .viewAudit, .manageQueue]
  | .admin =>
    [.runDiagnostics, .viewStatus, .viewConfig, .viewAudit, .manageQueue, .readMessageBody,
      .manageAccounts, .manageMailboxes, .manageCredentials, .manageUsers, .manageSettings]

/-- `ParseRole`; `none` is its error. -/
def parseRole (s : Bytes) : Option Role :=
  if s = ascii "admin" then some .admin
  else if s = ascii "operator" then some .operator
  else if s = ascii "viewer" then some .viewer
  else none

structure UserResponse where
  id : Bytes
  username : Bytes
  email : Bytes
  displayName : Bytes
  role : Role
  source : UserSource
  disabled : Bool
  hasPassword : Bool
  lockedUntil : Option Int
  lastLoginAt : Option Int
  createdAt : Int
  updatedAt : Int
  deriving DecidableEq

def toUserResponse (u : AdminUser) : UserResponse where
  id := u.id
  username := u.username
  email := u.email
  displayName := u.displayName
  role := u.role
  source := u.source
  disabled := u.disabled
  hasPassword := decide (u.passwordHash.getD [] ≠ [])
  lockedUntil := u.lockedUntil
  lastLoginAt := u.lastLoginAt
  createdAt := u.createdAt
  updatedAt := u.updatedAt

/-- What these handlers answer with: a user, or a `sessionResponse`. -/
inductive Payload where
  | user (u : UserResponse)
  | session (user : UserResponse) (permissions : List Permission) (csrfToken : Bytes)
      (expiresAt : Int)
  deriving DecidableEq

structure Server where
  passwords : Passwords
  net : NetText
  hashSessionToken : Bytes → Bytes
  /-- Password sign-in, unless it is switched off. -/
  localAuth : Option LocalConfig
  sessions : SessionConfig

def plainServer (localAuth : LocalConfig) : Server where
  passwords := plainPasswords
  net := dottedText
  hashSessionToken := fun token => token
  localAuth := some localAuth
  sessions := { lifetime := 100, idleTimeout := 0 }

variable (srv : Server)

/-! ## `users.go` -/

structure UpdateUserRequest where
  email : Option Bytes := none
  displayName : Option Bytes := none
  role : Option Bytes := none
  disabled : Option Bool := none
  deriving DecidableEq

/-- The row with the fields of a request, or `none` if its role is not one. -/
def UpdateUserRequest.apply (req : UpdateUserRequest) (user : AdminUser) : Option AdminUser :=
  let user := { user with
    email := (req.email.map trimSpace).getD user.email
    displayName := (req.displayName.map trimSpace).getD user.displayName }
  match req.role with
  | none => some { user with disabled := req.disabled.getD user.disabled }
  | some text =>
    (parseRole text).map fun role => { user with role, disabled := req.disabled.getD user.disabled }

theorem apply_id {req : UpdateUserRequest} {user changed : AdminUser}
    (h : req.apply user = some changed) : changed.id = user.id := by
  unfold UpdateUserRequest.apply at h
  split at h
  · exact (Option.some.inj h) ▸ rfl
  obtain ⟨role, -, rfl⟩ := Option.map_eq_some_iff.1 h
  rfl

def losingAdmin (user : AdminUser) (previousRole : Role) : Bool :=
  if previousRole ≠ .admin then false else decide (user.role ≠ .admin) || user.disabled

/-- Somebody else who can administer the proxy. -/
def isOtherAdmin (excludingID : Bytes) (u : AdminUser) : Bool :=
  decide (u.id ≠ excludingID ∧ u.role = .admin) && !u.disabled

def requireAnotherAdmin (excludingID : Bytes) : AdminProg (Except String Unit) := do
  let users ← UserRepo.list
  match users with
  | .error _ => return .error "could not check whether another administrator remains"
  | .ok users =>
    if users.any (isOtherAdmin excludingID) then return .ok ()
    else return .error "this is the only administrator; promote someone else first"

/-- End a user's sessions, if what they may do has changed. An error is only logged. -/
def endSessions (needed : Bool) (id : Bytes) : AdminProg Unit :=
  if needed then do
    let _ ← revokeAllForUser id
  else pure ()

section

variable {m : Type → Type} [Monad m] {β : Type} (on : {α : Type} → AdminProg α → m α)

/-- The check before a write that takes an administrator away. -/
def unlessLast (needed : Bool) (id : Bytes) (write : m (Response β)) : m (Response β) :=
  if needed then do
    let checked ← on (requireAnotherAdmin id)
    match checked with
    | .error why => return .error 409 "conflict" why
    | .ok () => write
  else write

/-- The row is written, and sessions are ended if what they may do has changed. -/
def storeUser (user : AdminUser) (previousRole : Role) (done : AdminUser → m (Response β)) :
    m (Response β) :=
  whenStored (on (UserRepo.update user)) fun user => do
    on (endSessions (decide (user.role ≠ previousRole) || user.disabled) user.id)
    done user

def updateUser (id : Bytes) (body : Decoded UpdateUserRequest)
    (done : UpdateUserRequest → AdminUser → m (Response β)) : m (Response β) :=
  withBody body fun req =>
  orFail (on (UserRepo.get id)) fun user =>
    match req.apply user with
    | none => return .validation [Response.field "role" "must be admin, operator or viewer"]
    | some changed =>
      unlessLast on (losingAdmin changed user.role) changed.id
        (storeUser on changed user.role (done req))

def removeUser (id : Bytes) (done : m (Response β)) : m (Response β) :=
  orFail (on (UserRepo.delete id)) fun _ => done

def deleteUser (actorID id : Bytes) (done : AdminUser → m (Response β)) : m (Response β) :=
  orFail (on (UserRepo.get id)) fun user =>
    if user.id = actorID then return .error 409 "conflict" "you cannot delete your own account"
    else
      unlessLast on (decide (user.role = .admin) && !user.disabled) user.id
        (removeUser on id (done user))

def minPasswordLength : Nat := 12

def userPasswordField (password : Bytes) : List (Bytes × Bytes) :=
  if password.length < minPasswordLength then
    [Response.field "password" "must be at least 12 characters"]
  else []

def setUserPassword (localAuth : Option LocalConfig) (p : Passwords) (id : Bytes)
    (body : Decoded Bytes) (done : AdminUser → m (Response β)) : m (Response β) :=
  if localAuth.isNone then return .error 403 "forbidden" "password sign-in is disabled"
  else
    withBody body fun password =>
    ifValid (userPasswordField password) <|
    orFail (on (UserRepo.get id)) fun user =>
      if user.source ≠ .sourceLocal then
        return .error 409 "conflict"
          "this account signs in through the identity provider and has no password here"
      else orFail (on (setPassword p user password)) fun _ => done user

end

def handleUpdateUser (id : Bytes) (body : Decoded UpdateUserRequest) : AdminProg (Response Payload) :=
  updateUser (fun p => p) id body fun _ user => return .json 200 (.user (toUserResponse user))

def handleDeleteUser (actorID id : Bytes) : AdminProg (Response Payload) :=
  deleteUser (fun p => p) actorID id fun _ => return .noContent

def handleSetUserPassword (id : Bytes) (body : Decoded Bytes) : AdminProg (Response Payload) :=
  setUserPassword (fun p => p) srv.localAuth srv.passwords id body fun _ => return .noContent

/-! ## `auth.go` -/

structure LoginRequest where
  username : Bytes
  password : Bytes
  deriving DecidableEq

def completeSignIn (user : AdminUser) (r : HTTPRequest) (draw : SessionDraw) :
    AdminProg (Response Payload) := do
  let issued ← issue srv.net srv.hashSessionToken srv.sessions user r draw
  match issued with
  | .error e => return .ofStore e
  | .ok issued =>
    return .json 200 (.session (toUserResponse user) (permissionsFor user.role) issued.csrfToken
      issued.session.expiresAt)

/-- How `handleLogin` answers an error of `Authenticate`. -/
def signInFailure (e : Err) : Response Payload :=
  if e.is errLockedOut.text then
    .error 429 "forbidden" "too many failed attempts; try again later"
  else if e.is errLocalDisabled.text then .error 403 "forbidden" "password sign-in is disabled"
  else if e.is errInvalidCredentials.text then
    .error 401 "unauthorized" "incorrect username or password"
  else .ofStore e

def handleLogin (r : HTTPRequest) (draw : SessionDraw) (body : Decoded LoginRequest) :
    AdminProg (Response Payload) :=
  match srv.localAuth with
  | none => return .error 403 "forbidden" "password sign-in is disabled"
  | some cfg =>
    match body with
    | .error why => return .badRequest why
    | .ok req =>
      if req.username = [] ∨ req.password = [] then
        return .validation [Response.field "password" "required", Response.field "username" "required"]
      else do
        let signedIn ← Adminauth.authenticate srv.passwords cfg req.username req.password
        match signedIn with
        | .error e => return signInFailure e
        | .ok user => completeSignIn srv user r draw

structure ChangePasswordRequest where
  currentPassword : Bytes
  newPassword : Bytes
  deriving DecidableEq

/-- `handleChangeOwnPassword`; `user` is the row the session was resolved to. -/
def handleChangeOwnPassword (user : AdminUser) (body : Decoded ChangePasswordRequest) :
    AdminProg (Response Payload) :=
  match srv.localAuth with
  | none => return .error 403 "forbidden" "password sign-in is disabled"
  | some cfg =>
    if user.source ≠ .sourceLocal then
      return .error 403 "forbidden"
        "this account signs in through the identity provider; change the password there"
    else
      match body with
      | .error why => return .badRequest why
      | .ok req =>
        if req.newPassword.length < minPasswordLength then
          return .validation [Response.field "newPassword" "must be at least 12 characters"]
        else do
          let checked ← Adminauth.authenticate srv.passwords cfg user.username req.currentPassword
          match checked with
          | .error _ => return .error 401 "unauthorized" "the current password is incorrect"
          | .ok _ =>
            let set ← setPassword srv.passwords user req.newPassword
            match set with
            | .error e => return .ofStore e
            | .ok () => return .noContent

end SmtpProxy.Adminapi
