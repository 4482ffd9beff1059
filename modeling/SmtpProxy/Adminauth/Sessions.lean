import SmtpProxy.Adminauth.ClientIP
import SmtpProxy.Store.Users

/-!
# Sessions of the management interface

`SessionManager` of `internal/adminauth/session.go`: issuing, checking and ending
sessions. Cookies carry the token and are otherwise left out, as is the CSRF
check, which reads nothing that changes.
-/

namespace SmtpProxy.Adminauth

open Lib Store

/-- `SessionConfig`, as far as it decides about a session. -/
structure SessionConfig where
  lifetime : Int := 0
  idleTimeout : Int := 0
  deriving DecidableEq

def defaultLifetime : Int := 12 * 3600 * 1000000000

/-- `NewSessionManager`: a lifetime that is not positive is replaced. -/
def newSessionManager (cfg : SessionConfig) : SessionConfig :=
  { cfg with lifetime := if cfg.lifetime ≤ 0 then defaultLifetime else cfg.lifetime }

/-- What the random source yields for one session. -/
structure SessionDraw where
  id : Bytes
  token : Except Err Bytes
  csrf : Except Err Bytes
  deriving DecidableEq

def errNoSession : Err := ⟨.sentinel (ascii "adminauth: not signed in"), []⟩

structure Issued where
  session : Session
  token : Bytes
  csrfToken : Bytes
  deriving DecidableEq

def maxUserAgent : Nat := 512

variable (n : NetText) (hashSessionToken : Bytes → Bytes) (m : SessionConfig)

def newSession (user : AdminUser) (r : HTTPRequest) (id token csrf : Bytes) (now : Int) : Session where
  id := id
  userID := user.id
  tokenHash := hashSessionToken token
  csrfToken := csrf
  ip := clientIP n r []
  userAgent := r.userAgent.take maxUserAgent
  createdAt := now
  expiresAt := now + m.lifetime

/-- `SessionManager.Issue`. The row is made and written in one moment. -/
def issue (user : AdminUser) (r : HTTPRequest) (draw : SessionDraw) :
    AdminProg (Except Err Issued) :=
  match draw.token, draw.csrf with
  | .error e, _ => return .error (wrapping (ascii "adminauth: generating a session token") e)
  | .ok _, .error e => return .error (wrapping (ascii "adminauth: generating a CSRF token") e)
  | .ok token, .ok csrf =>
    .exec .sessionCreate fun c db =>
      let s := newSession n hashSessionToken m user r draw.id token csrf c.now
      let written := c.answer (fun now db => db.insertSession now s) db
      (written.1.map fun _ => { session := { s with lastSeenAt := c.now }, token, csrfToken := csrf },
        written.2)

/-- `SessionManager.Authenticate`, of the token in the request's cookie. Whether
the activity is recorded does not matter to the caller. -/
def resolve (token : Bytes) : AdminProg (Except Err (Session × AdminUser)) :=
  if token = [] then return .error errNoSession
  else do
    let found ← SessionRepo.lookup hashSessionToken token m.idleTimeout
    match found with
    | .error e => return .error (if e.is errNotFound then errNoSession else e)
    | .ok (s, u) =>
      let _ ← SessionRepo.touch s.id
      return .ok (s, u)

def revoke (sessionID : Bytes) : AdminProg (Except Err Unit) := SessionRepo.delete sessionID

def revokeAllForUser (userID : Bytes) : AdminProg (Except Err Unit) := SessionRepo.deleteForUser userID

end SmtpProxy.Adminauth
