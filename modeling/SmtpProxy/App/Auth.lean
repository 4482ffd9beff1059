import SmtpProxy.Policy.Source
import SmtpProxy.Smtpsrv.Session
import SmtpProxy.Store.Config

/-!
# The authenticator

`authenticator.Authenticate` of `internal/app/auth.go`. Its queries are separate
statements, between which the database can change or fail. So the function is
written over any way to carry them out (`authenticateWith`) and read in two: with
given answers (`authenticate`, `Queries`), as a directory nobody changes gives
them (`queriesOf`), and as the program of the statements it issues (`signIn`). How
a password is hashed and compared is a parameter too (`Passwords`).

The decoy hash of an unknown user only costs time, and logging is left out.
-/

namespace SmtpProxy.App

open Lib Policy Store Smtpsrv

/-- The password hashes of `internal/crypto/password.go`: whether a password
matches a hash and the hash should be renewed, and a new hash. -/
structure Passwords where
  verify : Bytes → Bytes → Except Err (Bool × Bool)
  hash : Bytes → Except Err Bytes

def maxPasswordLen : Nat := 1024

def errPasswordTooLong : Err :=
  ⟨.sentinel (ascii "crypto: password exceeds the maximum length"), []⟩

def Passwords.verifyPassword (p : Passwords) (encoded password : Bytes) :
    Except Err (Bool × Bool) :=
  if maxPasswordLen < password.length then .error errPasswordTooLong else p.verify encoded password

def Passwords.hashPassword (p : Passwords) (password : Bytes) : Except Err Bytes :=
  if maxPasswordLen < password.length then .error errPasswordTooLong else p.hash password

/-- The hash is that of this password: nothing else verifies, and a hash made with
weaker parameters than today's is to be renewed. -/
def Passwords.IsHashOf (p : Passwords) (hash password : Bytes) (weak : Bool) : Prop :=
  ∀ tried, p.verify hash tried = .ok (decide (tried = password), decide (tried = password) && weak)

/-- What `HashPassword` returns is a hash of the password, with today's parameters. -/
def Passwords.Lawful (p : Passwords) : Prop :=
  ∀ password hash, p.hash password = .ok hash → hash ≠ [] ∧ p.IsHashOf hash password false

theorem Passwords.Lawful.hashPassword {p : Passwords} (h : p.Lawful) {password hash : Bytes}
    (hhash : p.hashPassword password = .ok hash) : hash ≠ [] ∧ p.IsHashOf hash password false := by
  unfold Passwords.hashPassword at hhash
  split at hhash
  · cases hhash
  · exact h password hash hhash

/-- A hash made with today's parameters is not to be renewed. -/
theorem Passwords.IsHashOf.not_renewed {p : Passwords} {hash password : Bytes}
    (h : p.IsHashOf hash password false) (tried : Bytes) :
    p.verifyPassword hash tried ≠ .ok (true, true) := by
  unfold Passwords.verifyPassword
  split
  · simp
  rw [h tried]
  simp

/-- The least that works: a hash is the password behind a mark. The mark `W` is that of
weaker parameters. -/
def plainPasswords : Passwords where
  verify := fun hash tried =>
    match hash with
    | [] => .error (.new (ascii "crypto: password hash is malformed"))
    | mark :: password =>
      .ok (decide (tried = password), decide (tried = password) && decide (mark = 87))
  hash := fun password => .ok (35 :: password)

theorem plainPasswords_lawful : plainPasswords.Lawful := by
  intro password hash hhash
  cases hhash
  exact ⟨by simp, fun tried => rfl⟩

/-- What the queries of one attempt answer. -/
structure Queries where
  getByUsername : Bytes → Except Err SMTPAccount
  allowedSenders : Bytes → Except Err (List AllowedSender)
  listForAccount : Bytes → Except Err (List Mailbox)

def queriesOf (d : Directory) : Queries where
  getByUsername := d.getByUsername
  allowedSenders := fun id => .ok (d.allowedSenders id)
  listForAccount := fun id => .ok (d.listForAccount id)

def authFailure (detail : Bytes) (causes : List ErrNode) : Err :=
  ⟨.plain (errAuthFailed.text ++ ascii ": " ++ detail), errAuthFailed.nodes ++ causes⟩

/-- What `Authenticate` returns, and the row a renewed hash is written with. -/
structure AuthOutcome where
  answer : Except Err Identity
  rehashed : Option SMTPAccount := none

variable (n : NetText) (g : GoText) (p : Passwords) (q : Queries)

/-- `authenticator.rehash`: the row it passes to `Update`. -/
def rehash (account : SMTPAccount) (password : Bytes) : Option SMTPAccount :=
  match p.hashPassword password with
  | .error _ => none
  | .ok updated => some { account with passwordHash := updated }

/-- The calls of `Authenticate` to the store, which has its accounts as `ρ`. -/
structure AuthStore (m : Type → Type) (ρ : Type) where
  getByUsername : Bytes → m (Except Err ρ)
  allowedSenders : Bytes → m (Except Err (List AllowedSender))
  listForAccount : Bytes → m (Except Err (List Mailbox))
  /-- A sign-in succeeded: the hash is renewed, if it is to be, and the time noted. -/
  recordUse : ρ → (password : Bytes) → (needsRehash : Bool) → m Unit

/-- `authenticator.Authenticate`. -/
def authenticateWith {m : Type → Type} [Monad m] {ρ : Type} (row : ρ → SMTPAccount)
    (store : AuthStore m ρ) (username password : Bytes) (remote : IP) : m (Except Err Identity) := do
  let found ← store.getByUsername username
  match found with
  | .error e =>
    if e.is errNotFound then
      return .error (authFailure (ascii "no account named " ++ g.quote username) [])
    else
      return .error (authFailure
        (ascii "looking up " ++ g.quote username ++ ascii ": " ++ e.text) e.nodes)
  | .ok account =>
    match p.verifyPassword (row account).passwordHash password with
    | .error e =>
      return .error (authFailure (ascii "the stored password hash for " ++ g.quote username ++
        ascii " is unusable: " ++ e.text) e.nodes)
    | .ok (matched, needsRehash) =>
      if !matched then
        return .error (authFailure (ascii "wrong password for " ++ g.quote username) [])
      else if !(row account).enabled then
        return .error (authFailure (ascii "account " ++ g.quote username ++ ascii " is disabled") [])
      else
        let senders ← store.allowedSenders (row account).id
        match senders with
        | .error e =>
          return .error (authFailure (ascii "loading allowed senders for " ++ g.quote username ++
            ascii ": " ++ e.text) e.nodes)
        | .ok allowed =>
          let policyAccount := accountFromStore (row account) allowed
          match checkSourceAddress n g policyAccount remote with
          | some e => return .error (authFailure e.text e.nodes)
          | none =>
            let listed ← store.listForAccount (row account).id
            match listed with
            | .error e =>
              return .error (authFailure (ascii "loading mailboxes for " ++ g.quote username ++
                ascii ": " ++ e.text) e.nodes)
            | .ok mailboxes =>
              store.recordUse account password needsRehash
              return .ok { accountID := (row account).id, username := (row account).username,
                           account := policyAccount, mailboxes }

/-- The store whose answers are given; the state is the row a renewed hash is written with. -/
def Queries.store : AuthStore (StateM (Option SMTPAccount)) SMTPAccount where
  getByUsername username := pure (q.getByUsername username)
  allowedSenders id := pure (q.allowedSenders id)
  listForAccount id := pure (q.listForAccount id)
  recordUse account password needsRehash :=
    set (if needsRehash then rehash p account password else none)

/-- `Authenticate` with these answers. -/
def authenticate (username password : Bytes) (remote : IP) : AuthOutcome :=
  let done := (authenticateWith n g p id (q.store p) username password remote).run none
  { answer := done.1, rehashed := done.2 }

/-- Everything an attempt can come to: it fails, for a reason only the log shows,
or every check was passed. -/
inductive AuthCourse (username password : Bytes) (remote : IP) : AuthOutcome → Prop where
  | failed (detail : Bytes) (causes : List ErrNode) :
      AuthCourse username password remote { answer := .error (authFailure detail causes) }
  | succeeded {account : SMTPAccount} {needsRehash : Bool} {allowed : List AllowedSender}
      {mailboxes : List Mailbox} (hget : q.getByUsername username = .ok account)
      (hverify : p.verifyPassword account.passwordHash password = .ok (true, needsRehash))
      (hon : account.enabled = true) (hallowed : q.allowedSenders account.id = .ok allowed)
      (hsource : checkSourceAddress n g (accountFromStore account allowed) remote = none)
      (hlist : q.listForAccount account.id = .ok mailboxes) :
      AuthCourse username password remote
        { answer := .ok { accountID := account.id, username := account.username,
                          account := accountFromStore account allowed, mailboxes }
          rehashed := if needsRehash then rehash p account password else none }

theorem authenticate_course (username password : Bytes) (remote : IP) :
    AuthCourse n g p q username password remote (authenticate n g p q username password remote) := by
  unfold authenticate authenticateWith
  simp only [Queries.store, pure_bind, id_eq]
  cases hget : q.getByUsername username with
  | error e =>
    dsimp only
    split <;> exact .failed _ _
  | ok account =>
  dsimp only
  cases hverify : p.verifyPassword account.passwordHash password with
  | error e => exact .failed _ _
  | ok found =>
  obtain ⟨matched, needsRehash⟩ := found
  dsimp only
  cases matched with
  | false => exact .failed _ _
  | true =>
  cases hon : account.enabled with
  | false => exact .failed _ _
  | true =>
  simp only [Bool.not_true, Bool.false_eq_true, if_false]
  cases hallowed : q.allowedSenders account.id with
  | error e => exact .failed _ _
  | ok allowed =>
  dsimp only
  cases hsource : checkSourceAddress n g (accountFromStore account allowed) remote with
  | some e => exact .failed _ _
  | none =>
  dsimp only
  cases hlist : q.listForAccount account.id with
  | error e => exact .failed _ _
  | ok mailboxes => exact .succeeded hget hverify hon hallowed hsource hlist

section

variable {n g p q} {username password : Bytes} {remote : IP} {out : AuthOutcome}

theorem AuthCourse.ok {identity : Identity} (h : AuthCourse n g p q username password remote out)
    (hret : out.answer = .ok identity) :
    ∃ account, q.getByUsername username = .ok account ∧ account.enabled = true ∧
      identity.accountID = account.id ∧ q.listForAccount account.id = .ok identity.mailboxes := by
  cases h with
  | failed detail causes => cases hret
  | succeeded hget hverify hon hallowed hsource hlist =>
    cases hret
    exact ⟨_, hget, hon, rfl, hlist⟩

theorem AuthCourse.row {row : SMTPAccount} (h : AuthCourse n g p q username password remote out)
    (hrow : out.rehashed = some row) :
    ∃ account hash, q.getByUsername username = .ok account ∧
      row = { account with passwordHash := hash } := by
  cases h with
  | failed detail causes => cases hrow
  | succeeded hget hverify hon hallowed hsource hlist =>
  simp only [rehash] at hrow
  split at hrow
  · split at hrow
    · cases hrow
    · exact ⟨_, _, hget, (Option.some.inj hrow).symm⟩
  · cases hrow

end

/-! ## Statement by statement -/

variable (n : NetText) (g : GoText) (p : Passwords)

/-- `authenticator.rehash`. Whether the row could be written is only logged. -/
def rehashAccount (account : AccountRow) (password : Bytes) : ConfigProg Unit :=
  match p.hashPassword password with
  | .error _ => return ()
  | .ok updated => do
    let _ ← AccountRepo.update { account with passwordHash := updated }

def recordUse (account : AccountRow) (password : Bytes) (needsRehash : Bool) : ConfigProg Unit := do
  if needsRehash then rehashAccount p account password
  let _ ← AccountRepo.touchLastUsed account.id

/-- `Authenticate` as the program of its statements. -/
def signIn : (username password : Bytes) → IP → ConfigProg (Except Err Identity) :=
  authenticateWith n g p AccountRow.toSMTPAccount {
    getByUsername := AccountRepo.getByUsername
    allowedSenders := AccountRepo.allowedSenders
    listForAccount := MailboxRepo.listForAccount
    recordUse := recordUse p }

variable {n g p} {env : ConfigOp → Fate} {db : Config}

end SmtpProxy.App
