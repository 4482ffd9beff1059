import Mathlib.Data.List.Sort
import SmtpProxy.Errors
import SmtpProxy.Lib.Table

/-!
# The store's records

The types of `internal/store/models.go` that the queue, the sender policy and
the transports read. A `sql.Null…` column is an `Option`. Columns whose values
are restricted by a `CHECK` constraint are inductive types: the database cannot
hold anything else.
-/

namespace SmtpProxy.Store

open Lib

/-- Upstream transports a mailbox may name. The schema restricts the column to
these two. -/
inductive Transport where
  | smtp
  | graph
  deriving DecidableEq

/-- A shared mailbox the proxy may send as. -/
structure Mailbox where
  id : Bytes
  address : Bytes
  displayName : Bytes := []
  oauthCredentialID : Bytes := []
  transport : Transport := .smtp
  rateLimitPerMin : Option Int := none
  maxConcurrent : Option Int := none
  enabled : Bool := true
  deriving DecidableEq

/-- The parts of an Entra application registration a delivery passes on. -/
structure OAuthCredential where
  id : Bytes
  name : Bytes := []
  tenantID : Bytes := []
  clientID : Bytes := []
  deriving DecidableEq

/-- `store.FromPolicy`. The column is checked by the schema, but the code keeps
a branch for a value this build does not know. -/
inductive FromPolicy where
  | reject
  | rewrite
  | passthrough
  | unknown (text : Bytes)
  deriving DecidableEq

/-- Where a queued message is in its lifecycle. -/
inductive MessageStatus where
  | queued
  | sending
  | sent
  | deferred
  | failed
  | held
  deriving DecidableEq

/-- Who put a message in the queue. -/
inductive Origin where
  | smtp
  | diagnostic
  deriving DecidableEq

structure Message where
  id : Bytes
  smtpAccountID : Option Bytes := none
  mailboxID : Option Bytes := none
  accountUsername : Bytes := []
  mailboxAddress : Bytes := []
  envelopeFrom : Bytes := []
  headerFrom : Bytes := []
  recipients : List Bytes := []
  recipientCount : Nat := 0
  sizeBytes : Nat := 0
  subject : Bytes := []
  messageID : Bytes := []
  status : MessageStatus := .queued
  attempts : Nat := 0
  nextAttemptAt : Int := 0
  leaseOwner : Option Bytes := none
  leaseExpiresAt : Option Int := none
  lastError : Bytes := []
  lastErrorCode : Bytes := []
  lastErrorPermanent : Bool := false
  clientIP : Bytes := []
  blobRef : Bytes := []
  receivedAt : Int := 0
  sentAt : Option Int := none
  updatedAt : Int := 0
  origin : Origin := .smtp
  deriving DecidableEq

structure Blob where
  messageID : Bytes
  content : Bytes
  deriving DecidableEq

/-- Why a delivery attempt did not succeed. -/
structure Failure where
  code : Bytes := []
  message : Bytes
  permanent : Bool := false
  deriving DecidableEq

/-! ## Repository errors -/

def errNotFound : Bytes := ascii "store: not found"

def errConflict : Bytes := ascii "store: already exists"

def errStateConflict : Bytes := ascii "operation conflicts with current state"

def errReferenced : Bytes := ascii "store: still referenced by another object"

def errImmutable : Bytes := ascii "store: object is managed by the bootstrap file"

/-- `fmt.Errorf("%w: %s", sentinel, what)`. -/
def sentinelFor (sentinel what : Bytes) : Err :=
  ⟨.plain (sentinel ++ ascii ": " ++ what), [.sentinel sentinel]⟩

/-- How a statement can fail, as far as `translateError` tells the cases apart. -/
inductive DBError where
  | noRows
  | uniqueViolation
  | foreignKeyViolation
  | other (e : Err)
  deriving DecidableEq

/-- `translateError`: anything unrecognised is passed on as it is. -/
def translateError (e : DBError) (what : Bytes) : Err :=
  match e with
  | .noRows => sentinelFor errNotFound what
  | .uniqueViolation => sentinelFor errConflict what
  | .foreignKeyViolation => sentinelFor errReferenced what
  | .other e => e

/-! ## The directory

`Directory` is a committed state of the tables of `internal/store/accounts.go` and
`internal/store/mailboxes.go`, as far as the SMTP path reads them. -/

structure SMTPAccount where
  id : Bytes
  username : Bytes
  passwordHash : Bytes := []
  defaultMailboxID : Option Bytes := none
  fromPolicy : FromPolicy := .reject
  allowCIDRs : List Bytes := []
  enabled : Bool := true
  deriving DecidableEq

structure AllowedSender where
  smtpAccountID : Bytes
  pattern : Bytes
  deriving DecidableEq

/-- A committed state of the tables. A link is an account and a mailbox. -/
structure Directory where
  accounts : Table Bytes SMTPAccount SMTPAccount.id
  mailboxes : Table Bytes Mailbox Mailbox.id
  links : List (Bytes × Bytes) := []
  senders : List AllowedSender := []

def nullString (s : Bytes) : Option Bytes := if s = [] then none else some s

namespace Directory

def getByUsername (d : Directory) (username : Bytes) : Except Err SMTPAccount :=
  match d.accounts.rows.find? fun a => a.username = username with
  | some a => .ok a
  | none => .error (translateError .noRows (ascii "SMTP account " ++ username))

/-- `AccountRepo.AllowedSenders`, ordered by pattern. -/
def allowedSenders (d : Directory) (accountID : Bytes) : List AllowedSender :=
  (d.senders.filter fun s => s.smtpAccountID = accountID).insertionSort
    fun a b => a.pattern ≤ b.pattern

/-- An account may send as a mailbox: the two are linked, or it is the account's
default. -/
def allows (d : Directory) (accountID mailboxID : Bytes) : Bool :=
  d.links.contains (accountID, mailboxID) ||
    (d.accounts.get accountID).any fun a => a.defaultMailboxID = some mailboxID

/-- `MailboxRepo.ListForAccount`, ordered by address. -/
def listForAccount (d : Directory) (accountID : Bytes) : List Mailbox :=
  (d.mailboxes.rows.filter fun m => d.allows accountID m.id).insertionSort
    fun a b => a.address ≤ b.address

/-- `AccountRepo.Update`: every mutable column of the row. -/
def updateAccount (d : Directory) (a : SMTPAccount) : Directory :=
  let accounts :=
    d.accounts.updateWhere (fun r => r.id = a.id) (fun r => { a with id := r.id }) fun _ => rfl
  { d with accounts }

variable {d : Directory} {a : SMTPAccount}

theorem getByUsername_ok {username : Bytes} (h : d.getByUsername username = .ok a) :
    d.accounts.get a.id = some a := by
  unfold getByUsername at h
  split at h
  · next r hfind =>
    cases h
    exact Table.get_eq_some_iff.2 ⟨List.mem_of_find?_eq_some hfind, rfl⟩
  · cases h

theorem updateAccount_any (hrow : d.accounts.get a.id = some a) (hash k : Bytes)
    {f : SMTPAccount → Bool} (hf : f { a with passwordHash := hash } = f a) :
    ((d.updateAccount { a with passwordHash := hash }).accounts.get k).any f
      = (d.accounts.get k).any f := by
  rw [updateAccount, Table.get_updateWhere]
  cases hk : d.accounts.get k with
  | none => rfl
  | some r =>
  rw [Option.map_some, Option.any_some, Option.any_some]
  by_cases hid : r.id = a.id
  · rw [← Table.key_of_get hk, hid, hrow] at hk
    cases hk
    rw [decide_eq_true rfl, if_pos rfl]
    exact hf
  · rw [decide_eq_false hid, if_neg Bool.false_ne_true]

theorem updateAccount_listForAccount (hrow : d.accounts.get a.id = some a) (hash accountID : Bytes) :
    (d.updateAccount { a with passwordHash := hash }).listForAccount accountID
      = d.listForAccount accountID := by
  have hallows : ∀ m, (d.updateAccount { a with passwordHash := hash }).allows accountID m
      = d.allows accountID m := by
    intro m
    rw [allows, allows, updateAccount_any hrow hash accountID rfl]
    rfl
  simp only [listForAccount, hallows]
  rfl

end Directory

end SmtpProxy.Store
