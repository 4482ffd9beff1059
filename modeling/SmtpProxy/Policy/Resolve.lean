import SmtpProxy.Policy.Address
import SmtpProxy.Store.Models

/-!
# The sender policy

`Resolve` of `internal/policy/resolve.go`: whether a submission may be sent, as
which mailbox, and with which `From`. `Resolved` lists what a decision can be
and what must have been true for it; everything later theorems need to know of
a decision follows from it.
-/

namespace SmtpProxy.Policy

open Lib Store

inductive Action where
  | accept
  | rewrite
  | reject
  deriving DecidableEq

structure Decision where
  action : Action
  mailbox : Option Mailbox := none
  rewriteFrom : Bytes := []
  originalFrom : Address := {}
  code : Int := 0
  enhanced : Bytes := []
  reason : Bytes := []
  deriving DecidableEq

def Decision.rejected (d : Decision) : Bool := d.action = .reject

/-- The subset of an SMTP account the policy needs. -/
structure Account where
  id : Bytes
  username : Bytes
  enabled : Bool := true
  policy : FromPolicy := .reject
  defaultMailboxID : Bytes := []
  allowedSenders : List Bytes := []
  allowCIDRs : List Bytes := []
  deriving DecidableEq

structure Input where
  account : Account
  mailboxes : List Mailbox
  envelopeFrom : Address
  headerFrom : Address

def reject (code : Int) (enhanced reason : Bytes) : Decision :=
  { action := .reject, code, enhanced, reason }

abbrev accept (inp : Input) (mb : Mailbox) : Decision :=
  { action := .accept, mailbox := some mb, originalFrom := inp.headerFrom }

abbrev rewriteAs (inp : Input) (mb : Mailbox) : Decision :=
  { accept inp mb with action := .rewrite, rewriteFrom := mb.address }

variable (g : GoText)

/-- The first mailbox whose address equals the given one, ignoring case. -/
def matchMailbox (mailboxes : List Mailbox) (normalized : Bytes) : Option Mailbox :=
  mailboxes.find? fun mb => g.equalFold mb.address normalized

/-- The account's default mailbox if it is in the list, otherwise the first. -/
def defaultMailbox (first : Mailbox) (mailboxes : List Mailbox) (defaultID : Bytes) : Mailbox :=
  if defaultID ≠ [] then (mailboxes.find? fun mb => mb.id = defaultID).getD first else first

def matchesAny (normalized : Bytes) (patterns : List Bytes) : Bool :=
  patterns.any (matchesPattern g normalized)

/-- What the account may send as, for a rejection message: at most five of them. -/
def describeAllowed (mailboxes : List Mailbox) (patterns : List Bytes) : Bytes :=
  let parts := mailboxes.map Mailbox.address ++ patterns
  if 5 < parts.length then
    joinWith (ascii ", ") (parts.take 5) ++ ascii " and " ++ itoa (parts.length - 5) ++ ascii " more"
  else joinWith (ascii ", ") parts

def mailboxDisabled (mb : Mailbox) : Decision :=
  reject 550 (ascii "5.7.1") (ascii "the mailbox " ++ mb.address ++ ascii " is disabled")

/-- What happens to a `From` that is neither a mailbox of the account nor in its
allow-list. -/
def applyFromPolicy (inp : Input) (first : Mailbox) : Decision :=
  let mb := defaultMailbox first inp.mailboxes inp.account.defaultMailboxID
  match inp.account.policy with
  | .rewrite =>
    if !mb.enabled then mailboxDisabled mb
    else rewriteAs inp mb
  | .passthrough =>
    if !mb.enabled then mailboxDisabled mb
    else accept inp mb
  | .reject =>
    reject 550 (ascii "5.7.1") (ascii "this account may not send as " ++ inp.headerFrom.original ++
      ascii "; allowed senders are: " ++ describeAllowed inp.mailboxes inp.account.allowedSenders)
  | .unknown text =>
    reject 451 (ascii "4.3.5") (ascii "the sender policy " ++ g.quote text ++
      ascii " is not understood by this version")

/-- `Resolve`. The `From` header alone drives the decision. -/
def resolve (inp : Input) : Decision :=
  if !inp.account.enabled then reject 550 (ascii "5.7.1") (ascii "this account is disabled")
  else
    match inp.mailboxes with
    | [] => reject 550 (ascii "5.7.1")
        (ascii "this account is not linked to any mailbox; grant it one in the admin interface")
    | first :: _ =>
      if inp.headerFrom.isEmpty then
        reject 550 (ascii "5.7.1") (ascii "the message has no From header")
      else
        match matchMailbox g inp.mailboxes inp.headerFrom.normalized with
        | some mb =>
          if !mb.enabled then mailboxDisabled mb
          else accept inp mb
        | none =>
          if matchesAny g inp.headerFrom.normalized inp.account.allowedSenders then
            let mb := defaultMailbox first inp.mailboxes inp.account.defaultMailboxID
            if !mb.enabled then mailboxDisabled mb
            else accept inp mb
          else applyFromPolicy g inp first

/-! ## What a decision can be -/

/-- The `From` is neither a mailbox of the account nor in its allow-list. -/
def Foreign (inp : Input) : Prop :=
  matchMailbox g inp.mailboxes inp.headerFrom.normalized = none ∧
    matchesAny g inp.headerFrom.normalized inp.account.allowedSenders = false

/-- Everything a decision can be. -/
inductive Resolved (inp : Input) : Decision → Prop where
  | rejected {d : Decision} (hrej : d.action = .reject) : Resolved inp d
  | own {mb : Mailbox} (hmem : mb ∈ inp.mailboxes) (hen : mb.enabled = true)
      (hfrom : inp.headerFrom.isEmpty = false)
      (hmatch : matchMailbox g inp.mailboxes inp.headerFrom.normalized = some mb) :
      Resolved inp (accept inp mb)
  | listed {mb : Mailbox} (hmem : mb ∈ inp.mailboxes) (hen : mb.enabled = true)
      (hfrom : inp.headerFrom.isEmpty = false)
      (hmatch : matchesAny g inp.headerFrom.normalized inp.account.allowedSenders = true) :
      Resolved inp (accept inp mb)
  | passed {mb : Mailbox} (hmem : mb ∈ inp.mailboxes) (hen : mb.enabled = true)
      (hfrom : inp.headerFrom.isEmpty = false) (hforeign : Foreign g inp)
      (hpol : inp.account.policy = .passthrough) :
      Resolved inp (accept inp mb)
  | rewritten {mb : Mailbox} (hmem : mb ∈ inp.mailboxes) (hen : mb.enabled = true)
      (hfrom : inp.headerFrom.isEmpty = false) (hforeign : Foreign g inp)
      (hpol : inp.account.policy = .rewrite) :
      Resolved inp (rewriteAs inp mb)

theorem defaultMailbox_mem {first : Mailbox} {mailboxes : List Mailbox} {id : Bytes}
    (h : first ∈ mailboxes) : defaultMailbox first mailboxes id ∈ mailboxes := by
  unfold defaultMailbox
  split
  · cases hf : mailboxes.find? fun mb => mb.id = id with
    | none => exact h
    | some mb => exact List.mem_of_find?_eq_some hf
  · exact h

theorem mailboxDisabled_resolved {inp : Input} (mb : Mailbox) :
    Resolved g inp (mailboxDisabled mb) := .rejected rfl

theorem applyFromPolicy_resolved {inp : Input} {first : Mailbox} (hfirst : first ∈ inp.mailboxes)
    (hfrom : inp.headerFrom.isEmpty = false) (hforeign : Foreign g inp) :
    Resolved g inp (applyFromPolicy g inp first) := by
  have hmem : defaultMailbox first inp.mailboxes inp.account.defaultMailboxID ∈ inp.mailboxes :=
    defaultMailbox_mem hfirst
  unfold applyFromPolicy
  cases hpol : inp.account.policy with
  | reject | unknown => exact .rejected rfl
  | rewrite =>
    simp only
    split
    · exact mailboxDisabled_resolved g _
    · next hen => exact .rewritten hmem (by simpa using hen) hfrom hforeign hpol
  | passthrough =>
  simp only
  split
  · exact mailboxDisabled_resolved g _
  · next hen => exact .passed hmem (by simpa using hen) hfrom hforeign hpol

/-- **Every decision is one of these.** -/
theorem resolve_resolved (inp : Input) : Resolved g inp (resolve g inp) := by
  unfold resolve
  split
  · exact .rejected rfl
  split
  · exact .rejected rfl
  next first rest hlist =>
  have hfirst : first ∈ inp.mailboxes := by rw [hlist]; exact .head _
  split
  · exact .rejected rfl
  next hfrom =>
  have hfrom : inp.headerFrom.isEmpty = false := by simpa using hfrom
  split
  · next mb hmatch =>
    split
    · exact mailboxDisabled_resolved g mb
    next hen =>
    exact .own (List.mem_of_find?_eq_some hmatch) (by simpa using hen) hfrom hmatch
  next hown =>
  split
  · next hlisted =>
    dsimp only
    split
    · exact mailboxDisabled_resolved g _
    · next hen => exact .listed (defaultMailbox_mem hfirst) (by simpa using hen) hfrom hlisted
  next hlisted =>
  exact applyFromPolicy_resolved g hfirst hfrom ⟨hown, eq_false_of_ne_true hlisted⟩

/-- **A submission that is not refused goes out as an enabled mailbox of the
account.** -/
theorem resolve_mailbox {inp : Input} (h : (resolve g inp).rejected = false) :
    ∃ mb, (resolve g inp).mailbox = some mb ∧ mb ∈ inp.mailboxes ∧ mb.enabled = true := by
  have hres := resolve_resolved g inp
  generalize resolve g inp = d at h hres ⊢
  cases hres with
  | rejected hrej => simp [Decision.rejected, hrej] at h
  | own hmem hen => exact ⟨_, rfl, hmem, hen⟩
  | listed hmem hen => exact ⟨_, rfl, hmem, hen⟩
  | passed hmem hen => exact ⟨_, rfl, hmem, hen⟩
  | rewritten hmem hen => exact ⟨_, rfl, hmem, hen⟩

end SmtpProxy.Policy
