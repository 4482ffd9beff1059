import SmtpProxy.Adminapi.Requests

/-!
# Objects declared in the bootstrap file

The handlers refuse to change or delete an object whose `managed_by` is `bootstrap`.
Two ways around the guard remain. The password of such an account can be reset,
because `handleResetAccountPassword` does not look at `managed_by`. And a mailbox that
is not declared in the file can be deleted while a declared account uses it: the
foreign keys then take it out of the account's row and links.

`bootstrap_untouched` says that there is no third.
-/

namespace SmtpProxy.Adminapi

open Lib Policy Store Option Table

/-! ## Rows that must not change -/

section

variable {ρ : Type} {key : ρ → Bytes} (managed : ρ → ManagedBy)

def KeepsDeclared (before after : Table Bytes ρ key) : Prop :=
  ∀ k r, before.get k = some r → managed r = .bootstrap → after.get k = some r

variable {managed} {t t' : Table Bytes ρ key} {k : Bytes} {r : ρ}

theorem KeepsDeclared.refl (t : Table Bytes ρ key) : KeepsDeclared managed t t := fun _ _ h _ => h

theorem keepsDeclared_insert (h : t.insert r = some t') : KeepsDeclared managed t t' := by
  intro k r' hr' _
  rw [get_insert h k]
  split
  · next hkey =>
    rw [← hkey, insert_free h] at hr'
    cases hr'
  · exact hr'

theorem keepsDeclared_updateWhere {p : ρ → Bool} {f : ρ → ρ} (hf : ∀ r, key (f r) = key r)
    (hsame : ∀ r ∈ t.rows, managed r = .bootstrap → p r = true → f r = r) :
    KeepsDeclared managed t (t.updateWhere p f hf) := by
  intro k r hr hdecl
  rw [get_updateWhere, hr, map_some]
  split
  · next hp => rw [hsame r (mem_of_get hr) hdecl hp]
  · rfl

theorem key_ne_of_declared (hr : t.get k = some r) (hfree : managed r ≠ .bootstrap) {r' : ρ}
    (hr' : r' ∈ t.rows) (hdecl : managed r' = .bootstrap) : key r' ≠ k := by
  intro hkey
  have hget := get_eq_some_iff.2 ⟨hr', hkey⟩
  rw [hr] at hget
  exact hfree (some.inj hget ▸ hdecl)

theorem keepsDeclared_updateKey {f : ρ → ρ} (hf : ∀ r, key (f r) = key r) (hr : t.get k = some r)
    (hfree : managed r ≠ .bootstrap) :
    KeepsDeclared managed t (t.updateWhere (fun r => key r = k) f hf) := by
  apply keepsDeclared_updateWhere
  intro r' hr' hdecl hp
  exact absurd (of_decide_eq_true hp) (key_ne_of_declared hr hfree hr' hdecl)

theorem keepsDeclared_deleteKey (hr : t.get k = some r) (hfree : managed r ≠ .bootstrap) :
    KeepsDeclared managed t (t.deleteWhere fun r => key r = k) := by
  intro k' r' hr' hdecl
  have hne := key_ne_of_declared hr hfree (mem_of_get hr') hdecl
  rw [get_deleteWhere, hr', filter_some, decide_eq_false hne]
  rfl

end

/-! ## A configuration whose declared objects are as they were -/

def DeclaredAccount (db : Config) (id : Bytes) : Prop :=
  ∃ a, db.accounts.get id = some a ∧ a.managedBy = .bootstrap

/-- Every declared object is as it was, and so are the links and allowed senders of a
declared account. -/
structure Untouched (before after : Config) : Prop where
  credentials : KeepsDeclared CredentialRow.managedBy before.credentials after.credentials
  mailboxes : KeepsDeclared MailboxRow.managedBy before.mailboxes after.mailboxes
  accounts : KeepsDeclared AccountRow.managedBy before.accounts after.accounts
  links : ∀ id, DeclaredAccount before id →
    ∀ m, (id, m) ∈ after.links ↔ (id, m) ∈ before.links
  senders : ∀ id, DeclaredAccount before id →
    ∀ p, (⟨id, p⟩ : AllowedSender) ∈ after.senders ↔ ⟨id, p⟩ ∈ before.senders

theorem Untouched.refl (db : Config) : Untouched db db :=
  ⟨.refl _, .refl _, .refl _, fun _ _ _ => Iff.rfl, fun _ _ _ => Iff.rfl⟩

theorem DeclaredAccount.after {before after : Config} {id : Bytes} (h : DeclaredAccount before id)
    (hkeeps : Untouched before after) : DeclaredAccount after id := by
  obtain ⟨a, ha, hdecl⟩ := h
  exact ⟨a, hkeeps.accounts id a ha hdecl, hdecl⟩

theorem Untouched.trans {db₁ db₂ db₃ : Config} (h₁ : Untouched db₁ db₂) (h₂ : Untouched db₂ db₃) :
    Untouched db₁ db₃ where
  credentials := fun k r hr hd => h₂.credentials k r (h₁.credentials k r hr hd) hd
  mailboxes := fun k r hr hd => h₂.mailboxes k r (h₁.mailboxes k r hr hd) hd
  accounts := fun k r hr hd => h₂.accounts k r (h₁.accounts k r hr hd) hd
  links := fun id hid m => (h₂.links id (hid.after h₁) m).trans (h₁.links id hid m)
  senders := fun id hid p => (h₂.senders id (hid.after h₁) p).trans (h₁.senders id hid p)

/-! ## One request -/

def Unused (db : Config) (mailboxID : Bytes) : Prop :=
  ∀ a ∈ db.accounts.rows, a.managedBy = .bootstrap →
    a.defaultMailboxID ≠ some mailboxID ∧ (a.id, mailboxID) ∉ db.links

instance (db : Config) (mailboxID : Bytes) : Decidable (Unused db mailboxID) :=
  inferInstanceAs (Decidable (∀ a ∈ db.accounts.rows, _))

/-- The request goes around none of the guards: it resets the password of no declared
account, and deletes no mailbox that a declared account uses. -/
def Guarded (db : Config) (call : ConfigCall) : Prop :=
  match call.request with
  | .resetAccountPassword _ id _ => ∀ a ∈ db.accounts.rows, a.id = id → a.managedBy ≠ .bootstrap
  | .deleteMailbox id => Unused db id
  | _ => True

instance (db : Config) : (call : ConfigCall) → Decidable (Guarded db call)
  | ⟨.resetAccountPassword _ id _, _⟩ =>
    inferInstanceAs (Decidable (∀ a ∈ db.accounts.rows, a.id = id → a.managedBy ≠ .bootstrap))
  | ⟨.deleteMailbox id, _⟩ => inferInstanceAs (Decidable (Unused db id))
  | ⟨.createCredential .., _⟩ | ⟨.updateCredential .., _⟩ | ⟨.deleteCredential .., _⟩
  | ⟨.createMailbox .., _⟩ | ⟨.updateMailbox .., _⟩ | ⟨.createAccount .., _⟩
  | ⟨.updateAccount .., _⟩ | ⟨.deleteAccount .., _⟩ => isTrue trivial

variable {srv : ConfigServer} {db db' : Config} {id : Bytes} {a : AccountRow}

theorem links_declared {ids : Option (List Bytes)} {links : List (Bytes × Bytes)}
    (hlinks : links = db.links ∨ links = linksAfter db id ids) {k : Bytes} (hne : k ≠ id) (m : Bytes) :
    (k, m) ∈ links ↔ (k, m) ∈ db.links := by
  obtain rfl | rfl := hlinks
  · exact Iff.rfl
  cases ids with
  | none => exact Iff.rfl
  | some ids => simp [linksAfter, hne, Ne.symm hne]

theorem senders_declared {patterns : Option (List Bytes)} {senders : List AllowedSender}
    (hsenders : senders = db.senders ∨ senders = sendersAfter db id patterns) {k : Bytes}
    (hne : k ≠ id) (p : Bytes) : (⟨k, p⟩ : AllowedSender) ∈ senders ↔ ⟨k, p⟩ ∈ db.senders := by
  obtain rfl | rfl := hsenders
  · exact Iff.rfl
  cases patterns with
  | none => exact Iff.rfl
  | some patterns => simp [sendersAfter, hne, Ne.symm hne]

theorem DeclaredAccount.ne {k : Bytes} (h : DeclaredAccount db k) (ha : db.accounts.get id = some a)
    (hfree : a.managedBy ≠ .bootstrap) : k ≠ id := by
  obtain ⟨r, hr, hdecl⟩ := h
  intro hk
  rw [hk, ha] at hr
  exact hfree (some.inj hr ▸ hdecl)

theorem dropMailbox_untouched {m : MailboxRow} (hget : db.mailboxes.get id = some m)
    (hmanaged : m.managedBy ≠ .bootstrap) (hunused : Unused db id) :
    Untouched db (db.dropMailbox id) := by
  refine ⟨.refl _, keepsDeclared_deleteKey hget hmanaged,
    keepsDeclared_updateWhere (Config.withoutMailbox_id id) ?_, ?_, fun _ _ _ => Iff.rfl⟩
  · intro a ha hdecl _
    exact if_neg (hunused a ha hdecl).1
  intro k hk mailboxID
  obtain ⟨a, ha, hdecl⟩ := hk
  obtain ⟨hmem, rfl⟩ := get_eq_some_iff.1 ha
  show _ ∈ db.links.filter _ ↔ _
  rw [List.mem_filter, decide_eq_true_eq, and_iff_left_iff_imp]
  -- the link that is deleted is not there
  intro hm hid
  exact (hunused a hmem hdecl).2 (hid ▸ hm)

/-- **A guarded request leaves the declared objects alone.** -/
theorem ConfigStep.untouched {call : ConfigCall} (h : ConfigStep srv db call.request db')
    (hguarded : Guarded db call) : Untouched db db' := by
  obtain ⟨request, env⟩ := call
  cases h with
  | nothing => exact .refl db
  | createdCredential hbody hvalid hsealed hinsert =>
    exact { Untouched.refl db with credentials := keepsDeclared_insert hinsert }
  | @updatedCredential id body req c c' now hbody hget hmanaged hvalid hsealed =>
    have hid : c'.id = id := by
      obtain ⟨k, secret, certificateKey, -, -, -, rfl⟩ := sealCredential_ok hsealed
      exact (get_eq_some_iff.1 hget).2
    rw [← hid] at hget
    exact { Untouched.refl db with
      credentials := keepsDeclared_updateKey (c'.assign_id now) hget hmanaged }
  | deletedCredential hget hmanaged =>
    exact { Untouched.refl db with credentials := keepsDeclared_deleteKey hget hmanaged }
  | createdMailbox hbody hvalid hinsert =>
    exact { Untouched.refl db with mailboxes := keepsDeclared_insert hinsert }
  | @updatedMailbox id body req m now hbody hget hmanaged hvalid =>
    obtain rfl := key_of_get hget
    exact { Untouched.refl db with
      mailboxes := keepsDeclared_updateKey (MailboxRow.assign_id _ now) hget hmanaged }
  | deletedMailbox hget hmanaged => exact dropMailbox_untouched hget hmanaged hguarded
  | @createdAccount draw body req password hash _ accounts links senders now hbody hvalid hhashed
      hinsert hlinks hsenders =>
    have hne : ∀ k, DeclaredAccount db k → k ≠ draw.id := by
      rintro k ⟨a, ha, -⟩ rfl
      cases (insert_free hinsert).symm.trans ha
    exact ⟨.refl _, .refl _, keepsDeclared_insert hinsert,
      fun k hk m => links_declared hlinks (hne k hk) m,
      fun k hk p => senders_declared hsenders (hne k hk) p⟩
  | @updatedAccount id body req a links senders now hbody hget hmanaged hvalid hlinks hsenders =>
    obtain rfl := key_of_get hget
    have hfree : a.managedBy ≠ .bootstrap := by simp [hmanaged]
    exact ⟨.refl _, .refl _, keepsDeclared_updateKey ((req.apply a).assign_id now) hget hfree,
      fun k hk m => links_declared hlinks (hk.ne hget hfree) m,
      fun k hk p => senders_declared hsenders (hk.ne hget hfree) p⟩
  | deletedAccount hget hmanaged =>
    exact { Untouched.refl db with
      accounts := keepsDeclared_deleteKey hget hmanaged
      links := fun k hk m => by simp [Config.dropAccount, hk.ne hget hmanaged]
      senders := fun k hk p => by simp [Config.dropAccount, hk.ne hget hmanaged] }
  | @resetPassword random id body given password hash _ a now hbody hget hhashed =>
  obtain ⟨hmem, rfl⟩ := get_eq_some_iff.1 hget
  have hfree := hguarded a hmem rfl
  exact { Untouched.refl db with
    accounts := keepsDeclared_updateKey (AccountRow.assign_id _ now) hget hfree }

/-- **Objects declared in the bootstrap file are read-only**: a sequence of guarded requests
leaves every one of them as it was, with the links and allowed senders of an account. -/
theorem bootstrap_untouched (srv : ConfigServer) {db db' : Config}
    (h : Reach (serveConfig srv) Guarded db db') : Untouched db db' := by
  apply Reach.invariant (I := Untouched db) (.refl db) _ h
  intro db₁ call db₂ huntouched hguarded hstep
  exact huntouched.trans ((serveConfig_step hstep).untouched hguarded)

/-- A mailbox of an administrator, which an account declared in the file uses. -/
def declaredPrinter : Config where
  credentials := ⟨[{ id := ascii "c", authType := .secret }], by simp⟩
  mailboxes := ⟨[{ id := ascii "m", address := ascii "m@x", oauthCredentialID := ascii "c" }], by simp⟩
  accounts :=
    ⟨[{ id := ascii "p", username := ascii "printer", defaultMailboxID := some (ascii "m"),
        managedBy := .bootstrap }], by simp⟩
  links := [(ascii "p", ascii "m")]

/-- The account cannot be renamed or deleted. -/
theorem declaredPrinter_stays : ∃ db', runActions (serveConfig plainConfigServer) declaredPrinter
        [⟨.updateAccount (ascii "p") (.ok { username := ascii "scanner" }), fun _ => {}⟩,
          ⟨.deleteAccount (ascii "p"), fun _ => {}⟩] = some db' ∧ Untouched declaredPrinter db' := by
  obtain ⟨db', hrun, -⟩ := map_eq_some_iff.1
    (show (runActions (serveConfig plainConfigServer) declaredPrinter
        [⟨.updateAccount (ascii "p") (.ok { username := ascii "scanner" }), fun _ => {}⟩,
          ⟨.deleteAccount (ascii "p"), fun _ => {}⟩]).map (fun _ => ()) = some () by decide +kernel)
  exact ⟨db', hrun, bootstrap_untouched plainConfigServer
    (reach_of_runActions _ (by decide +kernel) hrun)⟩

/-- Its password can be reset, and its mailbox be taken away. -/
theorem declaredPrinter_changed : ∃ db', runActions (serveConfig plainConfigServer) declaredPrinter
        [⟨.resetAccountPassword (.error (.new [])) (ascii "p") (.ok (some (ascii "x"))), fun _ => {}⟩,
          ⟨.deleteMailbox (ascii "m"), fun _ => {}⟩] = some db' ∧
      (db'.accounts.get (ascii "p")).map (fun a => (a.passwordHash, a.defaultMailboxID)) =
        some (ascii "#x", none) ∧
      db'.links = [] := by
  obtain ⟨db', hrun, hafter⟩ := map_eq_some_iff.1
    (show (runActions (serveConfig plainConfigServer) declaredPrinter
        [⟨.resetAccountPassword (.error (.new [])) (ascii "p") (.ok (some (ascii "x"))), fun _ => {}⟩,
          ⟨.deleteMailbox (ascii "m"), fun _ => {}⟩]).map (fun db =>
            ((db.accounts.get (ascii "p")).map (fun a => (a.passwordHash, a.defaultMailboxID)),
              db.links)) = some (some (ascii "#x", none), []) by decide +kernel)
  exact ⟨db', hrun, congrArg Prod.fst hafter, congrArg Prod.snd hafter⟩

end SmtpProxy.Adminapi
