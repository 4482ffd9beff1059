import SmtpProxy.Bootstrap.Apply
import SmtpProxy.Lib.Upsert
import SmtpProxy.Store.ConfigView

/-!
# What applying a file does

Seen by name, `Apply` is a list of keyed writes: each declared object is written under its
name, as a function of what the store has under that name and of the file. `Apply` that ends
well has done all of them (`Applier.apply_ends`), and wherever it is cut short it has begun
them (`Applier.apply_visits`).
-/

namespace SmtpProxy.Bootstrap

open Lib Policy Store List Option Table

/-! ## The writes -/

/-- What is left of a column: the declared text, or what was there if none is declared. -/
def declaredOr (declared : Bytes) (old : Option (Except Err Bytes)) : Option (Except Err Bytes) :=
  if declared = [] then old else some (.ok declared)

def createdBy (reconcile : Bool) : ManagedBy := if reconcile then .bootstrap else .ui

def Credential.written (reconcile : Bool) (c : Credential) : Option CredentialView → CredentialView
  | none =>
    { tenantID := c.tenantID
      clientID := c.clientID
      authType := credentialAuthType c
      clientSecret := declaredOr c.clientSecret none
      certificatePEM := c.certificatePEM
      certificateKey := declaredOr c.certificateKeyPEM none
      certificateThumbprint := []
      authorityHost := c.authorityHost
      expiresAt := none
      managedBy := createdBy reconcile }
  | some old =>
    if reconcile then
      { old with
        tenantID := c.tenantID
        clientID := c.clientID
        authType := credentialAuthType c
        clientSecret := declaredOr c.clientSecret old.clientSecret
        certificatePEM := if c.certificatePEM = [] then old.certificatePEM else c.certificatePEM
        certificateKey := declaredOr c.certificateKeyPEM old.certificateKey
        authorityHost := c.authorityHost
        managedBy := .bootstrap }
    else old

def Mailbox.declared (m : Mailbox) (managedBy : ManagedBy) : MailboxView where
  displayName := m.displayName
  credential := some m.credential
  transport := mailboxTransport m
  rateLimitPerMin := nullInt m.rateLimitPerMin
  maxConcurrent := nullInt m.maxConcurrent
  enabled := !m.disabled
  managedBy := managedBy

def Mailbox.written (reconcile : Bool) (m : Mailbox) : Option MailboxView → MailboxView
  | none => m.declared (createdBy reconcile)
  | some old => if reconcile then m.declared .bootstrap else old

variable (g : GoText)

/-- The addresses an account names, as they are looked up. -/
def Account.addresses (acc : Account) : List Bytes := acc.mailboxes.map g.toLower

/-- The default mailbox an account gets when these addresses are known. -/
def Account.defaultAddress (acc : Account) (known : List Bytes) : Option Bytes :=
  if acc.defaultMailbox ≠ [] then
    if g.toLower acc.defaultMailbox ∈ known then some (g.toLower acc.defaultMailbox) else none
  else (acc.addresses g).head?

def Account.declared (acc : Account) (known : List Bytes) (lastUsedAt : Option Int)
    (managedBy : ManagedBy) : AccountView where
  passwordHash := acc.passwordHash
  description := acc.description
  defaultMailbox := acc.defaultAddress g known
  fromPolicy := accountPolicy acc
  allowCIDRs := acc.allowCIDRs
  rateLimitPerMin := nullInt acc.rateLimitPerMin
  enabled := !acc.disabled
  lastUsedAt := lastUsedAt
  managedBy := managedBy
  links := {address | address ∈ acc.addresses g}
  senders := {pattern | pattern ∈ acc.allowedSenders}

def Account.written (reconcile : Bool) (acc : Account) (known : List Bytes) :
    Option AccountView → AccountView
  | none => acc.declared g known none (createdBy reconcile)
  | some old => if reconcile then acc.declared g known old.lastUsedAt .bootstrap else old

def linksOf (old : Option AccountView) : Set Bytes := old.elim ∅ (·.links)

def sendersOf (old : Option AccountView) : Set Bytes := old.elim ∅ (·.senders)

/-- What may be there of an account that is being written. -/
inductive Account.Partway (reconcile : Bool) (acc : Account) (known : List Bytes)
    (old : Option AccountView) : AccountView → Prop where
  | done : acc.Partway reconcile known old (acc.written g reconcile known old)
  | row (hwrites : old = none ∨ reconcile = true) : acc.Partway reconcile known old
      { acc.written g reconcile known old with links := linksOf old, senders := sendersOf old }
  | linked (hwrites : old = none ∨ reconcile = true) : acc.Partway reconcile known old
      { acc.written g reconcile known old with senders := sendersOf old }

def credentialUpsert (reconcile : Bool) (_ : List Bytes) (c : Credential) :
    Upsert Bytes CredentialView where
  key := c.name
  write := c.written reconcile
  partway := fun old new => new = c.written reconcile old
  ends := fun _ => rfl

def mailboxUpsert (reconcile : Bool) (_ : List Bytes) (m : Mailbox) : Upsert Bytes MailboxView where
  key := g.toLower m.address
  write := m.written reconcile
  partway := fun old new => new = m.written reconcile old
  ends := fun _ => rfl

def knownAfter (known : List Bytes) (acc : Account) : List Bytes := acc.addresses g ++ known

def accountUpsert (reconcile : Bool) (known : List Bytes) (acc : Account) :
    Upsert Bytes AccountView where
  key := acc.username
  write := acc.written g reconcile (knownAfter g known acc)
  partway := acc.Partway g reconcile (knownAfter g known acc)
  ends := fun _ => .done

theorem credentialUpsert_key (reconcile : Bool) (known : List Bytes) (c : Credential) :
    (credentialUpsert reconcile known c).key = c.name := rfl

theorem mailboxUpsert_key (reconcile : Bool) (known : List Bytes) (m : Mailbox) :
    (mailboxUpsert g reconcile known m).key = g.toLower m.address := rfl

theorem accountUpsert_key (reconcile : Bool) (known : List Bytes) (acc : Account) :
    (accountUpsert g reconcile known acc).key = acc.username := rfl

def File.known (f : File) : List Bytes :=
  f.mailboxes.foldl (fun known m => g.toLower m.address :: known) []

def File.credentialUpserts (reconcile : Bool) (f : File) : List (Upsert Bytes CredentialView) :=
  upserts (credentialUpsert reconcile) (fun known _ => known) [] f.credentials

def File.mailboxUpserts (reconcile : Bool) (f : File) : List (Upsert Bytes MailboxView) :=
  upserts (mailboxUpsert g reconcile) (fun known m => g.toLower m.address :: known) [] f.mailboxes

def File.accountUpserts (reconcile : Bool) (f : File) : List (Upsert Bytes AccountView) :=
  upserts (accountUpsert g reconcile) (knownAfter g) (f.known g) f.accounts

def File.applied (reconcile : Bool) (f : File) (v : View) : View where
  credentials := writeAll (f.credentialUpserts reconcile) v.credentials
  mailboxes := writeAll (f.mailboxUpserts g reconcile) v.mailboxes
  accounts := writeAll (f.accountUpserts g reconcile) v.accounts

/-- What may be there of it when it is cut short. -/
structure File.Begun (reconcile : Bool) (f : File) (v v' : View) : Prop where
  credentials : Lib.Begun (f.credentialUpserts reconcile) v.credentials v'.credentials
  mailboxes : Lib.Begun (f.mailboxUpserts g reconcile) v.mailboxes v'.mailboxes
  accounts : Lib.Begun (f.accountUpserts g reconcile) v.accounts v'.accounts

/-! ## A loop over objects -/

/-- A key this run has come across is the key of what it is remembered for. -/
structure Progress.Good (p : Progress) (db : Config) : Prop where
  names : ∀ name id, p.credentialIDs.lookup name = some id → db.nameOf id = some name
  addresses : ∀ address id, p.mailboxIDs.lookup address = some id → db.addressOf id = some address

/-- The run can go on from here, with these addresses known. -/
structure Ready (known : List Bytes) (p : Progress) (db : Config) : Prop where
  sound : db.Sound
  good : p.Good db
  known : ∀ address, (p.mailboxIDs.lookup address).isSome = true ↔ address ∈ known

theorem Ready.start {db : Config} (hs : db.Sound) : Ready [] {} db :=
  ⟨hs, ⟨fun _ _ h => absurd h (by simp), fun _ _ h => absurd h (by simp)⟩, fun _ => by simp⟩

theorem Progress.Good.mono {p : Progress} {db db' : Config} (h : p.Good db) (hext : db.Extends db') :
    p.Good db' :=
  ⟨fun name id hid => hext.names id name (h.names name id hid),
    fun address id hid => hext.addresses id address (h.addresses address id hid)⟩

variable {id : Bytes}

theorem Progress.Good.credential {p : Progress} {db : Config} (h : p.Good db) {name : Bytes}
    (hid : db.nameOf id = some name) : (p.credential name id).Good db := by
  refine ⟨fun n i hlookup => ?_, h.addresses⟩
  rw [Progress.credential, lookup_cons] at hlookup
  split at hlookup
  · next hname =>
    rw [← some.inj hlookup, hid, beq_iff_eq.1 hname]
  · exact h.names n i hlookup

variable {address : Bytes}

theorem Progress.Good.mailbox {p : Progress} {db : Config} (h : p.Good db)
    (hid : db.addressOf id = some address) : (p.mailbox address id).Good db := by
  refine ⟨h.names, fun x i hlookup => ?_⟩
  rw [Progress.mailbox, lookup_cons] at hlookup
  split at hlookup
  · next haddr =>
    rw [← some.inj hlookup, hid, beq_iff_eq.1 haddr]
  · exact h.addresses x i hlookup

theorem Progress.Good.counted {p : Progress} {db : Config} (h : p.Good db) (result : Result) :
    { p with result := result }.Good db := ⟨h.names, h.addresses⟩

theorem Progress.mailbox_known {p : Progress} {known : List Bytes}
    (h : ∀ address, (p.mailboxIDs.lookup address).isSome = true ↔ address ∈ known) (x id : Bytes)
    (address : Bytes) :
    ((p.mailbox x id).mailboxIDs.lookup address).isSome = true ↔ address ∈ x :: known := by
  rw [Progress.mailbox, lookup_cons, mem_cons]
  split
  · next hx => simp [beq_iff_eq.1 hx]
  next hx =>
  rw [h address, or_iff_right]
  exact fun heq => absurd hx (by simp [heq])

section

variable {α V δ : Type} (opened : Bytes → Bytes → Except Err Bytes) (sel : View → Bytes → Option V)
  (keep : View → δ)

/-- The store is one these writes may be cut short in; the rest of it is as it was. -/
structure Within (us : List (Upsert Bytes V)) (db db' : Config) : Prop where
  sound : db'.Sound
  ext : db.Extends db'
  kept : keep (db'.view opened) = keep (db.view opened)
  begun : Begun us (sel (db.view opened)) (sel (db'.view opened))

structure After (us : List (Upsert Bytes V)) (db db' : Config) : Prop where
  ext : db.Extends db'
  kept : keep (db'.view opened) = keep (db.view opened)
  written : sel (db'.view opened) = writeAll us (sel (db.view opened))

/-- The step does this write: cut short anywhere, it has begun it, and when it ends well it is
done. After that these addresses are known. -/
def Performs (u : Upsert Bytes V) (known : List Bytes) (step : Step) (db : Config) : Prop :=
  step.Along (Within opened sel keep [u] db)
    (fun r t => r.2 = .ok () → Ready known r.1 t ∧ After opened sel keep [u] db t) db

/-- So does a step from `s` on, of which these writes to `db` have been begun. -/
def Writes (us : List (Upsert Bytes V)) (known : List Bytes) (db : Config) (step : Step)
    (s : Config) : Prop :=
  step.Along (Within opened sel keep us db)
    (fun r t => r.2 = .ok () → Ready known r.1 t ∧ After opened sel keep us db t) s

variable {opened sel keep} {one : α → Progress → Step} {up : List Bytes → α → Upsert Bytes V}
  {grow : List Bytes → α → List Bytes} {name : α → Bytes}

theorem Within.refl {us : List (Upsert Bytes V)} {db : Config} (h : db.Sound) :
    Within opened sel keep us db db :=
  ⟨h, .refl _, rfl, .refl _ _⟩

/-- Objects with names of their own, one after the other. -/
theorem applyEach_along (hkey : ∀ known x, (up known x).key = name x)
    (hone : ∀ known x p db, Ready known p db →
      Performs opened sel keep (up known x) (grow known x) (one x p) db)
    (xs : List α) {known : List Bytes} {p : Progress} {db : Config} (hnames : (xs.map name).Nodup)
    (hready : Ready known p db) :
    Writes opened sel keep (upserts up grow known xs) (xs.foldl grow known) db
      (applyEach one xs p) db := by
  induction xs generalizing known p db with
  | nil => exact ⟨.refl hready.sound, fun _ => ⟨hready, .refl _, rfl, rfl⟩⟩
  | cons x xs ih =>
  rw [map_cons, nodup_cons] at hnames
  have hfresh : (up known x).key ∉ (upserts up grow (grow known x) xs).map (·.key) := by
    rw [upserts_keys hkey, hkey]
    exact hnames.1
  -- the first object's write is begun, or done and the others' are begun
  have hfirst : ∀ t, Within opened sel keep [up known x] db t →
      Within opened sel keep (upserts up grow known (x :: xs)) db t := fun t ht =>
    ⟨ht.sound, ht.ext, ht.kept, ht.begun.mono (by simp [upserts])⟩
  refine .bind ?_
  refine (Prog.Along.weaken (hone known x p db hready) hfirst).mono' ?_
  rintro ⟨p', done⟩ t hwithin hdone
  cases done with
  | error e => exact ⟨hwithin, by simp⟩
  | ok u =>
  obtain ⟨hready', hafter⟩ := hdone rfl
  refine (Prog.Along.weaken (ih hnames.2 hready') ?_).mono ?_
  · intro t' ht'
    refine ⟨ht'.sound, hafter.ext.trans ht'.ext, ht'.kept.trans hafter.kept, ?_⟩
    refine Begun.cons hfresh ?_
    have hbegun := ht'.begun
    rw [hafter.written] at hbegun
    exact hbegun
  rintro ⟨p'', done⟩ t' hend hok
  obtain ⟨hready'', hafter'⟩ := hend hok
  refine ⟨hready'', hafter.ext.trans hafter'.ext, hafter'.kept.trans hafter.kept, ?_⟩
  rw [hafter'.written, hafter.written]
  rfl

variable {u : Upsert Bytes V} {known : List Bytes} {p : Progress} {db db' : Config}

theorem After.skipped {v : V} (hv : sel (db.view opened) u.key = some v) (hsame : u.write (some v) = v) :
    After opened sel keep [u] db db := by
  refine ⟨.refl _, rfl, ?_⟩
  show _ = u.on (sel (db.view opened))
  rw [Upsert.on, hv, hsame, ← hv, Function.update_eq_self]

theorem failed_along (h : db.Sound) (e : Err) :
    Writes opened sel keep [u] known db (pure (p, .error e)) db := ⟨.refl h, nofun⟩

theorem done_along (hready : Ready known p db') (h : After opened sel keep [u] db db') :
    Within opened sel keep [u] db db' ∧
      Writes opened sel keep [u] known db (pure (p, .ok ())) db' := by
  have hwithin : Within opened sel keep [u] db db' := by
    refine ⟨hready.sound, h.ext, h.kept, ?_⟩
    rw [h.written]
    exact begun_writeAll (nodup_singleton _)
  exact ⟨hwithin, hwithin, fun _ => ⟨hready, h⟩⟩

theorem skipped_along {v : V} (hready : Ready known p db)
    (hv : sel (db.view opened) u.key = some v) (hsame : u.write (some v) = v) :
    Writes opened sel keep [u] known db (pure (p, .ok ())) db :=
  (done_along hready (.skipped hv hsame)).2

end

variable {g} {opened : Bytes → Bytes → Except Err Bytes} {a : Applier} {known : List Bytes}
  {p : Progress} {db db' : Config}

/-! ## Credentials -/

/-- What this run seals opens to itself. -/
def Applier.Opens (a : Applier) (opened : Bytes → Bytes → Except Err Bytes) : Prop :=
  ∀ k, a.keyring = some k → ∀ plaintext context sealed,
    k.encryptString plaintext context = .ok sealed →
      sealed ≠ [] ∧ opened sealed context = .ok plaintext

theorem unsealed_sealDeclared {k : Adminapi.Keyring} {stored declared context text : Bytes}
    (hopens : ∀ plaintext context sealed, k.encryptString plaintext context = .ok sealed →
      sealed ≠ [] ∧ opened sealed context = .ok plaintext)
    (h : sealDeclared k stored declared context = .ok text) :
    unsealed opened text context = declaredOr declared (unsealed opened stored context) := by
  unfold sealDeclared at h
  unfold declaredOr
  split at h
  · next hnone => rw [if_pos hnone, Except.ok.inj h]
  next hsome =>
  obtain ⟨hne, hopen⟩ := hopens _ _ _ h
  rw [if_neg hsome, unsealed, if_neg hne, hopen]

variable {c : Credential}

theorem Applier.view_sealInto (ha : a.Opens opened) {stored row : CredentialRow}
    (h : a.sealInto g stored c = .ok row) :
    row.view opened = { stored.view opened with
      clientSecret := declaredOr c.clientSecret (stored.view opened).clientSecret
      certificatePEM := if c.certificatePEM = [] then stored.certificatePEM else c.certificatePEM
      certificateKey := declaredOr c.certificateKeyPEM (stored.view opened).certificateKey } := by
  unfold sealInto at h
  split at h
  · cases h
  next k hk =>
  split at h
  · cases h
  next secret hsecret =>
  split at h
  · cases h
  next key hkey =>
  cases h
  have hsecret' := unsealed_sealDeclared (ha k hk) hsecret
  have hkey' := unsealed_sealDeclared (ha k hk) hkey
  ext1
  case clientSecret => exact hsecret'
  case certificateKey => exact hkey'
  all_goals rfl

def besideCredentials (v : View) : (Bytes → Option MailboxView) × (Bytes → Option AccountView) :=
  (v.mailboxes, v.accounts)

/-- What applying a credential comes to, unless it fails. -/
inductive Applier.CredentialApplied (a : Applier) (g : GoText)
    (opened : Bytes → Bytes → Except Err Bytes) (c : Credential) (db : Config) : Config → Prop where
  | created {stored : CredentialRow} {t : Config}
      (hsealed : a.sealInto g (a.newCredential c) c = .ok stored)
      (hnew : (db.view opened).credentials c.name = none) (hext : db.Extends t)
      (hview : t.view opened = (db.view opened).setCredential c.name (stored.view opened)) :
      a.CredentialApplied g opened c db t
  | updated {row stored : CredentialRow} {t : Config} (hrec : a.reconcile = true)
      (hrow : db.credentials.lookupBy (·.name) c.name = some row)
      (hsealed : a.sealInto g (c.over row) c = .ok stored) (hext : db.Extends t)
      (hview : t.view opened = (db.view opened).setCredential c.name (stored.view opened)) :
      a.CredentialApplied g opened c db t
  | skipped {row : CredentialRow} (hskip : a.reconcile = false)
      (hrow : db.credentials.lookupBy (·.name) c.name = some row) :
      a.CredentialApplied g opened c db db

theorem Applier.sealInto_key {stored row : CredentialRow} (h : a.sealInto g stored c = .ok row) :
    row.id = stored.id ∧ row.name = stored.name := by
  unfold sealInto at h
  split at h
  · cases h
  split at h
  · cases h
  split at h
  · cases h
  cases h
  exact ⟨rfl, rfl⟩

section

variable {c : Credential} {I : Config → Prop} {R : Progress × Except Err Unit → Config → Prop}
  (hready : Ready known p db) (hI : I db) (hfailed : ∀ p' e, R (p', .error e) db)
  (hdone : ∀ p' t, Ready known p' t → a.CredentialApplied g opened c db t →
    I t ∧ R (p', .ok ()) t)

include hready hI hfailed hdone

theorem Applier.createCredential_along : (a.createCredential g c p).Along I R db := by
  unfold createCredential
  split
  · exact ⟨hI, hfailed _ _⟩
  next stored hsealed =>
  obtain ⟨hid, hname⟩ := a.sealInto_key hsealed
  have hname : stored.name = c.name := hname
  refine .bind ?_
  refine stampedWrite_along (fun _ => by unfold Config.insertCredential; split <;> simp) hI ?_ ?_
  · exact fun c' e => ⟨hI, hfailed _ _⟩
  intro now t hinsert
  rw [CredentialRow.created, ite_self] at hinsert
  have hnew : (db.view opened).credentials c.name = none := by
    obtain ⟨credentials, -, -, hfree⟩ := Config.insertCredential_ok hinsert
    show (db.credentials.lookupBy _ c.name).map _ = none
    rw [lookupBy_eq_none_iff.2, map_none]
    exact fun r hr hsame => hfree r hr (hsame.trans hname.symm)
  have hext := Config.extends_insertCredential hinsert
  have hgood : (p.credential c.name stored.id).Good t := by
    refine (hready.good.mono hext).credential ?_
    rw [Config.nameOf_insertCredential hinsert]
    exact congrArg some hname
  have hview : t.view opened = _ := Config.view_insertCredential hready.sound hinsert
  have happlied := hdone (p.credential c.name stored.id).created t
    ⟨hready.sound.insertCredential hinsert, hgood.counted _, hready.known⟩
    (.created hsealed hnew hext (hname ▸ hview))
  exact ⟨happlied.1, happlied⟩

theorem Applier.updateCredential_along (hrec : a.reconcile = true) {row : CredentialRow}
    (hrow : db.credentials.lookupBy (·.name) c.name = some row) :
    (a.updateCredential g row c p).Along I R db := by
  obtain ⟨hmem, hrowname⟩ := lookupBy_mem hrow
  unfold updateCredential
  split
  · exact ⟨hI, hfailed _ _⟩
  next stored hsealed =>
  obtain ⟨hid, hname⟩ := a.sealInto_key hsealed
  have hget : db.credentials.get stored.id = some row := by
    rw [hid]
    exact get_key hmem
  refine .bind ?_
  refine stampedWrite_along (fun _ => by unfold Config.updateCredential; split <;> simp) hI ?_ ?_
  · exact fun c' e => ⟨hI, hfailed _ _⟩
  intro now t hupdate
  have hext := Config.extends_updateCredential hget hname hupdate
  have hview : t.view opened = _ := Config.view_updateCredential hready.sound hget hname hupdate
  rw [hrowname, CredentialRow.view_assign opened (show stored.id = row.id from hid)] at hview
  have happlied := hdone p.updated t
    ⟨hready.sound.updateCredential hupdate, (hready.good.mono hext).counted _, hready.known⟩
    (.updated hrec hrow hsealed hext hview)
  exact ⟨happlied.1, happlied⟩

theorem Applier.applyCredential_along : (a.applyCredential g c p).Along I R db := by
  refine .bind ?_
  apply CredentialRepo.getByName_along hI
  · intro e
    dsimp only
    split
    · exact ⟨hI, hfailed _ _⟩
    · exact a.createCredential_along hready hI hfailed hdone
  intro row hrow
  have hgood := hready.good.credential (Config.nameOf_lookup hrow)
  dsimp only
  split
  · next hskip =>
    exact hdone _ db ⟨hready.sound, hgood.counted _, hready.known⟩
      (.skipped (by simpa using hskip) hrow)
  next hrec =>
  exact a.updateCredential_along ⟨hready.sound, hgood, hready.known⟩ hI hfailed hdone
    (by simpa using hrec) hrow

end

theorem Applier.CredentialApplied.ext (h : a.CredentialApplied g opened c db db') :
    db.Extends db' := by
  cases h with
  | created _ _ hext _ => exact hext
  | updated _ _ _ hext _ => exact hext
  | skipped _ _ => exact .refl _

theorem Applier.CredentialApplied.beside (h : a.CredentialApplied g opened c db db') :
    besideCredentials (db'.view opened) = besideCredentials (db.view opened) := by
  cases h with
  | created _ _ _ hview => rw [hview]; rfl
  | updated _ _ _ _ hview => rw [hview]; rfl
  | skipped _ _ => rfl

theorem Applier.view_newCredential : { (a.newCredential c).view opened with
      clientSecret := declaredOr c.clientSecret ((a.newCredential c).view opened).clientSecret
      certificatePEM :=
        if c.certificatePEM = [] then (a.newCredential c).certificatePEM else c.certificatePEM
      certificateKey := declaredOr c.certificateKeyPEM ((a.newCredential c).view opened).certificateKey }
      = c.written a.reconcile none := by
  have hpem : (if c.certificatePEM = [] then (a.newCredential c).certificatePEM
      else c.certificatePEM) = c.certificatePEM := by
    split
    · next hnone => exact hnone.symm
    · rfl
  rw [hpem]
  rfl

/-- With a keyring that opens what it seals, the credential's write is done. -/
theorem Applier.CredentialApplied.after (ha : a.Opens opened)
    (h : a.CredentialApplied g opened c db db') :
    After opened (·.credentials) besideCredentials [credentialUpsert a.reconcile known c] db db' := by
  have hset : ∀ {t new}, db.Extends t → t.view opened = (db.view opened).setCredential c.name new →
      new = c.written a.reconcile ((db.view opened).credentials c.name) →
      After opened (·.credentials) besideCredentials [credentialUpsert a.reconcile known c] db t := by
    rintro t _ hext hview rfl
    refine ⟨hext, ?_, ?_⟩
    · rw [hview]
      rfl
    rw [hview]
    rfl
  cases h with
  | created hsealed hnew hext hview =>
    refine hset hext hview ?_
    rw [hnew, ← Applier.view_newCredential]
    exact a.view_sealInto ha hsealed
  | updated hrec hrow hsealed hext hview =>
    refine hset hext hview ?_
    rw [Config.credentials_of_lookup hrow, Credential.written, if_pos hrec]
    exact a.view_sealInto ha hsealed
  | skipped hskip hrow =>
  refine .skipped (Config.credentials_of_lookup hrow) ?_
  show c.written a.reconcile (some _) = _
  rw [Credential.written, if_neg (by simp [hskip])]

theorem Applier.applyCredential_performs (ha : a.Opens opened) (hready : Ready known p db)
    (c : Credential) :
    Performs opened (·.credentials) besideCredentials (credentialUpsert a.reconcile known c) known
      (a.applyCredential g c p) db := by
  apply a.applyCredential_along hready (.refl hready.sound)
  · exact fun p' e hok => absurd hok (by simp)
  intro p' t hready' happlied
  exact (done_along hready' (happlied.after ha)).2

theorem Applier.applyCredentials_beside (opened : Bytes → Bytes → Except Err Bytes)
    (credentials : List Credential) (hready : Ready known p db) :
    (applyEach (a.applyCredential g) credentials p).Along (fun _ => True)
      (fun r t => r.2 = .ok () → Ready known r.1 t ∧ db.Extends t ∧
        besideCredentials (t.view opened) = besideCredentials (db.view opened)) db := by
  induction credentials generalizing p db with
  | nil => exact ⟨trivial, fun _ => ⟨hready, .refl _, rfl⟩⟩
  | cons c credentials ih =>
  refine .bind ?_
  apply a.applyCredential_along hready trivial
  · exact fun p' e => ⟨trivial, by simp⟩
  intro p' t hready' happlied
  refine ⟨trivial, (ih hready').mono fun r t' hend hok => ?_⟩
  obtain ⟨hready'', hext, hbeside⟩ := hend hok
  exact ⟨hready'', happlied.ext.trans hext, hbeside.trans happlied.beside⟩

/-! ## Mailboxes -/

def besideMailboxes (v : View) : (Bytes → Option CredentialView) × (Bytes → Option AccountView) :=
  (v.credentials, v.accounts)

variable {reconcile : Bool} {m : Mailbox}

theorem after_setMailbox {new : MailboxView}
    (h : db'.view opened = (db.view opened).setMailbox address new)
    (haddr : address = g.toLower m.address) (hext : db.Extends db')
    (hnew : new = m.written reconcile ((db.view opened).mailboxes (g.toLower m.address))) :
    After opened (·.mailboxes) besideMailboxes [mailboxUpsert g reconcile known m] db db' := by
  subst haddr hnew
  refine ⟨hext, ?_, ?_⟩
  · rw [h]
    rfl
  rw [h]
  rfl

variable {I : Config → Prop} {R : Except Err (Bytes × Progress) → Config → Prop}

theorem credentialIDFor_along (hready : Ready known p db) (hI : I db)
    (herror : ∀ e, R (.error e) db)
    (hok : ∀ id p', db.nameOf id = some m.credential → Ready known p' db → R (.ok (id, p')) db) :
    (credentialIDFor g m p).Along I R db := by
  unfold credentialIDFor
  split
  · next id hid => exact ⟨hI, hok id p (hready.good.names _ _ hid) hready⟩
  refine .bind ?_
  apply CredentialRepo.getByName_along hI
  · exact fun e => ⟨hI, herror _⟩
  intro row hrow
  have hname := Config.nameOf_lookup hrow
  exact ⟨hI, hok _ _ hname ⟨hready.sound, hready.good.credential hname, hready.known⟩⟩

theorem Applier.createMailbox_performs (hready : Ready known p db) {credentialID : Bytes}
    (hcred : db.nameOf credentialID = some m.credential) :
    Performs opened (·.mailboxes) besideMailboxes (mailboxUpsert g a.reconcile known m)
      (g.toLower m.address :: known) (a.createMailbox g m credentialID p) db := by
  refine .bind ?_
  refine stampedWrite_along (fun _ => by unfold Config.insertMailbox; split <;> simp)
    (.refl hready.sound) ?_ ?_
  · exact fun m' e => failed_along hready.sound _
  intro now t hinsert
  rw [MailboxRow.created, ite_self] at hinsert
  have hnone : (db.view opened).mailboxes (g.toLower m.address) = none := by
    obtain ⟨mailboxes, -, -, hfree, -⟩ := Config.insertMailbox_ok hinsert
    show (db.mailboxes.lookupBy _ _).map _ = none
    rw [lookupBy_eq_none_iff.2, map_none]
    exact hfree
  have hafter : After opened (·.mailboxes) besideMailboxes
      [mailboxUpsert g a.reconcile known m] db t := by
    refine after_setMailbox (Config.view_insertMailbox hready.sound hinsert) rfl
      (Config.extends_insertMailbox hinsert) ?_
    rw [hnone, Config.mailboxView]
    show MailboxView.mk _ (db.nameOf credentialID) _ _ _ _ _ = _
    rw [hcred]
    rfl
  have hgood := (hready.good.mono (Config.extends_insertMailbox hinsert)).mailbox
    (Config.addressOf_insertMailbox hinsert)
  exact done_along ⟨hready.sound.insertMailbox (a.newID _ _).2 hinsert, hgood.counted _,
    Progress.mailbox_known hready.known _ _⟩ hafter

theorem updateMailbox_performs (hready : Ready (g.toLower m.address :: known) p db)
    (hrec : reconcile = true) {credentialID : Bytes} {row : MailboxRow}
    (hcred : db.nameOf credentialID = some m.credential)
    (hrow : db.mailboxes.lookupBy (·.address) (g.toLower m.address) = some row) :
    Performs opened (·.mailboxes) besideMailboxes (mailboxUpsert g reconcile known m)
      (g.toLower m.address :: known) (updateMailbox g m credentialID row p) db := by
  obtain ⟨hmem, haddr⟩ := lookupBy_mem hrow
  have hget : db.mailboxes.get (m.over credentialID row).id = some row := get_key hmem
  refine .bind ?_
  refine stampedWrite_along (fun _ => by unfold Config.updateMailbox; split <;> simp)
    (.refl hready.sound) ?_ ?_
  · exact fun m' e => failed_along hready.sound _
  intro now t hupdate
  have hgood := hready.good.mono (Config.extends_updateMailbox hget rfl hupdate)
  have hafter : After opened (·.mailboxes) besideMailboxes
      [mailboxUpsert g reconcile known m] db t := by
    refine after_setMailbox (Config.view_updateMailbox hready.sound hget rfl hupdate) haddr
      (Config.extends_updateMailbox hget rfl hupdate) ?_
    rw [Config.mailboxes_of_lookup hrow, Mailbox.written, if_pos hrec, Config.mailboxView]
    show MailboxView.mk _ (db.nameOf credentialID) _ _ _ _ _ = _
    rw [hcred]
    rfl
  exact done_along ⟨hready.sound.updateMailbox hupdate, hgood.counted _, hready.known⟩ hafter

theorem Applier.applyMailbox_performs (hready : Ready known p db) (m : Mailbox) :
    Performs opened (·.mailboxes) besideMailboxes (mailboxUpsert g a.reconcile known m)
      (g.toLower m.address :: known) (a.applyMailbox g m p) db := by
  refine .bind ?_
  apply credentialIDFor_along hready (.refl hready.sound)
  · exact fun e => failed_along hready.sound _
  intro credentialID p' hcred hready'
  refine .bind ?_
  apply MailboxRepo.getByAddress_along (.refl hready.sound)
  · intro e
    dsimp only
    split
    · exact failed_along hready.sound _
    · exact a.createMailbox_performs hready' hcred
  intro row hrow
  have hgood := hready'.good.mailbox (Config.addressOf_lookup hrow)
  have hknown := Progress.mailbox_known hready'.known (g.toLower m.address) row.id
  dsimp only
  split
  · next hskip =>
    refine skipped_along ⟨hready.sound, hgood.counted _, hknown⟩
      (Config.mailboxes_of_lookup hrow) ?_
    show m.written a.reconcile (some _) = _
    rw [Mailbox.written, if_neg (by simpa using hskip)]
  next hrec =>
  exact updateMailbox_performs ⟨hready.sound, hgood, hknown⟩ (by simpa using hrec) hcred hrow

/-! ## Accounts -/

def besideAccounts (v : View) : (Bytes → Option CredentialView) × (Bytes → Option MailboxView) :=
  (v.credentials, v.mailboxes)

theorem Ready.congr {known' : List Bytes} (h : Ready known p db)
    (hsame : ∀ address, address ∈ known ↔ address ∈ known') : Ready known' p db :=
  ⟨h.sound, h.good, fun address => (h.known address).trans (hsame address)⟩

theorem mailboxIDFor_along {username : Bytes} (hready : Ready known p db) (hI : I db)
    (herror : ∀ e, R (.error e) db)
    (hok : ∀ id p', db.addressOf id = some (g.toLower address) →
      Ready (g.toLower address :: known) p' db → R (.ok (id, p')) db) :
    (mailboxIDFor g username address p).Along I R db := by
  unfold mailboxIDFor
  split
  · next id hid =>
    have hmem : g.toLower address ∈ known := (hready.known _).1 (by rw [hid]; rfl)
    refine ⟨hI, hok id p (hready.good.addresses _ _ hid) (hready.congr fun x => ?_)⟩
    rw [mem_cons, or_iff_right_of_imp]
    rintro rfl
    exact hmem
  refine .bind ?_
  apply MailboxRepo.getByAddress_along hI
  · exact fun e => ⟨hI, herror _⟩
  intro row hrow
  have haddr := Config.addressOf_lookup hrow
  exact ⟨hI, hok _ _ haddr
    ⟨hready.sound, hready.good.mailbox haddr, Progress.mailbox_known hready.known _ _⟩⟩

def KeysOf (g : GoText) (db : Config) (ids addresses : List Bytes) : Prop :=
  List.Forall₂ (fun id address => db.addressOf id = some (g.toLower address)) ids addresses

theorem mailboxIDsFor_along {username : Bytes} (hI : I db) :
    ∀ {addresses known : List Bytes} {p : Progress}
      {R : Except Err (List Bytes × Progress) → Config → Prop}, Ready known p db →
      (∀ e, R (.error e) db) →
      (∀ ids p', KeysOf g db ids addresses →
        Ready (addresses.map g.toLower ++ known) p' db → R (.ok (ids, p')) db) →
      (mailboxIDsFor g username addresses p).Along I R db
  | [], known, p, R, hready, _, hok => ⟨hI, hok [] p .nil hready⟩
  | address :: addresses, known, p, R, hready, herror, hok => by
    refine .bind ?_
    apply mailboxIDFor_along hready hI
    · exact fun e => ⟨hI, herror e⟩
    intro id p' hid hready'
    refine .bind ?_
    apply mailboxIDsFor_along hI hready'
    · exact fun e => ⟨hI, herror e⟩
    intro ids p'' hids hready''
    refine ⟨hI, hok _ _ (.cons hid hids) (hready''.congr fun x => ?_)⟩
    simp only [mem_append, mem_cons, map_cons]
    tauto

theorem ne_nil_of_addressOf (hs : db.Sound) (h : db.addressOf id = some address) : id ≠ [] := by
  obtain ⟨m, hm, -⟩ := map_eq_some_iff.1 h
  obtain ⟨hmem, rfl⟩ := get_eq_some_iff.1 hm
  exact hs.ids m hmem

variable {acc : Account} {ids : List Bytes}

theorem default_address (hready : Ready (knownAfter g known acc) p db)
    (hids : KeysOf g db ids acc.mailboxes) :
    (nullString (defaultIDFor g acc ids p)).bind db.addressOf
      = acc.defaultAddress g (knownAfter g known acc) := by
  have hkey : ∀ id address, db.addressOf id = some address →
      (nullString id).bind db.addressOf = some address := by
    intro id address h
    rw [nullString, if_neg (ne_nil_of_addressOf hready.sound h), bind_some, h]
  unfold defaultIDFor Account.defaultAddress
  split
  · cases hlookup : p.mailboxIDs.lookup (g.toLower acc.defaultMailbox) with
    | none =>
      have hunknown : g.toLower acc.defaultMailbox ∉ knownAfter g known acc := by
        intro hmem
        have hsome := (hready.known _).2 hmem
        rw [hlookup] at hsome
        cases hsome
      rw [if_neg hunknown]
      rfl
    | some id =>
      have hmem : g.toLower acc.defaultMailbox ∈ knownAfter g known acc :=
        (hready.known _).1 (by rw [hlookup]; rfl)
      rw [if_pos hmem, getD_some]
      exact hkey id _ (hready.good.addresses _ _ hlookup)
  rw [Account.addresses]
  generalize acc.mailboxes = addresses at hids ⊢
  cases hids with
  | nil => rfl
  | cons hid _ => exact hkey _ _ hid

theorem links_of_keys (hids : KeysOf g db ids acc.mailboxes) :
    {address | ∃ m ∈ ids, db.addressOf m = some address} = {address | address ∈ acc.addresses g} := by
  unfold Account.addresses
  generalize acc.mailboxes = addresses at hids
  ext address
  constructor
  · rintro ⟨id, hid, haddr⟩
    induction hids with
    | nil => cases hid
    | @cons id' mailbox ids addresses hid' _ ih =>
    rcases mem_cons.1 hid with rfl | hid
    · rw [hid'] at haddr
      exact mem_map.2 ⟨mailbox, .head _, some.inj haddr⟩
    · exact .tail _ (ih hid)
  intro haddr
  induction hids with
  | nil => cases haddr
  | @cons id mailbox ids addresses hid _ ih =>
  rcases mem_cons.1 haddr with rfl | haddr
  · exact ⟨id, .head _, hid⟩
  obtain ⟨id', hid', h⟩ := ih haddr
  exact ⟨id', .tail _ hid', h⟩

section

variable {reconcile : Bool} {acc : Account} {ids : List Bytes}

theorem Account.written_parts (acc : Account) (g : GoText) (known : List Bytes)
    {old : Option AccountView} (hwrites : old = none ∨ reconcile = true) :
    (acc.written g reconcile known old).links = {address | address ∈ acc.addresses g} ∧
      (acc.written g reconcile known old).senders = {pattern | pattern ∈ acc.allowedSenders} := by
  cases old with
  | none => exact ⟨rfl, rfl⟩
  | some v =>
    rw [Account.written, if_pos (by simpa using hwrites)]
    exact ⟨rfl, rfl⟩

variable {old : Option AccountView} (hold : (db.view opened).accounts acc.username = old)

include hold

theorem within_setAccount {v : AccountView} (hs : db'.Sound) (hext : db.Extends db')
    (h : db'.view opened = (db.view opened).setAccount acc.username v)
    (hpart : acc.Partway g reconcile (knownAfter g known acc) old v) :
    Within opened (·.accounts) besideAccounts [accountUpsert g reconcile known acc] db db' := by
  refine ⟨hs, hext, by rw [h]; rfl, fun username => ?_⟩
  by_cases huser : username = acc.username
  · subst huser
    refine .inr ⟨_, mem_singleton.2 rfl, rfl, v, ?_, ?_⟩
    · rw [h]
      exact View.accounts_setAccount ..
    rw [hold]
    exact hpart
  left
  rw [h]
  exact Function.update_of_ne huser _ _

theorem after_setAccount (hext : db.Extends db') (h : db'.view opened = (db.view opened).setAccount acc.username
      (acc.written g reconcile (knownAfter g known acc) old)) :
    After opened (·.accounts) besideAccounts [accountUpsert g reconcile known acc] db db' := by
  subst hold
  refine ⟨hext, ?_, ?_⟩
  · rw [h]
    rfl
  rw [h]
  rfl

/-- An account whose row has been written gets its links, and then its allowed senders. -/
theorem linkAccount_along {t : Config} {id : Bytes} {row : AccountRow} {result : Result}
    (hwrites : old = none ∨ reconcile = true) (hready : Ready (knownAfter g known acc) p t)
    (hbase : db.Extends t) (hrow : t.accounts.get id = some row)
    (huser : row.username = acc.username)
    (hview : t.view opened = (db.view opened).setAccount acc.username
      { acc.written g reconcile (knownAfter g known acc) old with
        links := linksOf old, senders := sendersOf old })
    (hids : KeysOf g t ids acc.mailboxes) :
    Within opened (·.accounts) besideAccounts [accountUpsert g reconcile known acc] db t ∧
      Writes opened (·.accounts) besideAccounts [accountUpsert g reconcile known acc]
        (knownAfter g known acc) db (do
          let linked ← linkAccount id ids acc.allowedSenders
          match linked with
          | .error e => return (p, .error e)
          | .ok () => return ({ p with result := result }, .ok ())) t := by
  obtain ⟨hlinks, hsenders⟩ := acc.written_parts g (knownAfter g known acc) hwrites
  have hs := hready.sound
  have hwithin := within_setAccount hold hs hbase hview (.row hwrites)
  refine ⟨hwithin, ?_⟩
  refine .bind ?_
  refine .bind ?_
  refine write_along (fun _ => by unfold Config.setMailboxes; split <;> simp) hwithin ?_ ?_
  · exact fun e => ⟨hwithin, hwithin, nofun⟩
  intro _ t' hset
  obtain ⟨hext, haccs⟩ := Config.extends_setMailboxes hset
  have hs' := hs.setMailboxes hset
  have hview' : t'.view opened = (db.view opened).setAccount acc.username
      { acc.written g reconcile (knownAfter g known acc) old with senders := sendersOf old } := by
    rw [Config.view_setMailboxes hs hrow hset, hview, huser, View.setAccount_idem,
      Config.accountView_of_view hs hrow (huser ▸ hview), links_of_keys hids, ← hlinks]
  have hwithin' := within_setAccount hold hs' (hbase.trans hext) hview' (.linked hwrites)
  refine ⟨hwithin', ?_⟩
  refine .bind ?_
  refine write_along (fun _ => by unfold Config.setAllowedSenders; split <;> simp) hwithin' ?_ ?_
  · exact fun e => ⟨hwithin', hwithin', nofun⟩
  intro _ t'' hset'
  have hrow' : t'.accounts.get id = some row := haccs ▸ hrow
  have hview'' : t''.view opened = (db.view opened).setAccount acc.username
      (acc.written g reconcile (knownAfter g known acc) old) := by
    rw [Config.view_setAllowedSenders hs' hrow' hset', hview', huser, View.setAccount_idem,
      Config.accountView_of_view hs' hrow' (huser ▸ hview'), ← hsenders]
  have hext' := hext.trans (Config.extends_setAllowedSenders hset').1
  have hdone := done_along
    ⟨hs'.setAllowedSenders hset', (hready.good.mono hext').counted result, hready.known⟩
    (after_setAccount hold (hbase.trans hext') hview'')
  exact ⟨hdone.1, hdone.1, hdone.2⟩

end

theorem Applier.createAccount_performs (hready : Ready (knownAfter g known acc) p db)
    (hids : KeysOf g db ids acc.mailboxes) :
    Performs opened (·.accounts) besideAccounts (accountUpsert g a.reconcile known acc)
      (knownAfter g known acc) (a.createAccount g acc ids p) db := by
  refine .bind ?_
  refine stampedWrite_along (fun _ => by unfold Config.insertAccount; split <;> simp)
    (.refl hready.sound) ?_ ?_
  · exact fun a' e => failed_along hready.sound _
  intro now t hinsert
  rw [AccountRow.created, ite_self] at hinsert
  obtain ⟨accounts, hdb, hadded, hfree, -⟩ := Config.insertAccount_ok hinsert
  have hold : (db.view opened).accounts acc.username = none := by
    show (db.accounts.lookupBy _ _).map _ = none
    rw [lookupBy_eq_none_iff.2, map_none]
    exact hfree
  have hs := hready.sound.insertAccount hinsert
  have hext := Config.extends_insertAccount hinsert
  obtain ⟨hlinks, hsenders⟩ := Config.accountView_fresh hready.sound (insert_free hadded)
  have hview : t.view opened = (db.view opened).setAccount acc.username
      { acc.written g a.reconcile (knownAfter g known acc) none with
        links := linksOf none, senders := sendersOf none } := by
    refine (Config.view_insertAccount hinsert).trans (congrArg _ ?_)
    ext1
    case defaultMailbox => exact default_address hready hids
    case links => exact hlinks
    case senders => exact hsenders
    all_goals rfl
  have hrow : t.accounts.get (a.newAccount acc (defaultIDFor g acc ids p)).id =
      some { a.newAccount acc (defaultIDFor g acc ids p) with createdAt := now, updatedAt := now } := by
    rw [hdb, get_insert hadded]
    exact if_pos rfl
  exact linkAccount_along hold (.inl rfl) ⟨hs, hready.good.mono hext, hready.known⟩ hext hrow rfl
    hview (hids.imp fun id address h => hext.addresses id _ h)

theorem updateAccount_performs {existing : AccountRow}
    (hready : Ready (knownAfter g known acc) p db) (hids : KeysOf g db ids acc.mailboxes)
    (hrec : reconcile = true)
    (hfound : db.accounts.lookupBy (·.username) acc.username = some existing) :
    Performs opened (·.accounts) besideAccounts (accountUpsert g reconcile known acc)
      (knownAfter g known acc) (updateAccount g acc ids existing p) db := by
  obtain ⟨hmem, huser⟩ := lookupBy_mem hfound
  have hget : db.accounts.get (acc.over (defaultIDFor g acc ids p) existing).id = some existing :=
    get_key hmem
  have hold : (db.view opened).accounts acc.username = some (db.accountView existing) :=
    Config.accounts_of_lookup hfound
  refine .bind ?_
  refine stampedWrite_along (fun _ => by unfold Config.updateAccount; split <;> simp)
    (.refl hready.sound) ?_ ?_
  · exact fun a' e => failed_along hready.sound _
  intro now t hupdate
  have hs := hready.sound.updateAccount hupdate
  have hext := Config.extends_updateAccount hupdate
  have hview : t.view opened = (db.view opened).setAccount acc.username
      { acc.written g reconcile (knownAfter g known acc) (some (db.accountView existing)) with
        links := linksOf (some (db.accountView existing))
        senders := sendersOf (some (db.accountView existing)) } := by
    refine (Config.view_moveAccount hready.sound hget hupdate).trans ((View.moveAccount_self ..).trans ?_)
    rw [huser]
    refine congrArg _ ?_
    rw [Account.written, if_pos hrec]
    ext1
    case defaultMailbox => exact default_address hready hids
    all_goals rfl
  have hrow : t.accounts.get existing.id =
      some ((acc.over (defaultIDFor g acc ids p) existing).assign now existing) := by
    obtain ⟨rfl, -⟩ := Config.updateAccount_ok hupdate
    rw [Config.get_writeAccount, get_key hmem, map_some]
    exact congrArg some (if_pos rfl)
  exact linkAccount_along hold (.inr hrec) ⟨hs, hready.good.mono hext, hready.known⟩ hext hrow huser
    hview (hids.imp fun id address h => hext.addresses id _ h)

theorem Applier.applyAccount_performs (hready : Ready known p db) (acc : Account) :
    Performs opened (·.accounts) besideAccounts (accountUpsert g a.reconcile known acc)
      (knownAfter g known acc) (a.applyAccount g acc p) db := by
  refine .bind ?_
  apply mailboxIDsFor_along (.refl hready.sound) hready
  · exact fun e => failed_along hready.sound _
  intro ids p' hids hready'
  refine .bind ?_
  apply AccountRepo.getByUsername_along (.refl hready.sound)
  · intro e
    dsimp only
    split
    · exact failed_along hready.sound _
    · exact a.createAccount_performs hready' hids
  intro existing hfound
  dsimp only
  split
  · next hskip =>
    refine skipped_along ⟨hready.sound, hready'.good.counted _, hready'.known⟩
      (Config.accounts_of_lookup hfound) ?_
    show acc.written g a.reconcile _ (some _) = _
    rw [Account.written, if_neg (by simpa using hskip)]
  next hrec =>
  exact updateAccount_performs hready' hids (by simpa using hrec) hfound

/-! ## The whole file -/

theorem andThen_along {Q R : Progress × Except Err Unit → Config → Prop} {first : Step}
    {next : Progress → Step} (h : first.Along I (fun r t => r.2 = .ok () → Q r t) db)
    (hnext : ∀ p t, Q (p, .ok ()) t → (next p).Along I (fun r t => r.2 = .ok () → R r t) t) :
    (andThen first next).Along I (fun r t => r.2 = .ok () → R r t) db := by
  refine .bind ?_
  refine h.mono' ?_
  rintro ⟨p, e | u⟩ t hI hend
  · exact ⟨hI, nofun⟩
  · exact hnext p t (hend rfl)

namespace File

variable {f : File} {reconcile : Bool}

theorem credentialUpserts_nodup (hvalid : f.Valid g) :
    ((f.credentialUpserts reconcile).map (·.key)).Nodup := by
  rw [credentialUpserts, upserts_keys (credentialUpsert_key reconcile)]
  exact hvalid.names

theorem mailboxUpserts_nodup (hvalid : f.Valid g) :
    ((f.mailboxUpserts g reconcile).map (·.key)).Nodup := by
  rw [mailboxUpserts, upserts_keys (mailboxUpsert_key g reconcile)]
  exact hvalid.addresses

theorem accountUpserts_nodup (hvalid : f.Valid g) :
    ((f.accountUpserts g reconcile).map (·.key)).Nodup := by
  rw [accountUpserts, upserts_keys (accountUpsert_key g reconcile)]
  exact hvalid.usernames

theorem applied_account_of_not_mem {username : Bytes} (h : ∀ acc ∈ f.accounts, acc.username ≠ username)
    (reconcile : Bool) (v : View) :
    (f.applied g reconcile v).accounts username = v.accounts username := by
  apply writeAll_of_not_mem
  rw [accountUpserts, upserts_keys (accountUpsert_key g reconcile)]
  rintro hmem
  obtain ⟨acc, hacc, huser⟩ := mem_map.1 hmem
  exact h acc hacc huser

section

variable (hvalid : f.Valid g)

include hvalid

theorem applied_credential {c : Credential} (h : c ∈ f.credentials) (reconcile : Bool) (v : View) :
    (f.applied g reconcile v).credentials c.name =
      some (c.written reconcile (v.credentials c.name)) := by
  obtain ⟨known, hmem⟩ : ∃ known, credentialUpsert reconcile known c ∈ f.credentialUpserts reconcile :=
    exists_mem_upserts h
  exact writeAll_of_mem (credentialUpserts_nodup hvalid) hmem

theorem applied_mailbox {m : Mailbox} (h : m ∈ f.mailboxes) (reconcile : Bool) (v : View) :
    (f.applied g reconcile v).mailboxes (g.toLower m.address) =
      some (m.written reconcile (v.mailboxes (g.toLower m.address))) := by
  obtain ⟨known, hmem⟩ : ∃ known, mailboxUpsert g reconcile known m ∈ f.mailboxUpserts g reconcile :=
    exists_mem_upserts h
  exact writeAll_of_mem (mailboxUpserts_nodup hvalid) hmem

theorem applied_account {acc : Account} (h : acc ∈ f.accounts) (reconcile : Bool) :
    ∃ known, ∀ v : View, (f.applied g reconcile v).accounts acc.username =
      some (acc.written g reconcile (knownAfter g known acc) (v.accounts acc.username)) := by
  obtain ⟨known, hmem⟩ : ∃ known, accountUpsert g reconcile known acc ∈ f.accountUpserts g reconcile :=
    exists_mem_upserts h
  exact ⟨known, fun v => writeAll_of_mem (accountUpserts_nodup hvalid) hmem⟩

end

end File

/-- The mailboxes and the accounts are as the file says. -/
structure File.AppliedBeside (g : GoText) (reconcile : Bool)
    (opened : Bytes → Bytes → Except Err Bytes) (f : File) (db t : Config) : Prop where
  sound : t.Sound
  ext : db.Extends t
  mailboxes : (t.view opened).mailboxes = (f.applied g reconcile (db.view opened)).mailboxes
  accounts : (t.view opened).accounts = (f.applied g reconcile (db.view opened)).accounts

section

variable {f : File} (hvalid : f.Valid g)

include hvalid

theorem Applier.applyCredentials_along (ha : a.Opens opened) (hs : db.Sound) :
    Writes opened (·.credentials) besideCredentials (f.credentialUpserts a.reconcile)
      (f.credentials.foldl (fun known _ => known) []) db
      (applyEach (a.applyCredential g) f.credentials {}) db :=
  applyEach_along (credentialUpsert_key a.reconcile)
    (fun _ c _ _ hready => a.applyCredential_performs ha hready c) f.credentials hvalid.names
    (.start hs)

theorem Applier.applyMailboxes_along (opened : Bytes → Bytes → Except Err Bytes)
    (hready : Ready [] p db) :
    Writes opened (·.mailboxes) besideMailboxes (f.mailboxUpserts g a.reconcile) (f.known g) db
      (applyEach (a.applyMailbox g) f.mailboxes p) db :=
  applyEach_along (mailboxUpsert_key g a.reconcile)
    (fun _ m _ _ hready => a.applyMailbox_performs hready m) f.mailboxes hvalid.addresses hready

theorem Applier.applyAccounts_along (opened : Bytes → Bytes → Except Err Bytes)
    (hready : Ready (f.known g) p db) :
    Writes opened (·.accounts) besideAccounts (f.accountUpserts g a.reconcile)
      (f.accounts.foldl (knownAfter g) (f.known g)) db (applyEach (a.applyAccount g) f.accounts p) db :=
  applyEach_along (accountUpsert_key g a.reconcile)
    (fun _ acc _ _ hready => a.applyAccount_performs hready acc) f.accounts hvalid.usernames hready

/-- The store while a file is applied to what was seen as `v`. -/
def File.Applying (g : GoText) (reconcile : Bool) (opened : Bytes → Bytes → Except Err Bytes)
    (f : File) (v : View) (t : Config) : Prop :=
  t.Sound ∧ f.Begun g reconcile v (t.view opened)

/-- `Apply` after its credentials, of which only `C` is used: each kind of object is begun while
those before it are done and those after it untouched. -/
theorem Applier.apply_along_of (opened : Bytes → Bytes → Except Err Bytes)
    {C : (Bytes → Option CredentialView) → Prop}
    (hcreds : (applyEach (a.applyCredential g) f.credentials {}).Along I (fun r t => r.2 = .ok () →
      Ready [] r.1 t ∧ db.Extends t ∧ C (t.view opened).credentials ∧
        besideCredentials (t.view opened) = besideCredentials (db.view opened)) db)
    (hI : ∀ t : Config, t.Sound → C (t.view opened).credentials →
      Begun (f.mailboxUpserts g a.reconcile) (db.view opened).mailboxes (t.view opened).mailboxes →
      Begun (f.accountUpserts g a.reconcile) (db.view opened).accounts (t.view opened).accounts →
      I t) :
    (a.apply g f).Along I (fun r t => r.2 = .ok () →
      f.AppliedBeside g a.reconcile opened db t ∧ C (t.view opened).credentials) db := by
  have hmail : (andThen (applyEach (a.applyCredential g) f.credentials {})
      (applyEach (a.applyMailbox g) f.mailboxes)).Along I (fun r t => r.2 = .ok () →
        Ready (f.known g) r.1 t ∧ db.Extends t ∧ C (t.view opened).credentials ∧
          (t.view opened).mailboxes = (f.applied g a.reconcile (db.view opened)).mailboxes ∧
          (t.view opened).accounts = (db.view opened).accounts) db := by
    refine andThen_along hcreds fun p t ht => ?_
    obtain ⟨hready, hext, hC, hbeside⟩ := ht
    obtain ⟨hmail, haccs⟩ := Prod.mk.inj hbeside
    refine (Prog.Along.weaken (a.applyMailboxes_along hvalid opened hready) fun t' ht => ?_).mono
      fun r t' hend hok => ?_
    · obtain ⟨hcreds, hkept⟩ := Prod.mk.inj ht.kept
      exact hI t' ht.sound (hcreds ▸ hC) (hmail ▸ ht.begun) (hkept.trans haccs ▸ .refl _ _)
    obtain ⟨hready', hafter⟩ := hend hok
    obtain ⟨hcreds, hkept⟩ := Prod.mk.inj hafter.kept
    refine ⟨hready', hext.trans hafter.ext, hcreds ▸ hC, ?_, hkept.trans haccs⟩
    rw [hafter.written, hmail]
    rfl
  refine .bind ?_
  refine (andThen_along hmail fun p t ht => ?_).mono' fun r t ht hend => ⟨ht, hend⟩
  obtain ⟨hready, hext, hC, hmail, haccs⟩ := ht
  refine (Prog.Along.weaken (a.applyAccounts_along hvalid opened hready) fun t' ht => ?_).mono
    fun r t' hend hok => ?_
  · obtain ⟨hcreds, hkept⟩ := Prod.mk.inj ht.kept
    exact hI t' ht.sound (hcreds ▸ hC)
      (hkept.trans hmail ▸ begun_writeAll (File.mailboxUpserts_nodup hvalid)) (haccs ▸ ht.begun)
  obtain ⟨hready', hafter⟩ := hend hok
  obtain ⟨hcreds, hkept⟩ := Prod.mk.inj hafter.kept
  refine ⟨⟨hready'.sound, hext.trans hafter.ext, hkept.trans hmail, ?_⟩, hcreds ▸ hC⟩
  rw [hafter.written, haccs]
  rfl

/-- `Apply` keeps to the writes of the file, and has done all of them when it ends well. -/
theorem Applier.apply_along (ha : a.Opens opened) (hs : db.Sound) :
    (a.apply g f).Along (f.Applying g a.reconcile opened (db.view opened))
      (fun r t => r.2 = .ok () → t.Sound ∧
        t.view opened = f.applied g a.reconcile (db.view opened)) db := by
  refine (a.apply_along_of hvalid opened
    (C := (· = (f.applied g a.reconcile (db.view opened)).credentials)) ?_ ?_).mono ?_
  · refine (Prog.Along.weaken (a.applyCredentials_along hvalid ha hs) fun t ht => ?_).mono
      fun r t hend hok => ?_
    · obtain ⟨hmail, haccs⟩ := Prod.mk.inj ht.kept
      exact ⟨ht.sound, ht.begun, hmail ▸ .refl _ _, haccs ▸ .refl _ _⟩
    · obtain ⟨hready, hafter⟩ := hend hok
      rw [foldl_fixed] at hready
      exact ⟨hready, hafter.ext, hafter.written, hafter.kept⟩
  · intro t ht hcreds hmail haccs
    exact ⟨ht, hcreds ▸ begun_writeAll (File.credentialUpserts_nodup hvalid), hmail, haccs⟩
  intro r t hend hok
  obtain ⟨happlied, hcreds⟩ := hend hok
  exact ⟨happlied.sound, View.ext hcreds happlied.mailboxes happlied.accounts⟩

variable {t : Config}

theorem Applier.apply_visits (ha : a.Opens opened) (hs : db.Sound) (h : (a.apply g f).Visits db t) :
    t.Sound ∧ f.Begun g a.reconcile (db.view opened) (t.view opened) :=
  (a.apply_along hvalid ha hs).visits h

/-- Whatever the keyring makes of the secrets, the mailboxes and the accounts are written as the
file says, and every mailbox keeps its key. -/
theorem Applier.apply_ends_beside (opened : Bytes → Bytes → Except Err Bytes) (hs : db.Sound)
    {result : Result} (h : (a.apply g f).Ends db (result, .ok ()) t) :
    f.AppliedBeside g a.reconcile opened db t := by
  have happly := a.apply_along_of hvalid opened (C := fun _ => True)
    ((a.applyCredentials_beside opened f.credentials (.start hs)).mono fun r t hend hok =>
      (hend hok).imp_right fun h => ⟨h.1, trivial, h.2⟩) fun _ _ _ _ _ => trivial
  exact ((happly.ends h).2 rfl).1

theorem Applier.apply_ends (ha : a.Opens opened) (hs : db.Sound) {result : Result}
    (h : (a.apply g f).Ends db (result, .ok ()) t) :
    t.Sound ∧ t.view opened = f.applied g a.reconcile (db.view opened) :=
  ((a.apply_along hvalid ha hs).ends h).2 rfl

end

end SmtpProxy.Bootstrap
