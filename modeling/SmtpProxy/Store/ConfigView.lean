import Mathlib.Data.Set.Basic
import SmtpProxy.Store.Config

/-!
# The configuration by name

What the tables say once generated keys, timestamps and the nonces of sealed texts are
out of sight: credentials by name, mailboxes by address and accounts by username, each
with what it refers to by name as well. For a store that meets the schema's constraints
(`Config.Sound`) every statement changes one entry of this `View`, or a part of one.
-/

namespace SmtpProxy.Store

open Lib List Option Table Function

/-! ## The schema's constraints -/

/-- Names are unique, and what a row refers to is there. A generated key is not empty. -/
structure Config.Sound (db : Config) : Prop where
  names : (db.credentials.rows.map (·.name)).Nodup
  addresses : (db.mailboxes.rows.map (·.address)).Nodup
  usernames : (db.accounts.rows.map (·.username)).Nodup
  ids : ∀ m ∈ db.mailboxes.rows, m.id ≠ []
  credential : ∀ m ∈ db.mailboxes.rows, db.hasCredential m.oauthCredentialID = true
  default : ∀ a ∈ db.accounts.rows, db.hasMailbox a.defaultMailboxID = true
  links : ∀ l ∈ db.links, db.linkable l.1 l.2 = true
  senders : ∀ s ∈ db.senders, (db.accounts.get s.smtpAccountID).isSome = true

def Config.empty : Config := ⟨.empty, .empty, .empty, [], []⟩

theorem Config.empty_sound : Config.empty.Sound := by
  constructor <;> simp [Config.empty, Table.empty]

/-! ## The view -/

/-- A credential without its key. A sealed text is there as what it opens to. -/
@[ext] structure CredentialView where
  tenantID : Bytes
  clientID : Bytes
  authType : AuthType
  clientSecret : Option (Except Err Bytes)
  certificatePEM : Bytes
  certificateKey : Option (Except Err Bytes)
  certificateThumbprint : Bytes
  authorityHost : Bytes
  expiresAt : Option Int
  managedBy : ManagedBy

/-- A mailbox without its key, and its credential by name. -/
@[ext] structure MailboxView where
  displayName : Bytes
  credential : Option Bytes
  transport : Transport
  rateLimitPerMin : Option Int
  maxConcurrent : Option Int
  enabled : Bool
  managedBy : ManagedBy

/-- An account without its key, with its mailboxes by address and its allowed senders. -/
@[ext] structure AccountView where
  passwordHash : Bytes
  description : Bytes
  defaultMailbox : Option Bytes
  fromPolicy : FromPolicy
  allowCIDRs : List Bytes
  rateLimitPerMin : Option Int
  enabled : Bool
  lastUsedAt : Option Int
  managedBy : ManagedBy
  links : Set Bytes
  senders : Set Bytes

/-- The configuration by name. -/
@[ext] structure View where
  credentials : Bytes → Option CredentialView
  mailboxes : Bytes → Option MailboxView
  accounts : Bytes → Option AccountView

def View.setCredential (v : View) (name : Bytes) (c : CredentialView) : View :=
  { v with credentials := update v.credentials name (some c) }

def View.setMailbox (v : View) (address : Bytes) (m : MailboxView) : View :=
  { v with mailboxes := update v.mailboxes address (some m) }

def View.setAccount (v : View) (username : Bytes) (a : AccountView) : View :=
  { v with accounts := update v.accounts username (some a) }

def View.moveAccount (v : View) (old new : Bytes) (a : AccountView) : View :=
  { v with accounts := update (update v.accounts old none) new (some a) }

theorem View.moveAccount_self (v : View) (username : Bytes) (a : AccountView) :
    v.moveAccount username username a = v.setAccount username a := by
  unfold View.moveAccount View.setAccount
  rw [update_idem]

theorem View.accounts_setAccount (v : View) (username : Bytes) (a : AccountView) :
    (v.setAccount username a).accounts username = some a := update_self ..

theorem View.setAccount_idem (v : View) (username : Bytes) (a b : AccountView) :
    (v.setAccount username a).setAccount username b = v.setAccount username b := by
  unfold View.setAccount
  rw [update_idem]

section

-- how a sealed text is opened
variable (opened : Bytes → Bytes → Except Err Bytes)

/-- What a column holds, if it holds anything. -/
def unsealed (text context : Bytes) : Option (Except Err Bytes) :=
  if text = [] then none else some (opened text context)

def CredentialRow.view (c : CredentialRow) : CredentialView where
  tenantID := c.tenantID
  clientID := c.clientID
  authType := c.authType
  clientSecret := unsealed opened c.clientSecretEnc c.secretContext
  certificatePEM := c.certificatePEM
  certificateKey := unsealed opened c.certificateKeyEnc c.certificateKeyContext
  certificateThumbprint := c.certificateThumbprint
  authorityHost := c.authorityHost
  expiresAt := c.expiresAt
  managedBy := c.managedBy

theorem CredentialRow.view_assign {c row : CredentialRow} (hid : c.id = row.id) (now : Int) :
    (c.assign now row).view opened = c.view opened := by
  unfold CredentialRow.view CredentialRow.secretContext CredentialRow.certificateKeyContext
  rw [hid]
  rfl

namespace Config

variable (db : Config)

def nameOf (id : Bytes) : Option Bytes := (db.credentials.get id).map (·.name)

def addressOf (id : Bytes) : Option Bytes := (db.mailboxes.get id).map (·.address)

def mailboxView (m : MailboxRow) : MailboxView where
  displayName := m.displayName
  credential := db.nameOf m.oauthCredentialID
  transport := m.transport
  rateLimitPerMin := m.rateLimitPerMin
  maxConcurrent := m.maxConcurrent
  enabled := m.enabled
  managedBy := m.managedBy

def accountView (a : AccountRow) : AccountView where
  passwordHash := a.passwordHash
  description := a.description
  defaultMailbox := a.defaultMailboxID.bind db.addressOf
  fromPolicy := a.fromPolicy
  allowCIDRs := a.allowCIDRs
  rateLimitPerMin := a.rateLimitPerMin
  enabled := a.enabled
  lastUsedAt := a.lastUsedAt
  managedBy := a.managedBy
  links := {address | ∃ id, (a.id, id) ∈ db.links ∧ db.addressOf id = some address}
  senders := {pattern | ⟨a.id, pattern⟩ ∈ db.senders}

variable {db} in
theorem mem_links {a : AccountRow} {address : Bytes} : address ∈ (db.accountView a).links ↔
    ∃ id, (a.id, id) ∈ db.links ∧ db.addressOf id = some address := Iff.rfl

def view : View where
  credentials := fun name => (db.credentials.lookupBy (·.name) name).map (·.view opened)
  mailboxes := fun address => (db.mailboxes.lookupBy (·.address) address).map db.mailboxView
  accounts := fun username => (db.accounts.lookupBy (·.username) username).map db.accountView

end Config

end

/-! ## What a statement does to it -/

namespace Config

variable {opened : Bytes → Bytes → Except Err Bytes} {db db' : Config}

theorem hasMailbox_mono {id : Option Bytes} (hid : db.hasMailbox id = true)
    (h : ∀ id, (db.mailboxes.get id).isSome = true → (db'.mailboxes.get id).isSome = true) :
    db'.hasMailbox id = true := by
  cases id with
  | none => rfl
  | some id => exact h id hid

theorem linkable_mono {a m : Bytes} (h : db.linkable a m = true)
    (haccs : ∀ id, (db.accounts.get id).isSome = true → (db'.accounts.get id).isSome = true)
    (hmail : ∀ id, (db.mailboxes.get id).isSome = true → (db'.mailboxes.get id).isSome = true) :
    db'.linkable a m = true := by
  unfold linkable at h ⊢
  rw [Bool.and_eq_true] at h ⊢
  exact ⟨haccs a h.1, hmail m h.2⟩

variable {ρ : Type} {key : ρ → Bytes} {t : Table Bytes ρ key}

theorem get_insert_mono {t' : Table Bytes ρ key} {r : ρ} (h : t.insert r = some t') (id : Bytes)
    (hid : (t.get id).isSome = true) : (t'.get id).isSome = true := by
  rw [get_insert h]
  split
  · rfl
  · exact hid

theorem get_updateWhere_isSome {p : ρ → Bool} {f : ρ → ρ} (hf : ∀ r, key (f r) = key r)
    (id : Bytes) : ((t.updateWhere p f hf).get id).isSome = (t.get id).isSome := by
  rw [get_updateWhere, isSome_map]

/-- Every credential keeps its key and its name, and every mailbox its key and its address. -/
structure Extends (db db' : Config) : Prop where
  names : ∀ id name, db.nameOf id = some name → db'.nameOf id = some name
  addresses : ∀ id address, db.addressOf id = some address → db'.addressOf id = some address

theorem Extends.refl (db : Config) : db.Extends db := ⟨fun _ _ => id, fun _ _ => id⟩

theorem Extends.of_tables (hcreds : db'.credentials = db.credentials)
    (hmail : db'.mailboxes = db.mailboxes) : db.Extends db' := by
  refine ⟨fun id name h => ?_, fun id address h => ?_⟩
  · rw [nameOf, hcreds]
    exact h
  rw [addressOf, hmail]
  exact h

theorem Extends.trans {db'' : Config} (h : db.Extends db') (h' : db'.Extends db'') :
    db.Extends db'' :=
  ⟨fun id name hn => h'.names id name (h.names id name hn),
    fun id address ha => h'.addresses id address (h.addresses id address ha)⟩

variable {id : Bytes}

theorem Extends.nameOf_eq (h : db.Extends db') (hid : db.hasCredential id = true) :
    db'.nameOf id = db.nameOf id := by
  obtain ⟨c, hc⟩ := isSome_iff_exists.1 hid
  have hname : db.nameOf id = some c.name := by rw [nameOf, hc, map_some]
  rw [hname, h.names id _ hname]

theorem Extends.addressOf_eq (h : db.Extends db') (hid : (db.mailboxes.get id).isSome = true) :
    db'.addressOf id = db.addressOf id := by
  obtain ⟨m, hm⟩ := isSome_iff_exists.1 hid
  have haddr : db.addressOf id = some m.address := by rw [addressOf, hm, map_some]
  rw [haddr, h.addresses id _ haddr]

variable {address : Bytes}

theorem addressOf_inj (hs : db.Sound) {id' : Bytes} (h : db.addressOf id = some address)
    (h' : db.addressOf id' = some address) : id = id' := by
  obtain ⟨m, hm, haddr⟩ := map_eq_some_iff.1 h
  obtain ⟨m', hm', haddr'⟩ := map_eq_some_iff.1 h'
  obtain ⟨hmem, rfl⟩ := get_eq_some_iff.1 hm
  obtain ⟨hmem', rfl⟩ := get_eq_some_iff.1 hm'
  rw [inj_on_of_nodup_map hs.addresses hmem hmem' (haddr.trans haddr'.symm)]

theorem map_get_insert {t' : Table Bytes ρ key} {r : ρ} (h : t.insert r = some t')
    {attr : ρ → Bytes} {x : Bytes} (hid : (t.get id).map attr = some x) :
    (t'.get id).map attr = some x := by
  rw [get_insert h]
  split
  · next hkey =>
    rw [← hkey, insert_free h] at hid
    cases hid
  · exact hid

theorem map_get_updateWhere {k : Bytes} {row : ρ} {f : ρ → ρ} (hf : ∀ r, key (f r) = key r)
    (hrow : t.get k = some row) {attr : ρ → Bytes} (hattr : attr (f row) = attr row) (id : Bytes) :
    ((t.updateWhere (fun r => decide (key r = k)) f hf).get id).map attr = (t.get id).map attr := by
  rw [get_updateWhere, Option.map_map]
  apply Option.map_congr
  intro r hr
  simp only [comp_apply, decide_eq_true_eq]
  split
  · next hkey => rw [eq_of_key hrow (mem_of_get hr) hkey, hattr]
  · rfl

theorem mailboxView_congr (h : db.Extends db') {m : MailboxRow}
    (hm : db.hasCredential m.oauthCredentialID = true) : db'.mailboxView m = db.mailboxView m := by
  unfold mailboxView
  rw [h.nameOf_eq hm]

theorem accountView_congr (hs : db.Sound) {a : AccountRow}
    (ha : db.hasMailbox a.defaultMailboxID = true) (h : db.Extends db')
    (hlinks : db'.links = db.links) (hsenders : db'.senders = db.senders) :
    db'.accountView a = db.accountView a := by
  have hdefault : a.defaultMailboxID.bind db'.addressOf = a.defaultMailboxID.bind db.addressOf := by
    cases hid : a.defaultMailboxID with
    | none => rfl
    | some id =>
      rw [hid] at ha
      exact h.addressOf_eq ha
  have hlinked : {address | ∃ id, (a.id, id) ∈ db'.links ∧ db'.addressOf id = some address} =
      {address | ∃ id, (a.id, id) ∈ db.links ∧ db.addressOf id = some address} := by
    ext address
    apply exists_congr
    intro id
    rw [hlinks]
    apply and_congr_right
    intro hl
    have hboth := hs.links _ hl
    rw [linkable, Bool.and_eq_true] at hboth
    rw [h.addressOf_eq hboth.2]
  unfold accountView
  rw [hdefault, hlinked, hsenders]

theorem nameOf_lookup {name : Bytes} {c : CredentialRow}
    (h : db.credentials.lookupBy (·.name) name = some c) : db.nameOf c.id = some name := by
  obtain ⟨hmem, hname⟩ := lookupBy_mem h
  rw [nameOf, get_key hmem, map_some, hname]

theorem addressOf_lookup {m : MailboxRow} (h : db.mailboxes.lookupBy (·.address) address = some m) :
    db.addressOf m.id = some address := by
  obtain ⟨hmem, haddr⟩ := lookupBy_mem h
  rw [addressOf, get_key hmem, map_some, haddr]

theorem credentials_of_lookup {name : Bytes} {c : CredentialRow}
    (h : db.credentials.lookupBy (·.name) name = some c) :
    (db.view opened).credentials name = some (c.view opened) :=
  congrArg (Option.map _) h

theorem mailboxes_of_lookup {m : MailboxRow}
    (h : db.mailboxes.lookupBy (·.address) address = some m) :
    (db.view opened).mailboxes address = some (db.mailboxView m) :=
  congrArg (Option.map _) h

theorem accounts_of_lookup {username : Bytes} {a : AccountRow}
    (h : db.accounts.lookupBy (·.username) username = some a) :
    (db.view opened).accounts username = some (db.accountView a) :=
  congrArg (Option.map _) h

/-! ### Credentials -/

section

variable {c row : CredentialRow} {now : Int}

theorem Sound.insertCredential (hs : db.Sound) (h : db.insertCredential c = (.ok (), db')) :
    db'.Sound := by
  obtain ⟨credentials, rfl, hinsert, hfree⟩ := insertCredential_ok h
  exact { hs with
    names := nodup_attr_insert hinsert hs.names hfree
    credential := fun m hm => get_insert_mono hinsert _ (hs.credential m hm) }

theorem extends_insertCredential (h : db.insertCredential c = (.ok (), db')) : db.Extends db' := by
  obtain ⟨credentials, rfl, hinsert, -⟩ := insertCredential_ok h
  exact ⟨fun _ _ => map_get_insert hinsert, fun _ _ => id⟩

theorem nameOf_insertCredential (h : db.insertCredential c = (.ok (), db')) :
    db'.nameOf c.id = some c.name := by
  obtain ⟨credentials, rfl, hinsert, -⟩ := insertCredential_ok h
  rw [nameOf, get_insert hinsert, if_pos rfl, map_some]

theorem view_insertCredential (hs : db.Sound) (h : db.insertCredential c = (.ok (), db')) :
    db'.view opened = (db.view opened).setCredential c.name (c.view opened) := by
  have hext := extends_insertCredential h
  obtain ⟨credentials, rfl, hinsert, hfree⟩ := insertCredential_ok h
  ext1
  · exact viewBy_insert _ hinsert hfree
  · funext address
    apply Option.map_congr
    intro m hm
    exact mailboxView_congr hext (hs.credential m (lookupBy_mem hm).1)
  · rfl

theorem Sound.updateCredential (hs : db.Sound) (h : db.updateCredential now c = (.ok (), db')) :
    db'.Sound := by
  obtain ⟨rfl, -, hfree⟩ := updateCredential_ok h
  exact { hs with
    names := nodup_attr_updateWhere (c.assign_id now) hs.names (fun _ => rfl) hfree
    credential := fun m hm =>
      (get_updateWhere_isSome (c.assign_id now) _).trans (hs.credential m hm) }

theorem extends_updateCredential (hrow : db.credentials.get c.id = some row)
    (hname : c.name = row.name) (h : db.updateCredential now c = (.ok (), db')) :
    db.Extends db' := by
  obtain ⟨rfl, -, -⟩ := updateCredential_ok h
  refine ⟨fun id name hid => ?_, fun _ _ => id⟩
  exact (map_get_updateWhere (c.assign_id now) hrow hname id).trans hid

theorem view_updateCredential (hs : db.Sound) (hrow : db.credentials.get c.id = some row)
    (hname : c.name = row.name) (h : db.updateCredential now c = (.ok (), db')) :
    db'.view opened = (db.view opened).setCredential row.name ((c.assign now row).view opened) := by
  have hext := extends_updateCredential hrow hname h
  obtain ⟨rfl, -, -⟩ := updateCredential_ok h
  ext1
  · exact viewBy_updateWhere _ (c.assign_id now) hs.names hrow fun _ => hname
  · funext address
    apply Option.map_congr
    intro m hm
    exact mailboxView_congr hext (hs.credential m (lookupBy_mem hm).1)
  · rfl

end

/-! ### Mailboxes -/

section

variable {m row : MailboxRow} {now : Int}

theorem Sound.insertMailbox (hs : db.Sound) (hid : m.id ≠ [])
    (h : db.insertMailbox m = (.ok (), db')) : db'.Sound := by
  obtain ⟨mailboxes, rfl, hinsert, hfree, hrefers⟩ := insertMailbox_ok h
  exact { hs with
    addresses := nodup_attr_insert hinsert hs.addresses hfree
    ids := forall_insert hs.ids hid hinsert
    credential := forall_insert hs.credential hrefers hinsert
    default := fun a ha => hasMailbox_mono (hs.default a ha) (get_insert_mono hinsert)
    links := fun l hl => linkable_mono (hs.links l hl) (fun _ => id) (get_insert_mono hinsert) }

theorem extends_insertMailbox (h : db.insertMailbox m = (.ok (), db')) : db.Extends db' := by
  obtain ⟨mailboxes, rfl, hinsert, -, -⟩ := insertMailbox_ok h
  exact ⟨fun _ _ => id, fun _ _ => map_get_insert hinsert⟩

theorem addressOf_insertMailbox (h : db.insertMailbox m = (.ok (), db')) :
    db'.addressOf m.id = some m.address := by
  obtain ⟨mailboxes, rfl, hinsert, -, -⟩ := insertMailbox_ok h
  rw [addressOf, get_insert hinsert, if_pos rfl, map_some]

theorem view_insertMailbox (hs : db.Sound) (h : db.insertMailbox m = (.ok (), db')) :
    db'.view opened = (db.view opened).setMailbox m.address (db.mailboxView m) := by
  have hext := extends_insertMailbox h
  obtain ⟨mailboxes, rfl, hinsert, hfree, -⟩ := insertMailbox_ok h
  ext1
  · rfl
  · exact viewBy_insert _ hinsert hfree
  funext username
  apply Option.map_congr
  intro a ha
  exact accountView_congr hs (hs.default a (lookupBy_mem ha).1) hext rfl rfl

theorem Sound.updateMailbox (hs : db.Sound) (h : db.updateMailbox now m = (.ok (), db')) :
    db'.Sound := by
  obtain ⟨rfl, -, hfree, hrefers⟩ := updateMailbox_ok h
  have hkept : ∀ id, (db.mailboxes.get id).isSome = true →
      ((db.writeMailbox now m).mailboxes.get id).isSome = true :=
    fun id hid => (get_updateWhere_isSome (m.assign_id now) id).trans hid
  exact { hs with
    addresses := nodup_attr_updateWhere (m.assign_id now) hs.addresses (fun _ => rfl) hfree
    ids := forall_updateWhere (m.assign_id now) hs.ids fun r hr _ => hs.ids r hr
    credential := forall_updateWhere (m.assign_id now) hs.credential fun _ _ _ => hrefers
    default := fun a ha => hasMailbox_mono (hs.default a ha) hkept
    links := fun l hl => linkable_mono (hs.links l hl) (fun _ => id) hkept }

theorem extends_updateMailbox (hrow : db.mailboxes.get m.id = some row)
    (haddr : m.address = row.address) (h : db.updateMailbox now m = (.ok (), db')) :
    db.Extends db' := by
  obtain ⟨rfl, -, -, -⟩ := updateMailbox_ok h
  refine ⟨fun _ _ => id, fun id address hid => ?_⟩
  exact (map_get_updateWhere (m.assign_id now) hrow haddr id).trans hid

theorem view_updateMailbox (hs : db.Sound) (hrow : db.mailboxes.get m.id = some row)
    (haddr : m.address = row.address) (h : db.updateMailbox now m = (.ok (), db')) :
    db'.view opened = (db.view opened).setMailbox row.address (db.mailboxView (m.assign now row)) := by
  have hext := extends_updateMailbox hrow haddr h
  obtain ⟨rfl, -, -, -⟩ := updateMailbox_ok h
  ext1
  · rfl
  · exact viewBy_updateWhere _ (m.assign_id now) hs.addresses hrow fun _ => haddr
  funext username
  apply Option.map_congr
  intro a ha
  exact accountView_congr hs (hs.default a (lookupBy_mem ha).1) hext rfl rfl

end

/-! ### Accounts -/

section

variable {a row : AccountRow} {now : Int} {ids patterns : List Bytes}

theorem insertAccount_ok (h : db.insertAccount a = (.ok (), db')) :
    ∃ accounts, db' = { db with accounts } ∧ db.accounts.insert a = some accounts ∧
      (∀ r ∈ db.accounts.rows, r.username ≠ a.username) ∧
      db.hasMailbox a.defaultMailboxID = true := by
  unfold insertAccount at h
  split at h
  · cases h
  next hok =>
  obtain ⟨hinsert, hclash, hrefers⟩ := insertRow_ok hok
  exact ⟨_, (Prod.mk.inj h).2.symm, hinsert, by simpa using hclash, hrefers⟩

theorem Sound.withAccount (hs : db.Sound) {accounts : Table Bytes AccountRow fun a => a.id}
    (hinsert : db.accounts.insert a = some accounts)
    (hfree : ∀ r ∈ db.accounts.rows, r.username ≠ a.username)
    (hrefers : db.hasMailbox a.defaultMailboxID = true) : { db with accounts }.Sound :=
  { hs with
    usernames := nodup_attr_insert hinsert hs.usernames hfree
    default := forall_insert hs.default hrefers hinsert
    links := fun l hl => linkable_mono (hs.links l hl) (get_insert_mono hinsert) (fun _ => id)
    senders := fun s hs' => get_insert_mono hinsert _ (hs.senders s hs') }

theorem Sound.insertAccount (hs : db.Sound) (h : db.insertAccount a = (.ok (), db')) :
    db'.Sound := by
  obtain ⟨accounts, rfl, hinsert, hfree, hrefers⟩ := insertAccount_ok h
  exact hs.withAccount hinsert hfree hrefers

theorem extends_insertAccount (h : db.insertAccount a = (.ok (), db')) : db.Extends db' := by
  obtain ⟨accounts, rfl, -, -, -⟩ := insertAccount_ok h
  exact .of_tables rfl rfl

theorem view_insertAccount (h : db.insertAccount a = (.ok (), db')) :
    db'.view opened = (db.view opened).setAccount a.username (db.accountView a) := by
  obtain ⟨accounts, rfl, hinsert, hfree, -⟩ := insertAccount_ok h
  ext1
  · rfl
  · rfl
  · exact viewBy_insert _ hinsert hfree

theorem accountView_fresh (hs : db.Sound) (hfree : db.accounts.get a.id = none) :
    (db.accountView a).links = ∅ ∧ (db.accountView a).senders = ∅ := by
  constructor
  · ext address
    simp only [accountView, Set.mem_ofPred_eq, Set.mem_empty_iff_false, iff_false]
    rintro ⟨id, hl, -⟩
    have hboth := hs.links _ hl
    rw [linkable, hfree] at hboth
    cases hboth
  ext pattern
  simp only [accountView, Set.mem_ofPred_eq, Set.mem_empty_iff_false, iff_false]
  intro hsender
  have hthere := hs.senders _ hsender
  rw [hfree] at hthere
  cases hthere

theorem mem_of_mem_writeAccount {r : AccountRow} (h : r ∈ (db.writeAccount now a).accounts.rows)
    (hne : r.id ≠ a.id) : r ∈ db.accounts.rows := by
  obtain ⟨r', hr', rfl⟩ := List.mem_map.1 h
  dsimp only at hne ⊢
  split
  · next hid =>
    rw [if_pos hid] at hne
    exact absurd (of_decide_eq_true hid) hne
  · exact hr'

theorem Sound.writeAccount (hs : db.Sound)
    (hfree : ∀ r ∈ db.accounts.rows, r.id ≠ a.id → r.username ≠ a.username)
    (hrefers : db.hasMailbox a.defaultMailboxID = true) : (db.writeAccount now a).Sound := by
  have hkept : ∀ id, (db.accounts.get id).isSome = true →
      ((db.writeAccount now a).accounts.get id).isSome = true :=
    fun id hid => (get_updateWhere_isSome (a.assign_id now) id).trans hid
  exact { hs with
    usernames := nodup_attr_updateWhere (a.assign_id now) hs.usernames (fun _ => rfl) hfree
    default := forall_updateWhere (a.assign_id now) hs.default fun _ _ _ => hrefers
    links := fun l hl => linkable_mono (hs.links l hl) hkept (fun _ => id)
    senders := fun s hs' => hkept _ (hs.senders s hs') }

theorem Sound.updateAccount (hs : db.Sound) (h : db.updateAccount now a = (.ok (), db')) :
    db'.Sound := by
  obtain ⟨rfl, -, hfree, hrefers⟩ := updateAccount_ok h
  exact hs.writeAccount hfree hrefers

theorem extends_updateAccount (h : db.updateAccount now a = (.ok (), db')) : db.Extends db' := by
  obtain ⟨rfl, -, -, -⟩ := updateAccount_ok h
  exact .of_tables rfl rfl

theorem view_moveAccount (hs : db.Sound) (hrow : db.accounts.get a.id = some row)
    (h : db.updateAccount now a = (.ok (), db')) :
    db'.view opened = (db.view opened).moveAccount row.username a.username
      (db.accountView (a.assign now row)) := by
  obtain ⟨rfl, -, hfree, -⟩ := updateAccount_ok h
  ext1
  · rfl
  · rfl
  · exact viewBy_move _ (a.assign_id now) hs.usernames hrow (fun _ => rfl) hfree

variable {id : Bytes}

theorem accounts_of_get (hs : db.Sound) (h : db.accounts.get id = some row) :
    (db.view opened).accounts row.username = some (db.accountView row) :=
  accounts_of_lookup ((lookupBy_eq_some_iff hs.usernames).2 ⟨mem_of_get h, rfl⟩)

theorem accountView_of_view (hs : db.Sound) (h : db.accounts.get id = some row) {v : View}
    {x : AccountView} (hview : db.view opened = v.setAccount row.username x) :
    db.accountView row = x := by
  have hget : (db.view opened).accounts row.username = some (db.accountView row) :=
    accounts_of_get hs h
  rw [hview, View.accounts_setAccount] at hget
  exact (some.inj hget).symm

theorem view_oneAccount (hs : db.Sound) (hrow : db.accounts.get id = some row)
    (hcreds : db'.credentials = db.credentials) (hmail : db'.mailboxes = db.mailboxes)
    (haccs : db'.accounts = db.accounts)
    (hothers : ∀ r ∈ db.accounts.rows, r.id ≠ id → db'.accountView r = db.accountView r) :
    db'.view opened = (db.view opened).setAccount row.username (db'.accountView row) := by
  obtain ⟨hmem, hid⟩ := get_eq_some_iff.1 hrow
  have hnames : db'.nameOf = db.nameOf := by
    funext id
    rw [nameOf, hcreds]
    rfl
  ext1
  · show (fun name => (db'.credentials.lookupBy _ name).map _) = _
    rw [hcreds]
    rfl
  · funext address
    show (db'.mailboxes.lookupBy _ address).map db'.mailboxView = _
    rw [hmail]
    apply Option.map_congr
    intro m _
    unfold mailboxView
    rw [hnames]
  funext username
  show (db'.accounts.lookupBy _ username).map db'.accountView =
    update (db.view opened).accounts row.username (some (db'.accountView row)) username
  rw [haccs, update_apply]
  split
  · next huser =>
    rw [(lookupBy_eq_some_iff hs.usernames).2 ⟨hmem, huser.symm⟩, map_some]
  next huser =>
  apply Option.map_congr
  intro r hr
  obtain ⟨hr, hname⟩ := lookupBy_mem hr
  refine hothers r hr fun hsame => huser ?_
  rw [← hname, eq_of_key hrow hr hsame]

theorem setMailboxes_ok (h : db.setMailboxes id ids = (.ok (), db')) :
    (∀ m ∈ ids, db.linkable id m = true) ∧ db' = { db with
      links := (db.links.filter fun l => l.1 ≠ id) ++ ids.eraseDups.map fun m => (id, m) } := by
  obtain ⟨e, he⟩ | ⟨hlinkable, hok⟩ := db.setMailboxes_cases id ids
  · rw [he] at h
    cases h
  · exact ⟨hlinkable, (Prod.mk.inj (h.symm.trans hok)).2⟩

theorem Sound.withLinks (hs : db.Sound) (hlinkable : ∀ m ∈ ids, db.linkable id m = true) :
    Sound { db with
      links := (db.links.filter fun l => l.1 ≠ id) ++ ids.eraseDups.map fun m => (id, m) } := by
  refine { hs with links := ?_ }
  intro l hl
  rcases mem_append.1 hl with hl | hl
  · exact hs.links l (mem_filter.1 hl).1
  obtain ⟨m, hm, rfl⟩ := List.mem_map.1 hl
  exact hlinkable m (mem_eraseDups.1 hm)

theorem Sound.setMailboxes (hs : db.Sound) (h : db.setMailboxes id ids = (.ok (), db')) :
    db'.Sound := by
  obtain ⟨hlinkable, rfl⟩ := setMailboxes_ok h
  exact hs.withLinks hlinkable

theorem mem_setMailboxes (h : db.setMailboxes id ids = (.ok (), db')) (a m : Bytes) :
    (a, m) ∈ db'.links ↔ if a = id then m ∈ ids else (a, m) ∈ db.links := by
  obtain ⟨-, rfl⟩ := setMailboxes_ok h
  by_cases ha : a = id
  · simp [ha]
  · simp [ha, Ne.symm ha]

theorem extends_setMailboxes (h : db.setMailboxes id ids = (.ok (), db')) :
    db.Extends db' ∧ db'.accounts = db.accounts := by
  obtain ⟨-, rfl⟩ := setMailboxes_ok h
  exact ⟨.of_tables rfl rfl, rfl⟩

theorem view_setMailboxes (hs : db.Sound) (hrow : db.accounts.get id = some row)
    (h : db.setMailboxes id ids = (.ok (), db')) :
    db'.view opened = (db.view opened).setAccount row.username { db.accountView row with
      links := {address | ∃ m ∈ ids, db.addressOf m = some address} } := by
  have hlinks := mem_setMailboxes h
  obtain ⟨-, rfl⟩ := setMailboxes_ok h
  refine (view_oneAccount hs hrow ?_ ?_ ?_ fun r _ hne => ?_).trans (congrArg _ ?_)
  · rfl
  · rfl
  · rfl
  · ext1
    case links =>
      ext address
      apply exists_congr
      intro m
      rw [hlinks, if_neg hne]
      rfl
    all_goals rfl
  ext1
  case links =>
    ext address
    apply exists_congr
    intro m
    rw [hlinks, if_pos (key_of_get hrow)]
    rfl
  all_goals rfl

theorem setAllowedSenders_ok (h : db.setAllowedSenders id patterns = (.ok (), db')) :
    (patterns ≠ [] → (db.accounts.get id).isSome = true) ∧ db' = { db with
      senders := (db.senders.filter fun s => s.smtpAccountID ≠ id) ++
        patterns.eraseDups.map fun p => ⟨id, p⟩ } := by
  unfold setAllowedSenders at h
  split at h
  · cases h
  next hnone =>
  refine ⟨fun hne => ?_, (Prod.mk.inj h).2.symm⟩
  obtain ⟨p, hp⟩ := exists_mem_of_ne_nil patterns hne
  simpa [isSome_iff_ne_none] using
    find?_eq_none.1 hnone p (mem_eraseDups.2 hp)

theorem Sound.withSenders (hs : db.Sound)
    (hthere : patterns ≠ [] → (db.accounts.get id).isSome = true) :
    Sound { db with
      senders := (db.senders.filter fun s => s.smtpAccountID ≠ id) ++
        patterns.eraseDups.map fun p => ⟨id, p⟩ } := by
  refine { hs with senders := ?_ }
  intro s hmem
  rcases mem_append.1 hmem with hmem | hmem
  · exact hs.senders s (mem_filter.1 hmem).1
  obtain ⟨p, hp, rfl⟩ := List.mem_map.1 hmem
  exact hthere (ne_nil_of_mem (mem_eraseDups.1 hp))

theorem Sound.setAllowedSenders (hs : db.Sound)
    (h : db.setAllowedSenders id patterns = (.ok (), db')) : db'.Sound := by
  obtain ⟨hthere, rfl⟩ := setAllowedSenders_ok h
  exact hs.withSenders hthere

theorem mem_setAllowedSenders (h : db.setAllowedSenders id patterns = (.ok (), db')) (a p : Bytes) :
    ⟨a, p⟩ ∈ db'.senders ↔ if a = id then p ∈ patterns else ⟨a, p⟩ ∈ db.senders := by
  obtain ⟨-, rfl⟩ := setAllowedSenders_ok h
  by_cases ha : a = id
  · simp [ha]
  · simp [ha, Ne.symm ha]

theorem extends_setAllowedSenders (h : db.setAllowedSenders id patterns = (.ok (), db')) :
    db.Extends db' ∧ db'.accounts = db.accounts := by
  obtain ⟨-, rfl⟩ := setAllowedSenders_ok h
  exact ⟨.of_tables rfl rfl, rfl⟩

theorem view_setAllowedSenders (hs : db.Sound) (hrow : db.accounts.get id = some row)
    (h : db.setAllowedSenders id patterns = (.ok (), db')) :
    db'.view opened = (db.view opened).setAccount row.username { db.accountView row with
      senders := {pattern | pattern ∈ patterns} } := by
  have hsenders := mem_setAllowedSenders h
  obtain ⟨-, rfl⟩ := setAllowedSenders_ok h
  refine (view_oneAccount hs hrow ?_ ?_ ?_ fun r _ hne => ?_).trans (congrArg _ ?_)
  · rfl
  · rfl
  · rfl
  · ext1
    case senders =>
      ext pattern
      refine (hsenders _ _).trans ?_
      rw [if_neg hne]
      rfl
    all_goals rfl
  ext1
  case senders =>
    ext pattern
    refine (hsenders _ _).trans ?_
    rw [if_pos (key_of_get hrow)]
    rfl
  all_goals rfl

end

end Config

/-! ## The repositories, run alone -/

section

variable {db : Config} {I : Config → Prop}

theorem CredentialRepo.getByName_along {name : Bytes} {R : Except Err CredentialRow → Config → Prop}
    (hI : I db) (herror : ∀ e, R (.error e) db)
    (hok : ∀ c, db.credentials.lookupBy (·.name) name = some c → R (.ok c) db) :
    (CredentialRepo.getByName name).Along I R db := by
  apply query_along hI herror
  split
  · next c hc => exact hok c hc
  · exact herror _

theorem MailboxRepo.getByAddress_along {address : Bytes} {R : Except Err MailboxRow → Config → Prop}
    (hI : I db) (herror : ∀ e, R (.error e) db)
    (hok : ∀ m, db.mailboxes.lookupBy (·.address) address = some m → R (.ok m) db) :
    (MailboxRepo.getByAddress address).Along I R db := by
  apply query_along hI herror
  split
  · next m hm => exact hok m hm
  · exact herror _

theorem AccountRepo.getByUsername_along {username : Bytes}
    {R : Except Err AccountRow → Config → Prop} (hI : I db) (herror : ∀ e, R (.error e) db)
    (hok : ∀ a, db.accounts.lookupBy (·.username) username = some a → R (.ok a) db) :
    (AccountRepo.getByUsername username).Along I R db := by
  apply query_along hI herror
  split
  · next a ha => exact hok a ha
  · exact herror _

end

end SmtpProxy.Store
