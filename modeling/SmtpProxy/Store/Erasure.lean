import SmtpProxy.Store.Config
import SmtpProxy.Store.Users

/-!
# The tables without their secrets

`erased` takes the secrets out of a state of the tables: the password hashes of accounts
altogether, those of users and the sealed material of credentials up to whether there is any.
Two states agree except in their secrets when their erasures are equal.

Every statement commutes with the erasure (`insertCredential_erased` and the others): what it
answers, and what it does to the rest of the tables, does not depend on the secrets.
-/

namespace SmtpProxy.Store

open Lib Option Table

/-- What is left of a secret: whether there is one. -/
def mark (secret : Bytes) : Bytes := if secret = [] then [] else [0]

theorem mark_eq_nil {secret : Bytes} : mark secret = [] ↔ secret = [] := by
  unfold mark
  split
  · next h => exact iff_of_true rfl h
  · next h => exact iff_of_false (by simp) h

theorem mark_of_ne {a b : Bytes} (ha : a ≠ []) (hb : b ≠ []) : mark a = mark b := by
  rw [mark, mark, if_neg ha, if_neg hb]

theorem nullString_getD (s : Bytes) : (nullString s).getD [] = s := by
  unfold nullString
  split
  · next h => exact h.symm
  · rfl

def CredentialRow.erased (c : CredentialRow) : CredentialRow :=
  { c with
    clientSecretEnc := mark c.clientSecretEnc
    certificateKeyEnc := mark c.certificateKeyEnc }

def AccountRow.erased (a : AccountRow) : AccountRow := { a with passwordHash := [] }

/-- A user without its password hash; a `NULL` is as good as an empty one. -/
def AdminUser.erased (u : AdminUser) : AdminUser :=
  { u with passwordHash := nullString (mark (u.passwordHash.getD [])) }

theorem CredentialRow.erased_id (c : CredentialRow) : c.erased.id = c.id := rfl

theorem AccountRow.erased_id (a : AccountRow) : a.erased.id = a.id := rfl

theorem AdminUser.erased_id (u : AdminUser) : u.erased.id = u.id := rfl

theorem CredentialRow.of_erased {c c' : CredentialRow} (h : c.erased = c'.erased) :
    ∃ secret key, c' = { c with clientSecretEnc := secret, certificateKeyEnc := key } ∧
      mark c.clientSecretEnc = mark secret ∧ mark c.certificateKeyEnc = mark key := by
  refine ⟨c'.clientSecretEnc, c'.certificateKeyEnc, ?_,
    congrArg CredentialRow.clientSecretEnc h, congrArg CredentialRow.certificateKeyEnc h⟩
  exact congrArg (fun r : CredentialRow =>
    { r with
      clientSecretEnc := c'.clientSecretEnc
      certificateKeyEnc := c'.certificateKeyEnc }) h.symm

theorem AccountRow.of_erased {a a' : AccountRow} (h : a.erased = a'.erased) :
    ∃ hash, a' = { a with passwordHash := hash } :=
  ⟨a'.passwordHash,
    congrArg (fun r : AccountRow => { r with passwordHash := a'.passwordHash }) h.symm⟩

theorem AdminUser.of_erased {u u' : AdminUser} (h : u.erased = u'.erased) :
    ∃ hash, u' = { u with passwordHash := hash } :=
  ⟨u'.passwordHash,
    congrArg (fun r : AdminUser => { r with passwordHash := u'.passwordHash }) h.symm⟩

def Config.erased (db : Config) : Config :=
  { db with
    credentials := db.credentials.mapRows CredentialRow.erased CredentialRow.erased_id
    accounts := db.accounts.mapRows AccountRow.erased AccountRow.erased_id }

def AdminDB.erased (db : AdminDB) : AdminDB :=
  { db with users := db.users.mapRows AdminUser.erased AdminUser.erased_id }

/-! ## Writing one row -/

section

variable {ρ : Type} {key : ρ → Bytes} {f : ρ → ρ} (hf : ∀ r, key (f r) = key r)

theorem insertRow_mapRows (t : Table Bytes ρ key) {clash : ρ → Bool} {refers : Bool} (r : ρ)
    (hclash : ∀ x, clash (f x) = clash x) :
    insertRow (t.mapRows f hf) clash refers (f r) =
      (insertRow t clash refers r).map (Table.mapRows f hf) := by
  unfold insertRow
  rw [any_mapRows hf t hclash, insert_mapRows]
  split
  · rfl
  cases t.insert r with
  | none => rfl
  | some t' =>
    dsimp only [map_some]
    split <;> rfl

theorem checkUpdate_mapRows (t : Table Bytes ρ key) {id : Bytes} {clash : ρ → Bool} {refers : Bool}
    (hclash : ∀ x, clash (f x) = clash x) :
    checkUpdate (t.mapRows f hf) id clash refers = checkUpdate t id clash refers := by
  unfold checkUpdate
  rw [get_mapRows, isNone_map, any_mapRows]
  intro x
  rw [hclash, hf]

end

/-! ## The configuration -/

namespace Config

variable (db : Config)

theorem get_credentials_erased (key : Bytes) :
    db.erased.credentials.get key = (db.credentials.get key).map CredentialRow.erased :=
  get_mapRows CredentialRow.erased_id _ _

theorem hasCredential_erased (key : Bytes) : db.erased.hasCredential key = db.hasCredential key := by
  unfold hasCredential
  rw [get_credentials_erased, isSome_map]

theorem insertCredential_erased (c : CredentialRow) :
    Prod.map id erased (db.insertCredential c) = db.erased.insertCredential c.erased := by
  have hrow : insertRow db.erased.credentials (fun r => decide (r.name = c.erased.name)) true c.erased =
      (insertRow db.credentials (fun r => decide (r.name = c.name)) true c).map
        (Table.mapRows _ CredentialRow.erased_id) := insertRow_mapRows CredentialRow.erased_id _ _ fun _ => rfl
  unfold insertCredential
  rw [hrow]
  cases insertRow db.credentials (fun r => decide (r.name = c.name)) true c <;> rfl

theorem updateCredential_erased (now : Int) (c : CredentialRow) :
    Prod.map id erased (db.updateCredential now c) = db.erased.updateCredential now c.erased := by
  have hcheck : checkUpdate db.erased.credentials c.erased.id
      (fun r => decide (r.name = c.erased.name)) true =
        checkUpdate db.credentials c.id (fun r => decide (r.name = c.name)) true :=
    checkUpdate_mapRows CredentialRow.erased_id _ fun _ => rfl
  have hwrite : db.erased.writeCredential now c.erased = (db.writeCredential now c).erased := by
    unfold writeCredential erased
    congr 1
    exact updateWhere_mapRows CredentialRow.erased_id _ (c.assign_id now) (c.erased.assign_id now)
      (fun _ => rfl) fun _ => rfl
  unfold updateCredential
  rw [hcheck, hwrite]
  cases checkUpdate db.credentials c.id (fun r => decide (r.name = c.name)) true <;> rfl

theorem deleteCredential_erased (key : Bytes) :
    Prod.map id erased (db.deleteCredential key) = db.erased.deleteCredential key := by
  have hdelete : db.erased.credentials.deleteWhere (fun c => decide (c.id = key)) =
      (db.credentials.deleteWhere fun c => decide (c.id = key)).mapRows _ CredentialRow.erased_id :=
    deleteWhere_mapRows CredentialRow.erased_id _ fun _ => rfl
  unfold deleteCredential
  rw [get_credentials_erased, isNone_map, hdelete]
  split
  · rfl
  show _ = if (db.mailboxes.rows.any fun m => decide (m.oauthCredentialID = key)) = true then _ else _
  split <;> rfl

theorem insertMailbox_erased (m : MailboxRow) :
    Prod.map id erased (db.insertMailbox m) = db.erased.insertMailbox m := by
  have hmail : db.erased.mailboxes = db.mailboxes := rfl
  unfold insertMailbox
  rw [hasCredential_erased, hmail]
  cases insertRow db.mailboxes (fun r => decide (r.address = m.address))
      (db.hasCredential m.oauthCredentialID) m with
  | error e => rfl
  | ok mailboxes => rfl

theorem updateMailbox_erased (now : Int) (m : MailboxRow) :
    Prod.map id erased (db.updateMailbox now m) = db.erased.updateMailbox now m := by
  have hmail : db.erased.mailboxes = db.mailboxes := rfl
  unfold updateMailbox
  rw [hasCredential_erased, hmail]
  cases checkUpdate db.mailboxes m.id (fun r => decide (r.address = m.address))
      (db.hasCredential m.oauthCredentialID) with
  | error e => rfl
  | ok u => rfl

theorem erased_withoutMailbox (key : Bytes) (a : AccountRow) :
    (withoutMailbox key a).erased = withoutMailbox key a.erased := by
  unfold withoutMailbox
  show _ = if a.defaultMailboxID = some key then _ else _
  split <;> rfl

theorem dropMailbox_erased (key : Bytes) : (db.dropMailbox key).erased = db.erased.dropMailbox key := by
  have haccs :
      db.erased.accounts.updateWhere (fun _ => true) (withoutMailbox key) (withoutMailbox_id key) =
        (db.accounts.updateWhere (fun _ => true) (withoutMailbox key) (withoutMailbox_id key)).mapRows
          AccountRow.erased AccountRow.erased_id :=
    updateWhere_mapRows AccountRow.erased_id _ (withoutMailbox_id key) (withoutMailbox_id key)
      (fun _ => rfl) (erased_withoutMailbox key)
  unfold dropMailbox
  rw [haccs]
  rfl

theorem deleteMailbox_erased (key : Bytes) :
    Prod.map id erased (db.deleteMailbox key) = db.erased.deleteMailbox key := by
  unfold deleteMailbox
  show _ = if (db.mailboxes.get key).isNone then _ else _
  split
  · rfl
  · exact Prod.ext rfl (db.dropMailbox_erased key)

theorem insertAccount_erased (a : AccountRow) :
    Prod.map id erased (db.insertAccount a) = db.erased.insertAccount a.erased := by
  have hrow : insertRow db.erased.accounts (fun r => decide (r.username = a.erased.username))
      (db.erased.hasMailbox a.erased.defaultMailboxID) a.erased =
        (insertRow db.accounts (fun r => decide (r.username = a.username))
          (db.hasMailbox a.defaultMailboxID) a).map (Table.mapRows _ AccountRow.erased_id) :=
    insertRow_mapRows AccountRow.erased_id _ _ fun _ => rfl
  unfold insertAccount
  rw [hrow]
  cases insertRow db.accounts (fun r => decide (r.username = a.username))
      (db.hasMailbox a.defaultMailboxID) a with
  | error e => rfl
  | ok accounts => rfl

theorem updateAccount_erased (now : Int) (a : AccountRow) :
    Prod.map id erased (db.updateAccount now a) = db.erased.updateAccount now a.erased := by
  have hcheck : checkUpdate db.erased.accounts a.erased.id
      (fun r => decide (r.username = a.erased.username))
      (db.erased.hasMailbox a.erased.defaultMailboxID) =
        checkUpdate db.accounts a.id (fun r => decide (r.username = a.username))
          (db.hasMailbox a.defaultMailboxID) := checkUpdate_mapRows AccountRow.erased_id _ fun _ => rfl
  have hwrite : db.erased.writeAccount now a.erased = (db.writeAccount now a).erased := by
    unfold writeAccount erased
    congr 1
    exact updateWhere_mapRows AccountRow.erased_id _ (a.assign_id now) (a.erased.assign_id now)
      (fun _ => rfl) fun _ => rfl
  unfold updateAccount
  rw [hcheck, hwrite]
  cases checkUpdate db.accounts a.id (fun r => decide (r.username = a.username))
      (db.hasMailbox a.defaultMailboxID) with
  | error e => rfl
  | ok u => rfl

theorem get_accounts_erased (key : Bytes) :
    db.erased.accounts.get key = (db.accounts.get key).map AccountRow.erased :=
  get_mapRows AccountRow.erased_id _ _

theorem deleteAccount_erased (key : Bytes) :
    Prod.map id erased (db.deleteAccount key) = db.erased.deleteAccount key := by
  have hdelete : db.erased.accounts.deleteWhere (fun a => decide (a.id = key)) =
      (db.accounts.deleteWhere fun a => decide (a.id = key)).mapRows _ AccountRow.erased_id :=
    deleteWhere_mapRows AccountRow.erased_id _ fun _ => rfl
  unfold deleteAccount dropAccount
  rw [get_accounts_erased, isNone_map, hdelete]
  split <;> rfl

theorem linkable_erased (accountID mailboxID : Bytes) :
    db.erased.linkable accountID mailboxID = db.linkable accountID mailboxID := by
  unfold linkable
  rw [get_accounts_erased, isSome_map]
  rfl

theorem setMailboxes_erased (accountID : Bytes) (mailboxIDs : List Bytes) :
    Prod.map id erased (db.setMailboxes accountID mailboxIDs) =
      db.erased.setMailboxes accountID mailboxIDs := by
  unfold setMailboxes
  simp only [linkable_erased]
  split <;> rfl

theorem setAllowedSenders_erased (accountID : Bytes) (patterns : List Bytes) :
    Prod.map id erased (db.setAllowedSenders accountID patterns) =
      db.erased.setAllowedSenders accountID patterns := by
  unfold setAllowedSenders
  rw [get_accounts_erased, isNone_map]
  split <;> rfl

theorem listForAccount_erased (accountID : Bytes) :
    db.erased.directory.listForAccount accountID = db.directory.listForAccount accountID := by
  have hallows : ∀ mailboxID, db.erased.directory.allows accountID mailboxID =
      db.directory.allows accountID mailboxID := by
    intro mailboxID
    unfold Directory.allows
    congr 1
    show ((db.accounts.rows.map AccountRow.erased).map _ |>.find? _).any _ =
      ((db.accounts.rows.map _).find? _).any _
    rw [List.map_map, List.find?_map, List.find?_map, any_map, any_map]
    rfl
  unfold Directory.listForAccount
  simp only [hallows]
  rfl

end Config

/-! ## The users -/

namespace AdminDB

variable (db : AdminDB)

theorem get_users_erased (key : Bytes) :
    db.erased.users.get key = (db.users.get key).map AdminUser.erased :=
  get_mapRows AdminUser.erased_id _ _

theorem userConflict_erased (u : AdminUser) : db.erased.userConflict u.erased = db.userConflict u :=
  any_mapRows AdminUser.erased_id _ fun _ => rfl

theorem insertUser_erased (u : AdminUser) :
    Prod.map id erased (db.insertUser u) = db.erased.insertUser u.erased := by
  have hinsert : db.erased.users.insert u.erased =
      (db.users.insert u).map (Table.mapRows _ AdminUser.erased_id) :=
    insert_mapRows AdminUser.erased_id _ u
  unfold insertUser
  rw [userConflict_erased, hinsert]
  split
  · rfl
  · cases db.users.insert u <;> rfl

theorem updateUser_erased (now : Int) (u : AdminUser) :
    Prod.map id erased (db.updateUser now u) = db.erased.updateUser now u.erased := by
  have hwrite : db.erased.writeUser now u.erased = (db.writeUser now u).erased := by
    unfold writeUser erased
    congr 1
    exact updateWhere_mapRows AdminUser.erased_id _ (u.assign_id now) (u.erased.assign_id now)
      (fun _ => rfl) fun _ => rfl
  have hrow : (db.erased.users.get u.erased.id).isNone = (db.users.get u.id).isNone := by
    rw [get_users_erased, isNone_map, AdminUser.erased_id]
  unfold updateUser
  rw [hrow, userConflict_erased, hwrite]
  split
  · rfl
  · split <;> rfl

theorem deleteUser_erased (key : Bytes) :
    Prod.map id erased (db.deleteUser key) = db.erased.deleteUser key := by
  have hdelete : db.erased.users.deleteWhere (fun u => decide (u.id = key)) =
      (db.users.deleteWhere fun u => decide (u.id = key)).mapRows _ AdminUser.erased_id :=
    deleteWhere_mapRows AdminUser.erased_id _ fun _ => rfl
  unfold deleteUser
  rw [get_users_erased, isNone_map, hdelete]
  split <;> rfl

theorem findSession_erased (tokenHash : Bytes) : db.erased.findSession tokenHash =
      (db.findSession tokenHash).map fun found => (found.1, found.2.erased) := by
  have hsessions : db.erased.sessions = db.sessions := rfl
  unfold findSession
  rw [hsessions]
  cases db.sessions.rows.find? fun s => decide (s.tokenHash = tokenHash) with
  | none => rfl
  | some s =>
  dsimp only
  rw [get_users_erased, map_map, map_map]
  rfl

end AdminDB

/-! ## Twins -/

def Config.Agree (db db' : Config) : Prop := db.erased = db'.erased

def AdminDB.Agree (db db' : AdminDB) : Prop := db.erased = db'.erased

namespace CredentialRepo

theorem create_twin (newID : Bytes) {c c' : CredentialRow} (h : c.erased = c'.erased) :
    (create newID c).Twin Config.Agree
      (fun x y => x.1.erased = y.1.erased ∧ SameOutcome (· = ·) x.2 y.2) (create newID c') :=
  stamping_commutes Config.erased CredentialRow.erased (·.created newID)
    (fun c now db => db.insertCredential (c.created newID now)) (fun _ _ => rfl)
    (fun _ _ db => db.insertCredential_erased _) h

theorem get_twin (key : Bytes) :
    (get key).Twin Config.Agree (SameOutcome fun c c' => c.erased = c'.erased) (get key) :=
  find_commutes Config.erased CredentialRow.erased (·.credentials.get key)
    (fun db => db.get_credentials_erased key)
    fun db => by cases db.credentials.get key <;> rfl

theorem list_twin : list.Twin Config.Agree
      (SameOutcome fun l l' => l.map CredentialRow.erased = l'.map CredentialRow.erased) list := by
  have hsort : ∀ db : Config,
      (db.credentials.rows.insertionSort fun a b => a.name ≤ b.name).map CredentialRow.erased =
        db.erased.credentials.rows.insertionSort fun a b => a.name ≤ b.name := fun db =>
    List.map_insertionSort _ _ _ _ fun _ _ _ _ => Iff.rfl
  refine .mapError (query_twin fun s t hst => .ok ?_) _
  rw [hsort, hsort, hst]

theorem update_twin {c c' : CredentialRow} (h : c.erased = c'.erased) : (update c).Twin Config.Agree
      (fun x y => x.1.erased = y.1.erased ∧ SameOutcome (· = ·) x.2 y.2) (update c') :=
  stamping_commutes Config.erased CredentialRow.erased (fun c now => { c with updatedAt := now })
    (fun c now db => db.updateCredential now c) (fun _ _ => rfl)
    (fun c now db => db.updateCredential_erased now c) h

theorem delete_twin (key : Bytes) :
    (delete key).Twin Config.Agree (SameOutcome (· = ·)) (delete key) :=
  statement_commutes Config.erased fun _ db => db.deleteCredential_erased key

end CredentialRepo

namespace MailboxRepo

theorem mailboxes_eq {s t : Config} (h : s.Agree t) : s.mailboxes = t.mailboxes := by
  have herased : s.erased.mailboxes = t.erased.mailboxes := by rw [h]
  exact herased

theorem create_twin (newID : Bytes) (m : MailboxRow) :
    (create newID m).Twin Config.Agree (fun x y => x.1 = y.1 ∧ SameOutcome (· = ·) x.2 y.2)
      (create newID m) := by
  apply stamping_twin (fun _ => rfl)
  intro now s t hst
  refine same_view (s.insertMailbox_erased _) ((t.insertMailbox_erased _).trans ?_)
  rw [← hst]

theorem get_twin (key : Bytes) : (get key).Twin Config.Agree (SameOutcome (· = ·)) (get key) := by
  apply query_twin
  intro s t hst
  rw [mailboxes_eq hst]
  exact .refl _

theorem list_twin : list.Twin Config.Agree (SameOutcome (· = ·)) list := by
  refine .mapError (query_twin fun s t hst => ?_) _
  rw [mailboxes_eq hst]
  exact .refl _

theorem listForAccount_twin (accountID : Bytes) :
    (listForAccount accountID).Twin Config.Agree (SameOutcome (· = ·)) (listForAccount accountID) := by
  refine .mapError (query_twin fun s t hst => ?_) _
  rw [← s.listForAccount_erased, ← t.listForAccount_erased, hst]
  exact .refl _

theorem update_twin (m : MailboxRow) :
    (update m).Twin Config.Agree (fun x y => x.1 = y.1 ∧ SameOutcome (· = ·) x.2 y.2) (update m) := by
  apply stamping_twin (fun _ => rfl)
  intro now s t hst
  refine same_view (s.updateMailbox_erased now m) ((t.updateMailbox_erased now m).trans ?_)
  rw [← hst]

end MailboxRepo

namespace AccountRepo

theorem create_twin (newID : Bytes) {a a' : AccountRow} (h : a.erased = a'.erased) :
    (create newID a).Twin Config.Agree
      (fun x y => x.1.erased = y.1.erased ∧ SameOutcome (· = ·) x.2 y.2) (create newID a') :=
  stamping_commutes Config.erased AccountRow.erased (·.created newID)
    (fun a now db => db.insertAccount (a.created newID now)) (fun _ _ => rfl)
    (fun _ _ db => db.insertAccount_erased _) h

theorem get_twin (key : Bytes) :
    (get key).Twin Config.Agree (SameOutcome fun a a' => a.erased = a'.erased) (get key) :=
  find_commutes Config.erased AccountRow.erased (·.accounts.get key) (fun db => db.get_accounts_erased key)
    fun db => by cases db.accounts.get key <;> rfl

theorem list_twin : list.Twin Config.Agree
      (SameOutcome fun l l' => l.map AccountRow.erased = l'.map AccountRow.erased) list := by
  have hsort : ∀ db : Config,
      (db.accounts.rows.insertionSort fun a b => a.username ≤ b.username).map AccountRow.erased =
        db.erased.accounts.rows.insertionSort fun a b => a.username ≤ b.username := fun db =>
    List.map_insertionSort _ _ _ _ fun _ _ _ _ => Iff.rfl
  refine .mapError (query_twin fun s t hst => .ok ?_) _
  rw [hsort, hsort, hst]

theorem update_twin {a a' : AccountRow} (h : a.erased = a'.erased) : (update a).Twin Config.Agree
      (fun x y => x.1.erased = y.1.erased ∧ SameOutcome (· = ·) x.2 y.2) (update a') :=
  stamping_commutes Config.erased AccountRow.erased (fun a now => { a with updatedAt := now })
    (fun a now db => db.updateAccount now a) (fun _ _ => rfl) (fun a now db => db.updateAccount_erased now a) h

theorem allowedSenders_twin (accountID : Bytes) :
    (allowedSenders accountID).Twin Config.Agree (SameOutcome (· = ·)) (allowedSenders accountID) := by
  refine .mapError (query_twin fun s t hst => ?_) _
  have hsenders : s.erased.senders = t.erased.senders := by rw [hst]
  show SameOutcome _ (.ok ((s.erased.senders.filter _).insertionSort _))
    (.ok ((t.erased.senders.filter _).insertionSort _))
  rw [hsenders]
  exact .ok rfl

end AccountRepo

namespace UserRepo

theorem create_twin (newID : Bytes) {u u' : AdminUser} (h : u.erased = u'.erased) :
    (create newID u).Twin AdminDB.Agree
      (fun x y => x.1.erased = y.1.erased ∧ SameOutcome (· = ·) x.2 y.2) (create newID u') :=
  stamping_commutes AdminDB.erased AdminUser.erased (·.created newID)
    (fun u now db => db.insertUser (u.created newID now)) (fun _ _ => rfl)
    (fun _ _ db => db.insertUser_erased _) h

theorem get_twin (key : Bytes) :
    (get key).Twin AdminDB.Agree (SameOutcome fun u u' => u.erased = u'.erased) (get key) :=
  find_commutes AdminDB.erased AdminUser.erased (·.users.get key) (fun db => db.get_users_erased key)
    fun db => by cases db.users.get key <;> rfl

theorem list_twin : list.Twin AdminDB.Agree
      (SameOutcome fun l l' => l.map AdminUser.erased = l'.map AdminUser.erased) list := by
  have hsort : ∀ db : AdminDB,
      (db.users.rows.insertionSort fun a b => a.username ≤ b.username).map AdminUser.erased =
        db.erased.users.rows.insertionSort fun a b => a.username ≤ b.username := fun db =>
    List.map_insertionSort _ _ _ _ fun _ _ _ _ => Iff.rfl
  refine query_twin fun s t hst => .ok ?_
  rw [hsort, hsort, hst]

theorem update_twin {u u' : AdminUser} (h : u.erased = u'.erased) : (update u).Twin AdminDB.Agree
      (fun x y => x.1.erased = y.1.erased ∧ SameOutcome (· = ·) x.2 y.2) (update u') :=
  stamping_commutes AdminDB.erased AdminUser.erased (fun u now => { u with updatedAt := now })
    (fun u now db => db.updateUser now u) (fun _ _ => rfl) (fun u now db => db.updateUser_erased now u) h

theorem delete_twin (key : Bytes) :
    (delete key).Twin AdminDB.Agree (SameOutcome (· = ·)) (delete key) :=
  statement_commutes AdminDB.erased fun _ db => db.deleteUser_erased key

end UserRepo

namespace SessionRepo

theorem delete_twin (key : Bytes) :
    (delete key).Twin AdminDB.Agree (SameOutcome (· = ·)) (delete key) :=
  statement_commutes AdminDB.erased fun _ _ => rfl

theorem touch_twin (key : Bytes) : (touch key).Twin AdminDB.Agree (SameOutcome (· = ·)) (touch key) :=
  statement_commutes AdminDB.erased fun _ _ => rfl

theorem deleteForUser_twin (userID : Bytes) :
    (deleteForUser userID).Twin AdminDB.Agree (SameOutcome (· = ·)) (deleteForUser userID) :=
  .mapError (statement_commutes AdminDB.erased fun _ _ => rfl) _

end SessionRepo

end SmtpProxy.Store
