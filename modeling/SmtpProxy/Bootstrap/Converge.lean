import SmtpProxy.Bootstrap.Effect

/-!
# Applying a file again

A run that was cut short and is done again ends as one run would have, in either mode, unless
it was cut short between an account's row and its links or allowed senders
(`interrupted_apply_converges`). With `Reconcile` the second run writes them after all; without
it the account exists and is skipped.

With `Reconcile` the file decides what becomes of the objects in it, but for the secret,
certificate and key of a credential: what the file does not declare stays as it was
(`reconciled_objects_follow_file`).
-/

namespace SmtpProxy.Bootstrap

open Lib Policy Store Option

/-! ## The keyring -/

/-- A run that seals with a keyring of `internal/crypto` opens what it seals. -/
theorem opens_keyringOf {a : Applier} {quote : Bytes → Bytes} {aead : Crypto.Aead}
    (hideal : aead.Ideal) {nonce : Bytes → Except Err { b : Bytes // b.length = Crypto.nonceSize }}
    {specs : List Bytes} {k : Crypto.Keyring} (hnew : Crypto.newKeyring quote specs = .ok k)
    (hk : a.keyring = some (Adminapi.keyringOf quote aead nonce k)) :
    a.Opens (k.decrypt quote aead) := by
  intro k' hk' plaintext context sealed h
  cases hk.symm.trans hk'
  exact Crypto.decrypt_encrypt hideal hnew h

/-! ## Writes done twice -/

theorem declaredOr_idem (declared : Bytes) (old : Option (Except Err Bytes)) :
    declaredOr declared (declaredOr declared old) = declaredOr declared old := by
  unfold declaredOr
  split <;> rfl

theorem Credential.written_idem (reconcile : Bool) (c : Credential) (old : Option CredentialView) :
    c.written reconcile (some (c.written reconcile old)) = c.written reconcile old := by
  cases reconcile with
  | false => rfl
  | true =>
  have hpem : ∀ pem : Bytes, (if c.certificatePEM = [] then
      (if c.certificatePEM = [] then pem else c.certificatePEM) else c.certificatePEM) =
      if c.certificatePEM = [] then pem else c.certificatePEM := by
    intro pem
    split <;> rfl
  cases old with
  | none =>
    have hnone := hpem []
    simp only [Credential.written, if_true, declaredOr_idem]
    congr 1
    split
    · next hempty => rw [hempty]
    · rfl
  | some v => simp [Credential.written, declaredOr_idem, hpem]

theorem Mailbox.written_idem (reconcile : Bool) (m : Mailbox) (old : Option MailboxView) :
    m.written reconcile (some (m.written reconcile old)) = m.written reconcile old := by
  cases reconcile with
  | false => rfl
  | true => cases old <;> rfl

variable {g : GoText} {reconcile : Bool} {known : List Bytes}

/-- An account that a run before had got to comes out the same: with `Reconcile` always, without
it if the account was there from the start or had all its links and allowed senders. -/
theorem Account.Partway.written_again_iff {acc : Account} {old : Option AccountView}
    {v : AccountView} (h : acc.Partway g reconcile known old v) :
    acc.written g reconcile known (some v) = acc.written g reconcile known old ↔
      reconcile = true ∨ (old = none → v.links = {address | address ∈ acc.addresses g} ∧
        v.senders = {pattern | pattern ∈ acc.allowedSenders}) := by
  cases reconcile with
  | true =>
    refine iff_of_true ?_ (.inl rfl)
    cases h <;> cases old <;> rfl
  | false =>
  rw [or_iff_right Bool.false_ne_true]
  show v = acc.written g false known old ↔ _
  have hrest : { acc.written g false known old with links := v.links, senders := v.senders } = v := by
    cases h <;> rfl
  cases old with
  | none =>
    constructor
    · rintro rfl _
      exact ⟨rfl, rfl⟩
    intro hparts
    obtain ⟨hlinks, hsenders⟩ := hparts rfl
    rw [← hrest, hlinks, hsenders]
    rfl
  | some u =>
  -- without `Reconcile` nothing is written over an account
  refine iff_of_true ?_ nofun
  cases h with
  | done => rfl
  | row hwrites => simp at hwrites
  | linked hwrites => simp at hwrites

/-- With `Reconcile`, an account that has been written stays the same while it is written again. -/
theorem Account.Partway.eq_of_written {acc : Account} {old : Option AccountView} {v : AccountView}
    (h : acc.Partway g true known (some (acc.written g true known old)) v) :
    v = acc.written g true known old := by
  cases h <;> cases old <;> rfl

/-! ## An interrupted run -/

/-- An account of the file comes out of a second run as it would have of one alone. -/
def Account.Recovers (g : GoText) (acc : Account) (initial left : View) : Prop :=
  ∀ v, initial.accounts acc.username = none → left.accounts acc.username = some v →
    v.links = {address | address ∈ acc.addresses g} ∧
      v.senders = {pattern | pattern ∈ acc.allowedSenders}

theorem File.applied_again_iff {f : File} (hvalid : f.Valid g) {initial left : View}
    (hbegun : f.Begun g reconcile initial left) :
    f.applied g reconcile left = f.applied g reconcile initial ↔
      reconcile = true ∨ ∀ acc ∈ f.accounts, acc.Recovers g initial left := by
  have hcreds : (f.applied g reconcile left).credentials =
      (f.applied g reconcile initial).credentials := by
    refine hbegun.credentials.writeAll_eq (File.credentialUpserts_nodup hvalid) ?_
    rintro u hu old v hv
    obtain ⟨known, c, -, rfl⟩ := mem_upserts hu
    obtain rfl := hv
    exact c.written_idem reconcile old
  have hmail : (f.applied g reconcile left).mailboxes =
      (f.applied g reconcile initial).mailboxes := by
    refine hbegun.mailboxes.writeAll_eq (File.mailboxUpserts_nodup hvalid) ?_
    rintro u hu old v hv
    obtain ⟨known, m, -, rfl⟩ := mem_upserts hu
    obtain rfl := hv
    exact m.written_idem reconcile old
  -- an account that is as it was recovers, and so does one that has all its parts
  have haccount : ∀ {known acc}, accountUpsert g reconcile known acc ∈ f.accountUpserts g reconcile →
      (acc.written g reconcile (knownAfter g known acc) (left.accounts acc.username) =
        acc.written g reconcile (knownAfter g known acc) (initial.accounts acc.username) ↔
        reconcile = true ∨ acc.Recovers g initial left) := by
    intro known acc hmem
    obtain hsame | ⟨v, hv, hpart⟩ := hbegun.accounts.of_mem (File.accountUpserts_nodup hvalid) hmem
    · refine iff_of_true (congrArg _ hsame) (.inr fun v hnone hsome => ?_)
      exact absurd (hsome.symm.trans (hsame.trans hnone)) (some_ne_none v)
    have hv' : left.accounts acc.username = some v := hv
    refine (hv'.symm ▸ hpart.written_again_iff :).trans (or_congr_right ?_)
    constructor
    · intro hparts w hnone hw
      cases hv'.symm.trans hw
      exact hparts hnone
    · exact fun hrecovers hnone => hrecovers v hnone hv'
  rw [View.ext_iff, and_iff_right hcreds, and_iff_right hmail]
  simp only [← forall_or_left]
  refine (writeAll_eq_iff (File.accountUpserts_nodup hvalid) hbegun.accounts).trans ?_
  constructor
  · intro hall acc hacc
    obtain ⟨known, hmem⟩ := exists_mem_upserts hacc
    exact (haccount hmem).1 (hall _ hmem)
  intro hall u hu
  obtain ⟨known, acc, hacc, rfl⟩ := mem_upserts hu
  exact (haccount hu).2 (hall acc hacc)

/-- Cut short and then run to its end, `Apply` leaves what one run would have left, if it goes
by the file (`Reconcile`) or has left no account of its own without its links and allowed
senders; and else it does not. -/
theorem interrupted_apply_converges {f : File} (hload : f.validate g = .ok ())
    {opened : Bytes → Bytes → Except Err Bytes} {cut rerun single : Applier}
    (hcut : cut.Opens opened) (hrerun : rerun.Opens opened) (hsingle : single.Opens opened)
    (hmode : rerun.reconcile = cut.reconcile) (hmode' : single.reconcile = cut.reconcile)
    {db left finished once : Config} (hs : db.Sound) (hleft : (cut.apply g f).Visits db left)
    {result result' : Result} (hfinished : (rerun.apply g f).Ends left (result, .ok ()) finished)
    (honce : (single.apply g f).Ends db (result', .ok ()) once) :
    finished.view opened = once.view opened ↔ cut.reconcile = true ∨
        ∀ acc ∈ f.accounts, acc.Recovers g (db.view opened) (left.view opened) := by
  have hvalid := File.validate_ok hload
  obtain ⟨hs', hbegun⟩ := cut.apply_visits hvalid hcut hs hleft
  obtain ⟨-, hview⟩ := rerun.apply_ends hvalid hrerun hs' hfinished
  obtain ⟨-, hview'⟩ := single.apply_ends hvalid hsingle hs honce
  rw [hview, hview', hmode, hmode']
  exact File.applied_again_iff hvalid hbegun

def markingKeyring : Adminapi.Keyring where
  encryptString := fun plaintext _ => .ok (1 :: plaintext)
  decryptString := fun sealed _ => .ok sealed.tail

def namingApplier (reconcile : Bool) : Applier where
  reconcile := reconcile
  keyring := some markingKeyring
  newID := fun _ name => ⟨1 :: name, List.cons_ne_nil 1 name⟩

theorem namingApplier_opens (reconcile : Bool) :
    (namingApplier reconcile).Opens markingKeyring.decryptString := by
  rintro k hk plaintext context sealed hsealed
  cases hk
  cases hsealed
  exact ⟨List.cons_ne_nil 1 plaintext, rfl⟩

/-- A file applied to a store, with no failure and nobody else at work. -/
def applyAlone (reconcile : Bool) (f : File) (db : Config) : (Result × Except Err Unit) × Config :=
  ((namingApplier reconcile).apply bareText f).run (fun _ => {}) db

/-- `plainFile` applied to the empty store, cut short when the account's row has been written. -/
def cutPlain (reconcile : Bool) : Config :=
  ((namingApplier reconcile).apply bareText plainFile).runFor (fun _ => {}) 6 Config.empty

theorem visits_cutPlain (reconcile : Bool) :
    ((namingApplier reconcile).apply bareText plainFile).Visits Config.empty (cutPlain reconcile) :=
  Prog.visits_runFor ..

theorem ends_applyAlone {f : File} {db : Config} {result : Result}
    (h : (applyAlone reconcile f db).1 = (result, .ok ())) :
    ((namingApplier reconcile).apply bareText f).Ends db (result, .ok ())
      (applyAlone reconcile f db).2 :=
  h ▸ Prog.ends_run ..

/-- With `Reconcile`, a run that comes after one that left the account without its links ends as
one run does. -/
theorem reconcile_after_cut :
    (cutPlain true).accounts.rows.length = 1 ∧ (cutPlain true).links = [] ∧
    (applyAlone true plainFile (cutPlain true)).2.view markingKeyring.decryptString =
      (applyAlone true plainFile Config.empty).2.view markingKeyring.decryptString := by
  refine ⟨by decide +kernel, by decide +kernel, ?_⟩
  have hload : plainFile.validate bareText = .ok () := by decide +kernel
  have hfinished : (applyAlone true plainFile (cutPlain true)).1 = ({ updated := 3 }, .ok ()) := by
    decide +kernel
  have honce : (applyAlone true plainFile Config.empty).1 = ({ created := 3 }, .ok ()) := by decide +kernel
  have hopens := namingApplier_opens true
  exact (interrupted_apply_converges hload hopens hopens hopens rfl rfl Config.empty_sound
    (visits_cutPlain true) (ends_applyAlone hfinished) (ends_applyAlone honce)).2 (.inl rfl)

/-- Without it, the account stays without them. -/
theorem skipped_after_cut : plainFile.validate bareText = .ok () ∧
    ((namingApplier false).apply bareText plainFile).Visits Config.empty (cutPlain false) ∧
    (applyAlone false plainFile (cutPlain false)).1 = ({ skipped := 3 }, .ok ()) ∧
    (applyAlone false plainFile Config.empty).1 = ({ created := 3 }, .ok ()) ∧
    (applyAlone false plainFile (cutPlain false)).2.links = [] ∧
    (applyAlone false plainFile (cutPlain false)).2.view markingKeyring.decryptString ≠
      (applyAlone false plainFile Config.empty).2.view markingKeyring.decryptString := by
  have hnone : (applyAlone false plainFile (cutPlain false)).2.links = [] := by decide +kernel
  refine ⟨by decide +kernel, visits_cutPlain false, by decide +kernel, by decide +kernel, hnone, ?_⟩
  intro heq
  obtain ⟨row, hrow, -⟩ := map_eq_some_iff.1 (show
    ((applyAlone false plainFile (cutPlain false)).2.accounts.lookupBy (·.username) (ascii "printer")).map
      (·.id) = some (1 :: ascii "printer") by decide +kernel)
  obtain ⟨row', hrow', hid⟩ := map_eq_some_iff.1 (show
    ((applyAlone false plainFile Config.empty).2.accounts.lookupBy (·.username) (ascii "printer")).map
      (·.id) = some (1 :: ascii "printer") by decide +kernel)
  have hviews := congrFun (congrArg View.accounts heq) (ascii "printer")
  rw [Config.accounts_of_lookup hrow, Config.accounts_of_lookup hrow'] at hviews
  -- one run would have linked the mailbox
  have hlinked : ascii "alerts@example.com" ∈
      ((applyAlone false plainFile (cutPlain false)).2.accountView row).links := by
    rw [some.inj hviews, Config.mem_links, hid]
    exact ⟨1 :: ascii "alerts@example.com", by decide +kernel, by decide +kernel⟩
  obtain ⟨id, hmem, -⟩ := Config.mem_links.1 hlinked
  rw [hnone] at hmem
  cases hmem

/-! ## Going by the file -/

def CredentialView.expressible (v : CredentialView) : CredentialView :=
  { v with certificateThumbprint := [], expiresAt := none }

def AccountView.expressible (v : AccountView) : AccountView := { v with lastUsedAt := none }

def Credential.Covers (c : Credential) (old : Option CredentialView) : Prop :=
  ∀ v, old = some v → (c.clientSecret = [] → v.clientSecret = none) ∧
    (c.certificatePEM = [] → v.certificatePEM = []) ∧
    (c.certificateKeyPEM = [] → v.certificateKey = none)

theorem declaredOr_eq_iff {declared : Bytes} {old : Option (Except Err Bytes)} :
    declaredOr declared old = declaredOr declared none ↔ (declared = [] → old = none) := by
  unfold declaredOr
  split <;> simp_all

theorem Credential.expressible_written_iff {c : Credential} {old : Option CredentialView} :
    CredentialView.expressible (c.written true old) = c.written true none ↔ c.Covers old := by
  cases old with
  | none => exact iff_of_true rfl fun v hv => absurd hv (some_ne_none v).symm
  | some v =>
  have hpem : (if c.certificatePEM = [] then v.certificatePEM else c.certificatePEM) =
      c.certificatePEM ↔ (c.certificatePEM = [] → v.certificatePEM = []) := by
    split <;> simp_all
  simp only [Covers, Option.some.injEq, forall_eq', ← declaredOr_eq_iff, ← hpem]
  simp [CredentialView.expressible, Credential.written, createdBy]

theorem Mailbox.written_reconciled (m : Mailbox) (old : Option MailboxView) :
    m.written true old = m.declared .bootstrap := by
  cases old <;> rfl

theorem Account.expressible_written (acc : Account) (old : Option AccountView) :
    AccountView.expressible (acc.written g true known old) =
      acc.declared g known none .bootstrap := by
  cases old <;> rfl

namespace File

variable {f : File} (hvalid : f.Valid g)

include hvalid

theorem Begun.eq_of_applied {v v' : View} (h : f.Begun g true (f.applied g true v) v') :
    v' = f.applied g true v := by
  refine View.ext ?_ ?_ ?_
  · refine h.credentials.eq_of_settled fun u hu new hnew => ?_
    have hwritten : (f.applied g true v).credentials u.key = _ :=
      writeAll_of_mem (credentialUpserts_nodup hvalid) hu
    rw [hwritten] at hnew ⊢
    obtain ⟨known, c, -, rfl⟩ := mem_upserts hu
    exact congrArg some ((c.written_idem true _).symm.trans hnew.symm)
  · refine h.mailboxes.eq_of_settled fun u hu new hnew => ?_
    have hwritten : (f.applied g true v).mailboxes u.key = _ :=
      writeAll_of_mem (mailboxUpserts_nodup hvalid) hu
    rw [hwritten] at hnew ⊢
    obtain ⟨known, m, -, rfl⟩ := mem_upserts hu
    exact congrArg some ((m.written_idem true _).symm.trans hnew.symm)
  refine h.accounts.eq_of_settled fun u hu new hnew => ?_
  have hwritten : (f.applied g true v).accounts u.key = _ :=
    writeAll_of_mem (accountUpserts_nodup hvalid) hu
  rw [hwritten] at hnew ⊢
  obtain ⟨known, acc, -, rfl⟩ := mem_upserts hu
  exact congrArg some (Account.Partway.eq_of_written hnew).symm

end File

/-- With `Reconcile` two stores come to agree on the mailboxes and the accounts of the file. They
agree on a credential, and have of it what the file says, exactly if neither had material the
file does not declare. Begun once more, the file changes nothing. -/
theorem reconciled_objects_follow_file {f : File} (hload : f.validate g = .ok ())
    {opened opened' : Bytes → Bytes → Except Err Bytes} {a a' again : Applier}
    (ha : a.Opens opened) (ha' : a'.Opens opened') (hagain : again.Opens opened)
    (hmode : a.reconcile = true) (hmode' : a'.reconcile = true) (hmode'' : again.reconcile = true)
    {db db' t t' t'' : Config} (hs : db.Sound) (hs' : db'.Sound) {result result' : Result}
    (hend : (a.apply g f).Ends db (result, .ok ()) t)
    (hend' : (a'.apply g f).Ends db' (result', .ok ()) t')
    (hvisits : (again.apply g f).Visits t t'') :
    (∀ m ∈ f.mailboxes, ∃ v, (t.view opened).mailboxes (g.toLower m.address) = some v ∧
      (t'.view opened').mailboxes (g.toLower m.address) = some v) ∧
    (∀ acc ∈ f.accounts, ∃ v,
      ((t.view opened).accounts acc.username).map AccountView.expressible = some v ∧
      ((t'.view opened').accounts acc.username).map AccountView.expressible = some v) ∧
    (∀ c ∈ f.credentials, (((t.view opened).credentials c.name).map CredentialView.expressible =
          some (c.written true none) ∧
        ((t'.view opened').credentials c.name).map CredentialView.expressible =
          some (c.written true none)) ↔
      c.Covers ((db.view opened).credentials c.name) ∧
        c.Covers ((db'.view opened').credentials c.name)) ∧
    t''.view opened = t.view opened := by
  have hvalid := File.validate_ok hload
  obtain ⟨hsound, hview⟩ := a.apply_ends hvalid ha hs hend
  obtain ⟨-, hview'⟩ := a'.apply_ends hvalid ha' hs' hend'
  obtain ⟨-, hbegun⟩ := again.apply_visits hvalid hagain hsound hvisits
  rw [hmode] at hview
  rw [hmode'] at hview'
  rw [hmode''] at hbegun
  rw [hview, hview']
  refine ⟨fun m hm => ?_, fun acc hacc => ?_, fun c hc => ?_, ?_⟩
  · rw [File.applied_mailbox hvalid hm, File.applied_mailbox hvalid hm]
    refine ⟨m.declared .bootstrap, ?_, ?_⟩
    · exact congrArg some (m.written_reconciled _)
    · exact congrArg some (m.written_reconciled _)
  · obtain ⟨known, hwritten⟩ := File.applied_account hvalid hacc true
    rw [hwritten, hwritten]
    refine ⟨acc.declared g (knownAfter g known acc) none .bootstrap, ?_, ?_⟩
    · exact congrArg some (acc.expressible_written _)
    · exact congrArg some (acc.expressible_written _)
  · rw [File.applied_credential hvalid hc, File.applied_credential hvalid hc, map_some,
      map_some, some_inj, some_inj]
    exact and_congr Credential.expressible_written_iff Credential.expressible_written_iff
  rw [hview] at hbegun
  exact File.Begun.eq_of_applied hvalid hbegun

def earlierFile : File :=
  { plainFile with
    credentials := [
      { name := ascii "main", tenantID := ascii "fabrikam", clientID := ascii "app"
        authType := ascii "secret", clientSecret := ascii "0ld"
        authorityHost := ascii "https://login.microsoftonline.com" }] }

/-- Whether the store was empty or had the objects of `earlierFile`, it comes to have the
credential as `plainFile` says. -/
theorem earlier_secret_replaced :
    earlierFile.validate bareText = .ok () ∧ ∀ c ∈ plainFile.credentials,
      (((applyAlone true plainFile Config.empty).2.view markingKeyring.decryptString).credentials
        c.name).map CredentialView.expressible = some (c.written true none) ∧
      (((applyAlone true plainFile (applyAlone true earlierFile Config.empty).2).2.view
        markingKeyring.decryptString).credentials c.name).map CredentialView.expressible =
          some (c.written true none) := by
  have hopens := namingApplier_opens true
  have hearlier : (applyAlone true earlierFile Config.empty).1 = ({ created := 3 }, .ok ()) := by
    decide +kernel
  have hempty : (applyAlone true plainFile Config.empty).1 = ({ created := 3 }, .ok ()) := by
    decide +kernel
  have hafter : (applyAlone true plainFile (applyAlone true earlierFile Config.empty).2).1 =
      ({ updated := 3 }, .ok ()) := by
    decide +kernel
  have hload : plainFile.validate bareText = .ok () := by decide +kernel
  have hload' : earlierFile.validate bareText = .ok () := by decide +kernel
  obtain ⟨hsound, hview⟩ := (namingApplier true).apply_ends (File.validate_ok hload') hopens
    Config.empty_sound (ends_applyAlone hearlier)
  obtain ⟨-, -, hcreds, -⟩ := reconciled_objects_follow_file hload hopens hopens hopens rfl rfl
    rfl Config.empty_sound hsound (ends_applyAlone hempty) (ends_applyAlone hafter)
    (Prog.ends_run _ (fun _ => {}) _).visits
  refine ⟨hload', fun c hc => ?_⟩
  rw [hcreds c hc, hview]
  constructor
  · exact fun v hv => absurd hv (some_ne_none v).symm
  obtain rfl := List.mem_singleton.1 hc
  intro v hv
  have hold := File.applied_credential (File.validate_ok hload') (List.mem_singleton.2 rfl) true
    (Config.empty.view markingKeyring.decryptString)
  cases hv.symm.trans hold
  decide +kernel

def certificateFile : File :=
  { plainFile with
    credentials := [
      { name := ascii "main", tenantID := ascii "contoso", clientID := ascii "app"
        authType := ascii "certificate", certificatePEM := ascii "PEM"
        certificateKeyPEM := ascii "KEY"
        authorityHost := ascii "https://login.microsoftonline.com" }] }

/-- A certificate and its key outlive the file that declared them. -/
theorem certificate_survives :
    plainFile.validate bareText = .ok () ∧ certificateFile.validate bareText = .ok () ∧
    (applyAlone true certificateFile Config.empty).1 = ({ created := 3 }, .ok ()) ∧
    (applyAlone true plainFile (applyAlone true certificateFile Config.empty).2).1 =
      ({ updated := 3 }, .ok ()) ∧
    (applyAlone true plainFile Config.empty).1 = ({ created := 3 }, .ok ()) ∧
    (((applyAlone true plainFile (applyAlone true certificateFile Config.empty).2).2.view
      markingKeyring.decryptString).credentials (ascii "main")).map
        (fun c => (c.certificatePEM, c.certificateKey)) = some (ascii "PEM", some (.ok (ascii "KEY"))) ∧
    (((applyAlone true plainFile Config.empty).2.view markingKeyring.decryptString).credentials
      (ascii "main")).map (fun c => (c.certificatePEM, c.certificateKey)) = some ([], none) := by
  decide +kernel

end SmtpProxy.Bootstrap
