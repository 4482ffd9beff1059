import SmtpProxy.Adminapi.AccountCourse
import SmtpProxy.Bootstrap.Converge

/-!
# The default mailbox of an account

Two ways lead to `default_mailbox_id`: a request names a mailbox by its key, the bootstrap file
by its address. The history of a store is kept beside it as what each account was last asked to
have (`Past.chosen`), and compared with what it has.
-/

namespace SmtpProxy.App

open Lib Policy Store Adminapi Bootstrap List Option Table Function

/-! ## What was asked for, and what there is -/

/-- How a default mailbox was named. -/
inductive Choice where
  | byID (id : Bytes)
  | byAddress (address : Bytes)
  deriving DecidableEq

def Choice.Names (c : Choice) (m : MailboxRow) : Prop :=
  match c with
  | .byID id => m.id = id
  | .byAddress address => m.address = address

def Choice.Used (c : Choice) (db : Config) (a : AccountRow) : Prop :=
  ∃ m ∈ db.mailboxes.rows, c.Names m ∧ a.defaultMailboxID = some m.id ∧ (a.id, m.id) ∈ db.links

/-- A store, and what each account in it was last asked to have for its default mailbox, by
username. -/
structure Past where
  db : Config
  chosen : Bytes → Option Choice

/-- Every account has what it was last asked to have. -/
def Past.Honoured (s : Past) : Prop :=
  ∀ a ∈ s.db.accounts.rows, ∀ c, s.chosen a.username = some c → c.Used s.db a

def requested (req : AccountRequest) : Option Choice :=
  (req.defaultMailboxID.bind nullString).map .byID

def declared (g : GoText) (acc : Bootstrap.Account) : Option Choice :=
  if acc.defaultMailbox = [] then none else some (.byAddress (g.toLower acc.defaultMailbox))

def declaredIn (g : GoText) (f : File) (chosen : Bytes → Option Choice) (username : Bytes) :
    Option Choice :=
  match f.accounts.find? fun acc => acc.username = username with
  | some acc => declared g acc
  | none => chosen username

inductive Change where
  | create (draw : AccountDraw) (req : AccountRequest) (env : ConfigOp → Fate)
  | update (id : Bytes) (req : AccountRequest) (env : ConfigOp → Fate)
  | apply (a : Applier) (f : File)

variable (srv : Server) (g : GoText)

/-- A request that is accepted, or a file that is applied to its end. -/
inductive Step : Past → Change → Past → Prop where
  | created {s : Past} {draw : AccountDraw} {req : AccountRequest} {env : ConfigOp → Fate}
      {resp : Response AccountPayload} {t : Config}
      (hrun : (handleCreateAccount srv g draw (.ok req)).run env s.db = (resp, t))
      (haccepted : resp.succeeded = true) :
      Step s (.create draw req env)
        ⟨t, update s.chosen (trimSpace req.username) (requested req)⟩
  | updated {s : Past} {id : Bytes} {req : AccountRequest} {env : ConfigOp → Fate}
      {resp : Response AccountPayload} {t : Config} {a : AccountRow}
      (hget : s.db.accounts.get id = some a)
      (hrun : (handleUpdateAccount srv g id (.ok req)).run env s.db = (resp, t))
      (haccepted : resp.succeeded = true) :
      Step s (.update id req env)
        ⟨t, update (update s.chosen a.username none) (req.apply a).username
          (requested req)⟩
  | applied {s : Past} {a : Applier} {f : File} {result : Result} {t : Config}
      (hload : f.validate g = .ok ()) (hends : (a.apply g f).Ends s.db (result, .ok ()) t) :
      Step s (.apply a f) ⟨t, declaredIn g f s.chosen⟩

/-- The mailbox a request names is linked by it, or was linked before. -/
def RequestLinks (db : Config) (id : Bytes) (req : AccountRequest) : Prop :=
  ∀ mailboxID, req.defaultMailboxID.bind nullString = some mailboxID →
    match req.mailboxIDs with
    | none => (id, mailboxID) ∈ db.links
    | some ids => mailboxID ∈ ids

/-- The mailbox a declaration names is in the account's own list, or the account is skipped and
has it already. -/
structure DeclarationLands (g : GoText) (db : Config) (reconcile : Bool) (acc : Bootstrap.Account) :
    Prop where
  written : reconcile = true ∨ (∀ a ∈ db.accounts.rows, a.username ≠ acc.username) →
    g.toLower acc.defaultMailbox ∈ acc.addresses g
  skipped : reconcile = false → ∀ a ∈ db.accounts.rows, a.username = acc.username →
    (Choice.byAddress (g.toLower acc.defaultMailbox)).Used db a

/-- When what is named comes to be used. -/
def Change.Lands (db : Config) : Change → Prop
  | .create draw req _ => RequestLinks db draw.id req
  | .update id req _ => RequestLinks db id req
  | .apply a f => ∀ acc ∈ f.accounts, acc.defaultMailbox ≠ [] → DeclarationLands g db a.reconcile acc

/-- The histories of a store in which what was named has come to be used. -/
inductive History : Past → Prop where
  | empty : History ⟨Store.Config.empty, fun _ => none⟩
  | step {s s' : Past} {c : Change} (h : History s) (hstep : Step srv g s c s')
      (hlands : c.Lands g s.db) : History s'

variable {srv g} {db t : Config}

/-! ## Requests -/

variable {a : AccountRow}

/-- Whether a mailbox is used is up to the mailboxes and the account's own links. -/
theorem Choice.used_congr {c : Choice} (hmail : t.mailboxes = db.mailboxes)
    (hlinks : ∀ m, (a.id, m) ∈ t.links ↔ (a.id, m) ∈ db.links) : c.Used t a ↔ c.Used db a := by
  unfold Choice.Used
  rw [hmail]
  simp only [hlinks]

variable {id : Bytes} {req : AccountRequest}

theorem used_iff_requestLinks (hmail : t.mailboxes = db.mailboxes)
    (hlinks : t.links = linksAfter db id req.mailboxIDs) (hid : a.id = id)
    (hdefault : ∀ m, req.defaultMailboxID.bind nullString = some m → a.defaultMailboxID = some m)
    (hthere : db.hasMailbox (req.defaultMailboxID.bind nullString) = true) :
    (∀ c, requested req = some c → c.Used t a) ↔ RequestLinks db id req := by
  subst hid
  unfold requested RequestLinks
  cases hnamed : req.defaultMailboxID.bind nullString with
  | none => simp
  | some m =>
  rw [hnamed] at hthere
  obtain ⟨row, hrow⟩ := isSome_iff_exists.1 (show (db.mailboxes.get m).isSome = true from hthere)
  obtain ⟨hmem, hkey⟩ := get_eq_some_iff.1 hrow
  have hlinked : (a.id, m) ∈ linksAfter db a.id req.mailboxIDs ↔
      match req.mailboxIDs with
      | none => (a.id, m) ∈ db.links
      | some ids => m ∈ ids := by
    cases req.mailboxIDs with
    | none => rfl
    | some ids => exact mem_linksAfter
  simp only [map_some, Option.some.injEq, forall_eq', ← hlinked]
  constructor
  · rintro ⟨row', -, rfl, -, hl⟩
    rw [← hlinks]
    exact hl
  intro hl
  refine ⟨row, hmail ▸ hmem, hkey, hkey ▸ hdefault m hnamed, ?_⟩
  rw [hkey, hlinks]
  exact hl

variable {env : ConfigOp → Fate}

theorem relinked_sound (hs : db.Sound) (hrow : (db.accounts.get id).isSome = true)
    (hmail : mailboxesApply env db req = true) :
    Config.Sound { db with
      links := linksAfter db id req.mailboxIDs
      senders := sendersAfter db id req.allowedSenders } := by
  have hlinks : Config.Sound { db with links := linksAfter db id req.mailboxIDs } := by
    unfold mailboxesApply at hmail
    cases hids : req.mailboxIDs with
    | none => exact hs
    | some ids =>
    rw [hids] at hmail
    obtain ⟨-, hall⟩ := Bool.and_eq_true_iff.1 hmail
    refine hs.withLinks fun m hm => ?_
    rw [Config.linkable, hrow, List.all_eq_true.1 hall m hm]
    rfl
  cases hpatterns : req.allowedSenders with
  | none => exact hlinks
  | some patterns => exact hlinks.withSenders fun _ => hrow

variable {s : Past}

theorem honoured_iff {chosen : Bytes → Option Choice} {new : AccountRow}
    {ids : Option (List Bytes)} (hhonoured : s.Honoured) (hnew : new ∈ t.accounts.rows)
    (hothers : ∀ a ∈ t.accounts.rows, a.id ≠ new.id → a ∈ s.db.accounts.rows ∧
      chosen a.username = s.chosen a.username)
    (hmail : t.mailboxes = s.db.mailboxes) (hlinks : t.links = linksAfter s.db new.id ids) :
    Past.Honoured ⟨t, chosen⟩ ↔ ∀ c, chosen new.username = some c → c.Used t new := by
  refine ⟨fun h => h new hnew, fun h a ha c hc => ?_⟩
  by_cases hid : a.id = new.id
  · rw [eq_of_key (get_key hnew) ha hid] at hc ⊢
    exact h c hc
  obtain ⟨hold, hsame⟩ := hothers a ha hid
  rw [Choice.used_congr hmail fun m => by rw [hlinks, mem_linksAfter_of_ne hid]]
  exact hhonoured a hold c (hsame.symm.trans hc)

theorem created_step (hs : s.db.Sound) (hhonoured : s.Honoured) {draw : AccountDraw}
    {resp : Response AccountPayload}
    (hrun : (handleCreateAccount srv g draw (.ok req)).run env s.db = (resp, t))
    (haccepted : resp.succeeded = true) :
    t.Sound ∧
      (Past.Honoured ⟨t, update s.chosen (trimSpace req.username) (requested req)⟩ ↔
        RequestLinks s.db draw.id req) := by
  obtain ⟨req', hash, accounts, hcreates, hinsert, hmail, rfl⟩ := create_accepted hrun haccepted
  obtain rfl := Except.ok.inj hcreates.body
  have hnew := (mem_insert hinsert).2 (.inr rfl)
  have hthere : (accounts.get draw.id).isSome = true := by
    rw [show draw.id = ((req.newAccount hash).created draw.id (env .accountCreate).now).id from rfl,
      get_key hnew]
    rfl
  refine ⟨relinked_sound (hs.withAccount hinsert hcreates.name hcreates.mailbox) hthere hmail, ?_⟩
  refine Iff.trans (honoured_iff hhonoured hnew ?_ rfl rfl) ?_
  · intro a ha hid
    obtain hold | rfl := (mem_insert hinsert).1 ha
    · exact ⟨hold, update_of_ne (hcreates.name a hold) _ _⟩
    · exact absurd rfl hid
  rw [show (AccountRow.created _ draw.id _).username = trimSpace req.username from rfl, update_self]
  exact used_iff_requestLinks rfl rfl rfl (fun m hm => hm) hcreates.mailbox

theorem apply_defaultMailboxID {m : Bytes} (h : req.defaultMailboxID.bind nullString = some m) :
    (req.apply a).defaultMailboxID = some m := by
  obtain ⟨id, hid, hm⟩ := bind_eq_some_iff.1 h
  simp only [AccountRequest.apply, hid, hm]

theorem updated_step (hs : s.db.Sound) (hhonoured : s.Honoured) {resp : Response AccountPayload}
    (hget : s.db.accounts.get id = some a)
    (hrun : (handleUpdateAccount srv g id (.ok req)).run env s.db = (resp, t))
    (haccepted : resp.succeeded = true) :
    t.Sound ∧ (Past.Honoured ⟨t, update (update s.chosen a.username none)
        (req.apply a).username (requested req)⟩ ↔ RequestLinks s.db id req) := by
  obtain ⟨req', a', hupdates, hmail, rfl⟩ := update_accepted hrun haccepted
  obtain rfl := Except.ok.inj hupdates.body
  cases hget.symm.trans hupdates.found
  obtain ⟨hmem, rfl⟩ := get_eq_some_iff.1 hget
  set now := (env .accountUpdate).now
  have hnew : (req.apply a).assign now a ∈ (s.db.writeAccount now (req.apply a)).accounts.rows :=
    List.mem_map.2 ⟨a, hmem, if_pos (by simp [AccountRequest.apply])⟩
  have hthere : ((s.db.writeAccount now (req.apply a)).accounts.get a.id).isSome = true := by
    rw [Config.get_writeAccount, hget]
    rfl
  refine ⟨relinked_sound (hs.writeAccount hupdates.name hupdates.mailbox) hthere hmail, ?_⟩
  refine Iff.trans (honoured_iff hhonoured hnew ?_ rfl rfl) ?_
  · intro r hr hid
    have hold := Config.mem_of_mem_writeAccount hr hid
    refine ⟨hold, ?_⟩
    rw [update_of_ne (hupdates.name r hold hid), update_of_ne]
    intro huser
    exact hid (inj_on_of_nodup_map hs.usernames hold hmem huser ▸ rfl)
  rw [show ((req.apply a).assign now a).username = (req.apply a).username from rfl, update_self]
  refine used_iff_requestLinks rfl rfl rfl (fun m hm => apply_defaultMailboxID hm) ?_
  cases hnamed : req.defaultMailboxID.bind nullString with
  | none => rfl
  | some m => exact apply_defaultMailboxID hnamed ▸ hupdates.mailbox

/-! ## Files -/

def Choice.addressIn (db : Config) : Choice → Option Bytes
  | .byID id => db.addressOf id
  | .byAddress address => some address

def AccountView.Uses (v : AccountView) (address : Bytes) : Prop :=
  v.defaultMailbox = some address ∧ address ∈ v.links

theorem Choice.used_iff (hs : db.Sound) {c : Choice} :
    c.Used db a ↔ ∃ address, c.addressIn db = some address ∧ AccountView.Uses (db.accountView a) address := by
  constructor
  · rintro ⟨m, hm, hnames, hdefault, hlink⟩
    have haddr : db.addressOf m.id = some m.address := by
      rw [Config.addressOf, get_key hm, map_some]
    refine ⟨m.address, ?_, ?_, m.id, hlink, haddr⟩
    · cases c with
      | byID id => rw [Choice.addressIn, ← show m.id = id from hnames, haddr]
      | byAddress address => exact congrArg some (Eq.symm hnames)
    show a.defaultMailboxID.bind db.addressOf = _
    rw [hdefault, bind_some, haddr]
  rintro ⟨address, haddr, hdefault, id, hlink, hid⟩
  obtain ⟨id', hid', haddr'⟩ := bind_eq_some_iff.1 hdefault
  obtain rfl := Config.addressOf_inj hs hid haddr'
  obtain ⟨m, hm, rfl⟩ := map_eq_some_iff.1 hid
  obtain ⟨hmem, rfl⟩ := get_eq_some_iff.1 hm
  refine ⟨m, hmem, ?_, hid', hlink⟩
  cases c with
  | byID id => exact Config.addressOf_inj hs hid haddr
  | byAddress address => exact (some.inj haddr).symm

theorem Choice.addressIn_mono {c : Choice} {address : Bytes} (hext : db.Extends t)
    (h : c.addressIn db = some address) : c.addressIn t = some address := by
  cases c with
  | byID id => exact hext.addresses id address h
  | byAddress a => exact h

/-- An account that is written uses the mailbox it names exactly if this is in its list. -/
theorem written_uses_iff {acc : Bootstrap.Account} {known : List Bytes} {reconcile : Bool}
    {old : Option AccountView} (hnamed : acc.defaultMailbox ≠ [])
    (hwrites : old = none ∨ reconcile = true) :
    AccountView.Uses (acc.written g reconcile (knownAfter g known acc) old)
        (g.toLower acc.defaultMailbox) ↔ g.toLower acc.defaultMailbox ∈ acc.addresses g := by
  have hdefault : (acc.written g reconcile (knownAfter g known acc) old).defaultMailbox =
      acc.defaultAddress g (knownAfter g known acc) := by
    cases old with
    | none => rfl
    | some v =>
      rw [Account.written, if_pos (by simpa using hwrites)]
      rfl
  unfold AccountView.Uses
  rw [hdefault, (acc.written_parts g _ hwrites).1, Account.defaultAddress, if_pos hnamed]
  refine ⟨And.right, fun hmem => ⟨if_pos ?_, hmem⟩⟩
  exact mem_append_left _ hmem

theorem declaredIn_of_mem {f : File} (hvalid : f.Valid g) {acc : Bootstrap.Account}
    (hacc : acc ∈ f.accounts) (chosen : Bytes → Option Choice) :
    declaredIn g f chosen acc.username = declared g acc := by
  unfold declaredIn
  split
  · next acc' hfind =>
    have huser : acc'.username = acc.username := by simpa using find?_some hfind
    rw [inj_on_of_nodup_map hvalid.usernames (mem_of_find?_eq_some hfind) hacc huser]
  · next hfind => exact absurd (decide_eq_true rfl) (find?_eq_none.1 hfind acc hacc)

section

variable {s : Past} {a : Applier} {f : File} {opened : Bytes → Bytes → Except Err Bytes}
  (hvalid : f.Valid g) (hs : s.db.Sound) (happlied : f.AppliedBeside g a.reconcile opened s.db t)

include hvalid hs happlied

/-- An account of the file uses what its declaration names exactly if the declaration lands. -/
theorem declaration_used_iff {acc : Bootstrap.Account} (hacc : acc ∈ f.accounts)
    (hnamed : acc.defaultMailbox ≠ []) {r : AccountRow} (hr : r ∈ t.accounts.rows)
    (huser : r.username = acc.username) :
    (Choice.byAddress (g.toLower acc.defaultMailbox)).Used t r ↔
      DeclarationLands g s.db a.reconcile acc := by
  obtain ⟨known, hwritten⟩ := File.applied_account hvalid hacc a.reconcile
  have hview : t.accountView r = acc.written g a.reconcile (knownAfter g known acc)
      ((s.db.view opened).accounts acc.username) := by
    have hseen : (t.view opened).accounts r.username = some (t.accountView r) :=
      Config.accounts_of_get happlied.sound (get_key hr)
    rw [happlied.accounts, huser, hwritten] at hseen
    exact (some.inj hseen).symm
  have hused : ∀ {db : Config} {r}, db.Sound →
      ((Choice.byAddress (g.toLower acc.defaultMailbox)).Used db r ↔
        AccountView.Uses (db.accountView r) (g.toLower acc.defaultMailbox)) := fun hdb => by
    rw [Choice.used_iff hdb]
    simp [Choice.addressIn]
  rw [hused happlied.sound, hview]
  cases hold : (s.db.view opened).accounts acc.username with
  | none =>
    have hnew : ∀ r ∈ s.db.accounts.rows, r.username ≠ acc.username :=
      lookupBy_eq_none_iff.1 (map_eq_none_iff.1 hold)
    rw [written_uses_iff hnamed (.inl rfl)]
    exact ⟨fun hmem => ⟨fun _ => hmem, fun _ r hr h => absurd h (hnew r hr)⟩,
      fun h => h.written (.inr hnew)⟩
  | some v =>
  cases hrec : a.reconcile with
  | true =>
    rw [written_uses_iff hnamed (.inr rfl)]
    exact ⟨fun hmem => ⟨fun _ => hmem, by simp⟩, fun h => h.written (.inl rfl)⟩
  | false =>
  obtain ⟨row, hrow, rfl⟩ := map_eq_some_iff.1 hold
  obtain ⟨hmem, hrowname⟩ := lookupBy_mem hrow
  show AccountView.Uses (s.db.accountView row) _ ↔ _
  rw [← hused hs]
  constructor
  · refine fun hrowused => ⟨fun h => ?_, fun _ r hr hname => ?_⟩
    · exact absurd hrowname (h.resolve_left Bool.false_ne_true row hmem)
    · rw [inj_on_of_nodup_map hs.usernames hr hmem (hname.trans hrowname.symm)]
      exact hrowused
  · exact fun h => h.skipped rfl row hmem hrowname

omit hvalid in
theorem used_of_not_declared {c : Choice} {r : AccountRow} (hhonoured : s.Honoured)
    (hr : r ∈ t.accounts.rows) (hother : ∀ acc ∈ f.accounts, acc.username ≠ r.username)
    (hc : s.chosen r.username = some c) : c.Used t r := by
  have hseen : (t.view opened).accounts r.username = some (t.accountView r) :=
    Config.accounts_of_get happlied.sound (get_key hr)
  rw [happlied.accounts, File.applied_account_of_not_mem hother] at hseen
  obtain ⟨row, hrow, hsame⟩ := map_eq_some_iff.1 hseen
  obtain ⟨hmem, huser⟩ := lookupBy_mem hrow
  obtain ⟨address, haddr, huses⟩ := (Choice.used_iff hs).1 (hhonoured row hmem c (huser ▸ hc))
  exact (Choice.used_iff happlied.sound).2
    ⟨address, Choice.addressIn_mono happlied.ext haddr, hsame ▸ huses⟩

theorem applied_step (hhonoured : s.Honoured) :
    Past.Honoured ⟨t, declaredIn g f s.chosen⟩ ↔ (Change.apply a f).Lands g s.db := by
  constructor
  · intro h acc hacc hnamed
    obtain ⟨known, hwritten⟩ := File.applied_account hvalid hacc a.reconcile
    have hseen := hwritten (s.db.view opened)
    rw [← happlied.accounts] at hseen
    obtain ⟨r, hr, -⟩ := map_eq_some_iff.1 hseen
    obtain ⟨hr, huser⟩ := lookupBy_mem hr
    refine (declaration_used_iff hvalid hs happlied hacc hnamed hr huser).1 (h r hr _ ?_)
    show declaredIn g f s.chosen r.username = _
    rw [huser, declaredIn_of_mem hvalid hacc, declared, if_neg hnamed]
  intro hlands r hr c hc
  have hc : declaredIn g f s.chosen r.username = some c := hc
  by_cases hother : ∀ acc ∈ f.accounts, acc.username ≠ r.username
  · refine used_of_not_declared hs happlied hhonoured hr hother ?_
    rw [declaredIn, find?_eq_none.2 fun acc hacc => by simpa using hother acc hacc] at hc
    exact hc
  push Not at hother
  obtain ⟨acc, hacc, huser⟩ := hother
  rw [← huser, declaredIn_of_mem hvalid hacc, declared] at hc
  split at hc
  · cases hc
  next hnamed =>
  cases hc
  exact (declaration_used_iff hvalid hs happlied hacc hnamed hr huser.symm).2
    (hlands acc hacc hnamed)

end

/-! ## Every history -/

theorem Step.honoured_iff {s' : Past} {c : Change} (hstep : Step srv g s c s') (hs : s.db.Sound)
    (hhonoured : s.Honoured) : s'.db.Sound ∧ (s'.Honoured ↔ c.Lands g s.db) := by
  cases hstep with
  | created hrun haccepted => exact created_step hs hhonoured hrun haccepted
  | updated hget hrun haccepted => exact updated_step hs hhonoured hget hrun haccepted
  | applied hload hends =>
  have hvalid := File.validate_ok hload
  have happlied := Applier.apply_ends_beside hvalid (fun _ _ => .ok []) hs hends
  exact ⟨happlied.sound, applied_step hvalid hs happlied hhonoured⟩

theorem History.honoured (h : History srv g s) : s.db.Sound ∧ s.Honoured := by
  induction h with
  | empty => exact ⟨Config.empty_sound, fun a ha => absurd ha not_mem_nil⟩
  | step _ hstep hlands ih =>
    obtain ⟨hsound, hiff⟩ := hstep.honoured_iff ih.1 ih.2
    exact ⟨hsound, hiff.2 hlands⟩

theorem mem_listForAccount {mb : Store.Mailbox} : mb ∈ db.directory.listForAccount id ↔
      mb ∈ db.directory.mailboxes.rows ∧ db.directory.allows id mb.id = true := by
  rw [Directory.listForAccount, (perm_insertionSort _ _).mem_iff, mem_filter]

theorem defaultMailbox_eq {m : MailboxRow} (hs : db.Sound) (ha : a ∈ db.accounts.rows)
    (hm : m ∈ db.mailboxes.rows) (hdefault : a.defaultMailboxID = some m.id) :
    m.toMailbox ∈ db.directory.listForAccount a.id ∧
      ∀ first, defaultMailbox first (db.directory.listForAccount a.id) (a.defaultMailboxID.getD []) =
        m.toMailbox := by
  have haccount : db.directory.accounts.get a.id = some a.toSMTPAccount :=
    get_eq_some_iff.2 ⟨List.mem_map_of_mem ha, rfl⟩
  have hmailbox : db.directory.mailboxes.get m.id = some m.toMailbox :=
    get_eq_some_iff.2 ⟨List.mem_map_of_mem hm, rfl⟩
  have hlisted : m.toMailbox ∈ db.directory.listForAccount a.id := by
    refine mem_listForAccount.2 ⟨List.mem_map_of_mem hm, ?_⟩
    simp [Directory.allows, haccount, hdefault]
  refine ⟨hlisted, fun first => ?_⟩
  rw [defaultMailbox, hdefault, getD_some, if_pos (hs.ids m hm)]
  -- no other mailbox in the list has its key
  cases hfind : (db.directory.listForAccount a.id).find? fun mb => mb.id = m.id with
  | none => exact absurd (decide_eq_true rfl) (find?_eq_none.1 hfind _ hlisted)
  | some mb =>
    have hmb := (mem_listForAccount.1 (mem_of_find?_eq_some hfind)).1
    exact eq_of_key hmailbox hmb (by simpa using find?_some hfind)

/-- **The default mailbox an account was last asked to have is the one it uses**, in every history
whose changes land; and a change that does not leaves an account that uses another. -/
theorem chosen_default_used (srv : Server) (g : GoText) :
    (∀ s, History srv g s → ∀ a ∈ s.db.accounts.rows, ∀ c, s.chosen a.username = some c →
      ∃ m ∈ s.db.mailboxes.rows, c.Names m ∧ a.defaultMailboxID = some m.id ∧
        (a.id, m.id) ∈ s.db.links ∧ m.toMailbox ∈ s.db.directory.listForAccount a.id ∧
        ∀ first, defaultMailbox first (s.db.directory.listForAccount a.id)
          (a.defaultMailboxID.getD []) = m.toMailbox) ∧
    ∀ s c s', History srv g s → Step srv g s c s' → (s'.Honoured ↔ c.Lands g s.db) := by
  refine ⟨fun s h a ha c hc => ?_, fun s c s' h hstep => ?_⟩
  · obtain ⟨hs, hhonoured⟩ := h.honoured
    obtain ⟨m, hm, hnames, hdefault, hlink⟩ := hhonoured a ha c hc
    obtain ⟨hlisted, hres⟩ := defaultMailbox_eq hs ha hm hdefault
    exact ⟨m, hm, hnames, hdefault, hlink, hlisted, hres⟩
  obtain ⟨hs, hhonoured⟩ := h.honoured
  exact (hstep.honoured_iff hs hhonoured).2

def afterPlain : Past where
  db := (applyAlone false plainFile Store.Config.empty).2
  chosen := declaredIn bareText plainFile fun _ => none

theorem afterPlain_history : History (plainServer {}) bareText afterPlain := by
  have hload : plainFile.validate bareText = .ok () := by decide +kernel
  have happly : (applyAlone false plainFile Store.Config.empty).1 = ({ created := 3 }, .ok ()) := by
    decide +kernel
  refine .step .empty (.applied hload (ends_applyAlone happly)) ?_
  intro acc hacc _
  obtain rfl := mem_singleton.1 hacc
  exact ⟨fun _ => by decide +kernel, fun _ a ha => absurd ha not_mem_nil⟩

def scannerRequest : AccountRequest where
  username := ascii "scanner"
  password := some (ascii "long enough")
  defaultMailboxID := some (1 :: ascii "alerts@example.com")
  mailboxIDs := some [1 :: ascii "alerts@example.com"]

def scannerDraw : AccountDraw := ⟨ascii "s1", .error (.new [])⟩

def createScanner : Response AccountPayload × Config :=
  (handleCreateAccount (plainServer {}) bareText scannerDraw (.ok scannerRequest)).run (fun _ => {})
    afterPlain.db

/-- The account that was asked for has the mailbox it was asked for. -/
theorem scanner_uses_alerts : createScanner.1.succeeded = true ∧
    ∃ a ∈ createScanner.2.accounts.rows, a.username = ascii "scanner" ∧
      ∃ m ∈ createScanner.2.mailboxes.rows, m.id = 1 :: ascii "alerts@example.com" ∧
        ∀ first, defaultMailbox first (createScanner.2.directory.listForAccount a.id)
          (a.defaultMailboxID.getD []) = m.toMailbox := by
  have haccepted : createScanner.1.succeeded = true := by decide +kernel
  have hstep : Step (plainServer {}) bareText afterPlain
      (.create scannerDraw scannerRequest fun _ => {}) ⟨createScanner.2,
        update afterPlain.chosen (trimSpace scannerRequest.username)
          (requested scannerRequest)⟩ := .created rfl haccepted
  have hhistory := History.step afterPlain_history hstep fun m hm => by
    cases hm
    exact mem_singleton.2 rfl
  obtain ⟨a, ha⟩ := isSome_iff_exists.1 (show
    (createScanner.2.accounts.lookupBy (·.username) (ascii "scanner")).isSome = true by decide +kernel)
  obtain ⟨hmem, huser⟩ := lookupBy_mem ha
  have hchosen : update afterPlain.chosen (trimSpace scannerRequest.username)
      (requested scannerRequest) a.username = some (.byID (1 :: ascii "alerts@example.com")) := by
    rw [huser, show trimSpace scannerRequest.username = ascii "scanner" by decide, update_self]
    rfl
  obtain ⟨m, hm, hnames, -, -, -, hres⟩ :=
    (chosen_default_used (plainServer {}) bareText).1 _ hhistory a hmem _ hchosen
  exact ⟨haccepted, a, hmem, huser, m, hm, hnames, hres⟩

/-- A file that declares an account for a mailbox the store has, and lists none. -/
def scannerFile : File where
  accounts := [
    { username := ascii "scanner", passwordHash := ascii "$argon2id$v=19$"
      defaultMailbox := ascii "alerts@example.com" }]

def applyScanner : (Result × Except Err Unit) × Config := applyAlone true scannerFile afterPlain.db

/-- `scannerFile` is applied without complaint, and its account gets no default mailbox. -/
theorem declared_default_dropped : History (plainServer {}) bareText afterPlain ∧
    scannerFile.validate bareText = .ok () ∧
    applyScanner.1 = ({ created := 1 }, .ok ()) ∧
    (applyScanner.2.mailboxes.lookupBy (·.address) (ascii "alerts@example.com")).isSome = true ∧
    (applyScanner.2.accounts.lookupBy (·.username) (ascii "scanner")).map (·.defaultMailboxID) =
      some none ∧
    ¬ Past.Honoured ⟨applyScanner.2, declaredIn bareText scannerFile afterPlain.chosen⟩ := by
  have hnone : (applyScanner.2.accounts.lookupBy (·.username) (ascii "scanner")).map
      (·.defaultMailboxID) = some none := by decide +kernel
  refine ⟨afterPlain_history, by decide +kernel, by decide +kernel, by decide +kernel, hnone, ?_⟩
  intro hhonoured
  obtain ⟨a, ha, hdefault⟩ := map_eq_some_iff.1 hnone
  obtain ⟨hmem, huser⟩ := lookupBy_mem ha
  obtain ⟨m, -, -, hsome, -⟩ := hhonoured a hmem (.byAddress (ascii "alerts@example.com")) (by
    show declaredIn _ _ _ a.username = _
    rw [huser]
    decide +kernel)
  cases hdefault.symm.trans hsome

end SmtpProxy.App
