import SmtpProxy.Adminapi.Requests
import SmtpProxy.Bootstrap.Effect
import SmtpProxy.Policy.Canonical
import SmtpProxy.Policy.SenderPolicy

/-!
# The addresses of stored mailboxes

A mailbox's address is parsed before it is stored, but what is stored is the text
that was given, in lower case: with its display name, its brackets or its quotes,
and from the bootstrap file with the blanks around it. Later readers parse the
stored text again and expect the mailbox's own address.
-/

namespace SmtpProxy.App

open Lib Utf8 Policy Store Adminapi Bootstrap List Option Table

/-! ## What a bootstrap file writes -/

def Addresses (P : Bytes → Prop) (db : Config) : Prop := ∀ m ∈ db.mailboxes.rows, P m.address

section

variable {P : Bytes → Prop} {g : GoText} {a : Applier} {p : Progress}

/-- Every statement of the program leaves such mailboxes. -/
abbrev KeepsAddresses {α : Type} (P : Bytes → Prop) (prog : ConfigProg α) : Prop :=
  prog.Keeps (Addresses P) fun _ => True

theorem applyEach_keeps {α : Type} {one : α → Progress → Step} {xs : List α}
    (hone : ∀ x ∈ xs, ∀ p, KeepsAddresses P (one x p)) : KeepsAddresses P (applyEach one xs p) := by
  induction xs generalizing p with
  | nil => trivial
  | cons x xs ih =>
  refine .seq (hone x (.head _) p) fun r => ?_
  obtain ⟨p', e | u⟩ := r
  · trivial
  · exact ih fun y hy => hone y (.tail _ hy)

theorem andThen_keeps {first : Step} {next : Progress → Step} (h : KeepsAddresses P first)
    (hnext : ∀ p, KeepsAddresses P (next p)) : KeepsAddresses P (andThen first next) := by
  refine .seq h fun r => ?_
  obtain ⟨p', e | u⟩ := r
  · trivial
  · exact hnext p'

theorem applyCredential_keeps (c : Bootstrap.Credential) :
    KeepsAddresses P (a.applyCredential g c p) := by
  refine .seq query_reads fun found => ?_
  split
  · split
    · trivial
    · unfold Applier.updateCredential
      split
      · trivial
      refine .seq (stamping_keeps fun now db h => ?_) fun r => by
        obtain ⟨_, e | u⟩ := r <;> trivial
      unfold Config.updateCredential
      split <;> exact h
  split
  · trivial
  unfold Applier.createCredential
  split
  · trivial
  refine .seq (stamping_keeps fun now db h => ?_) fun r => by
    obtain ⟨_, e | u⟩ := r <;> trivial
  unfold Config.insertCredential
  split <;> exact h

/-- A declared mailbox brings its own address in lower case, and no other. -/
theorem applyMailbox_keeps {m : Bootstrap.Mailbox} (hm : P (g.toLower m.address)) :
    KeepsAddresses P (a.applyMailbox g m p) := by
  have hcred : KeepsAddresses P (credentialIDFor g m p) := by
    unfold credentialIDFor
    split
    · trivial
    · exact .seq query_reads fun found => by split <;> trivial
  refine .seq hcred fun r => ?_
  obtain e | ⟨credentialID, p'⟩ := r
  · trivial
  have hcreate : KeepsAddresses P (a.createMailbox g m credentialID p') := by
    refine .seq (stamping_keeps fun now db h => ?_) fun r => by obtain ⟨_, e | u⟩ := r <;> trivial
    unfold Config.insertMailbox
    split
    · exact h
    · next hok => exact forall_insert h hm (insertRow_ok hok).1
  -- a mailbox that is found has an address that is there
  refine .bind ((query_keeps (Q := fun found => ∀ row, found = .ok row → P row.address)
    (fun e => nofun) fun db h row hrow => ?_).mono fun found hfound => ?_)
  · split at hrow
    · next m hm => exact Except.ok.inj hrow ▸ h m (lookupBy_mem hm).1
    · cases hrow
  cases found with
  | error e =>
    dsimp only
    split
    · trivial
    · exact hcreate
  | ok row =>
  dsimp only
  split
  · trivial
  refine .seq (stamping_keeps fun now db h => ?_) fun r => by obtain ⟨_, e | u⟩ := r <;> trivial
  unfold Config.updateMailbox
  split
  · exact h
  exact forall_updateWhere (P := fun r : MailboxRow => P r.address)
    ((m.over credentialID row).assign_id now) h fun _ _ _ => hfound row rfl

theorem mailboxIDsFor_keeps {username : Bytes} (addresses : List Bytes) :
    KeepsAddresses P (mailboxIDsFor g username addresses p) := by
  induction addresses generalizing p with
  | nil => trivial
  | cons address addresses ih =>
  have hone : KeepsAddresses P (mailboxIDFor g username address p) := by
    unfold mailboxIDFor
    split
    · trivial
    · exact .seq query_reads fun found => by split <;> trivial
  refine .seq hone fun r => ?_
  obtain e | ⟨id, p'⟩ := r
  · trivial
  · exact .seq ih fun r => by split <;> trivial

theorem linkAccount_keeps {id : Bytes} {ids senders : List Bytes} :
    KeepsAddresses P (linkAccount id ids senders) := by
  refine .seq (statement_keeps (fun _ => trivial) fun now db h => ?_) fun linked => ?_
  · unfold Config.setMailboxes
    split <;> exact ⟨h, trivial⟩
  split
  · trivial
  refine .seq (statement_keeps (fun _ => trivial) fun now db h => ?_) fun r => by split <;> trivial
  unfold Config.setAllowedSenders
  split <;> exact ⟨h, trivial⟩

theorem applyAccount_keeps (acc : Bootstrap.Account) : KeepsAddresses P (a.applyAccount g acc p) := by
  refine .seq (mailboxIDsFor_keeps acc.mailboxes) fun r => ?_
  obtain e | ⟨ids, p'⟩ := r
  · trivial
  refine .seq query_reads fun found => ?_
  split
  · split
    · trivial
    · refine .seq (stamping_keeps fun now db h => ?_) fun r => ?_
      · unfold Config.updateAccount
        split <;> exact h
      · obtain ⟨_, e | u⟩ := r
        · trivial
        · exact .seq linkAccount_keeps fun linked => by split <;> trivial
  split
  · trivial
  refine .seq (stamping_keeps fun now db h => ?_) fun r => ?_
  · unfold Config.insertAccount
    split <;> exact h
  obtain ⟨_, e | u⟩ := r
  · trivial
  · exact .seq linkAccount_keeps fun linked => by split <;> trivial

/-- **Wherever `Apply` is cut short**, a mailbox was there before or is in the file. -/
theorem apply_addresses {f : File} {db db' : Config}
    (hfile : ∀ m ∈ f.mailboxes, P (g.toLower m.address)) (h : Addresses P db)
    (hvisits : (a.apply g f).Visits db db') : Addresses P db' := by
  have happly : KeepsAddresses P (a.apply g f) := by
    refine .seq (andThen_keeps (andThen_keeps ?_ fun p => ?_) fun p => ?_) fun _ => trivial
    · exact applyEach_keeps fun c _ p => applyCredential_keeps c
    · exact applyEach_keeps fun m hm p => applyMailbox_keeps (hfile m hm)
    · exact applyEach_keeps fun acc _ p => applyAccount_keeps acc
  exact (happly.along h).visits hvisits

end

/-! ## Histories of a store -/

def storedText (g : GoText) : ConfigRequest → Option Bytes
  | .createMailbox _ (.ok req) =>
    if validateMailbox g req true = [] then some (storedAddress g req.address) else none
  | .updateMailbox _ (.ok req) =>
    if validateMailbox g req false = [] ∧ req.address ≠ [] then some (storedAddress g req.address)
    else none
  | _ => none

/-- A store that came about by requests, whatever failed on their way, and by files that were
applied, to their end or not. Every address that was accepted has `P` as it is stored. -/
inductive AddressHistory (srv : ConfigServer) (P : Bytes → Prop) : Config → Prop where
  | empty : AddressHistory srv P Store.Config.empty
  | call {db t : Config} {c : ConfigCall} (h : AddressHistory srv P db)
      (hserve : serveConfig srv db c = some t)
      (htext : ∀ s, storedText srv.text c.request = some s → P s) : AddressHistory srv P t
  | apply {db t : Config} {a : Applier} {f : File} (h : AddressHistory srv P db)
      (hload : f.validate srv.text = .ok ()) (hvisits : (a.apply srv.text f).Visits db t)
      (htexts : ∀ m ∈ f.mailboxes, P (srv.text.toLower m.address)) : AddressHistory srv P t

variable {srv : ConfigServer} {P : Bytes → Prop} {db db' : Config}

theorem ConfigStep.addresses {request : ConfigRequest} (h : ConfigStep srv db request db')
    (htext : ∀ s, storedText srv.text request = some s → P s) (hdb : Addresses P db) :
    Addresses P db' := by
  cases h with
  | createdMailbox hbody hvalid hinsert =>
    obtain rfl := hbody
    refine forall_insert hdb (htext _ ?_) hinsert
    rw [storedText, if_pos hvalid]
    rfl
  | @updatedMailbox id body req m now hbody hget hmanaged hvalid =>
    obtain rfl := hbody
    refine forall_updateWhere (P := fun r : MailboxRow => P r.address)
      ((req.apply srv.text m).assign_id now) hdb fun r hr hkey => ?_
    show P (if req.address = [] then m.address else storedAddress srv.text req.address)
    split
    · exact hdb m (mem_of_get hget)
    next hgiven =>
    apply htext
    rw [storedText, if_pos ⟨hvalid, hgiven⟩]
  | deletedMailbox hget hmanaged => exact forall_deleteWhere hdb
  | _ => exact hdb

/-- **Every stored address was accepted.** -/
theorem AddressHistory.addresses (h : AddressHistory srv P db) : Addresses P db := by
  induction h with
  | empty => exact fun m hm => absurd hm not_mem_nil
  | call _ hserve htext ih => exact ConfigStep.addresses (serveConfig_step hserve) htext ih
  | apply _ _ hvisits htexts ih => exact apply_addresses htexts ih hvisits

/-! ## What the readers of an address expect -/

/-- The mailbox can be sent as. -/
structure Usable (g : GoText) (mb : Store.Mailbox) : Prop where
  canonical : Canonical g mb.address
  /-- Rewriting to it does not panic, and does not give the null sender. -/
  rewritten : ∃ a, mustParseAddress g mb.address = .ok a ∧ a.isEmpty = false
  /-- A message from it goes out as it, if no other mailbox of the account folds to its address. -/
  own : ∃ a, parseHeaderFrom g mb.address = .ok a ∧ ∀ inp : Input, inp.account.enabled = true →
    mb ∈ inp.mailboxes → mb.enabled = true →
    (∀ other ∈ inp.mailboxes, g.equalFold other.address mb.address = true → other = mb) →
    resolve g { inp with headerFrom := a } =
      { action := .accept, mailbox := some mb, originalFrom := a }

theorem find?_only {α : Type} {p : α → Bool} {xs : List α} {x : α} (hx : x ∈ xs) (hp : p x = true)
    (honly : ∀ y ∈ xs, p y = true → y = x) : xs.find? p = some x := by
  cases hfind : xs.find? p with
  | none => exact absurd hp (find?_eq_none.1 hfind x hx)
  | some y => rw [honly y (mem_of_find?_eq_some hfind) (find?_some hfind)]

variable {g : GoText} {lib : NetMail.Tables}

theorem usable_iff (hlow : Lowers g.toLower) (hfold : ∀ s, g.equalFold s s = true)
    {mb : Store.Mailbox} : Usable (g.withMail lib) mb ↔ Standing g lib mb.address := by
  refine ⟨fun h => (canonical_iff hlow).1 h.canonical, fun h => ?_⟩
  refine ⟨(canonical_iff hlow).2 h, ?_, _, h.parseHeaderFrom, ?_⟩
  · refine ⟨_, ?_, h.isEmpty_read⟩
    unfold mustParseAddress
    rw [h.parseAddress]
  intro inp hon hmem hmb honly
  have hmay : MaySend { inp with headerFrom := MailAddress.read g ⟨[], mb.address⟩ } :=
    ⟨hon, ne_nil_of_mem hmem, h.isEmpty_read⟩
  obtain ⟨first, rest, hlist⟩ := exists_cons_of_ne_nil (ne_nil_of_mem hmem)
  have hmatch : matchMailbox (g.withMail lib) inp.mailboxes
      (MailAddress.read g ⟨[], mb.address⟩).normalized = some mb := by
    show inp.mailboxes.find? (fun other => g.equalFold other.address (g.toLower mb.address)) = _
    rw [h.lower]
    exact find?_only hmem (hfold _) honly
  rw [resolve_of_maySend (g.withMail lib) hmay hlist]
  dsimp only
  rw [hmatch]
  simp [hmb]

def mailServer (srv : ConfigServer) (lib : NetMail.Tables) : ConfigServer :=
  { srv with text := srv.text.withMail lib }

/-- **A stored mailbox can be sent as exactly if its address is a bare one in lower case**, which
it is where every address that was accepted is one as it is stored. -/
theorem stored_address_usable (srv : ConfigServer) (lib : NetMail.Tables)
    (hlow : Lowers srv.text.toLower) (hfold : ∀ s, srv.text.equalFold s s = true) :
    (∀ db, AddressHistory (mailServer srv lib) (fun _ => True) db → ∀ m ∈ db.mailboxes.rows,
      (Usable (srv.text.withMail lib) m.toMailbox ↔ Standing srv.text lib m.address)) ∧
    ∀ db, AddressHistory (mailServer srv lib) (Standing srv.text lib) db →
      ∀ m ∈ db.mailboxes.rows, Usable (srv.text.withMail lib) m.toMailbox :=
  ⟨fun _ _ _ _ => usable_iff hlow hfold,
    fun _ h m hm => (usable_iff hlow hfold).2 (h.addresses m hm)⟩

/-! ## Samples -/

theorem AddressHistory.calls {calls : List ConfigCall} (h : AddressHistory srv P db)
    (htexts : ∀ c ∈ calls, ∀ s, storedText srv.text c.request = some s → P s)
    (hrun : runActions (serveConfig srv) db calls = some db') : AddressHistory srv P db' := by
  induction calls generalizing db with
  | nil =>
    rw [← some.inj hrun]
    exact h
  | cons c calls ih =>
    obtain ⟨t, hserve, hrest⟩ := bind_eq_some_iff.1 hrun
    exact ih (h.call hserve (htexts c (.head _))) (fun c' hc' => htexts c' (.tail _ hc')) hrest

def plainMailServer : ConfigServer := mailServer plainConfigServer NetMail.bareTables

def withMailbox (address : Bytes) : List ConfigCall :=
  [⟨.createCredential (ascii "c") (.ok
      { name := ascii "main", tenantID := ascii "t", clientID := ascii "i", authType := ascii "secret",
        clientSecret := some (ascii "s") }), fun _ => {}⟩,
    ⟨.createMailbox (ascii "m") (.ok
      { address, oauthCredentialID := ascii "c", transport := ascii "smtp" }), fun _ => {}⟩]

theorem standing_alerts : Standing bareText NetMail.bareTables (ascii "alerts@x") where
  spec := show NetMail.AddrSpec _ (ascii "alerts" ++ 64 :: ascii "x") from
    .mk (by decide +kernel) (.atom (by decide +kernel))
  trimmed := by decide +kernel
  short := by decide
  lower := by decide

theorem alerts_usable :
    ∃ db, runActions (serveConfig plainMailServer) Store.Config.empty (withMailbox (ascii "Alerts@x"))
        = some db ∧ db.mailboxes.rows.map (·.address) = [ascii "alerts@x"] ∧
      ∀ m ∈ db.mailboxes.rows, Usable mailText m.toMailbox := by
  obtain ⟨db, hrun, hrows⟩ := map_eq_some_iff.1
    (show (runActions (serveConfig plainMailServer) Store.Config.empty
        (withMailbox (ascii "Alerts@x"))).map (fun db => db.mailboxes.rows.map (·.address))
        = some [ascii "alerts@x"] by decide +kernel)
  refine ⟨db, hrun, hrows, (stored_address_usable plainConfigServer NetMail.bareTables
    bareText_lowers (fun s => decide_eq_true rfl)).2 db (.calls .empty ?_ hrun)⟩
  have hstored : ∀ c ∈ withMailbox (ascii "Alerts@x"),
      ∀ s ∈ storedText plainMailServer.text c.request, s = ascii "alerts@x" := by decide +kernel
  intro c hc s hs
  rw [hstored c hc s hs]
  exact standing_alerts

/-- The null path is accepted and stored, and rewriting to it gives the null sender. -/
theorem nullPath_stored : ∃ db, AddressHistory plainMailServer (fun _ => True) db ∧
      ∃ m ∈ db.mailboxes.rows, m.address = ascii "<>" ∧ ¬ Canonical mailText m.address ∧
        mustParseAddress mailText m.address = .ok {} := by
  obtain ⟨db, hrun, hrows⟩ := map_eq_some_iff.1
    (show (runActions (serveConfig plainMailServer) Store.Config.empty (withMailbox (ascii "<>"))).map
        (fun db => db.mailboxes.rows.map (·.address)) = some [ascii "<>"] by decide +kernel)
  refine ⟨db, .calls .empty (fun _ _ _ _ => trivial) hrun, ?_⟩
  obtain ⟨m, hm, haddr⟩ : ∃ m ∈ db.mailboxes.rows, m.address = ascii "<>" :=
    mem_map.1 (hrows ▸ mem_singleton_self _)
  have hparse : parseAddress mailText (ascii "<>") = .ok {} := by decide +kernel
  refine ⟨m, hm, haddr, ?_, ?_⟩
  · rw [haddr]
    rintro ⟨a, ha, hne, -⟩
    rw [← Except.ok.inj (hparse.symm.trans ha)] at hne
    exact absurd hne (by decide)
  · rw [haddr, mustParseAddress, hparse]

end SmtpProxy.App
