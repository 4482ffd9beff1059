import SmtpProxy.Adminapi.SiteUsers
import SmtpProxy.Policy.Canonical

/-!
# Handlers and the secrets

Two requests are compared on stores that agree except in their secrets
(`DiagnosticsDB.Agree`): the handlers are `Discreet` if they issue the same statements, keep
the stores in agreement, and give the same answer but for a password that is given out on
purpose (`SameAnswer`). Requests may differ where a secret is supplied (`Concealed`).
-/

namespace SmtpProxy.Store

open Lib

def DiagnosticsDB.erased (db : DiagnosticsDB) : DiagnosticsDB :=
  { db with config := db.config.erased, admin := db.admin.erased }

def DiagnosticsDB.Agree (db db' : DiagnosticsDB) : Prop := db.erased = db'.erased

namespace DiagnosticsDB.Agree

variable {s t : DiagnosticsDB} (h : s.Agree t)
include h

theorem config : s.config.Agree t.config := congrArg DiagnosticsDB.config h

theorem admin : s.admin.Agree t.admin := congrArg DiagnosticsDB.admin h

theorem queue : s.queue = t.queue := by
  have herased : s.erased.queue = t.erased.queue := congrArg DiagnosticsDB.queue h
  exact herased

theorem requests : s.requests = t.requests := by
  have herased : s.erased.requests = t.erased.requests := congrArg DiagnosticsDB.requests h
  exact herased

theorem audit : s.audit = t.audit := by
  have herased : s.erased.audit = t.erased.audit := congrArg DiagnosticsDB.audit h
  exact herased

theorem setConfig {x y : Config} (hxy : x.Agree y) :
    DiagnosticsDB.Agree { s with config := x } { t with config := y } := by
  show ({ s.erased with config := x.erased } : DiagnosticsDB) = { t.erased with config := y.erased }
  rw [show s.erased = t.erased from h, show x.erased = y.erased from hxy]

theorem setAdmin {x y : AdminDB} (hxy : x.Agree y) :
    DiagnosticsDB.Agree { s with admin := x } { t with admin := y } := by
  show ({ s.erased with admin := x.erased } : DiagnosticsDB) = { t.erased with admin := y.erased }
  rw [show s.erased = t.erased from h, show x.erased = y.erased from hxy]

end DiagnosticsDB.Agree

end SmtpProxy.Store

namespace SmtpProxy.Adminapi

open Lib Store Policy Adminauth

/-! ## Rules -/

/-- An answer without a password it gives out. -/
def Answer.masked : Answer → Answer
  | .createdAccount a _ => .createdAccount a []
  | .password _ => .password []
  | answer => answer

/-- The answers are the same, but for a password that is given out. -/
def SameAnswer (r r' : Response Answer) : Prop := r.map Answer.masked = r'.map Answer.masked

/-- The handlers do the same, but for the secrets. -/
def Discreet (h h' : Handler) : Prop := h.Twin DiagnosticsDB.Agree SameAnswer h'

section

variable {α β : Type} {S : α → β → Prop}

theorem onConfig_twin {p : ConfigProg α} {q : ConfigProg β} (h : p.Twin Config.Agree S q) :
    (onConfig p).Twin DiagnosticsDB.Agree S (onConfig q) :=
  h.zoom (fun _ _ hst => hst.config) fun _ _ _ _ hxy hst => hst.setConfig hxy

theorem onAdmin_twin {p : AdminProg α} {q : AdminProg β} (h : p.Twin AdminDB.Agree S q) :
    (onAdmin p).Twin DiagnosticsDB.Agree S (onAdmin q) :=
  h.zoom (fun _ _ hst => hst.admin) fun _ _ _ _ hxy hst => hst.setAdmin hxy

namespace Discreet

theorem answer (r : Response Answer) : Discreet (pure r) (pure r) := .pure rfl

variable {k : α → Handler} {k' : β → Handler}

theorem bind {p : SiteProg α} {q : SiteProg β} (hp : p.Twin DiagnosticsDB.Agree S q)
    (hk : ∀ a b, S a b → Discreet (k a) (k' b)) : Discreet (p >>= k) (q >>= k') :=
  Prog.Twin.bind hp hk

theorem withBody {body : Decoded α} {body' : Decoded β} (hbody : SameOutcome S body body')
    (hk : ∀ a b, S a b → Discreet (k a) (k' b)) :
    Discreet (Adminapi.withBody body k) (Adminapi.withBody body' k') := by
  cases hbody with
  | error why => exact .answer _
  | ok h => exact hk _ _ h

theorem orFail {p : SiteProg (Except Err α)} {q : SiteProg (Except Err β)}
    (hp : p.Twin DiagnosticsDB.Agree (SameOutcome S) q)
    (hk : ∀ a b, S a b → Discreet (k a) (k' b)) :
    Discreet (Adminapi.orFail p k) (Adminapi.orFail q k') :=
  Prog.Twin.bindOk hp (fun _ => .pure rfl) hk

theorem whenStored {p : SiteProg (α × Except Err Unit)} {q : SiteProg (β × Except Err Unit)}
    (hp : p.Twin DiagnosticsDB.Agree (fun x y => S x.1 y.1 ∧ SameOutcome (· = ·) x.2 y.2) q)
    (hk : ∀ a b, S a b → Discreet (k a) (k' b)) :
    Discreet (Adminapi.whenStored p k) (Adminapi.whenStored q k') := by
  refine .bind hp ?_
  rintro ⟨row, written⟩ ⟨row', written'⟩ ⟨hrow, hwritten⟩
  cases hwritten with
  | error e => exact .answer _
  | ok _ => exact hk row row' hrow

theorem ifValid {fields fields' : List (Bytes × Bytes)} (hfields : fields = fields')
    {k k' : Handler} (hk : Discreet k k') :
    Discreet (Adminapi.ifValid fields k) (Adminapi.ifValid fields' k') := by
  subst hfields
  cases fields with
  | nil => exact hk
  | cons field fields => exact .answer _

theorem whenSealed {r r' : Except Err CredentialRow}
    (hsealed : SameOutcome (fun c c' => c.erased = c'.erased) r r') {k k' : CredentialRow → Handler}
    (hk : ∀ c c', c.erased = c'.erased → Discreet (k c) (k' c')) :
    Discreet (Adminapi.whenSealed r k) (Adminapi.whenSealed r' k') := by
  cases hsealed with
  | error e => exact .answer _
  | ok h => exact hk _ _ h

theorem unlessDeclared (managedBy : ManagedBy) (message : String) {k k' : Handler}
    (hk : Discreet k k') :
    Discreet (Adminapi.unlessDeclared managedBy message k)
      (Adminapi.unlessDeclared managedBy message k') := by
  unfold Adminapi.unlessDeclared
  split
  · exact .answer _
  · exact hk

end Discreet

end

theorem now_twin : now.Twin DiagnosticsDB.Agree (· = ·) now :=
  Prog.twin_exec fun _ _ _ hst => ⟨rfl, hst⟩

theorem plainQuery_twin {β : Type} (op : SiteOp) (f : DiagnosticsDB → Except Err β)
    (h : ∀ s t, s.Agree t → f s = f t) :
    (query op f).Twin DiagnosticsDB.Agree (SameOutcome (· = ·)) (query op f) :=
  query_twin fun s t hst => .of_eq (fun _ => rfl) (h s t hst)

theorem Discreet.audited (x : Ctx) {e e' : Change} {p q : Handler}
    (h : auditEntry x e = auditEntry x e') (hpq : Discreet p q) :
    Discreet (do audit x e; p) (do audit x e'; q) := by
  refine .bind (S := fun _ _ => True) (Prog.Twin.bind (S := SameOutcome (· = ·)) (statement_twin ?_)
    fun _ _ _ => .pure trivial) fun _ _ _ => hpq
  intro now s t hst
  rw [h, hst.audit]
  refine ⟨.refl _, ?_⟩
  exact congrArg (fun db : DiagnosticsDB =>
    { db with audit := (AuditLog.append t.audit (auditEntry x e' now)).2 }) hst

theorem deleting_twin (op : ConfigOp) {delete : Config → Except Err Unit × Config} (detach : DB → DB)
    (h : ∀ db, Prod.map id Config.erased (delete db) = delete db.erased) :
    (deleting op delete detach).Twin DiagnosticsDB.Agree (SameOutcome (· = ·))
      (deleting op delete detach) := by
  apply statement_twin
  intro now s t hst
  obtain ⟨hanswer, hafter⟩ := same_view (h s.config)
    ((h t.config).trans (congrArg delete hst.config.symm))
  refine ⟨hanswer, ?_⟩
  dsimp only
  rw [hanswer.isOk, hst.queue]
  exact congrArg (fun db : DiagnosticsDB =>
    { db with queue := if (delete t.config).1.isOk then detach t.queue else t.queue })
      (hst.setConfig hafter)

/-! ## Secrets that are supplied -/

/-- A field of a request is the same on both sides, or there on both and fit to be one. -/
inductive Concealed (fit : Bytes → Prop) : Option Bytes → Option Bytes → Prop where
  | same (given : Option Bytes) : Concealed fit given given
  | given {text text' : Bytes} (h : fit text) (h' : fit text') : Concealed fit (some text) (some text')

/-- The requests agree, except for secrets to be sealed that both have. -/
structure CredentialRequest.Alike (req req' : CredentialRequest) : Prop where
  rest : req' = { req with
    clientSecret := req'.clientSecret
    certificateKeyPEM := req'.certificateKeyPEM }
  clientSecret : Concealed (· ≠ []) req.clientSecret req'.clientSecret
  certificateKeyPEM : Concealed (· ≠ []) req.certificateKeyPEM req'.certificateKeyPEM

def Hashable (password : Bytes) : Prop := password ≠ [] ∧ password.length ≤ App.maxPasswordLen

def AccountPassword (password : Bytes) : Prop :=
  Hashable password ∧ minAccountPasswordLength ≤ password.length

def UserPassword (password : Bytes) : Prop :=
  Hashable password ∧ minPasswordLength ≤ password.length

theorem Concealed.mono {fit fit' : Bytes → Prop} (hfit : ∀ text, fit text → fit' text)
    {given given' : Option Bytes} (h : Concealed fit given given') : Concealed fit' given given' := by
  cases h with
  | same => exact .same _
  | given h h' => exact .given (hfit _ h) (hfit _ h')

structure AccountRequest.Alike (req req' : AccountRequest) : Prop where
  rest : req' = { req with password := req'.password }
  password : Concealed AccountPassword req.password req'.password

structure CreateUserRequest.Alike (req req' : CreateUserRequest) : Prop where
  rest : req' = { req with password := req'.password }
  password : Concealed UserPassword (some req.password) (some req'.password)

theorem encryptString_outcome {x : Ctx} {k : Keyring} (hk : x.keyring = some k)
    (text text' context : Bytes) :
    SameOutcome (fun a b => mark a = mark b) (k.encryptString text context)
      (k.encryptString text' context) := by
  have hne : ∀ keyID payload, Crypto.sealedText keyID payload ≠ [] := by
    intro keyID payload
    simp [Crypto.sealedText]
  obtain ⟨keys, -, rfl⟩ := Option.map_eq_some_iff.1 hk
  dsimp only [keyringOf, Crypto.Keyring.encrypt]
  cases keys.keys.get keys.primaryID with
  | none => exact .error _
  | some key =>
  dsimp only
  cases x.draws.nonce context with
  | error e => exact .error _
  | ok nonce => exact .ok (mark_of_ne (hne _ _) (hne _ _))

theorem sealText_outcome {x : Ctx} {k : Keyring} (hk : x.keyring = some k) {stored stored' : Bytes}
    (hstored : mark stored = mark stored') {given given' : Option Bytes} {fit : Bytes → Prop}
    (h : Concealed fit given given') (context : Bytes) :
    SameOutcome (fun a b => mark a = mark b) (sealText k stored given context)
      (sealText k stored' given' context) := by
  cases h with
  | same =>
    cases given with
    | none => exact .ok hstored
    | some text => exact encryptString_outcome hk text text context
  | given h h' => exact encryptString_outcome hk _ _ context

theorem sealCredential_outcome (x : Ctx) {c c' : CredentialRow} (hc : c.erased = c'.erased)
    {req req' : CredentialRequest} (h : req.Alike req') :
    SameOutcome (fun r r' => r.erased = r'.erased) (sealCredential x.keyring c req)
      (sealCredential x.keyring c' req') := by
  obtain ⟨secret, key, rfl, hsecret, hkey⟩ := CredentialRow.of_erased hc
  have hcert : req'.certificatePEM = req.certificatePEM := by rw [h.rest]
  unfold sealCredential
  cases hk : x.keyring with
  | none => exact .error _
  | some k =>
  dsimp only
  rw [hcert]
  refine .bind (sealText_outcome hk hsecret h.clientSecret c.secretContext) ?_
  intro secretEnc secretEnc' hsecretEnc
  refine .bind (sealText_outcome hk hkey h.certificateKeyPEM c.certificateKeyContext) ?_
  intro keyEnc keyEnc' hkeyEnc
  apply SameOutcome.ok
  simp only [CredentialRow.erased, hsecretEnc, hkeyEnc]

variable {password password' : Bytes}

/-- Whether a password can be hashed depends on its length alone. -/
theorem hashPassword_outcome (x : Ctx) (h : Concealed Hashable (some password) (some password')) :
    SameOutcome (fun a b => mark a = mark b) (x.passwords.hashPassword password)
      (x.passwords.hashPassword password') := by
  have hhash : SameOutcome (fun a b => mark a = mark b) (x.passwords.hash password)
      (x.passwords.hash password') := by
    show SameOutcome _ (hashPasswordWith x.api x.draws.salt password)
      (hashPasswordWith x.api x.draws.salt password')
    unfold hashPasswordWith
    cases x.draws.salt with
    | error e => exact .error _
    | ok salt =>
    apply SameOutcome.ok
    apply mark_of_ne
    · simp [ascii]
    · simp [ascii]
  unfold App.Passwords.hashPassword
  cases h with
  | same =>
    split
    · exact .error _
    · exact hhash
  | given h h' =>
    rw [if_neg (Nat.not_lt.2 h.2), if_neg (Nat.not_lt.2 h'.2)]
    exact hhash

/-! ## Secrets in the audit log -/

theorem lowers_ascii {toLower : Bytes → Bytes} (hlower : Lowers toLower) {s : Bytes}
    (h : ∀ c ∈ s, c < 0x80) : toLower s = s.map asciiLower := by
  induction s with
  | nil => exact hlower.nil
  | cons c s ih =>
  have hsplit := hlower.split [] c s (h c List.mem_cons_self)
  rw [List.nil_append, hlower.nil, List.nil_append,
    ih fun b hb => h b (List.mem_cons_of_mem c hb)] at hsplit
  exact hsplit

theorem isSecretField_password {api : Api} (hlower : Lowers api.text.toLower) :
    isSecretField api.auditText (ascii "password") = true := by
  apply isSecretField_of_mem
  show api.text.toLower _ ∈ secretFields
  rw [lowers_ascii hlower (by decide +kernel)]
  decide

theorem Concealed.redacted (h : Concealed Hashable (some password) (some password')) :
    redactedValue (.text password) = redactedValue (.text password') := by
  have hgiven : ∀ {p : Bytes}, p ≠ [] → redactedValue (.text p) = ascii "(redacted)" := by
    intro p hp
    obtain ⟨c, rest, rfl⟩ := List.exists_cons_of_ne_nil hp
    rfl
  cases h with
  | same => rfl
  | given h h' => rw [hgiven h.1, hgiven h'.1]

theorem auditEntry_password {x : Ctx} (hlower : Lowers x.api.text.toLower) (e : Change)
    (before after : Details) (h : Concealed Hashable (some password) (some password')) :
    auditEntry x { e with details := before ++ detail "password" (.text password) :: after } =
      auditEntry x { e with details := before ++ detail "password" (.text password') :: after } := by
  have hmasked : maskSecrets x.api.auditText (before ++ detail "password" (.text password) :: after) =
      maskSecrets x.api.auditText (before ++ detail "password" (.text password') :: after) := by
    unfold maskSecrets detail
    rw [maskMap_secret _ (isSecretField_password hlower) h.redacted]
  funext now
  unfold auditEntry
  rw [hmasked]
  simp

end SmtpProxy.Adminapi
