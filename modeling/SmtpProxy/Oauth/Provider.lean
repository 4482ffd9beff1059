import SmtpProxy.Lib.Interleave
import SmtpProxy.Lib.Net
import SmtpProxy.Store.Config

/-!
# The cache of token clients

`clientFor` and `Forget` of `internal/oauth/provider.go`. A call looks the credential up in
the cache, builds a client if there is none for this fingerprint, and stores it; the lock is
held for the lookup and for the store, not in between. What the authentication library
answers is decided by the environment, anew for each build.

A client carries the credential it was built from. What the cache holds is sound if each entry
has the fingerprint of that credential; every call keeps this, whatever others did since its
lookup, and a fingerprint tells two credentials apart (`fingerprintOf_inj`). So
`client_built_from_snapshot` holds in every interleaving.
-/

namespace SmtpProxy.Oauth

open Lib Store Function

/-- The parts of `confidential` that build a client: `ζ` is what a PEM block is parsed to, `μ`
a `confidential.Credential`, `κ` a `confidential.Client`. -/
structure Msal (ζ μ κ : Type) where
  newCredFromSecret : Bytes → Except Err μ
  /-- `CertFromPEM`: the certificates and the private key. -/
  certFromPEM : Bytes → Except Err (List ζ × ζ)
  newCredFromCert : List ζ → ζ → Except Err μ
  /-- `New`, given the authority, the client id, the credential and whether to ask which
  endpoint serves a tenant. -/
  new : Bytes → Bytes → μ → Bool → Except Err κ

/-- `Provider`, but for its cache. -/
structure Provider where
  /-- `DecryptString` of the keyring. -/
  decryptString : Bytes → Bytes → Except Err Bytes
  instanceDiscovery : Bool := true
  defaultAuthorityHost : Bytes
  /-- `sha256.Sum256`. -/
  sum256 : Bytes → Bytes
  /-- `%q`. -/
  quote : Bytes → Bytes

structure Built (κ : Type) where
  client : κ
  builtFrom : CredentialRow

structure CachedClient (κ : Type) where
  client : Built κ
  fingerprint : Bytes

abbrev Cache (κ : Type) := Bytes → Option (CachedClient κ)

def errCredentialUnusable : Bytes := ascii "oauth: credential is unusable"

def authTypeText : AuthType → Bytes
  | .secret => ascii "secret"
  | .certificate => ascii "certificate"

variable {ζ μ κ : Type} (p : Provider)

def describe (cred : CredentialRow) : Bytes :=
  if cred.name ≠ [] then
    ascii "credential " ++ p.quote cred.name ++ ascii " (client " ++ cred.clientID ++ ascii ")"
  else ascii "client " ++ cred.clientID

def unusable (what : Bytes) (cause : Err) : Err :=
  ⟨.plain (errCredentialUnusable ++ ascii ": " ++ what ++ ascii ": " ++ cause.text),
    .sentinel errCredentialUnusable :: cause.nodes⟩

def defaultAuthorityHost : Bytes := ascii "https://login.microsoftonline.com"

def authorityURL (host tenantID : Bytes) : Except Err Bytes :=
  if tenantID = [] then .error (.new (ascii "oauth: a tenant id is required"))
  else
    let host := if host = [] then defaultAuthorityHost else host
    .ok (host.rdropWhile (· = 47) ++ ascii "/" ++ tenantID)

def certificateFor (msal : Msal ζ μ κ) (cred : CredentialRow) : Except Err (List ζ × ζ) :=
  match p.decryptString cred.certificateKeyEnc cred.certificateKeyContext with
  | .error e => .error (unusable (ascii "decrypting the certificate key for " ++ describe p cred) e)
  | .ok keyPEM =>
    match msal.certFromPEM (cred.certificatePEM ++ [lf] ++ keyPEM) with
    | .error e => .error (unusable (ascii "parsing the certificate for " ++ describe p cred) e)
    | .ok ([], _) =>
      .error (sentinelFor errCredentialUnusable (describe p cred ++ ascii " has no certificate"))
    | .ok parsed => .ok parsed

def credentialFor (msal : Msal ζ μ κ) (cred : CredentialRow) : Except Err μ :=
  match cred.authType with
  | .secret =>
    match p.decryptString cred.clientSecretEnc cred.secretContext with
    | .error e => .error (unusable (ascii "decrypting the client secret for " ++ describe p cred) e)
    | .ok secret => (msal.newCredFromSecret secret).mapError (unusable (describe p cred))
  | .certificate =>
    match certificateFor p msal cred with
    | .error e => .error e
    | .ok (certs, key) => (msal.newCredFromCert certs key).mapError (unusable (describe p cred))

def buildClient (msal : Msal ζ μ κ) (cred : CredentialRow) : Except Err (Built κ) :=
  match credentialFor p msal cred with
  | .error e => .error e
  | .ok msalCred =>
    let host := if cred.authorityHost = [] then p.defaultAuthorityHost else cred.authorityHost
    match authorityURL host cred.tenantID with
    | .error e => .error e
    | .ok authority =>
      match msal.new authority cred.clientID msalCred p.instanceDiscovery with
      | .error e => .error (unusable (ascii "building a client for " ++ describe p cred) e)
      | .ok client => .ok ⟨client, cred⟩

/-- What goes into a fingerprint of the credential itself. -/
def material (cred : CredentialRow) : List Bytes :=
  [cred.tenantID, cred.clientID, authTypeText cred.authType, cred.authorityHost,
    cred.clientSecretEnc, cred.certificatePEM, cred.certificateKeyEnc]

/-- `fingerprintOf`: every part is followed by a NUL. -/
def fingerprintOf (cred : CredentialRow) : Bytes :=
  hexString (p.sum256 ((material cred ++ [p.defaultAuthorityHost]).flatMap (· ++ [0])))

/-- The two critical sections of `clientFor`, the build between them, and that of `Forget`. -/
inductive ProviderOp where
  | lookup
  | build
  | store
  | forget
  deriving DecidableEq

abbrev Answer (κ : Type) := Option (Except Err (Built κ))

abbrev ProviderProg (ζ μ κ : Type) := Prog ProviderOp (Msal ζ μ κ) (Cache κ)

abbrev Calls (ζ μ κ : Type) := Pool ProviderOp (Msal ζ μ κ) (Cache κ) (Answer κ)

/-- The second half of `clientFor`: nothing in the cache will do. -/
def rebuild (cred : CredentialRow) (fingerprint : Bytes) : ProviderProg ζ μ κ (Answer κ) := do
  let built ← .exec .build fun msal cache => (buildClient p msal cred, cache)
  match built with
  | .error e => return some (.error e)
  | .ok client =>
    let _ ← .exec .store fun _ cache =>
      ((), update cache cred.id (some ⟨client, fingerprint⟩))
    return some (.ok client)

def clientFor (cred : CredentialRow) : ProviderProg ζ μ κ (Answer κ) := do
  let fingerprint := fingerprintOf p cred
  let cached ← .exec .lookup fun _ cache => (cache cred.id, cache)
  match cached with
  | some cached =>
    if cached.fingerprint = fingerprint then return some (.ok cached.client)
    else rebuild p cred fingerprint
  | none => rebuild p cred fingerprint

def forget (credentialID : Bytes) : ProviderProg ζ μ κ (Answer κ) := do
  let _ ← .exec .forget fun _ cache => ((), update cache credentialID none)
  return none

inductive Request where
  | clientFor (snapshot : CredentialRow)
  | forget (credentialID : Bytes)

def Request.program : Request → ProviderProg ζ μ κ (Answer κ)
  | .clientFor snapshot => Oauth.clientFor p snapshot
  | .forget credentialID => Oauth.forget credentialID

/-! ## Fingerprints -/

/-- No part of the credential that goes into a fingerprint has a NUL. -/
def NulFree (cred : CredentialRow) : Prop := ∀ part ∈ material cred, (0 : UInt8) ∉ part

instance (cred : CredentialRow) : Decidable (NulFree cred) :=
  inferInstanceAs (Decidable (∀ part ∈ material cred, _))

structure SameMaterial (c d : CredentialRow) : Prop where
  tenantID : c.tenantID = d.tenantID
  clientID : c.clientID = d.clientID
  authType : c.authType = d.authType
  authorityHost : c.authorityHost = d.authorityHost
  clientSecretEnc : c.clientSecretEnc = d.clientSecretEnc
  certificatePEM : c.certificatePEM = d.certificatePEM
  certificateKeyEnc : c.certificateKeyEnc = d.certificateKeyEnc

variable {p}

theorem authTypeText_injective : Function.Injective authTypeText := by
  intro s t h
  cases s <;> cases t
  · rfl
  · exact absurd h (by decide)
  · exact absurd h (by decide)
  · rfl

theorem sameMaterial_iff {c d : CredentialRow} : SameMaterial c d ↔ material c = material d := by
  constructor
  · rintro ⟨h₁, h₂, h₃, h₄, h₅, h₆, h₇⟩
    rw [material, h₁, h₂, h₃, h₄, h₅, h₆, h₇]
    rfl
  intro h
  simp only [material, List.cons.injEq, and_true] at h
  obtain ⟨h₁, h₂, h₃, h₄, h₅, h₆, h₇⟩ := h
  exact ⟨h₁, h₂, authTypeText_injective h₃, h₄, h₅, h₆, h₇⟩

/-- **A fingerprint tells two credentials apart.** -/
theorem fingerprintOf_inj (hsum : Function.Injective p.sum256) {c d : CredentialRow} (hc : NulFree c)
    (hd : NulFree d) (h : fingerprintOf p c = fingerprintOf p d) : SameMaterial c d := by
  have hparts := hsum (hexString_injective h)
  rw [List.flatMap_append, List.flatMap_append] at hparts
  exact sameMaterial_iff.2 (terminated_inj rfl hc hd hparts)

/-! ## Every call keeps the cache sound -/

/-- Each entry has the fingerprint of the credential its client was built from. -/
def CacheSound (p : Provider) (cache : Cache κ) : Prop :=
  ∀ id entry, cache id = some entry →
    entry.fingerprint = fingerprintOf p entry.client.builtFrom ∧ NulFree entry.client.builtFrom

/-- What a call is answered was built from a credential with the fingerprint of its snapshot. -/
def Answered (p : Provider) : Request → Answer κ → Prop
  | .clientFor snapshot, answer => ∀ client, answer = some (.ok client) →
      fingerprintOf p client.builtFrom = fingerprintOf p snapshot ∧ NulFree client.builtFrom
  | .forget _, _ => True

theorem CacheSound.update {cache : Cache κ} (h : CacheSound p cache) {id : Bytes}
    {entry : Option (CachedClient κ)}
    (hentry : ∀ e, entry = some e →
      e.fingerprint = fingerprintOf p e.client.builtFrom ∧ NulFree e.client.builtFrom) :
    CacheSound p (update cache id entry) := by
  intro id' e he
  by_cases hid : id' = id
  · rw [hid, update_self] at he
    exact hentry e he
  rw [update_of_ne hid] at he
  exact h id' e he

variable {cred : CredentialRow}

theorem buildClient_builtFrom {msal : Msal ζ μ κ} {client : Built κ}
    (h : buildClient p msal cred = .ok client) : client.builtFrom = cred := by
  unfold buildClient at h
  split at h
  · cases h
  dsimp only at h
  split at h
  · cases h
  split at h
  · cases h
  · rw [← Except.ok.inj h]

theorem rebuild_keeps (hnul : NulFree cred) :
    (rebuild p cred (fingerprintOf p cred) : ProviderProg ζ μ κ (Answer κ)).Keeps (CacheSound p)
      (Answered p (.clientFor cred)) := by
  unfold rebuild
  refine .bind ?_
  apply Prog.keeps_exec
  intro msal cache hsound
  refine ⟨hsound, ?_⟩
  dsimp only
  split
  · intro client h
    cases h
  next client hbuilt =>
  have hfrom := buildClient_builtFrom hbuilt
  refine .bind ?_
  apply Prog.keeps_exec
  intro _ cache hsound
  refine ⟨hsound.update ?_, ?_⟩
  · intro e he
    cases he
    rw [hfrom]
    exact ⟨rfl, hnul⟩
  intro client' h
  cases Option.some.inj h
  rw [hfrom]
  exact ⟨rfl, hnul⟩

theorem clientFor_keeps (hnul : NulFree cred) :
    (clientFor p cred : ProviderProg ζ μ κ (Answer κ)).Keeps (CacheSound p)
      (Answered p (.clientFor cred)) := by
  unfold clientFor
  refine .bind ?_
  apply Prog.keeps_exec
  intro _ cache hsound
  refine ⟨hsound, ?_⟩
  dsimp only
  split
  · next cached hcached =>
    split
    · next hfingerprint =>
      intro client h
      cases Option.some.inj h
      obtain ⟨hentry, hfree⟩ := hsound _ _ hcached
      exact ⟨hentry.symm.trans hfingerprint, hfree⟩
    · exact rebuild_keeps hnul
  · exact rebuild_keeps hnul

theorem forget_keeps (credentialID : Bytes) :
    (forget credentialID : ProviderProg ζ μ κ (Answer κ)).Keeps (CacheSound p)
      (Answered p (.forget credentialID)) := by
  unfold forget
  refine .bind ?_
  apply Prog.keeps_exec
  intro _ cache hsound
  exact ⟨hsound.update fun e he => absurd he (by simp), trivial⟩

/-! ## Every interleaving -/

/-- A provider that has just been made, and the calls that will be made on it. -/
def calls (p : Provider) (requests : List Request) : Calls ζ μ κ :=
  .start (fun _ => none) (requests.map (Request.program p))

abbrev advance (q : Calls ζ μ κ) (a : Nat × Msal ζ μ κ) : Option (Calls ζ μ κ) :=
  q.step (fun _ => ()) a

/-- **A call is never answered with a client built from other material than its own
snapshot's**, in every interleaving of any calls. -/
theorem client_built_from_snapshot (p : Provider) (hsum : Function.Injective p.sum256)
    (requests : List Request)
    (hnul : ∀ snapshot, Request.clientFor snapshot ∈ requests → NulFree snapshot)
    {q : Calls ζ μ κ} (hrun : Reach advance (fun _ _ => True) (calls p requests) q) {j : Nat}
    {snapshot : CredentialRow}
    (hcall : requests[j]? = some (.clientFor snapshot)) {client : Built κ}
    (hanswer : (q.clients[j]?).bind (fun c => c.rest.result?) = some (some (.ok client))) :
    SameMaterial client.builtFrom snapshot := by
  have hkept : Pool.Kept (CacheSound p)
      (fun j answer => ∀ r, requests[j]? = some r → Answered p r answer) q := by
    refine Pool.keeps (fun id entry h => absurd h (by simp)) ?_ hrun
    intro j prog hprog
    rw [List.getElem?_map] at hprog
    obtain ⟨r, hr, rfl⟩ := Option.map_eq_some_iff.1 hprog
    have hkeeps : (r.program p : ProviderProg ζ μ κ (Answer κ)).Keeps (CacheSound p) (Answered p r) := by
      cases r with
      | clientFor snapshot => exact clientFor_keeps (hnul snapshot (List.mem_of_getElem? hr))
      | forget credentialID => exact forget_keeps credentialID
    apply hkeeps.mono
    intro answer hanswered r' hr'
    cases hr.symm.trans hr'
    exact hanswered
  obtain ⟨c, hc, hresult⟩ := Option.bind_eq_some_iff.1 hanswer
  obtain ⟨hfingerprint, hfree⟩ := hkept.result hc hresult _ hcall client rfl
  exact fingerprintOf_inj hsum hfree (hnul snapshot (List.mem_of_getElem? hcall)) hfingerprint

def withSecret (secret : Bytes) : CredentialRow :=
  { id := ascii "c", tenantID := ascii "t", authType := .secret, clientSecretEnc := secret }

def plainProvider : Provider where
  decryptString := fun sealed _ => .ok sealed
  defaultAuthorityHost := defaultAuthorityHost
  sum256 := id
  quote := id

def plainMsal : Msal Unit Bytes Bytes where
  newCredFromSecret := .ok
  certFromPEM := fun _ => .ok ([()], ())
  newCredFromCert := fun _ _ => .ok []
  new := fun _ _ secret _ => .ok secret

def editedMeanwhile : Calls Unit Bytes Bytes :=
  calls plainProvider [.clientFor (withSecret (ascii "old")), .clientFor (withSecret (ascii "new")),
    .clientFor (withSecret (ascii "new"))]

/-- Two calls with the snapshots of before and after an edit overlap, and both have missed the
cache before either stores its client. The third finds what the older one stored last, and
builds its own. -/
theorem overlapping_calls : ∃ q, runActions advance editedMeanwhile
        (Pool.turns plainMsal [0, 1, 1, 1, 0, 0, 2, 2, 2]) = some q ∧
      ∃ client, (q.clients[2]?).bind (fun c => c.rest.result?) = some (some (.ok client)) ∧
        SameMaterial client.builtFrom (withSecret (ascii "new")) := by
  obtain ⟨q, hq, hanswer⟩ := Option.map_eq_some_iff.1 (show (runActions advance editedMeanwhile
        (Pool.turns plainMsal [0, 1, 1, 1, 0, 0, 2, 2, 2])).map
        (fun q => (q.clients[2]?).bind fun c => c.rest.result?) =
      some (some (some (.ok ⟨ascii "new", withSecret (ascii "new")⟩))) from rfl)
  refine ⟨q, hq, _, hanswer, ?_⟩
  refine client_built_from_snapshot plainProvider injective_id _ ?_
    (reach_of_runActions _ (by simp [Pool.turns, AllMeet]) hq) rfl hanswer
  intro snapshot hmem
  simp only [List.mem_cons, Request.clientFor.injEq, List.not_mem_nil, or_false, or_self] at hmem
  obtain rfl | rfl := hmem
  · decide
  · decide

end SmtpProxy.Oauth
