import SmtpProxy.Lib.Base64
import SmtpProxy.Lib.Net
import SmtpProxy.Store.Models

/-!
# The keyring

`internal/crypto/keyring.go`: secrets are sealed with the first of the configured keys, and a
sealed value names the key, so that it can be opened by any keyring that still has it.

The cipher is ideal: opening succeeds on what was sealed and on nothing else (`Aead.Ideal`). What
is left to show is about the text around it. A sealed value is a version, a key id and a payload
separated by dots; no id that `parseKeySpec` lets through has a dot in it, and no payload has
one, so the two cuts find the three parts again (`sealedParts_sealed`). A keyring holds under
each id the key of the one spec that gave it (`newKeyring_get`), so which keyrings open a value
is a question about their specs: `key_rotation`.
-/

namespace SmtpProxy.Crypto

open Lib Store List Table

/-- `cipher.AEAD` for each key: `Seal` and `Open` with a nonce and additional data. -/
structure Aead where
  sealWith : (key nonce plaintext context : Bytes) → Bytes
  openWith : (key nonce ciphertext context : Bytes) → Option Bytes

def nonceSize : Nat := 12

/-- Opening gives the plaintext exactly of what was sealed with the same key, nonce and
context, and one ciphertext is not the result of two different sealings. -/
structure Aead.Ideal (aead : Aead) : Prop where
  open_iff : ∀ key nonce ciphertext context plaintext,
    aead.openWith key nonce ciphertext context = some plaintext ↔
      aead.sealWith key nonce plaintext context = ciphertext
  binding : ∀ {key key' nonce plaintext plaintext' context context'},
    aead.sealWith key nonce plaintext context = aead.sealWith key' nonce plaintext' context' →
      key = key' ∧ context = context'

def errNoKeys : Bytes := ascii "crypto: no encryption keys configured"

def errUnknownKey : Bytes := ascii "crypto: ciphertext was sealed with a key that is not configured"

def errMalformed : Bytes := ascii "crypto: malformed ciphertext"

def errDecryptFailed : Bytes := ascii "crypto: decryption failed"

def sealedVersion : Bytes := ascii "v1"

def keyLen : Nat := 32

def maxKeyIDLen : Nat := 32

def colon : UInt8 := 58

def dot : UInt8 := 46

/-- `Keyring`: an AEAD is given by its key. -/
structure Keyring where
  primaryID : Bytes
  keys : Table Bytes (Bytes × Bytes) Prod.fst

def decodeKey (encoded : Bytes) : Except Err Bytes :=
  let trimmed := encoded.rdropWhile (· = Base64.pad)
  match (Base64.decodeRaw Base64.valueURL false trimmed).or
      (Base64.decodeRaw Base64.value false trimmed) with
  | none => .error (.new (ascii "key is not valid base64"))
  | some key =>
    if key.length ≠ keyLen then
      .error (.new (ascii "key must decode to " ++ itoa keyLen ++ ascii " bytes, got " ++
        itoa key.length))
    else .ok key

/-- `parseKeySpec`. A key of 32 bytes is one `aes.NewCipher` and `cipher.NewGCM` take. -/
def parseKeySpec (spec : Bytes) : Except Err (Bytes × Bytes) :=
  match cut colon spec with
  | none => .error (.new (ascii "expected <id>:<base64-key>"))
  | some (id, encoded) =>
    if id = [] ∨ id.length > maxKeyIDLen then
      .error (.new (ascii "key id must be 1-" ++ itoa maxKeyIDLen ++ ascii " characters"))
    else if dot ∈ id ∨ colon ∈ id then
      .error (.new (ascii "key id must not contain '.' or ':'"))
    else (decodeKey encoded).map fun key => (id, key)

variable (quote : Bytes → Bytes)

/-- The loop of `NewKeyring` from the spec at index `i` on. -/
def addKeys (kr : Keyring) (i : Nat) : List Bytes → Except Err Keyring
  | [] => .ok kr
  | spec :: specs =>
    match parseKeySpec spec with
    | .error e => .error (.wrap (ascii "key " ++ itoa i ++ ascii ": " ++ e.text) e)
    | .ok parsed =>
      match kr.keys.insert parsed with
      | none => .error (.new (ascii "crypto: duplicate key id " ++ quote parsed.1))
      | some keys =>
        addKeys { primaryID := if i = 0 then parsed.1 else kr.primaryID, keys } (i + 1) specs

def newKeyring (specs : List Bytes) : Except Err Keyring :=
  if specs = [] then .error ⟨.sentinel errNoKeys, []⟩
  else addKeys quote { primaryID := [], keys := .empty } 0 specs

def sealedText (keyID payload : Bytes) : Bytes :=
  sealedVersion ++ [dot] ++ keyID ++ [dot] ++ payload

variable (aead : Aead)

abbrev Nonce := {nonce : Bytes // nonce.length = nonceSize}

/-- `Encrypt`, given what reading the random nonce came to. -/
def Keyring.encrypt (k : Keyring) (random : Except Err Nonce) (plaintext context : Bytes) :
    Except Err Bytes :=
  match k.keys.get k.primaryID with
  | none => .error ⟨.sentinel errNoKeys, []⟩
  | some (_, key) =>
    match random with
    | .error e => .error (.wrap (ascii "crypto: read random nonce: " ++ e.text) e)
    | .ok nonce =>
      .ok (sealedText k.primaryID
        (Base64.encodeRawURL (nonce.val ++ aead.sealWith key nonce.val plaintext context)))

/-- The key id and the payload of a sealed value, as `Decrypt` and `KeyIDOf` find them. -/
def sealedParts (sealed : Bytes) : Except Err (Bytes × Bytes) :=
  match cut dot sealed with
  | none => .error (sentinelFor errMalformed (ascii "unrecognized format"))
  | some (version, rest) =>
    if version ≠ sealedVersion then
      .error (sentinelFor errMalformed (ascii "unrecognized format"))
    else
      match cut dot rest with
      | none => .error (sentinelFor errMalformed (ascii "missing key id or payload"))
      | some (keyID, payload) =>
        if keyID = [] ∨ payload = [] then
          .error (sentinelFor errMalformed (ascii "missing key id or payload"))
        else .ok (keyID, payload)

def Keyring.decrypt (k : Keyring) (sealed context : Bytes) : Except Err Bytes :=
  match sealedParts sealed with
  | .error e => .error e
  | .ok (keyID, payload) =>
    match k.keys.get keyID with
    | none => .error (sentinelFor errUnknownKey (quote keyID))
    | some (_, key) =>
      match Base64.decodeRaw Base64.valueURL true payload with
      | none => .error (sentinelFor errMalformed (ascii "payload is not valid base64"))
      | some raw =>
        if raw.length < nonceSize then
          .error (sentinelFor errMalformed (ascii "payload shorter than nonce"))
        else
          match aead.openWith key (raw.take nonceSize) (raw.drop nonceSize) context with
          | none => .error ⟨.sentinel errDecryptFailed, []⟩
          | some plaintext => .ok plaintext

def keyIDOf (sealed : Bytes) : Except Err Bytes := (sealedParts sealed).map Prod.fst

def Keyring.needsRotation (k : Keyring) (sealed : Bytes) : Bool :=
  match keyIDOf sealed with
  | .error _ => false
  | .ok id => id ≠ k.primaryID

/-- `GenerateKey`, given what reading the random key came to. -/
def generateKey (id : Bytes) (random : Except Err {key : Bytes // key.length = keyLen}) :
    Except Err Bytes :=
  if id = [] ∨ id.length > maxKeyIDLen ∨ dot ∈ id ∨ colon ∈ id then
    .error (.new (ascii "crypto: invalid key id " ++ quote id))
  else
    match random with
    | .error e => .error (.wrap (ascii "crypto: read random key: " ++ e.text) e)
    | .ok key => .ok (id ++ [colon] ++ Base64.encodeRawURL key.val)

/-! ## What a keyring holds -/

/-- What `parseKeySpec` lets through as an id. -/
structure ValidID (id : Bytes) : Prop where
  ne : id ≠ []
  short : id.length ≤ maxKeyIDLen
  noDot : dot ∉ id
  noColon : colon ∉ id

variable {key : Bytes}

theorem parseKeySpec_valid {spec id : Bytes} (h : parseKeySpec spec = .ok (id, key)) :
    ValidID id := by
  unfold parseKeySpec at h
  split at h
  · cases h
  next id' encoded hcut =>
  split at h
  · cases h
  next hlen =>
  split at h
  · cases h
  next hchars =>
  have hid : id' = id := by
    cases hkey : decodeKey encoded with
    | error e => rw [hkey] at h; cases h
    | ok key' => rw [hkey] at h; cases h; rfl
  rw [hid] at hlen hchars
  exact ⟨fun he => hlen (.inl he), by omega, fun hd => hchars (.inl hd), fun hc => hchars (.inr hc)⟩

variable {quote aead}

/-- What the loop of `NewKeyring` has done when it ends: the table holds what it held and what
the specs say, and the first spec, if any was left at index 0, gave the primary. -/
theorem addKeys_ok : ∀ {specs : List Bytes} {kr kr' : Keyring} {i : Nat},
    addKeys quote kr i specs = .ok kr' →
      (∀ p, p ∈ kr'.keys.rows ↔ p ∈ kr.keys.rows ∨ ∃ spec ∈ specs, parseKeySpec spec = .ok p) ∧
      (i ≠ 0 → kr'.primaryID = kr.primaryID)
  | [], kr, kr', i, h => by
    cases h
    exact ⟨fun p => by simp, fun _ => rfl⟩
  | spec :: specs, kr, kr', i, h => by
    rw [addKeys] at h
    split at h
    · cases h
    next parsed hparsed =>
    split at h
    · cases h
    next keys hkeys =>
    obtain ⟨hrows, hprimary⟩ := addKeys_ok h
    constructor
    · intro p
      rw [hrows p, mem_insert hkeys, or_assoc]
      simp only [mem_cons, exists_eq_or_imp, hparsed, Except.ok.injEq]
      rw [eq_comm (a := p)]
    intro hi
    rw [hprimary (by omega), if_neg hi]

variable {specs : List Bytes} {k : Keyring}

/-- **A keyring holds under an id the key a spec gives it, and nothing else.** -/
theorem newKeyring_get (h : newKeyring quote specs = .ok k) (p : Bytes × Bytes) :
    k.keys.get p.1 = some p ↔ ∃ spec ∈ specs, parseKeySpec spec = .ok p := by
  unfold newKeyring at h
  split at h
  · cases h
  rw [get_eq_some_iff, (addKeys_ok h).1 p]
  simp [Table.empty]

theorem newKeyring_primary (h : newKeyring quote specs = .ok k) :
    ∃ spec rest key, specs = spec :: rest ∧ parseKeySpec spec = .ok (k.primaryID, key) := by
  cases specs with
  | nil => cases h
  | cons spec rest =>
  rw [newKeyring, if_neg (by simp), addKeys] at h
  split at h
  · cases h
  next parsed hparsed =>
  split at h
  · cases h
  next keys hkeys =>
  obtain ⟨-, hprimary⟩ := addKeys_ok h
  refine ⟨spec, rest, parsed.2, rfl, ?_⟩
  rw [hparsed, hprimary (by omega), if_pos rfl]

/-! ## What a sealed value says -/

variable {keyID payload : Bytes}

/-- **The parts of a sealed value are found again.** -/
theorem sealedParts_sealed (hid : ValidID keyID) (hne : payload ≠ []) :
    sealedParts (sealedText keyID payload) = .ok (keyID, payload) := by
  have hversion : cut dot (sealedText keyID payload) =
      some (sealedVersion, keyID ++ dot :: payload) := by
    have hdot : dot ∉ sealedVersion := by decide
    rw [← cut_append hdot]
    simp [sealedText]
  unfold sealedParts
  rw [hversion]
  simp only [ne_eq, not_true_eq_false, if_false, cut_append hid.noDot]
  rw [if_neg (by simp [hid.ne, hne])]

theorem payload_ne (nonce : Nonce) (ciphertext : Bytes) :
    Base64.encodeRawURL (nonce.val ++ ciphertext) ≠ [] := by
  intro he
  have hle := Base64.length_le_encodeRawURL (nonce.val ++ ciphertext)
  rw [he, length_append, nonce.property, length_nil, nonceSize] at hle
  omega

/-- What opening comes to on a value that was sealed: the lookup of the id, then the cipher on
the same nonce and ciphertext. -/
theorem decrypt_sealed (hid : ValidID keyID) (nonce : Nonce) (ciphertext : Bytes) (k : Keyring)
    (context : Bytes) :
    k.decrypt quote aead (sealedText keyID (Base64.encodeRawURL (nonce.val ++ ciphertext))) context
      = match k.keys.get keyID with
        | none => .error (sentinelFor errUnknownKey (quote keyID))
        | some (_, key) =>
          match aead.openWith key nonce.val ciphertext context with
          | none => .error ⟨.sentinel errDecryptFailed, []⟩
          | some plaintext => .ok plaintext := by
  have hlong : ¬ (nonce.val ++ ciphertext).length < nonceSize := by
    rw [length_append, nonce.property]
    omega
  unfold Keyring.decrypt
  rw [sealedParts_sealed hid (payload_ne nonce ciphertext)]
  simp only [Base64.decodeRaw_encodeRawURL, take_left' nonce.property,
    drop_left' nonce.property, if_neg hlong]

theorem decrypt_same (hideal : aead.Ideal) (hid : ValidID keyID) (nonce : Nonce)
    (plaintext context : Bytes) (hkey : k.keys.get keyID = some (keyID, key)) :
    k.decrypt quote aead (sealedText keyID
      (Base64.encodeRawURL (nonce.val ++ aead.sealWith key nonce.val plaintext context))) context
      = .ok plaintext := by
  rw [decrypt_sealed hid, hkey]
  simp only [(hideal.open_iff ..).2 rfl]

variable {plaintext context : Bytes}

/-- **What a keyring seals, it opens.** -/
theorem decrypt_encrypt (hideal : aead.Ideal) (hnew : newKeyring quote specs = .ok k)
    {random : Except Err Nonce} {sealed : Bytes}
    (h : k.encrypt aead random plaintext context = .ok sealed) :
    sealed ≠ [] ∧ k.decrypt quote aead sealed context = .ok plaintext := by
  obtain ⟨spec, rest, key, -, hspec⟩ := newKeyring_primary hnew
  unfold Keyring.encrypt at h
  split at h
  · cases h
  next id key hget =>
  obtain rfl : id = k.primaryID := key_of_get hget
  split at h
  · cases h
  next nonce =>
  cases h
  exact ⟨by simp [sealedText], decrypt_same hideal (parseKeySpec_valid hspec) nonce _ _ hget⟩

theorem decrypt_other (hideal : aead.Ideal) (hid : ValidID keyID) (nonce : Nonce)
    (plaintext context : Bytes) {context' : Bytes} (hother : k.keys.get keyID = some (keyID, key) →
      context' ≠ context) :
    ∃ e, k.decrypt quote aead (sealedText keyID
      (Base64.encodeRawURL (nonce.val ++ aead.sealWith key nonce.val plaintext context))) context'
      = .error e := by
  rw [decrypt_sealed hid]
  cases hget : k.keys.get keyID with
  | none => exact ⟨_, rfl⟩
  | some p =>
  obtain ⟨id', key'⟩ := p
  obtain rfl : id' = keyID := key_of_get hget
  cases hopen : aead.openWith key' nonce.val
      (aead.sealWith key nonce.val plaintext context) context' with
  | none => exact ⟨⟨.sentinel errDecryptFailed, []⟩, by simp only [hopen]⟩
  | some plaintext' =>
  -- what opens was sealed with this key and this context
  obtain ⟨rfl, rfl⟩ := hideal.binding ((hideal.open_iff ..).1 hopen)
  exact absurd rfl (hother hget)

theorem keyIDOf_sealed (hid : ValidID keyID) (nonce : Nonce) (ciphertext : Bytes) :
    keyIDOf (sealedText keyID (Base64.encodeRawURL (nonce.val ++ ciphertext))) = .ok keyID := by
  rw [keyIDOf, sealedParts_sealed hid (payload_ne nonce ciphertext)]
  rfl

/-! ## Generated keys -/

theorem decodeKey_encoded (key : {key : Bytes // key.length = keyLen}) :
    decodeKey (Base64.encodeRawURL key.val) = .ok key.val := by
  have htrim : (Base64.encodeRawURL key.val).rdropWhile (· = Base64.pad) =
      Base64.encodeRawURL key.val := by
    rw [rdropWhile_eq_self_iff]
    intro hne hpad
    have hmem := getLast_mem hne
    rw [of_decide_eq_true hpad] at hmem
    exact Base64.not_mem_encodeRawURL (by decide) _ hmem
  unfold decodeKey
  simp [htrim, Base64.decodeRaw_encodeRawURL, key.property]

/-- **A generated spec parses to the id and the key it was generated for.** -/
theorem parseKeySpec_generated {id spec : Bytes} {key : {key : Bytes // key.length = keyLen}}
    (h : generateKey quote id (.ok key) = .ok spec) : parseKeySpec spec = .ok (id, key.val) := by
  unfold generateKey at h
  split at h
  · cases h
  next hid =>
  cases h
  simp only [not_or] at hid
  obtain ⟨hne, hlen, hdot, hcolon⟩ := hid
  unfold parseKeySpec
  rw [append_assoc, singleton_append, cut_append hcolon]
  simp only [decodeKey_encoded]
  rw [if_neg (by simp [hne]; omega), if_neg (by simp [hdot, hcolon])]
  rfl

theorem newKeyring_singleton {spec id : Bytes} (h : parseKeySpec spec = .ok (id, key)) :
    ∃ k, newKeyring quote [spec] = .ok k ∧ k.primaryID = id ∧ k.keys.get id = some (id, key) := by
  refine ⟨⟨id, ⟨[(id, key)], nodup_singleton _⟩⟩, ?_, rfl, by simp [Table.get]⟩
  simp only [newKeyring, addKeys, h]
  rfl

/-! ## Rotation -/

/-- **Key rotation never loses or misplaces a secret.** What a keyring `k` seals opens to the
same plaintext, under the same context, with every keyring one of whose specs gives the
sealing key under the same id; with every other keyring, and with any other context, opening
fails. The sealed value names the sealing key, and needs rotation exactly where that key is
not the primary. A generated key is one a keyring can be made of. -/
theorem key_rotation (aead : Aead) (hideal : aead.Ideal) (quote : Bytes → Bytes) :
    (∀ {specs : List Bytes} {k : Keyring}, newKeyring quote specs = .ok k →
      ∃ spec rest key, specs = spec :: rest ∧ parseKeySpec spec = .ok (k.primaryID, key) ∧
        ∀ (nonce : Nonce) (plaintext context : Bytes),
          ∃ sealed, k.encrypt aead (.ok nonce) plaintext context = .ok sealed ∧
            keyIDOf sealed = .ok k.primaryID ∧
            ∀ {specs' : List Bytes} {k' : Keyring}, newKeyring quote specs' = .ok k' →
              ((∃ spec' ∈ specs', parseKeySpec spec' = .ok (k.primaryID, key)) →
                k'.decrypt quote aead sealed context = .ok plaintext) ∧
              ((¬ ∃ spec' ∈ specs', parseKeySpec spec' = .ok (k.primaryID, key)) →
                ∀ context', ∃ e, k'.decrypt quote aead sealed context' = .error e) ∧
              (∀ context', context' ≠ context →
                ∃ e, k'.decrypt quote aead sealed context' = .error e) ∧
              (k'.needsRotation sealed = true ↔ k.primaryID ≠ k'.primaryID)) ∧
    (∀ {id spec : Bytes} {key : {key : Bytes // key.length = keyLen}},
      generateKey quote id (.ok key) = .ok spec →
        ∃ k, newKeyring quote [spec] = .ok k ∧ k.primaryID = id ∧
          k.keys.get id = some (id, key.val)) := by
  constructor
  · intro specs k hk
    obtain ⟨spec, rest, key, hspecs, hspec⟩ := newKeyring_primary hk
    have hid := parseKeySpec_valid hspec
    have hkey : k.keys.get k.primaryID = some (k.primaryID, key) :=
      (newKeyring_get hk (k.primaryID, key)).2 ⟨spec, hspecs ▸ .head _, hspec⟩
    refine ⟨spec, rest, key, hspecs, hspec, fun nonce plaintext context => ?_⟩
    have hsealed : k.encrypt aead (.ok nonce) plaintext context = .ok (sealedText k.primaryID
        (Base64.encodeRawURL (nonce.val ++ aead.sealWith key nonce.val plaintext context))) := by
      simp only [Keyring.encrypt, hkey]
    refine ⟨_, hsealed, keyIDOf_sealed hid nonce _, ?_⟩
    intro specs' k' hk'
    have hholds := newKeyring_get hk' (k.primaryID, key)
    refine ⟨fun hin => ?_, fun hout context' => ?_, fun context' hne => ?_, ?_⟩
    · exact decrypt_same hideal hid nonce plaintext context (hholds.2 hin)
    · exact decrypt_other hideal hid nonce plaintext context fun hget => absurd (hholds.1 hget) hout
    · exact decrypt_other hideal hid nonce plaintext context fun _ => hne
    · simp [Keyring.needsRotation, keyIDOf_sealed hid nonce]
  intro id spec key hspec
  exact newKeyring_singleton (parseKeySpec_generated hspec)

/-- A cipher that is ideal: the key and the context are written down in front of the
plaintext. -/
def recordingAead : Aead where
  sealWith key _ plaintext context := hexString key ++ 0 :: (hexString context ++ 0 :: plaintext)
  openWith key _ ciphertext context :=
    let front := hexString key ++ 0 :: (hexString context ++ [0])
    if front.isPrefixOf ciphertext then some (ciphertext.drop front.length) else none

theorem zero_not_mem_hexString (s : Bytes) : 0 ∉ hexString s := by
  intro h
  obtain ⟨b, -, hb⟩ := mem_flatMap.1 h
  have hdigits : ∀ b : UInt8, 0 ∉ [hexDigit (b.toNat / 16), hexDigit (b.toNat % 16)] :=
    forall_byte (by decide +kernel)
  exact hdigits b hb

theorem recordingAead_ideal : recordingAead.Ideal where
  open_iff key nonce ciphertext context plaintext := by
    have hfront : recordingAead.sealWith key nonce plaintext context =
        (hexString key ++ 0 :: (hexString context ++ [0])) ++ plaintext := by
      simp [recordingAead]
    rw [hfront]
    simp only [recordingAead]
    split
    · next hprefix =>
      obtain ⟨rest, rfl⟩ := isPrefixOf_iff_prefix.1 hprefix
      rw [drop_left, Option.some.injEq, append_cancel_left_eq, eq_comm]
    next hprefix =>
    refine ⟨nofun, fun h => absurd ?_ hprefix⟩
    rw [← h]
    exact isPrefixOf_iff_prefix.2 (prefix_append _ _)
  binding h := by
    obtain ⟨hkey, hrest⟩ := cut_inj (zero_not_mem_hexString _) (zero_not_mem_hexString _) h
    obtain ⟨hcontext, -⟩ := cut_inj (zero_not_mem_hexString _) (zero_not_mem_hexString _) hrest
    exact ⟨hexString_injective hkey, hexString_injective hcontext⟩

def plainSpec (id : String) (b : UInt8) : Bytes :=
  ascii id ++ [colon] ++ Base64.encodeRawURL (List.replicate keyLen b)

/-- A value sealed before the key `k2` was put in front of `k1`. -/
theorem rotated_to_second_place : ∃ k k' sealed, newKeyring id [plainSpec "k1" 3] = .ok k ∧
      newKeyring id [plainSpec "k2" 5, plainSpec "k1" 3] = .ok k' ∧
      k.encrypt recordingAead (.ok ⟨List.replicate 12 7, rfl⟩) (ascii "s3cret") (ascii "row")
        = .ok sealed ∧
      k'.decrypt id recordingAead sealed (ascii "row") = .ok (ascii "s3cret") ∧
      (∃ e, k'.decrypt id recordingAead sealed (ascii "other") = .error e) ∧
      k'.needsRotation sealed = true := by
  obtain ⟨hrotation, -⟩ := key_rotation recordingAead recordingAead_ideal id
  have hold : parseKeySpec (plainSpec "k1" 3) = .ok (ascii "k1", List.replicate keyLen 3) := by
    decide +kernel
  have hnew : parseKeySpec (plainSpec "k2" 5) = .ok (ascii "k2", List.replicate keyLen 5) := by
    decide +kernel
  obtain ⟨k, hk, hprimary, -⟩ := @newKeyring_singleton id _ _ _ hold
  obtain ⟨k', hk'⟩ : ∃ k', newKeyring id [plainSpec "k2" 5, plainSpec "k1" 3] = .ok k' := by
    simp only [newKeyring, addKeys, hold, hnew]
    exact ⟨_, rfl⟩
  obtain ⟨spec, rest, key, hspecs, hspec, hsealing⟩ := hrotation hk
  obtain ⟨sealed, hsealed, -, hopening⟩ := hsealing ⟨List.replicate 12 7, rfl⟩ (ascii "s3cret")
    (ascii "row")
  obtain ⟨hsame, -, hother, hneeds⟩ := hopening hk'
  obtain ⟨rfl, rfl⟩ := List.cons.inj hspecs
  refine ⟨k, k', sealed, hk, hk', hsealed, hsame ⟨_, by simp, hspec⟩, hother _ (by decide), ?_⟩
  obtain ⟨spec', rest', key', hspecs', hspec'⟩ := newKeyring_primary hk'
  obtain ⟨rfl, -⟩ := List.cons.inj hspecs'
  rw [hneeds, hprimary, ← (Prod.mk.inj (Except.ok.inj (hnew.symm.trans hspec'))).1]
  decide

/-! ## What opens

Opening reads the text of a sealed value back into the parts the cipher was applied to. The
two cuts lose nothing, and strict decoding only the line breaks, which the decoder skips. -/

variable {x : Bytes}

theorem sealedParts_ok (h : sealedParts x = .ok (keyID, payload)) :
    x = sealedText keyID payload := by
  unfold sealedParts at h
  split at h
  · cases h
  next version rest hversion =>
  split at h
  · cases h
  next hv1 =>
  split at h
  · cases h
  next id p hid =>
  split at h
  · cases h
  cases h
  obtain ⟨rfl, -⟩ := cut_eq_some hversion
  obtain ⟨rfl, -⟩ := cut_eq_some hid
  rw [Decidable.not_not] at hv1
  simp [sealedText, hv1]

theorem decrypt_ok (h : k.decrypt quote aead x context = .ok plaintext) :
    ∃ keyID payload key raw, sealedParts x = .ok (keyID, payload) ∧
      k.keys.get keyID = some (keyID, key) ∧ Base64.decodeRaw Base64.valueURL true payload = some raw ∧
      nonceSize ≤ raw.length ∧
      aead.openWith key (raw.take nonceSize) (raw.drop nonceSize) context = some plaintext := by
  unfold Keyring.decrypt at h
  split at h
  · cases h
  next keyID payload hparts =>
  split at h
  · cases h
  next id key hget =>
  split at h
  · cases h
  next raw hraw =>
  split at h
  · cases h
  next hlong =>
  split at h
  · cases h
  next plaintext' hopen =>
  cases h
  obtain rfl : id = keyID := key_of_get hget
  exact ⟨_, _, _, _, hparts, hget, hraw, by omega, hopen⟩

/-- A line feed in front of the payload makes no difference. -/
theorem decrypt_lf (hid : ValidID keyID) (hne : payload ≠ []) :
    k.decrypt quote aead (sealedText keyID (lf :: payload)) context =
      k.decrypt quote aead (sealedText keyID payload) context := by
  have hskip : Base64.decodeRaw Base64.valueURL true (lf :: payload) =
      Base64.decodeRaw Base64.valueURL true payload := by
    rw [Base64.decodeRaw, filter_cons_of_neg (by decide), Base64.decodeRaw]
  rw [Keyring.decrypt, Keyring.decrypt, sealedParts_sealed hid (cons_ne_nil lf payload),
    sealedParts_sealed hid hne]
  simp only [hskip]

/-- `x` is what `Encrypt` returns for the plaintext and the context, for some nonce, where the
key the keyring has under the id is the primary. -/
def Keyring.Returns (k : Keyring) (aead : Aead) (keyID plaintext context x : Bytes) : Prop :=
  ∃ nonce, { k with primaryID := keyID }.encrypt aead (.ok nonce) plaintext context = .ok x

theorem Keyring.returns_iff (hget : k.keys.get keyID = some (keyID, key)) :
    k.Returns aead keyID plaintext context x ↔
      ∃ nonce : Nonce, sealedText keyID
        (Base64.encodeRawURL (nonce.val ++ aead.sealWith key nonce.val plaintext context)) = x := by
  simp [Keyring.Returns, Keyring.encrypt, hget]

theorem Keyring.Returns.noBreak {id : Bytes} (hk : newKeyring quote specs = .ok k)
    (hid : id ∈ k.keys.rows.map Prod.fst) (h : k.Returns aead id plaintext context x)
    (hparts : sealedParts x = .ok (keyID, payload)) : cr ∉ payload ∧ lf ∉ payload := by
  obtain ⟨p, hp, rfl⟩ := mem_map.1 hid
  have hget := get_eq_some_iff.2 ⟨hp, rfl⟩
  obtain ⟨nonce, hsealed⟩ := (Keyring.returns_iff hget).1 h
  obtain ⟨spec, -, hspec⟩ := (newKeyring_get hk p).1 hget
  -- the encoding is found again as the payload
  rw [← hsealed, sealedParts_sealed (parseKeySpec_valid hspec) (payload_ne nonce _)] at hparts
  cases Except.ok.inj hparts
  exact ⟨Base64.not_mem_encodeRawURL (by decide) _, Base64.not_mem_encodeRawURL (by decide) _⟩

/-- **What opens was sealed, up to line breaks.** Take the line breaks out of the payload of a
value that opens: the result is what `Encrypt` returned for the plaintext and the context with
the key the value names. So a value that opens is itself such a result exactly where its payload
has no line break: the decoder skips line breaks also where it is strict. -/
theorem opens_iff_sealed (aead : Aead) (hideal : aead.Ideal) (quote : Bytes → Bytes)
    {specs : List Bytes} {k : Keyring} (hk : newKeyring quote specs = .ok k)
    {x context plaintext : Bytes} (hopen : k.decrypt quote aead x context = .ok plaintext) :
    ∃ keyID payload, sealedParts x = .ok (keyID, payload) ∧ x = sealedText keyID payload ∧
      k.Returns aead keyID plaintext context
        (sealedText keyID (payload.filter fun c => c != cr && c != lf)) ∧
      ((∃ id ∈ k.keys.rows.map Prod.fst, k.Returns aead id plaintext context x) ↔
        cr ∉ payload ∧ lf ∉ payload) := by
  obtain ⟨keyID, payload, key, raw, hparts, hget, hraw, hlong, hopened⟩ := decrypt_ok hopen
  have hreturns : k.Returns aead keyID plaintext context
      (sealedText keyID (payload.filter fun c => c != cr && c != lf)) := by
    refine (Keyring.returns_iff hget).2 ⟨⟨raw.take nonceSize, by simp [hlong]⟩, ?_⟩
    rw [(hideal.open_iff ..).1 hopened, take_append_drop, Base64.encodeRawURL_decodeRaw hraw]
  have hx := sealedParts_ok hparts
  refine ⟨keyID, payload, hparts, hx, hreturns, ?_, ?_⟩
  · intro ⟨id, hid, hsame⟩
    exact hsame.noBreak hk hid hparts
  intro hbreaks
  have hrow := mem_of_get hget
  refine ⟨keyID, mem_map.2 ⟨_, hrow, rfl⟩, ?_⟩
  rw [Base64.filter_noBreak hbreaks.1 hbreaks.2, ← hx] at hreturns
  exact hreturns

theorem k1_seals : ∃ k, newKeyring id [plainSpec "k1" 3] = .ok k ∧ k.primaryID = ascii "k1" ∧
    k.keys.get (ascii "k1") = some (ascii "k1", List.replicate keyLen 3) :=
  newKeyring_singleton (by decide +kernel)

def k1Payload : Bytes :=
  Base64.encodeRawURL (List.replicate nonceSize 7 ++ recordingAead.sealWith
    (List.replicate keyLen 3) (List.replicate nonceSize 7) (ascii "s3cret") (ascii "row"))

theorem k1Payload_ne : k1Payload ≠ [] := payload_ne ⟨List.replicate nonceSize 7, rfl⟩ _

theorem validID_k1 : ValidID (ascii "k1") := ⟨by decide, by decide, by decide, by decide⟩

/-- A sealed value opens, and is what was sealed. -/
theorem untouched_opens : ∃ k, newKeyring id [plainSpec "k1" 3] = .ok k ∧
    k.decrypt id recordingAead (sealedText (ascii "k1") k1Payload) (ascii "row")
      = .ok (ascii "s3cret") ∧
    ∃ id ∈ k.keys.rows.map Prod.fst, k.Returns recordingAead id (ascii "s3cret") (ascii "row")
      (sealedText (ascii "k1") k1Payload) := by
  obtain ⟨k, hk, -, hget⟩ := k1_seals
  have hopen : k.decrypt id recordingAead (sealedText (ascii "k1") k1Payload) (ascii "row") =
      .ok (ascii "s3cret") :=
    decrypt_same recordingAead_ideal validID_k1 ⟨List.replicate nonceSize 7, rfl⟩ _ _ hget
  obtain ⟨keyID, payload, hparts, -, -, hiff⟩ :=
    opens_iff_sealed recordingAead recordingAead_ideal id hk hopen
  refine ⟨k, hk, hopen, hiff.2 ?_⟩
  rw [sealedParts_sealed validID_k1 k1Payload_ne] at hparts
  cases Except.ok.inj hparts
  exact ⟨Base64.not_mem_encodeRawURL (by decide) _, Base64.not_mem_encodeRawURL (by decide) _⟩

/-- **A line feed in front of the payload is not noticed.** The value opens to the plaintext
that was sealed, and `Encrypt` never returned it. -/
theorem broken_line_opens : ∃ k, newKeyring id [plainSpec "k1" 3] = .ok k ∧
    k.decrypt id recordingAead (sealedText (ascii "k1") (lf :: k1Payload)) (ascii "row")
      = .ok (ascii "s3cret") ∧
    ¬ ∃ id ∈ k.keys.rows.map Prod.fst, k.Returns recordingAead id (ascii "s3cret") (ascii "row")
      (sealedText (ascii "k1") (lf :: k1Payload)) := by
  obtain ⟨k, hk, -, hget⟩ := k1_seals
  refine ⟨k, hk, ?_, ?_⟩
  · rw [decrypt_lf validID_k1 k1Payload_ne]
    exact decrypt_same recordingAead_ideal validID_k1 ⟨List.replicate nonceSize 7, rfl⟩ _ _ hget
  intro ⟨id, hid, hreturns⟩
  have hparts := sealedParts_sealed validID_k1 (cons_ne_nil lf k1Payload)
  exact (hreturns.noBreak hk hid hparts).2 (.head _)

end SmtpProxy.Crypto
