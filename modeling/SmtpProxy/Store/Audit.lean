import SmtpProxy.Store.Diagnostics

/-!
# The audit log

`internal/store/audit.go`. What an entry says of a change is a JSON object in which the values
of fields that look secret are replaced (`maskSecrets`); an entry keeps whether such a value
was set. `json.Marshal` and `strings.ToLower` are parameters.
-/

namespace SmtpProxy.Store

open Lib

/-- A value of `map[string]any`, by the cases the code tells apart. A map is the list of its
fields. -/
inductive Detail where
  | null
  | text (s : Bytes)
  | flag (b : Bool)
  | number (n : Int)
  /-- A `float64`, by its bits. -/
  | float (bits : UInt64)
  | texts (ss : List Bytes)
  | object (fields : List (Bytes × Detail))
  | array (items : List Detail)

abbrev Details := List (Bytes × Detail)

def secretFields : List Bytes :=
  ["password", "passwordhash", "password_hash",
    "secret", "clientsecret", "client_secret", "client_secret_enc",
    "certificatekey", "certificate_key", "certificate_key_enc",
    "totp", "totpsecret", "totp_secret", "totp_secret_enc",
    "token", "accesstoken", "access_token", "refreshtoken", "refresh_token",
    "apikey", "api_key"].map ascii

def secretParts : List Bytes := ["password", "secret", "token", "apikey", "api_key"].map ascii

/-- What the log needs of Go. -/
structure AuditText where
  toLower : Bytes → Bytes
  /-- `json.Marshal`; `none` is its error. -/
  marshal : Details → Option Bytes

variable (g : AuditText)

def isSecretField (name : Bytes) : Bool :=
  let lowered := g.toLower (name.map fun b => if b = 45 then 95 else b)
  secretFields.any (fun f => decide (lowered = f) || (95 :: f).isSuffixOf lowered) ||
    secretParts.any fun f => (indexOf f lowered).isSome

theorem isSecretField_of_mem {name : Bytes}
    (h : g.toLower (name.map fun b => if b = 45 then 95 else b) ∈ secretFields) :
    isSecretField g name = true := by
  unfold isSecretField
  rw [Bool.or_eq_true, List.any_eq_true]
  exact .inl ⟨_, h, by simp⟩

def redactedValue : Detail → Bytes
  | .null => ascii "(unset)"
  | .text [] => ascii "(unset)"
  | _ => ascii "(redacted)"

mutual

def maskMap : Details → Details
  | [] => []
  | (k, v) :: rest =>
    (k, if isSecretField g k then .text (redactedValue v) else maskValue v) :: maskMap rest

/-- The value of a field that is not secret. -/
def maskValue : Detail → Detail
  | .object fields => .object (maskMap fields)
  | .array items => .array (maskSlice items)
  | v => v

def maskSlice : List Detail → List Detail
  | [] => []
  | v :: rest => maskValue v :: maskSlice rest

end

def maskSecrets (details : Details) : Bytes :=
  (g.marshal (maskMap g details)).getD
    (ascii "\x7b\"error\":\"details could not be encoded\"\x7d")

/-- The value of a secret field does not show, once it is set. -/
theorem maskMap_secret {k : Bytes} (h : isSecretField g k = true) {v v' : Detail}
    (hv : redactedValue v = redactedValue v') (before after : Details) :
    maskMap g (before ++ (k, v) :: after) = maskMap g (before ++ (k, v') :: after) := by
  induction before with
  | nil => simp [maskMap, h, hv]
  | cons field before ih => simp [maskMap, ih]

/-! ### What an entry shows -/

def Detail.isUnset : Detail → Bool
  | .null => true
  | .text s => s = []
  | _ => false

theorem redactedValue_eq (v : Detail) :
    redactedValue v = if v.isUnset then ascii "(unset)" else ascii "(redacted)" := by
  cases v with
  | text s => cases s <;> rfl
  | _ => rfl

section

variable (Secret : Detail → Detail → Prop)

mutual

/-- The same keys and positions, and the same values where no key above is that of a secret
field; the values of secret fields are related by `Secret`. -/
def SameFields : Details → Details → Prop
  | [], [] => True
  | (k, v) :: rest, (k', v') :: rest' =>
    k = k' ∧ (if isSecretField g k then Secret v v' else SameValue v v') ∧ SameFields rest rest'
  | _, _ => False

def SameValue : Detail → Detail → Prop
  | .object fields, .object fields' => SameFields fields fields'
  | .array items, .array items' => SameItems items items'
  | v, v' => v = v'

def SameItems : List Detail → List Detail → Prop
  | [], [] => True
  | v :: rest, v' :: rest' => SameValue v v' ∧ SameItems rest rest'
  | _, _ => False

end

end

def SetAlike (v v' : Detail) : Prop := v.isUnset = v'.isUnset

def Redacted (v shown : Detail) : Prop :=
  shown = .text (if v.isUnset then ascii "(unset)" else ascii "(redacted)")

variable {g}

mutual

theorem maskMap_congr : ∀ {d d' : Details}, SameFields g SetAlike d d' → maskMap g d = maskMap g d'
  | [], [], _ => rfl
  | (k, v) :: _, (_, v') :: _, ⟨rfl, hv, hrest⟩ => by
    rw [maskMap, maskMap, maskMap_congr hrest]
    split at hv
    · next hk =>
      rw [if_pos hk, if_pos hk, redactedValue_eq, redactedValue_eq, show v.isUnset = v'.isUnset from hv]
    · next hk => rw [if_neg hk, if_neg hk, maskValue_congr v v' hv]

theorem maskValue_congr (v v' : Detail) (h : SameValue g SetAlike v v') :
    maskValue g v = maskValue g v' := by
  unfold SameValue at h
  split at h
  · rw [maskValue, maskValue, maskMap_congr h]
  · rw [maskValue, maskValue, maskSlice_congr h]
  · rw [h]

theorem maskSlice_congr : ∀ {l l' : List Detail}, SameItems g SetAlike l l' → maskSlice g l = maskSlice g l'
  | [], [], _ => rfl
  | v :: _, v' :: _, h => by
    rw [maskSlice, maskSlice, maskValue_congr v v' h.1, maskSlice_congr h.2]

end

mutual

theorem sameFields_maskMap : ∀ d : Details, SameFields g Redacted d (maskMap g d)
  | [] => trivial
  | (k, v) :: rest => by
    refine ⟨rfl, ?_, sameFields_maskMap rest⟩
    split
    · exact congrArg Detail.text (redactedValue_eq v)
    · exact sameValue_maskValue v

theorem sameValue_maskValue : ∀ v : Detail, SameValue g Redacted v (maskValue g v)
  | .object fields => sameFields_maskMap fields
  | .array items => sameItems_maskSlice items
  | .null | .text _ | .flag _ | .number _ | .float _ | .texts _ => rfl

theorem sameItems_maskSlice : ∀ l : List Detail, SameItems g Redacted l (maskSlice g l)
  | [] => trivial
  | v :: rest => ⟨sameValue_maskValue v, sameItems_maskSlice rest⟩

end

/-- **Of a secret the details of an entry show whether it is set, of everything else they show
all.** Trees that differ only in the values of secret fields, and not in which of them are set,
have the same JSON; and what is encoded has the keys and positions of the tree, its values
outside secret fields, and a placeholder for each secret. -/
theorem masked_details (details details' : Details) :
    (SameFields g SetAlike details details' → maskSecrets g details = maskSecrets g details') ∧
    ∃ shown, SameFields g Redacted details shown ∧ maskSecrets g details =
      (g.marshal shown).getD (ascii "\x7b\"error\":\"details could not be encoded\"\x7d") := by
  refine ⟨fun h => ?_, maskMap g details, sameFields_maskMap details, rfl⟩
  rw [maskSecrets, maskMap_congr h, maskSecrets]

/-! ## `AuditRepo` -/

abbrev AuditLog := Table Bytes AuditEntry AuditEntry.id

/-- `AuditRepo.Append`, of an entry whose empty fields are filled in. -/
def AuditLog.append (log : AuditLog) (e : AuditEntry) : Except Err Unit × AuditLog :=
  match log.insert e with
  | none =>
    (.error (wrapping (ascii "store: appending an audit entry")
      (.new (ascii "UNIQUE constraint failed: audit_logs.id"))), log)
  | some log => (.ok (), log)

structure AuditFilter where
  actorID : Bytes := []
  action : Bytes := []
  targetType : Bytes := []
  targetID : Bytes := []
  since : Int := 0
  until_ : Int := 0
  limit : Int := 0
  offset : Int := 0
  deriving DecidableEq

def AuditFilter.selects (f : AuditFilter) (e : AuditEntry) : Bool :=
  (f.actorID.isEmpty || decide (e.actorID = f.actorID)) &&
  (f.action.isEmpty || decide (e.action = f.action)) &&
  (f.targetType.isEmpty || decide (e.targetType = f.targetType)) &&
  (f.targetID.isEmpty || decide (e.targetID = f.targetID)) &&
  (decide (f.since = 0) || decide (f.since ≤ e.at_)) &&
  (decide (f.until_ = 0) || decide (e.at_ ≤ f.until_))

/-- `AuditRepo.List`: the newest first. -/
def AuditLog.list (log : AuditLog) (f : AuditFilter) : List AuditEntry :=
  (((log.rows.filter f.selects).insertionSort fun a b =>
    b.at_ < a.at_ ∨ a.at_ = b.at_ ∧ b.id ≤ a.id).drop f.offset.toNat).take (pageSize f.limit).toNat

def AuditLog.count (log : AuditLog) (f : AuditFilter) : Nat := (log.rows.filter f.selects).length

end SmtpProxy.Store
