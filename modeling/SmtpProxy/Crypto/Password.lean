import SmtpProxy.App.Auth
import SmtpProxy.Lib.Base64

/-!
# Password hashes

`internal/crypto/password.go`: a stored hash is a text of six fields between dollar signs, which
carries the cost parameters and the salt it was made with, so that a password can be verified
after the defaults have changed.

Argon2id is a parameter (`Argon2`); of its result only the length is known. That the text is read
back as it was written (`decodeHash_text`) rests on the separators: no field has a dollar sign in
it, no parameter a comma, and numbers and salts are read back by their own decoders.
-/

namespace SmtpProxy.Crypto

open Lib Store List

structure Argon2Params where
  memory : UInt32
  iterations : UInt32
  parallelism : UInt8
  saltLength : UInt32
  keyLength : UInt32
deriving DecidableEq, Repr

/-- `argon2.IDKey`: its result is as long as it is asked to be. -/
structure Argon2 where
  idKey : (password salt : Bytes) → (time memory : UInt32) → (threads : UInt8) →
    (keyLen : UInt32) → Bytes
  length_idKey : ∀ password salt time memory threads keyLen,
    (idKey password salt time memory threads keyLen).length = keyLen.toNat

def Argon2.key (a : Argon2) (password salt : Bytes) (p : Argon2Params) : Bytes :=
  a.idKey password salt p.iterations p.memory p.parallelism p.keyLength

def argon2Version : Nat := 19

def errInvalidHash : Err := ⟨.sentinel (ascii "crypto: password hash is malformed"), []⟩

def errIncompatible : Bytes := ascii "crypto: password hash uses an unsupported algorithm or version"

def dollar : UInt8 := 36

def comma : UInt8 := 44

def equals : UInt8 := 61

/-- `DefaultArgon2Params` on a host with so many processors. -/
def defaultArgon2Params (numCPU : Nat) : Argon2Params where
  memory := 64 * 1024
  iterations := 3
  parallelism := if numCPU < 2 then UInt8.ofNat numCPU else 2
  saltLength := 16
  keyLength := 32

def paramsText (p : Argon2Params) : Bytes :=
  ascii "m=" ++ itoa p.memory.toNat ++ ascii ",t=" ++ itoa p.iterations.toNat ++ ascii ",p=" ++
    itoa p.parallelism.toNat

def hashText (p : Argon2Params) (salt key : Bytes) : Bytes :=
  ascii "$argon2id$v=" ++ itoa argon2Version ++ ascii "$" ++ paramsText p ++ ascii "$" ++
    Base64.encodeRaw Base64.digit salt ++ ascii "$" ++ Base64.encodeRaw Base64.digit key

variable (a : Argon2)

/-- `HashPasswordWith`, given what reading the random salt came to. -/
def hashPasswordWith (password : Bytes) (p : Argon2Params)
    (random : Except Err {salt : Bytes // salt.length = p.saltLength.toNat}) : Except Err Bytes :=
  if App.maxPasswordLen < password.length then .error App.errPasswordTooLong
  else
    match random with
    | .error e => .error (.wrap (ascii "crypto: read random salt: " ++ e.text) e)
    | .ok salt => .ok (hashText p salt.val (a.key password salt.val p))

def hashPassword (numCPU : Nat) (password : Bytes)
    (random : Except Err {salt : Bytes //
      salt.length = (defaultArgon2Params numCPU).saltLength.toNat}) : Except Err Bytes :=
  hashPasswordWith a password (defaultArgon2Params numCPU) random

/-- What the loop of `parseParams` has found so far. -/
structure Found where
  params : Argon2Params := ⟨0, 0, 0, 0, 0⟩
  seenM : Bool := false
  seenT : Bool := false
  seenP : Bool := false
deriving DecidableEq

def parseField (found : Found) (field : Bytes) : Except Err Found :=
  match cut equals field with
  | none => .error errInvalidHash
  | some (name, value) =>
    match parseUint 32 value with
    | none => .error errInvalidHash
    | some n =>
      if n = 0 then .error errInvalidHash
      else if name = ascii "m" then
        .ok { found with params.memory := UInt32.ofNat n, seenM := true }
      else if name = ascii "t" then
        .ok { found with params.iterations := UInt32.ofNat n, seenT := true }
      else if name = ascii "p" then
        if n > 255 then .error errInvalidHash
        else .ok { found with params.parallelism := UInt8.ofNat n, seenP := true }
      else .error errInvalidHash

def parseParams (s : Bytes) : Except Err Argon2Params :=
  match (s.splitOn comma).foldlM parseField {} with
  | .error e => .error e
  | .ok found =>
    if found.seenM ∧ found.seenT ∧ found.seenP then .ok found.params else .error errInvalidHash

/-- `fmt.Sscanf` with the format `v=%d`. -/
def scanVersion (s : Bytes) : Option Int :=
  if (ascii "v=").isPrefixOf s then scanInt (s.drop 2) else none

variable (quote : Bytes → Bytes)

/-- `decodeHash`: the parameters, the salt and the key. -/
def decodeHash (encoded : Bytes) : Except Err (Argon2Params × Bytes × Bytes) :=
  match encoded.splitOn dollar with
  | [[], algorithm, version, params, salt, key] =>
    if algorithm ≠ ascii "argon2id" then
      .error (sentinelFor errIncompatible (ascii "algorithm " ++ quote algorithm))
    else
      match scanVersion version with
      | none => .error errInvalidHash
      | some version =>
        if version ≠ argon2Version then
          .error (sentinelFor errIncompatible (ascii "version " ++ itoa version))
        else
          match parseParams params with
          | .error e => .error e
          | .ok p =>
            match Base64.decodeRaw Base64.value true salt, Base64.decodeRaw Base64.value true key with
            | some salt, some key =>
              if salt.length = 0 ∨ key.length = 0 then .error errInvalidHash
              else .ok ({ p with
                saltLength := UInt32.ofNat salt.length
                keyLength := UInt32.ofNat key.length }, salt, key)
            | _, _ => .error errInvalidHash
  | _ => .error errInvalidHash

def weakerThanDefault (numCPU : Nat) (p : Argon2Params) : Bool :=
  let d := defaultArgon2Params numCPU
  p.memory < d.memory || p.iterations < d.iterations || p.keyLength < d.keyLength ||
    p.saltLength < d.saltLength

/-- `VerifyPassword`: whether the password matches, and whether a rehash is due. -/
def verifyPassword (numCPU : Nat) (encoded password : Bytes) : Except Err (Bool × Bool) :=
  if App.maxPasswordLen < password.length then .error App.errPasswordTooLong
  else
    match decodeHash quote encoded with
    | .error e => .error e
    | .ok (p, salt, want) =>
      if a.key password salt p ≠ want then .ok (false, false)
      else .ok (true, weakerThanDefault numCPU p)

/-! ## Reading the text back -/

/-- Nothing is zero that must not be. -/
structure Argon2Params.Positive (p : Argon2Params) : Prop where
  memory : 0 < p.memory
  iterations : 0 < p.iterations
  parallelism : 0 < p.parallelism
  saltLength : 0 < p.saltLength
  keyLength : 0 < p.keyLength

theorem not_mem_itoa {c : UInt8} (hc : isDigit c = false) (n : Nat) : c ∉ itoa n := by
  intro h
  rw [itoa_digit h] at hc
  exact absurd hc (by decide)

theorem paramsText_eq (p : Argon2Params) :
    paramsText p = [comma].intercalate [ascii "m" ++ equals :: itoa p.memory.toNat,
      ascii "t" ++ equals :: itoa p.iterations.toNat,
      ascii "p" ++ equals :: itoa p.parallelism.toNat] := by
  have hm : ascii "m=" = ascii "m" ++ [equals] := by decide
  have ht : ascii ",t=" = comma :: (ascii "t" ++ [equals]) := by decide
  have hp : ascii ",p=" = comma :: (ascii "p" ++ [equals]) := by decide
  simp [paramsText, hm, ht, hp, List.intercalate]

theorem splitOn_paramsText (p : Argon2Params) :
    (paramsText p).splitOn comma = [ascii "m" ++ equals :: itoa p.memory.toNat,
      ascii "t" ++ equals :: itoa p.iterations.toNat,
      ascii "p" ++ equals :: itoa p.parallelism.toNat] := by
  have hfield : ∀ (name : Bytes) (n : Nat), comma ∉ name → comma ∉ name ++ equals :: itoa n := by
    intro name n hname h
    rcases mem_append.1 h with h | h
    · exact hname h
    rcases mem_cons.1 h with h | h
    · exact absurd h (by decide)
    · exact not_mem_itoa (by decide) n h
  rw [paramsText_eq]
  apply splitOn_intercalate
  · simp only [mem_cons, not_mem_nil, or_false, forall_eq_or_imp, forall_eq]
    exact ⟨hfield _ _ (by decide), hfield _ _ (by decide), hfield _ _ (by decide)⟩
  · exact cons_ne_nil _ _

theorem parseField_written {name : Bytes} {n : Nat} (found : Found) (hname : equals ∉ name)
    (hn : n < 2 ^ 32) (hpos : n ≠ 0) :
    parseField found (name ++ equals :: itoa n) =
      if name = ascii "m" then .ok { found with params.memory := UInt32.ofNat n, seenM := true }
      else if name = ascii "t" then
        .ok { found with params.iterations := UInt32.ofNat n, seenT := true }
      else if name = ascii "p" then
        if n > 255 then .error errInvalidHash
        else .ok { found with params.parallelism := UInt8.ofNat n, seenP := true }
      else .error errInvalidHash := by
  simp only [parseField, cut_append hname, parseUint_itoa hn, if_neg hpos]

theorem parseField_memory (found : Found) {m : UInt32} (h : 0 < m) :
    parseField found (ascii "m" ++ equals :: itoa m.toNat) =
      .ok { found with params.memory := m, seenM := true } := by
  have hpos := UInt32.lt_iff_toNat_lt.1 h
  rw [parseField_written found (by decide) m.toNat_lt (by omega), if_pos rfl, UInt32.ofNat_toNat]

theorem parseField_iterations (found : Found) {t : UInt32} (h : 0 < t) :
    parseField found (ascii "t" ++ equals :: itoa t.toNat) =
      .ok { found with params.iterations := t, seenT := true } := by
  have hpos := UInt32.lt_iff_toNat_lt.1 h
  rw [parseField_written found (by decide) t.toNat_lt (by omega), if_neg (by decide), if_pos rfl,
    UInt32.ofNat_toNat]

theorem parseField_parallelism (found : Found) {p : UInt8} (h : 0 < p) :
    parseField found (ascii "p" ++ equals :: itoa p.toNat) =
      .ok { found with params.parallelism := p, seenP := true } := by
  have hpos := UInt8.lt_iff_toNat_lt.1 h
  have hlt : p.toNat < 256 := p.toNat_lt
  rw [parseField_written found (by decide) (by omega) (by omega), if_neg (by decide),
    if_neg (by decide), if_pos rfl, if_neg (by omega), UInt8.ofNat_toNat]

variable {p : Argon2Params}

/-- **Parameters other than zero are read back.** The lengths are not in this field. -/
theorem parseParams_paramsText (hp : p.Positive) :
    parseParams (paramsText p) = .ok { p with saltLength := 0, keyLength := 0 } := by
  unfold parseParams
  rw [splitOn_paramsText]
  simp only [foldlM_cons, foldlM_nil, parseField_memory _ hp.memory,
    parseField_iterations _ hp.iterations, parseField_parallelism _ hp.parallelism, bind,
    Except.bind, pure, Except.pure, and_self, if_true]

theorem dollar_not_mem_paramsText (p : Argon2Params) : dollar ∉ paramsText p := by
  have hitoa : ∀ n : Nat, dollar ∉ itoa n := not_mem_itoa (by decide)
  have hm : dollar ∉ ascii "m=" := by decide
  have ht : dollar ∉ ascii ",t=" := by decide
  have hp : dollar ∉ ascii ",p=" := by decide
  simp [paramsText, hitoa, hm, ht, hp]

theorem dollar_not_mem_encodeRaw (s : Bytes) : dollar ∉ Base64.encodeRaw Base64.digit s :=
  Base64.not_mem_encodeRaw Base64.isAlphabet_std (by decide) s

theorem splitOn_hashText (p : Argon2Params) (salt key : Bytes) :
    (hashText p salt key).splitOn dollar = [[], ascii "argon2id", ascii "v=19", paramsText p,
      Base64.encodeRaw Base64.digit salt, Base64.encodeRaw Base64.digit key] := by
  have htext : hashText p salt key = [dollar].intercalate [[], ascii "argon2id", ascii "v=19",
      paramsText p, Base64.encodeRaw Base64.digit salt, Base64.encodeRaw Base64.digit key] := by
    have hfront : ascii "$argon2id$v=" ++ itoa argon2Version =
        dollar :: (ascii "argon2id" ++ dollar :: ascii "v=19") := by decide
    have hdollar : ascii "$" = [dollar] := by decide
    rw [hashText, hfront, hdollar]
    simp [List.intercalate]
  rw [htext]
  apply splitOn_intercalate
  · simp only [mem_cons, not_mem_nil, or_false, forall_eq_or_imp, forall_eq]
    exact ⟨by decide, by decide, by decide, dollar_not_mem_paramsText p,
      dollar_not_mem_encodeRaw salt, dollar_not_mem_encodeRaw key⟩
  · exact cons_ne_nil _ _

/-- **A hash is read back as it was written.** -/
theorem decodeHash_text (hp : p.Positive) {salt key : Bytes}
    (hsalt : salt.length = p.saltLength.toNat) (hkey : key.length = p.keyLength.toNat) :
    decodeHash quote (hashText p salt key) = .ok (p, salt, key) := by
  have hsaltPos := UInt32.lt_iff_toNat_lt.1 hp.saltLength
  have hkeyPos := UInt32.lt_iff_toNat_lt.1 hp.keyLength
  have hversion : scanVersion (ascii "v=19") = some (argon2Version : Int) := by decide
  have hempty : ¬ (p.saltLength.toNat = 0 ∨ p.keyLength.toNat = 0) := by
    simp only [UInt32.toNat_zero] at hsaltPos hkeyPos
    omega
  unfold decodeHash
  rw [splitOn_hashText]
  simp [hversion, parseParams_paramsText hp, Base64.decodeRaw_encodeRaw Base64.isAlphabet_std,
    hsalt, hkey, if_neg hempty, UInt32.ofNat_toNat]

/-! ## Verifying -/

/-- No other password has the key that this one has with the salt and the parameters. -/
def Argon2.Tells (password salt : Bytes) (p : Argon2Params) : Prop :=
  ∀ password', a.key password' salt p = a.key password salt p → password' = password

variable {a quote}

theorem verifyPassword_text (hp : p.Positive) {salt password password' : Bytes}
    (hsalt : salt.length = p.saltLength.toNat) (hlen : password'.length ≤ App.maxPasswordLen)
    (numCPU : Nat) :
    verifyPassword a quote numCPU (hashText p salt (a.key password salt p)) password' =
      if a.key password' salt p = a.key password salt p then .ok (true, weakerThanDefault numCPU p)
      else .ok (false, false) := by
  have hkey : (a.key password salt p).length = p.keyLength.toNat := a.length_idKey ..
  unfold verifyPassword
  rw [if_neg (by omega), decodeHash_text quote hp hsalt hkey]
  simp

theorem weakerThanDefault_iff (numCPU : Nat) (p : Argon2Params) :
    weakerThanDefault numCPU p = true ↔
      p.memory < 65536 ∨ p.iterations < 3 ∨ p.keyLength < 32 ∨ p.saltLength < 16 := by
  simp only [weakerThanDefault, Bool.or_eq_true, decide_eq_true_eq, or_assoc]
  exact Iff.rfl

theorem defaultArgon2Params_positive {numCPU : Nat} (h : 0 < numCPU) :
    (defaultArgon2Params numCPU).Positive := by
  unfold defaultArgon2Params
  split
  · -- a host with one processor
    obtain rfl : numCPU = 1 := by omega
    exact ⟨by decide, by decide, by decide, by decide, by decide⟩
  · exact ⟨by decide, by decide, by decide, by decide, by decide⟩

theorem weakerThanDefault_default (numCPU : Nat) :
    weakerThanDefault numCPU (defaultArgon2Params numCPU) = false := by
  simp [weakerThanDefault]

/-- **Stored hashes round-trip.** The text `HashPasswordWith` writes is read back by `decodeHash`
as the parameters, the salt and the key it was made of. `VerifyPassword` accepts with it the
passwords that have this key, so where Argon2id tells the password from every other, exactly
the password; and it then reports a rehash as due exactly where one of four parameters is below
the default. What a rehash writes never needs another one on the same host. -/
theorem password_round_trip (a : Argon2) (quote : Bytes → Bytes) (numCPU : Nat)
    (hcpu : 0 < numCPU) (password : Bytes) (hlen : password.length ≤ App.maxPasswordLen) :
    (∀ {p : Argon2Params}, p.Positive → ∀ salt : {salt : Bytes // salt.length = p.saltLength.toNat},
        ∃ encoded, hashPasswordWith a password p (.ok salt) = .ok encoded ∧
          decodeHash quote encoded = .ok (p, salt.val, a.key password salt.val p) ∧
          (∀ password', (∃ due, verifyPassword a quote numCPU encoded password' = .ok (true, due)) ↔
            password'.length ≤ App.maxPasswordLen ∧
              a.key password' salt.val p = a.key password salt.val p) ∧
          (a.Tells password salt.val p → ∀ password',
            (∃ due, verifyPassword a quote numCPU encoded password' = .ok (true, due)) ↔
              password' = password) ∧
          ∃ due, verifyPassword a quote numCPU encoded password = .ok (true, due) ∧ (due = true ↔
              p.memory < 65536 ∨ p.iterations < 3 ∨ p.keyLength < 32 ∨ p.saltLength < 16)) ∧
    (∀ salt, ∃ encoded, hashPassword a numCPU password (.ok salt) = .ok encoded ∧
      verifyPassword a quote numCPU encoded password = .ok (true, false)) := by
  constructor
  · intro p hp salt
    have haccepts : ∀ password', (∃ due, verifyPassword a quote numCPU
        (hashText p salt.val (a.key password salt.val p)) password' = .ok (true, due)) ↔
          password'.length ≤ App.maxPasswordLen ∧
            a.key password' salt.val p = a.key password salt.val p := by
      intro password'
      by_cases hlen' : password'.length ≤ App.maxPasswordLen
      · rw [verifyPassword_text hp salt.property hlen']
        split <;> simp [*]
      · -- a password that is too long is refused before the hash is looked at
        rw [verifyPassword, if_pos (by omega)]
        simp [hlen']
    refine ⟨_, by rw [hashPasswordWith, if_neg (by omega)],
      decodeHash_text quote hp salt.property (a.length_idKey ..), haccepts, ?_, ?_⟩
    · intro htells password'
      rw [haccepts]
      constructor
      · exact fun h => htells password' h.2
      intro h
      rw [h]
      exact ⟨hlen, rfl⟩
    refine ⟨weakerThanDefault numCPU p, ?_, weakerThanDefault_iff numCPU p⟩
    rw [verifyPassword_text hp salt.property hlen, if_pos rfl]
  · intro salt
    refine ⟨_, by rw [hashPassword, hashPasswordWith, if_neg (by omega)], ?_⟩
    rw [verifyPassword_text (defaultArgon2Params_positive hcpu) salt.property hlen, if_pos rfl,
      weakerThanDefault_default]

/-- A key function that knows one password from all others. -/
def sesameArgon2 : Argon2 where
  idKey password _ _ _ _ keyLen :=
    List.replicate keyLen.toNat (if password = ascii "open sesame" then 1 else 0)
  length_idKey _ _ _ _ _ _ := length_replicate

def cheapParams : Argon2Params := ⟨8, 1, 255, 4, 2⟩

theorem sesame_tells (salt : Bytes) :
    sesameArgon2.Tells (ascii "open sesame") salt cheapParams := by
  intro password h
  by_cases hsame : password = ascii "open sesame"
  · exact hsame
  · simp [Argon2.key, sesameArgon2, cheapParams, hsame] at h

/-- With cheap parameters the one password is accepted, and a rehash is due; what the rehash
writes is up to date. -/
theorem sesame_round_trip :
    (∃ encoded, hashPasswordWith sesameArgon2 (ascii "open sesame") cheapParams
        (.ok ⟨ascii "salt", rfl⟩) = .ok encoded ∧
      (∀ password, (∃ due, verifyPassword sesameArgon2 id 1 encoded password = .ok (true, due)) ↔
        password = ascii "open sesame") ∧
      verifyPassword sesameArgon2 id 1 encoded (ascii "open sesame") = .ok (true, true)) ∧
    ∃ encoded, hashPassword sesameArgon2 1 (ascii "open sesame")
        (.ok ⟨ascii "a salt of 16 B..", rfl⟩) = .ok encoded ∧
      verifyPassword sesameArgon2 id 1 encoded (ascii "open sesame") = .ok (true, false) := by
  have hpositive : cheapParams.Positive := ⟨by decide, by decide, by decide, by decide, by decide⟩
  obtain ⟨hany, hdefault⟩ := password_round_trip sesameArgon2 id 1 (by decide)
    (ascii "open sesame") (by decide)
  obtain ⟨encoded, hencoded, -, -, htells, due, hdue, hweak⟩ := hany hpositive ⟨ascii "salt", rfl⟩
  obtain rfl : due = true := hweak.2 (.inl (by decide))
  exact ⟨⟨encoded, hencoded, htells (sesame_tells _), hdue⟩, hdefault _⟩

end SmtpProxy.Crypto
