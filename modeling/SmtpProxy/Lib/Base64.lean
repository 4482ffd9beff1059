import SmtpProxy.Lib.Bytes

/-!
# Base64 with the standard alphabet and padding

`encode` is Go's `base64.StdEncoding.EncodeToString`; `decode` reads the
canonical form back. Three bytes are one 24-bit number, four characters its
digits to the base 64; the round trip (`decode_encode`) is the statement that
both splittings of that number lose nothing. `encodeRawURL` is
`base64.RawURLEncoding.EncodeToString`: another alphabet, and no padding.
`decodeRaw` is `DecodeString` of the encodings without padding, which skips line
breaks and, unless it is strict, ignores the bits left over in the last character. So what
is read strictly was encoded, up to line breaks (`encodeRawURL_decodeRaw`).
-/

namespace SmtpProxy.Lib.Base64

open List Option

def alphabet : Bytes :=
  ascii "ABCDEFGHIJKLMNOPQRSTUVWXYZabcdefghijklmnopqrstuvwxyz0123456789+/"

def digit (v : Nat) : UInt8 := alphabet.getD v 0

def value (c : UInt8) : Option Nat := alphabet.findIdx? (· == c)

def pad : UInt8 := 61

def encode : Bytes → Bytes
  | a :: b :: c :: rest =>
    let v := a.toNat * 65536 + b.toNat * 256 + c.toNat
    digit (v / 262144) :: digit (v / 4096 % 64) :: digit (v / 64 % 64) :: digit (v % 64) ::
      encode rest
  | [a, b] =>
    let v := a.toNat * 1024 + b.toNat * 4
    [digit (v / 4096), digit (v / 64 % 64), digit (v % 64), pad]
  | [a] =>
    let v := a.toNat * 16
    [digit (v / 64), digit (v % 64), pad, pad]
  | [] => []

def group (w x y z : UInt8) : Option Bytes := do
  let v := (← value w) * 262144 + (← value x) * 4096 + (← value y) * 64 + (← value z)
  some [UInt8.ofNat (v / 65536), UInt8.ofNat (v / 256 % 256), UInt8.ofNat (v % 256)]

def lastGroup (w x y z : UInt8) : Option Bytes := do
  if z = pad then
    if y = pad then
      let v := (← value w) * 64 + (← value x)
      some [UInt8.ofNat (v / 16)]
    else
      let v := (← value w) * 4096 + (← value x) * 64 + (← value y)
      some [UInt8.ofNat (v / 1024), UInt8.ofNat (v / 4 % 256)]
  else group w x y z

def decode : Bytes → Option Bytes
  | [] => some []
  | [w, x, y, z] => lastGroup w x y z
  | w :: x :: y :: z :: rest => do
    let bytes ← group w x y z
    let more ← decode rest
    some (bytes ++ more)
  | _ => none

/-! ## The round trip -/

theorem value_digit {v : Nat} (h : v < 64) : value (digit v) = some v := by
  have hall : ∀ i : Fin 64, value (digit i.val) = some i.val := by decide +kernel
  exact hall ⟨v, h⟩

theorem digit_ne_pad {v : Nat} (h : v < 64) : digit v ≠ pad := by
  have hall : ∀ i : Fin 64, digit i.val ≠ pad := by decide +kernel
  exact hall ⟨v, h⟩

theorem ofNat_eq {a : UInt8} {n : Nat} (h : n = a.toNat) : UInt8.ofNat n = a := by
  rw [h]
  exact UInt8.ofNat_toNat

theorem group_digits (a b c : UInt8) :
    group (digit ((a.toNat * 65536 + b.toNat * 256 + c.toNat) / 262144))
      (digit ((a.toNat * 65536 + b.toNat * 256 + c.toNat) / 4096 % 64))
      (digit ((a.toNat * 65536 + b.toNat * 256 + c.toNat) / 64 % 64))
      (digit ((a.toNat * 65536 + b.toNat * 256 + c.toNat) % 64)) = some [a, b, c] := by
  have ha := a.toNat_lt
  have hb := b.toNat_lt
  have hc := c.toNat_lt
  unfold group
  rw [value_digit (by omega), value_digit (by omega), value_digit (by omega),
    value_digit (by omega)]
  simp only [bind_eq_bind, bind_some, Option.some.injEq, List.cons.injEq, and_true]
  exact ⟨ofNat_eq (by omega), ofNat_eq (by omega), ofNat_eq (by omega)⟩

/-- **What was encoded decodes to itself.** -/
theorem decode_encode : ∀ s : Bytes, decode (encode s) = some s
  | [] => rfl
  | [a] => by
    have ha := a.toNat_lt
    simp only [encode, decode, lastGroup, if_true]
    rw [value_digit (by omega), value_digit (by omega)]
    simp only [bind_eq_bind, bind_some, Option.some.injEq, List.cons.injEq, and_true]
    exact ofNat_eq (by omega)
  | [a, b] => by
    have ha := a.toNat_lt
    have hb := b.toNat_lt
    simp only [encode, decode, lastGroup, if_true]
    rw [if_neg (digit_ne_pad (by omega)), value_digit (by omega), value_digit (by omega),
      value_digit (by omega)]
    simp only [bind_eq_bind, bind_some, Option.some.injEq, List.cons.injEq, and_true]
    exact ⟨ofNat_eq (by omega), ofNat_eq (by omega)⟩
  | a :: b :: c :: rest => by
    have ih := decode_encode rest
    have hlast := digit_ne_pad (Nat.mod_lt (a.toNat * 65536 + b.toNat * 256 + c.toNat)
      (by omega : 0 < 64))
    rw [encode]
    cases hrest : encode rest with
    | nil =>
      -- only the empty string encodes to the empty string
      rw [hrest] at ih
      rw [decode, lastGroup, if_neg hlast, group_digits, ← some.inj ih]
    | cons d ds =>
    rw [decode, group_digits, ← hrest, ih]
    · rfl
    · simp
termination_by s => s.length

example : encode (ascii "Ma") = ascii "TWE=" := by decide

/-! ## Without padding, for URLs -/

def digitURL (v : Nat) : UInt8 :=
  if v = 62 then 45 else if v = 63 then 95 else digit v

def encodeRawURL : Bytes → Bytes
  | a :: b :: c :: rest =>
    let v := a.toNat * 65536 + b.toNat * 256 + c.toNat
    digitURL (v / 262144) :: digitURL (v / 4096 % 64) :: digitURL (v / 64 % 64) ::
      digitURL (v % 64) :: encodeRawURL rest
  | [a, b] =>
    let v := a.toNat * 1024 + b.toNat * 4
    [digitURL (v / 4096), digitURL (v / 64 % 64), digitURL (v % 64)]
  | [a] =>
    let v := a.toNat * 16
    [digitURL (v / 64), digitURL (v % 64)]
  | [] => []

/-! ## Reading what has no padding -/

def valueURL (c : UInt8) : Option Nat :=
  if c = 45 then some 62 else if c = 95 then some 63
  else if c = 43 ∨ c = 47 then none else value c

def decodeGroups (value : UInt8 → Option Nat) (strict : Bool) : Bytes → Option Bytes
  | w :: x :: y :: z :: rest => do
    let v := (← value w) * 262144 + (← value x) * 4096 + (← value y) * 64 + (← value z)
    let more ← decodeGroups value strict rest
    some (UInt8.ofNat (v / 65536) :: UInt8.ofNat (v / 256 % 256) :: UInt8.ofNat (v % 256) :: more)
  | [w, x, y] => do
    let v := (← value w) * 4096 + (← value x) * 64 + (← value y)
    if strict && v % 4 != 0 then none
    else some [UInt8.ofNat (v / 1024), UInt8.ofNat (v / 4 % 256)]
  | [w, x] => do
    let v := (← value w) * 64 + (← value x)
    if strict && v % 16 != 0 then none else some [UInt8.ofNat (v / 16)]
  | [_] => none
  | [] => some []

/-- `DecodeString` of an encoding without padding. -/
def decodeRaw (value : UInt8 → Option Nat) (strict : Bool) (s : Bytes) : Option Bytes :=
  decodeGroups value strict (s.filter fun c => c != cr && c != lf)

theorem filter_noBreak {s : Bytes} (hcr : cr ∉ s) (hlf : lf ∉ s) :
    (s.filter fun c => c != cr && c != lf) = s := by
  refine filter_eq_self.2 fun c hc => ?_
  have hc1 : c ≠ cr := fun h => hcr (h ▸ hc)
  have hc2 : c ≠ lf := fun h => hlf (h ▸ hc)
  simp [hc1, hc2]

/-! ## Any alphabet

What encoding and reading without padding have to do with each other depends on the alphabet
only in that characters and digits stand for each other. -/

/-- `encodeRawURL` with any alphabet. -/
def encodeRaw (digit : Nat → UInt8) : Bytes → Bytes
  | a :: b :: c :: rest =>
    let v := a.toNat * 65536 + b.toNat * 256 + c.toNat
    digit (v / 262144) :: digit (v / 4096 % 64) :: digit (v / 64 % 64) :: digit (v % 64) ::
      encodeRaw digit rest
  | [a, b] =>
    let v := a.toNat * 1024 + b.toNat * 4
    [digit (v / 4096), digit (v / 64 % 64), digit (v % 64)]
  | [a] =>
    let v := a.toNat * 16
    [digit (v / 64), digit (v % 64)]
  | [] => []

theorem encodeRawURL_eq (s : Bytes) : encodeRawURL s = encodeRaw digitURL s := by
  induction s using encodeRawURL.induct with
  | case1 a b c rest ih => rw [encodeRawURL, encodeRaw, ih]
  | case2 | case3 | case4 => rfl

/-- Characters and six-bit digits stand for each other, and a line break is no digit. -/
structure IsAlphabet (digit : Nat → UInt8) (value : UInt8 → Option Nat) : Prop where
  value_digit : ∀ {v}, v < 64 → value (digit v) = some v
  digit_value : ∀ {c v}, value c = some v → v < 64 ∧ digit v = c
  cr_none : value cr = none
  lf_none : value lf = none

theorem value_lt {c : UInt8} {v : Nat} (h : value c = some v) : v < 64 ∧ digit v = c := by
  obtain ⟨hlt, hc, -⟩ := findIdx?_eq_some_iff_getElem.1 h
  refine ⟨hlt, ?_⟩
  rw [digit, getD_eq_getElem?_getD, getElem?_eq_getElem hlt]
  exact eq_of_beq hc

theorem isAlphabet_std : IsAlphabet digit value := ⟨value_digit, value_lt, by decide, by decide⟩

theorem isAlphabet_URL : IsAlphabet digitURL valueURL where
  value_digit {v} h := by
    have hall : ∀ i : Fin 64, valueURL (digitURL i.val) = some i.val := by decide +kernel
    exact hall ⟨v, h⟩
  digit_value {c v} h := by
    unfold valueURL at h
    split at h
    · next hc => cases h; exact ⟨by omega, hc.symm⟩
    split at h
    · next hc => cases h; exact ⟨by omega, hc.symm⟩
    split at h
    · cases h
    next hstd =>
    obtain ⟨hlt, hdigit⟩ := value_lt h
    -- the two digits the alphabets write differently are excluded
    have h62 : v ≠ 62 := fun he => hstd (.inl (by rw [← hdigit, he]; decide))
    have h63 : v ≠ 63 := fun he => hstd (.inr (by rw [← hdigit, he]; decide))
    exact ⟨hlt, by rw [digitURL, if_neg h62, if_neg h63, hdigit]⟩
  cr_none := by decide
  lf_none := by decide

section Alphabet

variable {digit : Nat → UInt8} {value : UInt8 → Option Nat}

theorem length_le_encodeRaw (s : Bytes) : s.length ≤ (encodeRaw digit s).length := by
  induction s using encodeRaw.induct with
  | case1 a b c rest ih =>
    simp only [encodeRaw, length_cons]
    omega
  | case2 | case3 => simp [encodeRaw]
  | case4 => exact Nat.le_refl _

theorem mem_encodeRaw {s : Bytes} {c : UInt8} (h : c ∈ encodeRaw digit s) :
    ∃ v < 64, c = digit v := by
  induction s using encodeRaw.induct with
  | case1 a b d rest ih =>
    have ha := a.toNat_lt
    have hb := b.toNat_lt
    have hd := d.toNat_lt
    simp only [encodeRaw, mem_cons] at h
    obtain rfl | rfl | rfl | rfl | h := h
    · exact ⟨_, by omega, rfl⟩
    · exact ⟨_, by omega, rfl⟩
    · exact ⟨_, by omega, rfl⟩
    · exact ⟨_, by omega, rfl⟩
    · exact ih h
  | case2 a b =>
    have ha := a.toNat_lt
    have hb := b.toNat_lt
    simp only [encodeRaw, mem_cons, not_mem_nil, or_false] at h
    obtain rfl | rfl | rfl := h <;> exact ⟨_, by omega, rfl⟩
  | case3 a =>
    have ha := a.toNat_lt
    simp only [encodeRaw, mem_cons, not_mem_nil, or_false] at h
    obtain rfl | rfl := h <;> exact ⟨_, by omega, rfl⟩
  | case4 => simp [encodeRaw] at h

theorem not_mem_encodeRaw (hα : IsAlphabet digit value) {c : UInt8} (hc : value c = none)
    (s : Bytes) : c ∉ encodeRaw digit s := by
  intro h
  obtain ⟨v, hv, rfl⟩ := mem_encodeRaw h
  rw [hα.value_digit hv] at hc
  cases hc

theorem decodeGroups_encodeRaw (hα : IsAlphabet digit value) (strict : Bool) (s : Bytes) :
    decodeGroups value strict (encodeRaw digit s) = some s := by
  induction s using encodeRaw.induct with
  | case1 a b c rest ih =>
    have ha := a.toNat_lt
    have hb := b.toNat_lt
    have hc := c.toNat_lt
    rw [encodeRaw, decodeGroups, ih, hα.value_digit (by omega), hα.value_digit (by omega),
      hα.value_digit (by omega), hα.value_digit (by omega)]
    simp only [bind_eq_bind, bind_some, Option.some.injEq, List.cons.injEq, and_true]
    exact ⟨ofNat_eq (by omega), ofNat_eq (by omega), ofNat_eq (by omega)⟩
  | case2 a b =>
    have ha := a.toNat_lt
    have hb := b.toNat_lt
    rw [encodeRaw, decodeGroups, hα.value_digit (by omega), hα.value_digit (by omega),
      hα.value_digit (by omega)]
    simp only [bind_eq_bind, bind_some]
    -- the two bits left over are zero
    rw [if_neg (by simp; omega)]
    simp only [Option.some.injEq, List.cons.injEq, and_true]
    exact ⟨ofNat_eq (by omega), ofNat_eq (by omega)⟩
  | case3 a =>
    have ha := a.toNat_lt
    rw [encodeRaw, decodeGroups, hα.value_digit (by omega), hα.value_digit (by omega)]
    simp only [bind_eq_bind, bind_some]
    rw [if_neg (by simp; omega)]
    simp only [Option.some.injEq, List.cons.injEq, and_true]
    exact ofNat_eq (by omega)
  | case4 => rfl

theorem noBreak_encodeRaw (hα : IsAlphabet digit value) (s : Bytes) :
    cr ∉ encodeRaw digit s ∧ lf ∉ encodeRaw digit s :=
  ⟨not_mem_encodeRaw hα hα.cr_none s, not_mem_encodeRaw hα hα.lf_none s⟩

/-- **What was encoded decodes to itself, strictly or not.** -/
theorem decodeRaw_encodeRaw (hα : IsAlphabet digit value) (strict : Bool) (s : Bytes) :
    decodeRaw value strict (encodeRaw digit s) = some s := by
  obtain ⟨hcr, hlf⟩ := noBreak_encodeRaw hα s
  rw [decodeRaw, filter_noBreak hcr hlf, decodeGroups_encodeRaw hα]

theorem toNat_byte {n : Nat} (h : n < 256) : (UInt8.ofNat n).toNat = n := UInt8.toNat_ofNat_of_lt' h

theorem three_bytes {v : Nat} (h : v < 16777216) :
    (UInt8.ofNat (v / 65536)).toNat * 65536 + (UInt8.ofNat (v / 256 % 256)).toNat * 256 +
      (UInt8.ofNat (v % 256)).toNat = v := by
  rw [toNat_byte (by omega), toNat_byte (by omega), toNat_byte (by omega)]
  omega

theorem two_bytes {v : Nat} (h : v < 262144) (hbits : v % 4 = 0) :
    (UInt8.ofNat (v / 1024)).toNat * 1024 + (UInt8.ofNat (v / 4 % 256)).toNat * 4 = v := by
  rw [toNat_byte (by omega), toNat_byte (by omega)]
  omega

theorem one_byte {v : Nat} (h : v < 4096) (hbits : v % 16 = 0) :
    (UInt8.ofNat (v / 16)).toNat * 16 = v := by
  rw [toNat_byte (by omega)]
  omega

theorem encodeRaw_decodeGroups (hα : IsAlphabet digit value) {s raw : Bytes}
    (h : decodeGroups value true s = some raw) : encodeRaw digit raw = s := by
  induction s using decodeGroups.induct generalizing raw with
  | case1 w x y z rest ih =>
    simp only [decodeGroups, bind_eq_bind, bind_eq_some_iff, Option.some.injEq] at h
    obtain ⟨a, ha, b, hb, c, hc, d, hd, more, hmore, rfl⟩ := h
    obtain ⟨ha, rfl⟩ := hα.digit_value ha
    obtain ⟨hb, rfl⟩ := hα.digit_value hb
    obtain ⟨hc, rfl⟩ := hα.digit_value hc
    obtain ⟨hd, rfl⟩ := hα.digit_value hd
    rw [encodeRaw, ih hmore, three_bytes (by omega)]
    simp only [List.cons.injEq, and_true]
    refine ⟨congrArg digit ?_, congrArg digit ?_, congrArg digit ?_, congrArg digit ?_⟩ <;> omega
  | case2 w x y =>
    simp only [decodeGroups, bind_eq_bind, bind_eq_some_iff] at h
    obtain ⟨a, ha, b, hb, c, hc, h⟩ := h
    obtain ⟨ha, rfl⟩ := hα.digit_value ha
    obtain ⟨hb, rfl⟩ := hα.digit_value hb
    obtain ⟨hc, rfl⟩ := hα.digit_value hc
    split at h
    · cases h
    next hbits =>
    cases h
    simp only [Bool.true_and, bne_iff_ne, ne_eq, Decidable.not_not] at hbits
    rw [encodeRaw, two_bytes (by omega) hbits]
    simp only [List.cons.injEq, and_true]
    refine ⟨congrArg digit ?_, congrArg digit ?_, congrArg digit ?_⟩ <;> omega
  | case3 w x =>
    simp only [decodeGroups, bind_eq_bind, bind_eq_some_iff] at h
    obtain ⟨a, ha, b, hb, h⟩ := h
    obtain ⟨ha, rfl⟩ := hα.digit_value ha
    obtain ⟨hb, rfl⟩ := hα.digit_value hb
    split at h
    · cases h
    next hbits =>
    cases h
    simp only [Bool.true_and, bne_iff_ne, ne_eq, Decidable.not_not] at hbits
    rw [encodeRaw, one_byte (by omega) hbits]
    simp only [List.cons.injEq, and_true]
    refine ⟨congrArg digit ?_, congrArg digit ?_⟩ <;> omega
  | case4 w => simp [decodeGroups] at h
  | case5 =>
    simp only [decodeGroups, Option.some.injEq] at h
    rw [← h, encodeRaw]

end Alphabet

/-! ### The alphabet for URLs -/

theorem length_le_encodeRawURL (s : Bytes) : s.length ≤ (encodeRawURL s).length := by
  rw [encodeRawURL_eq]
  exact length_le_encodeRaw s

theorem not_mem_encodeRawURL {c : UInt8} (hc : valueURL c = none) (s : Bytes) :
    c ∉ encodeRawURL s := by
  rw [encodeRawURL_eq]
  exact not_mem_encodeRaw isAlphabet_URL hc s

theorem decodeRaw_encodeRawURL (strict : Bool) (s : Bytes) :
    decodeRaw valueURL strict (encodeRawURL s) = some s := by
  rw [encodeRawURL_eq, decodeRaw_encodeRaw isAlphabet_URL]

/-- **What is read strictly is the encoding of what was read, with line breaks put in.** -/
theorem encodeRawURL_decodeRaw {s raw : Bytes} (h : decodeRaw valueURL true s = some raw) :
    encodeRawURL raw = s.filter fun c => c != cr && c != lf := by
  rw [encodeRawURL_eq]
  exact encodeRaw_decodeGroups isAlphabet_URL h

example : decodeRaw valueURL true (ascii "T1_\n-") = some [79, 95, 254] := by
  decide +kernel

end SmtpProxy.Lib.Base64
