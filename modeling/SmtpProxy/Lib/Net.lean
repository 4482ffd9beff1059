import SmtpProxy.Lib.Bytes

/-!
# Network addresses

The parts of Go's `net` package an address goes through. How an IP address is
written and read is a parameter (`NetText`); `NetText.Lawful` says what is
assumed of it.
-/

namespace SmtpProxy.Lib

/-- `net.IP`: four or sixteen bytes; the empty list is nil. -/
abbrev IP := Bytes

def v4InV6 : Bytes := List.replicate 10 0 ++ [0xff, 0xff]

def to4 (ip : IP) : Option IP :=
  if ip.length = 4 then some ip
  else if ip.length = 16 ∧ ip.take 12 = v4InV6 then some (ip.drop 12)
  else none

def ipEqual (a b : IP) : Bool :=
  if a.length = b.length then a = b
  else if a.length = 4 ∧ b.length = 16 then b.take 12 = v4InV6 && a = b.drop 12
  else if a.length = 16 ∧ b.length = 4 then a.take 12 = v4InV6 && a.drop 12 = b
  else false

theorem ipEqual_refl (ip : IP) : ipEqual ip ip = true := by simp [ipEqual]

theorem short_of_ipEqual {a b : IP} (h : ipEqual a b = true) : (to4 a).getD a = (to4 b).getD b := by
  unfold ipEqual at h
  split at h
  · rw [of_decide_eq_true h]
  split at h
  · next hne hlen =>
    simp only [Bool.and_eq_true, decide_eq_true_eq] at h
    have ha : to4 a = some a := by rw [to4, if_pos hlen.1]
    have hb : to4 b = some (b.drop 12) := by
      rw [to4, if_neg (by omega), if_pos ⟨hlen.2, h.1⟩]
    rw [ha, hb]
    exact h.2
  split at h
  · next hne hne' hlen =>
    simp only [Bool.and_eq_true, decide_eq_true_eq] at h
    have ha : to4 a = some (a.drop 12) := by
      rw [to4, if_neg (by omega), if_pos ⟨hlen.1, h.1⟩]
    have hb : to4 b = some b := by rw [to4, if_pos hlen.2]
    rw [ha, hb]
    exact h.2
  · cases h

structure IPNet where
  ip : IP
  mask : Bytes
  deriving DecidableEq

def IPNet.numberAndMask (n : IPNet) : IP × Bytes :=
  let ip := (to4 n.ip).getD n.ip
  if ip.length ≠ 4 ∧ ip.length ≠ 16 then ([], [])
  else if n.mask.length = 4 then if ip.length = 4 then (ip, n.mask) else ([], [])
  else if n.mask.length = 16 then (ip, if ip.length = 4 then n.mask.drop 12 else n.mask)
  else ([], [])

def IPNet.contains (n : IPNet) (ip : IP) : Bool :=
  let (number, mask) := n.numberAndMask
  let ip := (to4 ip).getD ip
  ip.length = number.length &&
    List.zipWith (· &&& ·) number mask = List.zipWith (· &&& ·) ip mask

/-- `net.Addr`: a `*net.TCPAddr`, or another address known by its text. -/
inductive Addr where
  | tcp (ip : IP) (port : Int) (zone : Bytes)
  | other (text : Bytes)
  deriving DecidableEq

/-- How IP addresses and networks are written. `parseIP` and `parseCIDR` return
`none` for a text that is none. -/
structure NetText where
  ipString : IP → Bytes
  parseIP : Bytes → Option IP
  parseCIDR : Bytes → Option IPNet

def isAddrByte (b : UInt8) : Bool := isDigit b || (97 ≤ b && b ≤ 102) || b = 46 || b = 58

def IsIP (ip : IP) : Prop := ip.length = 4 ∨ ip.length = 16

instance (ip : IP) : Decidable (IsIP ip) := inferInstanceAs (Decidable (_ ∨ _))

/-- A written address is read back as an equal one. It consists of digits, the
letters `a` to `f`, dots and colons, at most 39 of them. -/
structure NetText.Lawful (n : NetText) : Prop where
  parse_string : ∀ ip, IsIP ip → ∃ ip', n.parseIP (n.ipString ip) = some ip' ∧ ipEqual ip' ip = true
  string_bytes : ∀ ip, IsIP ip → ∀ b ∈ n.ipString ip, isAddrByte b = true
  string_ne_nil : ∀ ip, IsIP ip → n.ipString ip ≠ []
  string_length : ∀ ip, IsIP ip → (n.ipString ip).length ≤ 39

def joinHostPort (host port : Bytes) : Bytes :=
  if host.contains 58 then ascii "[" ++ host ++ ascii "]:" ++ port
  else host ++ ascii ":" ++ port

def indexByte (c : UInt8) (s : Bytes) : Option Nat := s.findIdx? (· = c)

/-- The host of `net.SplitHostPort`, or `none` for its error. -/
def splitHost (hostport : Bytes) : Option Bytes :=
  let i := lastIndexByte 58 hostport
  if i < 0 then none
  else if hostport.head? = some 91 then
    match indexByte 93 hostport with
    | none => none
    | some stop =>
      if (stop : Int) + 1 ≠ i then none
      else if (hostport.drop 1).contains 91 || (hostport.drop (stop + 1)).contains 93 then none
      else some ((hostport.take stop).drop 1)
  else
    let host := hostport.take i.toNat
    if host.contains 58 || hostport.contains 91 || hostport.contains 93 then none
    else some host

def Addr.string (n : NetText) : Addr → Bytes
  | .tcp ip port zone =>
    let host := if ip = [] then [] else n.ipString ip
    joinHostPort (if zone ≠ [] then host ++ ascii "%" ++ zone else host) (itoa port)
  | .other text => text

/-! ## A way of writing addresses -/

def hexDigit (n : Nat) : UInt8 := if n < 10 then UInt8.ofNat (48 + n) else UInt8.ofNat (87 + n)

def unhex (c : UInt8) : Nat := if isDigit c then c.toNat - 48 else c.toNat - 87

/-- Two digits for every byte, as `hex.EncodeToString` writes them. -/
def hexString (ip : IP) : Bytes :=
  ip.flatMap fun b => [hexDigit (b.toNat / 16), hexDigit (b.toNat % 16)]

def parseHex : Bytes → Option IP
  | [] => some []
  | [_] => none
  | a :: b :: s => (parseHex s).map fun ip => UInt8.ofNat (unhex a * 16 + unhex b) :: ip

theorem hexDigit_spec :
    ∀ k < 16, unhex (hexDigit k) = k ∧ hexDigit k ≠ 46 ∧ isAddrByte (hexDigit k) = true := by decide

theorem parseHex_hexString (ip : IP) : parseHex (hexString ip) = some ip := by
  induction ip with
  | nil => rfl
  | cons b ip ih =>
  have hb := b.toNat_lt
  rw [show hexString (b :: ip)
    = hexDigit (b.toNat / 16) :: hexDigit (b.toNat % 16) :: hexString ip from rfl, parseHex, ih,
    Option.map_some, (hexDigit_spec _ (by omega)).1, (hexDigit_spec _ (by omega)).1,
    Nat.div_add_mod', UInt8.ofNat_toNat]

theorem hexString_injective : Function.Injective hexString := by
  intro s t h
  have hparsed := parseHex_hexString s
  rw [h, parseHex_hexString] at hparsed
  exact (Option.some.inj hparsed).symm

theorem hexString_length (ip : IP) : (hexString ip).length = 2 * ip.length := by
  induction ip with
  | nil => rfl
  | cons b ip ih =>
  rw [show hexString (b :: ip)
    = hexDigit (b.toNat / 16) :: hexDigit (b.toNat % 16) :: hexString ip from rfl]
  simp only [List.length_cons, ih]
  omega

/-- An octet in decimal, without leading zeros. -/
def octetText (b : UInt8) : Bytes :=
  let n := b.toNat
  (if n < 100 then [] else [hexDigit (n / 100)]) ++ (if n < 10 then [] else [hexDigit (n / 10 % 10)]) ++
    [hexDigit (n % 10)]

def octetsText (a b c d : UInt8) : Bytes :=
  octetText a ++ 46 :: (octetText b ++ 46 :: (octetText c ++ 46 :: octetText d))

def readOctets (n : Nat) : Bytes → IP
  | [] => [UInt8.ofNat n]
  | c :: s =>
    if c = 46 then UInt8.ofNat n :: readOctets 0 s else readOctets (n * 10 + unhex c) s

/-- An IPv4 address as `net.IP` writes it. An IPv6 address is written without colons, so
nothing is said here of how its zeros are left out. -/
def dottedString (ip : IP) : Bytes :=
  match (to4 ip).getD ip with
  | [a, b, c, d] => octetsText a b c d
  | ip => hexString ip

def parseDotted (s : Bytes) : Option IP :=
  let ip := if s.length = 32 then (parseHex s).getD [] else v4InV6 ++ readOctets 0 s
  if IsIP ip ∧ dottedString ip = s then some ip else none

/-- Addresses in this form, and no networks. -/
def dottedText : NetText where
  ipString := dottedString
  parseIP := parseDotted
  parseCIDR := fun _ => none

theorem octetText_spec (b : UInt8) : ((octetText b).foldl (fun n c => n * 10 + unhex c) 0 = b.toNat ∧
    46 ∉ octetText b) ∧ (∀ c ∈ octetText b, isAddrByte c = true) ∧ (octetText b).length ≤ 3 := by
  have hb := b.toNat_lt
  have hones := hexDigit_spec (b.toNat % 10) (by omega)
  have htens := hexDigit_spec (b.toNat / 10 % 10) (by omega)
  have hhundreds := hexDigit_spec (b.toNat / 100) (by omega)
  unfold octetText
  dsimp only
  split <;> split <;> simp [hones, htens, hhundreds, Ne.symm] <;> omega

theorem readOctets_append {ds : Bytes} (h : 46 ∉ ds) (n : Nat) (s : Bytes) :
    readOctets n (ds ++ s) = readOctets (ds.foldl (fun n c => n * 10 + unhex c) n) s := by
  induction ds generalizing n with
  | nil => rfl
  | cons c ds ih =>
  rw [List.mem_cons, not_or] at h
  rw [List.cons_append, readOctets, if_neg (Ne.symm h.1), ih h.2]
  rfl

theorem readOctets_octetText (b : UInt8) (s : Bytes) :
    readOctets 0 (octetText b ++ s) = readOctets b.toNat s := by
  obtain ⟨⟨hvalue, hdot⟩, -⟩ := octetText_spec b
  rw [readOctets_append hdot, hvalue]

theorem readOctets_octetsText (a b c d : UInt8) : readOctets 0 (octetsText a b c d) = [a, b, c, d] := by
  rw [octetsText, ← List.append_nil (octetText d)]
  simp only [readOctets_octetText, readOctets, if_true, UInt8.ofNat_toNat]

theorem octetsText_bytes (a b c d : UInt8) : (∀ x ∈ octetsText a b c d, isAddrByte x = true) ∧
    (octetsText a b c d).length ≤ 15 := by
  have hdot : isAddrByte 46 = true := rfl
  have hlen := fun x => (octetText_spec x).2.2
  constructor
  · simp only [octetsText, List.forall_mem_append, List.forall_mem_cons]
    have hbytes := fun x => (octetText_spec x).2.1
    exact ⟨hbytes a, hdot, hbytes b, hdot, hbytes c, hdot, hbytes d⟩
  simp only [octetsText, List.length_append, List.length_cons]
  have := hlen a
  have := hlen b
  have := hlen c
  have := hlen d
  omega

/-- An address is one of IPv4, in its four bytes or within sixteen, or has sixteen others. -/
theorem dottedString_cases {ip : IP} (hip : IsIP ip) :
    (∃ a b c d, (ip = [a, b, c, d] ∨ ip = v4InV6 ++ [a, b, c, d]) ∧
        dottedString ip = octetsText a b c d) ∨
      dottedString ip = hexString ip ∧ ip.length = 16 := by
  unfold dottedString to4
  split
  · next a b c d h =>
    refine .inl ⟨a, b, c, d, ?_, rfl⟩
    split at h
    · exact .inl h
    split at h
    · next hmapped =>
      right
      rw [← hmapped.2, ← h, Option.getD_some, List.take_append_drop]
    · exact .inl h
  next hother =>
  have hlong : ip.length ≠ 4 := fun hlen => by
    obtain ⟨a, b, c, d, rfl⟩ := List.length_eq_four.1 hlen
    exact hother a b c d rfl
  rw [if_neg hlong] at hother ⊢
  split
  · next hmapped =>
    have hlen : (ip.drop 12).length = 4 := by rw [List.length_drop, hmapped.1]
    obtain ⟨a, b, c, d, h⟩ := List.length_eq_four.1 hlen
    exact (hother a b c d (by rw [if_pos hmapped, h, Option.getD_some])).elim
  · exact .inr ⟨rfl, hip.resolve_left hlong⟩

theorem parseDotted_eq_some {s : Bytes} {ip : IP} (hip : IsIP ip) (hs : dottedString ip = s)
    (hread : (if s.length = 32 then (parseHex s).getD [] else v4InV6 ++ readOctets 0 s) = ip) :
    parseDotted s = some ip := by
  unfold parseDotted
  rw [hread]
  exact if_pos ⟨hip, hs⟩

theorem dottedText_lawful : dottedText.Lawful where
  parse_string := fun ip hip => by
    show ∃ ip', parseDotted (dottedString ip) = some ip' ∧ _
    obtain ⟨a, b, c, d, hform, hs⟩ | ⟨hs, hlen⟩ := dottedString_cases hip
    · have hshort := (octetsText_bytes a b c d).2
      refine ⟨v4InV6 ++ [a, b, c, d], parseDotted_eq_some (.inr rfl) hs.symm ?_, ?_⟩
      · rw [hs, if_neg (by omega), readOctets_octetsText]
      obtain rfl | rfl := hform
      · simp [ipEqual, v4InV6]
      · exact ipEqual_refl _
    refine ⟨ip, parseDotted_eq_some hip rfl ?_, ipEqual_refl ip⟩
    rw [hs, if_pos (by rw [hexString_length, hlen]), parseHex_hexString, Option.getD_some]
  string_bytes := fun ip hip x hx => by
    change x ∈ dottedString ip at hx
    obtain ⟨a, b, c, d, -, hs⟩ | ⟨hs, -⟩ := dottedString_cases hip <;> rw [hs] at hx
    · exact (octetsText_bytes a b c d).1 x hx
    obtain ⟨b, -, hx⟩ := List.mem_flatMap.1 hx
    have hb := b.toNat_lt
    obtain rfl | rfl : x = hexDigit (b.toNat / 16) ∨ x = hexDigit (b.toNat % 16) := by simpa using hx
    all_goals exact (hexDigit_spec _ (by omega)).2.2
  string_ne_nil := fun ip hip h => by
    change dottedString ip = [] at h
    obtain ⟨a, b, c, d, -, hs⟩ | ⟨hs, hlen⟩ := dottedString_cases hip <;> rw [hs] at h
    · simp [octetsText] at h
    have hhex := hexString_length ip
    rw [h, List.length_nil] at hhex
    omega
  string_length := fun ip hip => by
    show (dottedString ip).length ≤ 39
    obtain ⟨a, b, c, d, -, hs⟩ | ⟨hs, hlen⟩ := dottedString_cases hip <;> rw [hs]
    · exact (octetsText_bytes a b c d).2.trans (by decide)
    · exact (hexString_length ip).trans_le (by omega)

end SmtpProxy.Lib
