import SmtpProxy.Lib.AddrSpec
import SmtpProxy.Policy.Resolve

/-!
# Addresses that stand for themselves

`ParseAddress` on top of the address parser of `net/mail`. The parser drops what
is around an address and takes the quotes off its local part, so that what it
returns need not be what it was given, nor something it accepts. `Plain` says
when it is: `parseAddress_ok` shows that every other text loses characters on the
way, and no text that lost some can be the result of parsing it again.

Of `strings.ToLower` only what every table of letters has is used (`Lowers`).
-/

namespace SmtpProxy.Policy

open Lib Utf8 List

/-! ## The library -/

/-- The pair as the package sees it. -/
def MailAddress.ofNetMail (a : NetMail.Address) : MailAddress := ⟨a.name, a.address⟩

/-- A library whose address parser is the one of `net/mail`. -/
def GoText.withMail (g : GoText) (lib : NetMail.Tables) : GoText :=
  { g with
    parseAddress := fun s => (NetMail.parseAddress lib s).map MailAddress.ofNetMail
    parseAddressList := fun s =>
      (NetMail.parseAddressList lib s).map (·.map MailAddress.ofNetMail) }

/-- What lower case does: it goes character by character, leaves ASCII other than
capitals alone and makes nothing but letters. -/
structure Lowers (toLower : Bytes → Bytes) : Prop where
  nil : toLower [] = []
  split : ∀ x c y, c < 0x80 → toLower (x ++ c :: y) = toLower x ++ asciiLower c :: toLower y
  letters : ∀ x c, c < 0x80 → ¬ (97 ≤ c ∧ c ≤ 122) → c ∈ toLower x → c ∈ x
  count : ∀ x, valid x = true → runeCount (toLower x) = runeCount x

theorem bareText_lowers : Lowers bareText.toLower where
  nil := rfl
  split := fun x c y _ => by
    show List.map asciiLower _ = _
    rw [map_append, map_cons]
    rfl
  letters := fun x c _ hc hmem => by
    obtain ⟨b, hb, rfl⟩ := mem_map.1 hmem
    have hsame : ∀ b, ¬ (97 ≤ asciiLower b ∧ asciiLower b ≤ 122) → asciiLower b = b :=
      forall_byte (by decide +kernel)
    rwa [hsame b hc]
  count := fun x _ => by
    have hstart : ∀ b, runeStart (asciiLower b) = runeStart b := forall_byte (by decide +kernel)
    show List.countP runeStart (List.map asciiLower x) = List.countP runeStart x
    rw [countP_map]
    exact countP_congr fun b _ => by rw [Function.comp_apply, hstart]

/-! ## What `ParseAddress` makes of a text -/

def domainPart (s : Bytes) : Bytes := s.drop (lastIndexByte 64 s + 1).toNat

theorem domainPart_append {x y : Bytes} (h : 64 ∉ y) : domainPart (x ++ 64 :: y) = y := by
  have hdrop : (lastIndexByte 64 (x ++ 64 :: y) + 1).toNat = (x ++ [64]).length := by
    rw [lastIndexByte_append h, length_append, length_singleton]
    omega
  rw [domainPart, hdrop, append_cons x 64 y, drop_left]

/-- A text with something on both sides of its last `@`. -/
def TwoParts (s : Bytes) : Prop := ∃ x y, s = x ++ 64 :: y ∧ 64 ∉ y ∧ x ≠ [] ∧ y ≠ []

variable {g : GoText} {lib : NetMail.Tables}

/-- The address that is made of a pair. -/
def MailAddress.read (g : GoText) (p : MailAddress) : Address where
  display := p.name
  original := p.address
  normalized := g.toLower p.address
  domain := g.toLower (domainPart p.address)

variable {raw : Bytes} {a : Address}

theorem addressOf_eq_ok {p : MailAddress} :
    addressOf g raw p = .ok a ↔ TwoParts p.address ∧ a = p.read g := by
  unfold addressOf
  dsimp only
  by_cases hmem : 64 ∈ p.address
  · obtain ⟨x, y, hxy, hy⟩ := exists_last_append hmem
    have hlast : lastIndexByte 64 p.address = x.length := by rw [hxy, lastIndexByte_append hy]
    have hlength : p.address.length = x.length + (y.length + 1) := by
      rw [hxy, length_append, length_cons]
    have hx : x = [] ↔ x.length = 0 := length_eq_zero_iff.symm
    have hy0 : y = [] ↔ y.length = 0 := length_eq_zero_iff.symm
    have htwo : TwoParts p.address ↔ ¬ (lastIndexByte 64 p.address ≤ 0 ∨
        lastIndexByte 64 p.address = (p.address.length : Int) - 1) := by
      rw [hlast, hlength]
      constructor
      · rintro ⟨x', y', hxy', hy', hx0, hy0'⟩
        have hsame : lastIndexByte 64 p.address = x'.length := by
          rw [hxy', lastIndexByte_append hy']
        have hlength' : p.address.length = x'.length + (y'.length + 1) := by
          rw [hxy', length_append, length_cons]
        have h1 := length_pos_of_ne_nil hx0
        have h2 := length_pos_of_ne_nil hy0'
        omega
      intro h
      exact ⟨x, y, hxy, hy, by rw [Ne, hx]; omega, by rw [Ne, hy0]; omega⟩
    by_cases h : TwoParts p.address
    · rw [if_neg (htwo.1 h)]
      simp only [h, true_and, Except.ok.injEq]
      exact ⟨fun ha => ha.symm, fun ha => ha.symm⟩
    rw [if_pos (not_not.1 (mt htwo.2 h))]
    simp [h]
  · have hlast : lastIndexByte 64 p.address = -1 := if_neg (by simpa using hmem)
    rw [if_pos (.inl (by rw [hlast]; decide))]
    have hnot : ¬ TwoParts p.address := by
      rintro ⟨x, y, hxy, -⟩
      exact hmem (by rw [hxy]; simp)
    simp [hnot]

/-- A text the parser returns as it stands, and which survives what `ParseAddress`
does before it. -/
structure Plain (lib : NetMail.Tables) (s : Bytes) : Prop where
  spec : NetMail.AddrSpec lib s
  trimmed : trimSpace s = s
  short : s.length ≤ maxAddressLen

/-- The address can be written: it is what a text of at most 320 bytes with no blanks at its ends
stands for, an address with nothing but angle brackets around it. -/
def Written (lib : NetMail.Tables) (o : Bytes) : Prop :=
  ∃ t s, NetMail.Direct lib s o ∧ trimSet (ascii "<>") t = s ∧ trimSpace t = t ∧
    t.length ≤ maxAddressLen

variable {o : Bytes}

theorem trimSet_direct {s p q : Bytes} (h : NetMail.Direct lib s o)
    (hp : ∀ b ∈ p, (ascii "<>").contains b = true) (hq : ∀ b ∈ q, (ascii "<>").contains b = true) :
    trimSet (ascii "<>") (p ++ (s ++ q)) = s := by
  have hends : ∀ b, b = 34 ∨ b = 93 ∨ NetMail.isAtext true b = true →
      ¬ (ascii "<>").contains b = true := forall_byte (by decide +kernel)
  obtain ⟨b, t, hs, hb⟩ := h.begins
  have hne : s ≠ [] := by simp [hs]
  refine trimSet_append hp hq hne ?_ ?_
  · simp only [hs, head_cons]
    exact hends b (hb.imp_right .inr)
  · obtain @⟨l, x, ws, d, -, -, hdomain⟩ := h
    obtain ⟨t, c, rfl, hc⟩ := hdomain.ends
    simp only [← append_assoc, ← cons_append, getLast_append_singleton]
    exact hends c (.inr hc)

theorem written_of_direct {s : Bytes} (h : NetMail.Direct lib s o)
    (hlen : s.length + 2 ≤ maxAddressLen) : Written lib o := by
  refine ⟨[60] ++ (s ++ [62]), s, h, trimSet_direct h (by decide +kernel) (by decide +kernel), ?_, ?_⟩
  · have htrim : trimSpace ([60] ++ (s ++ [62]) ++ []) = [60] ++ (s ++ [62]) :=
      trimSpace_blanks (by simp) (by simp [isVisible]) (by simp [isVisible]) (by simp)
    rwa [append_nil] at htrim
  · simp only [length_append, length_singleton]
    omega

variable {t : Bytes}

theorem written_of_leading {s₀ back : Bytes} (hdirect : NetMail.Direct lib s₀ o)
    (hlen : t.length ≤ maxAddressLen) (htrim : trimSpace t = t)
    (hs : NetMail.skipSpace t = s₀ ++ back) (hblank : ∀ b ∈ back, NetMail.isWSP b = true) :
    Written lib o := by
  have hspace : ∀ b, NetMail.isWSP b = true → [b] ∈ spaceEncodings := forall_byte (by decide +kernel)
  have hfront : NetMail.skipSpace t = t := by
    cases t with
    | nil => rfl
    | cons b t =>
      refine NetMail.skipSpace_of_head (eq_false_of_ne_true fun hb => ?_)
      have hends := trimSpace_ends (b :: t) (hspace b hb)
      rw [htrim] at hends
      exact hends.1 ⟨t, rfl⟩
  rw [hfront] at hs
  obtain rfl : back = [] := by
    by_contra hne
    have hends := trimSpace_ends t (hspace _ (hblank _ (getLast_mem hne)))
    rw [htrim, hs] at hends
    exact hends.2 ⟨s₀ ++ back.dropLast, by rw [append_assoc, dropLast_append_getLast hne]⟩
  rw [append_nil] at hs
  refine ⟨t, t, hs ▸ hdirect, ?_, htrim, hlen⟩
  have hself := trimSet_direct (p := []) (q := []) hdirect (by simp) (by simp)
  rwa [nil_append, append_nil, ← hs] at hself

variable {p : NetMail.Address}

theorem written_of_parseAddress (hlen : t.length ≤ maxAddressLen) (htrim : trimSpace t = t)
    (hp : NetMail.parseAddress lib t = some p) : Written lib p.address := by
  obtain ⟨s₀, hdirect, hspare | ⟨back, hs, hblank⟩⟩ :=
    NetMail.parseAddress_writes lib NetMail.size_length hp
  · exact written_of_direct hdirect (hspare.trans hlen)
  · exact written_of_leading hdirect hlen htrim hs hblank

/-- So can what is read after the brackets were taken off. -/
theorem written_of_trimSet (hlen : t.length ≤ maxAddressLen) (htrim : trimSpace t = t)
    (hnone : NetMail.parseAddress lib t = none)
    (hp : NetMail.parseAddress lib (trimSet (ascii "<>") t) = some p) : Written lib p.address := by
  obtain ⟨front, end_, -, -, hsplit⟩ := trimSet_split (ascii "<>") t
  generalize hinner : trimSet (ascii "<>") t = inner at hp hsplit
  obtain ⟨s₀, hdirect, hplace⟩ := NetMail.parseAddress_writes lib NetMail.size_length hp
  have hlength := congrArg length hsplit
  rw [length_append, length_append] at hlength
  by_cases hroom : s₀.length + 2 ≤ t.length
  · exact written_of_direct hdirect (hroom.trans hlen)
  obtain hspare | ⟨back, hs, -⟩ := hplace
  · exact absurd (hspare.trans (by omega)) hroom
  -- one byte was taken off, and there is nothing but the address
  have hless : inner.length < t.length := by
    by_contra hnot
    obtain rfl := eq_nil_of_length_eq_zero (show front.length = 0 by omega)
    obtain rfl := eq_nil_of_length_eq_zero (show end_.length = 0 by omega)
    rw [nil_append, append_nil] at hsplit
    cases hnone.symm.trans (hsplit ▸ hp)
  have hsuffix := NetMail.skipSpace_suffix inner
  have hle := hsuffix.length_le
  rw [hs, length_append] at hle
  have hwhole := hsuffix.eq_of_length (by rw [hs, length_append]; omega)
  obtain rfl := eq_nil_of_length_eq_zero (show back.length = 0 by omega)
  rw [hs, append_nil] at hwhole
  exact ⟨t, s₀, hdirect, hinner.trans hwhole.symm, htrim, hlen⟩

/-- What `ParseAddress` makes of a text: the address of a pair, which is the text
itself or has fewer characters. -/
structure Parsed (g : GoText) (lib : NetMail.Tables) (raw : Bytes) (a : Address) : Prop where
  read : a = MailAddress.read g ⟨a.display, a.original⟩
  parts : TwoParts a.original
  text : IsText a.original
  written : Written lib a.original
  course : (trimSpace raw = a.original ∧ Plain lib a.original) ∨
    runeCount a.original < runeCount (trimSpace raw)

theorem parsed_of_addressOf (hpart : Within t (trimSpace raw))
    (hshort : (trimSpace raw).length ≤ maxAddressLen) (hp : NetMail.parseAddress lib t = some p)
    (hwritten : Written lib p.address) (h : addressOf (g.withMail lib) raw (.ofNetMail p) = .ok a) :
    Parsed g lib raw a := by
  obtain ⟨hparts, rfl⟩ := addressOf_eq_ok.1 h
  obtain ⟨htext, hcourse⟩ := NetMail.parseAddress_reads lib hp
  refine ⟨rfl, hparts, htext, hwritten, ?_⟩
  show (trimSpace raw = p.address ∧ _) ∨ runeCount p.address < _
  obtain ⟨hsame, hspec⟩ | hless := hcourse
  · obtain hwhole | hfewer := hpart
    · left
      have haddr : p.address = trimSpace raw := hsame.trans hwhole
      refine ⟨haddr.symm, ?_⟩
      show Plain lib p.address
      rw [haddr]
      exact ⟨hwhole ▸ hspec, trimSpace_trimSpace raw, hshort⟩
    · exact .inr (hsame ▸ hfewer)
  · exact .inr (hless.trans_le hpart.count_le)

theorem parseAddress_cases (h : parseAddress (g.withMail lib) raw = .ok a) :
    a = {} ∨ Parsed g lib raw a := by
  unfold parseAddress at h
  dsimp only at h
  split at h
  · exact .inl (Except.ok.inj h).symm
  right
  split at h
  · cases h
  next hlong =>
  have hshort : (trimSpace raw).length ≤ maxAddressLen := Nat.le_of_not_lt hlong
  split at h
  · next p hp =>
    obtain ⟨q, hq, rfl⟩ := Option.map_eq_some_iff.1 hp
    exact parsed_of_addressOf .rfl hshort hq
      (written_of_parseAddress hshort (trimSpace_trimSpace raw) hq) h
  next hnone =>
  split at h
  · next p hp =>
    obtain ⟨q, hq, rfl⟩ := Option.map_eq_some_iff.1 hp
    exact parsed_of_addressOf (within_trimSet (by decide +kernel) _) hshort hq
      (written_of_trimSet hshort (trimSpace_trimSpace raw) (Option.map_eq_none_iff.1 hnone) hq) h
  · cases h

/-- **Every address but the null sender was read so.** -/
theorem parseAddress_ok (h : parseAddress (g.withMail lib) raw = .ok a) (hne : a.isEmpty = false) :
    Parsed g lib raw a := by
  obtain rfl | hparsed := parseAddress_cases h
  · exact absurd hne (by decide)
  · exact hparsed

/-- The text of an address is one the database takes, whatever the client sent. -/
theorem parseAddress_text (h : parseAddress (g.withMail lib) raw = .ok a) : IsText a.original := by
  obtain rfl | hparsed := parseAddress_cases h
  · exact .nil
  · exact hparsed.text

variable {s : Bytes}

theorem twoParts_of_direct (h : NetMail.Direct lib s o) : TwoParts o := by
  obtain @⟨l, x, ws, d, hlocal, -, hdomain⟩ := h
  -- a quoted local part or an address in brackets may have an @ of its own
  obtain ⟨u, v, huv, hv⟩ := exists_last_append (show 64 ∈ x ++ 64 :: d by simp)
  refine ⟨u, v, huv, hv, ?_, ?_⟩
  · rintro rfl
    have hx : x ≠ [] := by
      cases hlocal with
      | atom h => exact h.nonempty
      | quoted _ _ hne => exact hne
    obtain ⟨b, x, rfl⟩ := exists_cons_of_ne_nil hx
    rw [nil_append, cons_append] at huv
    exact hv (by rw [← (List.cons.inj huv).2]; simp)
  · rintro rfl
    obtain ⟨t, b, rfl, hb⟩ := hdomain.ends
    rw [← cons_append, ← append_assoc] at huv
    obtain rfl : b = 64 := List.singleton_inj.1 (append_inj_right' huv rfl)
    exact absurd hb (by decide)

theorem twoParts_of_addrSpec (h : NetMail.AddrSpec lib s) : TwoParts s := twoParts_of_direct h.direct

/-- **What can be written is read.** -/
theorem Written.parseAddress (h : Written lib o) :
    ∃ raw a, parseAddress (g.withMail lib) raw = .ok a ∧ a.normalized = g.toLower o := by
  obtain ⟨t, s, hdirect, hset, htrim, hlen⟩ := h
  have hparts := twoParts_of_direct hdirect
  have hne : ¬ (t = [] ∨ t = ascii "<>") := by
    obtain ⟨b, rest, hs, -⟩ := hdirect.begins
    rw [hs] at hset
    rintro (rfl | rfl)
    · cases hset
    · exact absurd hset (by simp [trimSet, ascii])
  have hsame : ∀ {p}, NetMail.parseAddress lib t = some p → p.address = o := by
    intro p hp
    obtain ⟨front, end_, hfront, hend, hsplit⟩ := trimSet_split (ascii "<>") t
    rw [hset] at hsplit
    obtain ⟨r, hr, hp⟩ := Option.bind_eq_some_iff.1 hp
    rw [hsplit] at hr
    obtain ⟨rest, -, hp⟩ := Option.bind_eq_some_iff.1 hp
    rw [NetMail.parseMailbox_brackets lib hdirect hfront hend hr] at hp
    cases rest with
    | nil => rw [← Option.some.inj hp]
    | cons => cases hp
  refine ⟨t, ?_⟩
  unfold Policy.parseAddress
  dsimp only
  rw [htrim, if_neg hne, if_neg (Nat.not_lt.2 hlen)]
  cases hwhole : NetMail.parseAddress lib t with
  | some p =>
    obtain rfl := hsame hwhole
    have hread : (g.withMail lib).parseAddress t = some (.ofNetMail p) :=
      congrArg (Option.map _) hwhole
    rw [hread]
    exact ⟨_, addressOf_eq_ok.2 ⟨hparts, rfl⟩, rfl⟩
  | none =>
    have hread : (g.withMail lib).parseAddress t = none := congrArg (Option.map _) hwhole
    have hinner : (g.withMail lib).parseAddress (trimSet (ascii "<>") t) = some ⟨[], o⟩ := by
      rw [hset]
      exact congrArg (Option.map _) (NetMail.parseAddress_of_direct lib hdirect)
    rw [hread]
    dsimp only
    rw [hinner]
    exact ⟨_, addressOf_eq_ok.2 ⟨hparts, rfl⟩, rfl⟩

/-- **A plain text is read as itself.** -/
theorem Plain.parseAddress (h : Plain lib s) :
    parseAddress (g.withMail lib) s = .ok (MailAddress.read g ⟨[], s⟩) := by
  obtain ⟨b, t, hs, hb⟩ := h.spec.begins
  have hne : ¬ (s = [] ∨ s = ascii "<>") := by
    rintro (hnil | hnull)
    · cases hs.symm.trans hnil
    have hhead : b = 60 := (List.cons.inj (hs.symm.trans hnull)).1
    exact (NetMail.isAtext_true hb).2.2.2.2.1 hhead
  have hread : (g.withMail lib).parseAddress s = some ⟨[], s⟩ := by
    show (NetMail.parseAddress lib s).map _ = _
    rw [NetMail.parseAddress_of_addrSpec lib h.spec]
    rfl
  unfold Policy.parseAddress
  dsimp only
  rw [h.trimmed, if_neg hne, if_neg (Nat.not_lt.2 h.short), hread]
  exact addressOf_eq_ok.2 ⟨twoParts_of_addrSpec h.spec, rfl⟩

/-! ## Parsing an address again -/

/-- The address is read again from its own text. -/
def Address.Reparsed (g : GoText) (a : Address) : Prop :=
  ∃ b, parseAddress g a.original = .ok b ∧ b.original = a.original ∧
    b.normalized = a.normalized ∧ b.domain = a.domain

/-- Whatever is read from a text as itself, the text is plain. -/
theorem plain_of_parseAddress {b : Address} (h : parseAddress (g.withMail lib) s = .ok b)
    (hne : b.isEmpty = false) (hsame : b.original = s) : Plain lib s := by
  obtain ⟨-, hplain⟩ | hless := (parseAddress_ok h hne).course
  · rwa [hsame] at hplain
  rw [hsame] at hless
  exact absurd (within_trimSpace s).count_le (Nat.not_le.2 hless)

theorem reparsed_iff (h : parseAddress (g.withMail lib) raw = .ok a) (hne : a.isEmpty = false) :
    a.Reparsed (g.withMail lib) ↔ Plain lib a.original := by
  constructor
  · rintro ⟨b, hb, horiginal, hnormalized, -⟩
    refine plain_of_parseAddress hb ?_ horiginal
    unfold Address.isEmpty at hne ⊢
    rwa [hnormalized]
  intro hplain
  have hread := (parseAddress_ok h hne).read
  refine ⟨_, hplain.parseAddress, rfl, ?_, ?_⟩
  · rw [hread]
    rfl
  rw [hread]
  rfl

def addresses (list : Option (List NetMail.Address)) : Option (List Bytes) :=
  list.map (·.map (·.address))

/-- The library reads the same addresses in a header with the blanks around it and without. -/
def BlanksApart (lib : NetMail.Tables) (header : Bytes) : Prop :=
  addresses (NetMail.parseAddressList lib (trimSpace header)) =
    addresses (NetMail.parseAddressList lib header)

/-- The text `ParseHeaderFrom` gives to `ParseAddress`: the mailbox of the list, or the header
if it is no list. -/
def handed (lib : NetMail.Tables) (header : Bytes) : Bytes :=
  match NetMail.parseAddressList lib (trimSpace header) with
  | some [one] => one.address
  | _ => trimSpace header

/-- Another, longer text is handed on, and `ParseAddress` makes the list's mailbox of it. -/
def CutDown (g : GoText) (lib : NetMail.Tables) (header : Bytes) (list : List NetMail.Address) :
    Prop :=
  ∃ one b, list = [one] ∧ runeCount one.address < runeCount (handed lib header) ∧
    parseAddress (g.withMail lib) (handed lib header) = .ok b ∧ b.original = one.address

def OnlyMailbox (list : List NetMail.Address) (a : Address) : Prop :=
  ∃ one, list = [one] ∧ a.original = one.address

variable {header : Bytes}

/-- A header whose list can be read has one mailbox, and that is parsed again. -/
theorem parseHeaderFrom_ok {list : List MailAddress} (h : parseHeaderFrom g header = .ok a)
    (hlist : g.parseAddressList (trimSpace header) = some list) :
    ∃ one b, list = [one] ∧ parseAddress g one.address = .ok b ∧
      a = { b with display := one.name } := by
  unfold parseHeaderFrom at h
  dsimp only at h
  rw [hlist] at h
  split at h
  · cases h
  cases list with
  | nil => cases h
  | cons one rest =>
  cases rest with
  | cons other rest => cases h
  | nil =>
  dsimp only at h
  split at h
  · cases h
  · next b hb => exact ⟨one, b, rfl, hb, (Except.ok.inj h).symm⟩

theorem parseHeaderFrom_text (h : parseHeaderFrom (g.withMail lib) header = .ok a) :
    IsText a.original := by
  cases hlist : (g.withMail lib).parseAddressList (trimSpace header) with
  | some list =>
    obtain ⟨one, b, -, hb, rfl⟩ := parseHeaderFrom_ok h hlist
    have htext : IsText b.original := parseAddress_text hb
    exact htext
  | none =>
  unfold parseHeaderFrom at h
  dsimp only at h
  rw [hlist] at h
  split at h
  · cases h
  · exact parseAddress_text h

theorem parseHeaderFrom_handed (h : parseHeaderFrom (g.withMail lib) header = .ok a)
    (hne : a.isEmpty = false) :
    ∃ b, parseAddress (g.withMail lib) (handed lib header) = .ok b ∧ b.isEmpty = false ∧
      a.original = b.original := by
  unfold handed
  cases hlist : NetMail.parseAddressList lib (trimSpace header) with
  | some list =>
    have hread : (g.withMail lib).parseAddressList (trimSpace header) =
        some (list.map MailAddress.ofNetMail) := congrArg (Option.map _) hlist
    obtain ⟨p, b, hp, hb, rfl⟩ := parseHeaderFrom_ok h hread
    obtain ⟨one, rest, rfl, rfl, hrest⟩ := map_eq_cons_iff.1 hp
    obtain rfl := map_eq_nil_iff.1 hrest
    exact ⟨b, hb, hne, rfl⟩
  | none =>
    have hread : (g.withMail lib).parseAddressList (trimSpace header) = none :=
      congrArg (Option.map _) hlist
    unfold parseHeaderFrom at h
    dsimp only at h
    rw [hread] at h
    split at h
    · cases h
    · exact ⟨a, h, hne, rfl⟩

/-- What is handed on is the plain mailbox, so the list of the header without blanks has it. -/
theorem blanksApart_of_handed {one : NetMail.Address}
    (hlist : NetMail.parseAddressList lib header = some [one])
    (hhanded : handed lib header = one.address) (hplain : Plain lib one.address) :
    BlanksApart lib header := by
  unfold BlanksApart
  rw [hlist]
  unfold handed at hhanded
  split at hhanded
  · next t ht =>
    rw [ht]
    exact congrArg (fun text => some [text]) hhanded
  · rw [hhanded, NetMail.parseAddressList_of_addrSpec lib hplain.spec]
    rfl

theorem onlyMailbox_iff {list : List NetMail.Address}
    (h : parseHeaderFrom (g.withMail lib) header = .ok a) (hne : a.isEmpty = false)
    (hlist : NetMail.parseAddressList lib header = some list) :
    OnlyMailbox list a ↔ (BlanksApart lib header ∧ ∀ one ∈ list, Plain lib one.address) ∨
      CutDown g lib header list := by
  obtain ⟨b, hb, hbne, horiginal⟩ := parseHeaderFrom_handed h hne
  constructor
  · rintro ⟨one, rfl, hsame⟩
    rw [or_iff_not_imp_right]
    intro hcut
    have hcount : runeCount (handed lib header) ≤ runeCount one.address := by
      by_contra hlonger
      exact hcut ⟨one, b, rfl, Nat.not_le.1 hlonger, hb, horiginal ▸ hsame⟩
    have hwithin := within_trimSpace (handed lib header)
    rw [← hsame, horiginal] at hcount
    -- `ParseAddress` dropped nothing, as there was nothing more than the mailbox
    obtain ⟨htrim, hplain⟩ | hless := (parseAddress_ok hb hbne).course
    · rw [← horiginal, hsame] at hplain
      have hhanded : handed lib header = one.address := by
        rw [← hsame, horiginal, ← htrim]
        rw [← htrim] at hcount
        exact (hwithin.resolve_right (Nat.not_lt.2 hcount)).symm
      exact ⟨blanksApart_of_handed hlist hhanded hplain, fun _ h => mem_singleton.1 h ▸ hplain⟩
    · have := hwithin.count_le
      omega
  rintro (⟨hblanks, hplain⟩ | ⟨one, b', hone, -, hb', hsame⟩)
  swap
  · rw [Except.ok.inj (hb.symm.trans hb')] at horiginal
    exact ⟨one, hone, horiginal.trans hsame⟩
  unfold BlanksApart at hblanks
  rw [hlist] at hblanks
  obtain ⟨trimmed, htrimmed, haddresses⟩ := Option.map_eq_some_iff.1 hblanks
  have hread : (g.withMail lib).parseAddressList (trimSpace header) =
      some (trimmed.map MailAddress.ofNetMail) := congrArg (Option.map _) htrimmed
  obtain ⟨p, b', hp, -⟩ := parseHeaderFrom_ok h hread
  obtain ⟨t, rest, rfl, -, hrest⟩ := map_eq_cons_iff.1 hp
  obtain rfl := map_eq_nil_iff.1 hrest
  obtain ⟨one, rest, rfl, hone, hrest⟩ := map_eq_cons_iff.1 haddresses.symm
  obtain rfl := map_eq_nil_iff.1 hrest
  have hhanded : handed lib header = one.address := by
    rw [handed, htrimmed, hone]
  rw [hhanded] at hb
  have hown := (hplain one (mem_singleton_self one)).parseAddress (g := g)
  refine ⟨one, rfl, horiginal.trans ?_⟩
  rw [Except.ok.inj (hb.symm.trans hown)]
  rfl

/-- **An address keeps its identity exactly where its text is plain**, and a header's mailbox
where also the blanks around the header are no part of it, or another one is cut down to it. -/
theorem identity_kept_iff (g : GoText) (lib : NetMail.Tables) :
    (∀ raw a, parseAddress (g.withMail lib) raw = .ok a → a.isEmpty = false →
      (a.Reparsed (g.withMail lib) ↔ Plain lib a.original)) ∧
    ∀ header a list, parseHeaderFrom (g.withMail lib) header = .ok a → a.isEmpty = false →
      NetMail.parseAddressList lib header = some list →
      (OnlyMailbox list a ↔ (BlanksApart lib header ∧ ∀ one ∈ list, Plain lib one.address) ∨
        CutDown g lib header list) :=
  ⟨fun _ _ h hne => reparsed_iff h hne, fun _ _ _ h hne hlist => onlyMailbox_iff h hne hlist⟩

def mailText : GoText := bareText.withMail NetMail.bareTables

def namedMailbox : Bytes := ascii "Printer <P@x>"

def namedAddress : Address :=
  { display := ascii "Printer", original := ascii "P@x", normalized := ascii "p@x", domain := ascii "x" }

theorem plain_px : Plain NetMail.bareTables (ascii "P@x") where
  spec := show NetMail.AddrSpec _ (ascii "P" ++ 64 :: ascii "x") from
    .mk (by decide +kernel) (.atom (by decide +kernel))
  trimmed := by decide +kernel
  short := by decide

/-- A no-break space before an address in brackets is a display name. -/
def blankHeader : Bytes := [0xC2, 0xA0] ++ ascii "<P@x>"

theorem namedMailbox_kept : parseAddress mailText namedMailbox = .ok namedAddress ∧
    namedAddress.Reparsed mailText ∧
    OnlyMailbox [⟨[0xC2, 0xA0], ascii "P@x"⟩] { namedAddress with display := [] } := by
  have hparse : parseAddress mailText namedMailbox = .ok namedAddress := by decide +kernel
  have hheader : parseHeaderFrom mailText blankHeader = .ok { namedAddress with display := [] } := by
    decide +kernel
  have hblanks : BlanksApart NetMail.bareTables blankHeader := by
    unfold BlanksApart
    decide +kernel
  have hboth := identity_kept_iff bareText NetMail.bareTables
  refine ⟨hparse, (hboth.1 _ _ hparse rfl).2 plain_px, ?_⟩
  refine (hboth.2 _ _ _ hheader rfl (by decide +kernel)).2 (.inl ⟨hblanks, fun one hone => ?_⟩)
  rw [mem_singleton.1 hone]
  exact plain_px

def quotedMailbox : Bytes := ascii "\"\\\"a\\\"\"@x"

def quotedAddress : Address :=
  { original := ascii "\"a\"@x", normalized := ascii "\"a\"@x", domain := ascii "x" }

def unquotedAddress : Address :=
  { original := ascii "a@x", normalized := ascii "a@x", domain := ascii "x" }

/-- Each time it is parsed, an address loses a layer of quotes. -/
theorem quotedMailbox_changes : parseAddress mailText quotedMailbox = .ok quotedAddress ∧
    parseAddress mailText quotedAddress.original = .ok unquotedAddress ∧
    ¬ quotedAddress.Reparsed mailText ∧
    NetMail.parseAddressList NetMail.bareTables quotedMailbox = some [⟨[], quotedAddress.original⟩] ∧
    parseHeaderFrom mailText quotedMailbox = .ok unquotedAddress := by
  have hagain : parseAddress mailText quotedAddress.original = .ok unquotedAddress := by
    decide +kernel
  refine ⟨by decide +kernel, hagain, ?_, by decide +kernel, by decide +kernel⟩
  rintro ⟨b, hb, hsame, -⟩
  rw [← Except.ok.inj (hagain.symm.trans hb)] at hsame
  exact absurd hsame (by decide)

/-! ## Texts that are their own normal form -/

/-- `ParseAddress` accepts the text, and its normal form is the text. -/
def Canonical (g : GoText) (s : Bytes) : Prop :=
  ∃ a, parseAddress g s = .ok a ∧ a.isEmpty = false ∧ a.normalized = s

/-- A plain text in lower case. -/
structure Standing (g : GoText) (lib : NetMail.Tables) (s : Bytes) : Prop extends Plain lib s where
  lower : g.toLower s = s

theorem Standing.ne_nil (h : Standing g lib s) : s ≠ [] := by
  obtain ⟨x, y, hs, -⟩ := twoParts_of_addrSpec h.spec
  rw [hs]
  exact append_ne_nil_of_right_ne_nil x (cons_ne_nil 64 y)

theorem Standing.isEmpty_read (h : Standing g lib s) :
    (MailAddress.read g ⟨[], s⟩).isEmpty = false := by
  show decide (g.toLower s = []) = false
  rw [h.lower]
  simpa using h.ne_nil

/-- **A text is its own normal form exactly where it is plain and in lower case.** -/
theorem canonical_iff (hlow : Lowers g.toLower) :
    Canonical (g.withMail lib) s ↔ Standing g lib s := by
  constructor
  · rintro ⟨a, ha, hne, hnormal⟩
    have hparsed := parseAddress_ok ha hne
    have hlower : g.toLower a.original = s := by
      rw [← hnormal, hparsed.read]
      rfl
    -- lower case keeps the number of characters, so nothing was dropped
    have hcount : runeCount s = runeCount a.original := by
      rw [← hlower]
      exact hlow.count _ hparsed.text.utf8
    have hwhole := within_trimSpace s
    obtain ⟨hsame, hplain⟩ | hless := hparsed.course
    · obtain htrim | htrim := hwhole
      · have horiginal : a.original = s := hsame.symm.trans htrim
        rw [horiginal] at hplain hlower
        exact ⟨hplain, hlower⟩
      · rw [hsame] at htrim
        omega
    have := hwhole.count_le
    omega
  intro h
  exact ⟨_, h.parseAddress, h.isEmpty_read, h.lower⟩

theorem Plain.parseHeaderFrom (h : Plain lib s) :
    parseHeaderFrom (g.withMail lib) s = .ok (MailAddress.read g ⟨[], s⟩) := by
  obtain ⟨b, t, hs, -⟩ := h.spec.begins
  have hlist : (g.withMail lib).parseAddressList s = some [⟨[], s⟩] := by
    show (NetMail.parseAddressList lib s).map _ = _
    rw [NetMail.parseAddressList_of_addrSpec lib h.spec]
    rfl
  unfold Policy.parseHeaderFrom
  dsimp only
  rw [h.trimmed, if_neg (by simp [hs]), hlist]
  dsimp only
  rw [h.parseAddress]
  rfl

end SmtpProxy.Policy
