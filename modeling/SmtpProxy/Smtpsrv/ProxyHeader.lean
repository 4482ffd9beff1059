import SmtpProxy.Smtpsrv.ProxyProto

/-!
# What the handshake accepts

`Header` is the set of headers the handshake reads, with the source address each
one supplies. A connection it returns either began with no header and is passed
on whole, or came from a trusted peer and began with a header, which is what it
has lost (`handshake_ok`); and every header is read so (`handshake_header`).

`ProxyHeader` is what the protocol's specification has a proxy send. Each such
header is a `Header` that supplies the address it was made from
(`proxyHeader_header`).
-/

namespace SmtpProxy.Smtpsrv

open Lib Policy List

/-- The headers that are read, and the source address each supplies. -/
inductive Header (n : NetText) (g : GoText) : Bytes → Option Addr → Prop where
  | v1 {text : Bytes} {source : Option Addr} (hlf : lf ∉ text)
      (hbegin : hasV1 (text ++ [lf]) = true)
      (hline : parseV1Line n g (text ++ [lf]) = .ok source) : Header n g (text ++ [lf]) source
  | v2 {front body : Bytes} {source : Option Addr} (hsig : hasV2 front = true)
      (hfront : front.length = proxyV2HeaderLen) (hversion : front.getD 12 0 >>> 4 = 2)
      (hbody : body.length = uint16 (front.drop 14))
      (hparse : parseV2Body (front.getD 12 0 &&& 0x0F) (front.getD 13 0) body = .ok source) :
      Header n g (front ++ body) source

section

variable {n : NetText} {g : GoText} {s t header rest : Bytes} {br r : Reader}
  {source peer : Option Addr} {h : ProxyHandshake} {input : List Arrival} {c : BufferedConn}

/-! ## How a stream begins -/

theorem hasV1_iff : hasV1 s = true ↔ proxyV1Prefix <+: s := by
  rw [hasV1, Bool.and_eq_true, decide_eq_true_eq, decide_eq_true_eq, prefix_iff_eq_take]
  exact ⟨fun h => h.2.symm, fun h => ⟨(prefix_iff_eq_take.2 h).length_le, h.symm⟩⟩

theorem hasV2_iff : hasV2 s = true ↔ proxyV2Sig <+: s := by
  rw [hasV2, Bool.and_eq_true, decide_eq_true_eq, decide_eq_true_eq, prefix_iff_eq_take]
  exact ⟨fun h => h.2.symm, fun h => ⟨(prefix_iff_eq_take.2 h).length_le, h.symm⟩⟩

theorem hasV1_append (hs : hasV1 s = true) (t : Bytes) : hasV1 (s ++ t) = true :=
  hasV1_iff.2 ((hasV1_iff.1 hs).trans (prefix_append s t))

theorem hasV2_append (hs : hasV2 s = true) (t : Bytes) : hasV2 (s ++ t) = true :=
  hasV2_iff.2 ((hasV2_iff.1 hs).trans (prefix_append s t))

theorem hasV2_of_append (hs : hasV2 (s ++ t) = true) (hlen : proxyV2Sig.length ≤ s.length) :
    hasV2 s = true :=
  hasV2_iff.2 (prefix_of_prefix_length_le (hasV2_iff.1 hs) (prefix_append s t) hlen)

theorem not_hasV1_of_hasV2 (hs : hasV2 s = true) : hasV1 s = false := by
  obtain ⟨t, rfl⟩ := hasV2_iff.1 hs
  rw [hasV1, Bool.and_eq_false_iff]
  exact .inr rfl

/-- The line that a version 1 header begins has all of `PROXY `, since that has no
line feed. -/
theorem hasV1_line (hs : hasV1 (s ++ [lf] ++ t) = true) : hasV1 (s ++ [lf]) = true := by
  rw [hasV1_iff] at hs ⊢
  obtain hp | hp := prefix_or_prefix_of_prefix hs (prefix_append (s ++ [lf]) t)
  · exact hp
  · exact absurd (hp.subset (mem_append_right s (mem_singleton_self lf))) (by decide)

/-! ## Reading a header -/

theorem parseProxyV1_ok (hs : hasV1 br.stream = true)
    (hret : parseProxyV1 n g br = some (.ok source, r)) :
    ∃ header, Header n g header source ∧ br.stream = header ++ r.stream := by
  unfold parseProxyV1 Reader.readString at hret
  cases hread : Reader.readStringFrom lf br.buf br.input with
  | none => simp [hread] at hret
  | some p =>
  obtain ⟨line | line, r'⟩ := p
  · simp [hread] at hret
  simp only [hread, Option.some.injEq, Prod.mk.injEq] at hret
  obtain ⟨hline, rfl⟩ := hret
  obtain ⟨hstream, text, hlf, rfl⟩ := Reader.cutAfter_spec (Reader.readStringFrom_ok _ _ hread)
  refine ⟨text ++ [lf], .v1 hlf ?_ hline, hstream⟩
  rw [Reader.stream, hstream] at hs
  exact hasV1_line hs

theorem parseProxyV2_ok (hs : hasV2 br.stream = true)
    (hret : parseProxyV2 br = some (.ok source, r)) :
    ∃ header, Header n g header source ∧ br.stream = header ++ r.stream := by
  unfold parseProxyV2 Reader.readFull at hret
  cases hread : Reader.readFullFrom proxyV2HeaderLen br.buf br.input with
  | none => simp [hread] at hret
  | some p =>
  obtain ⟨front | front, br'⟩ := p
  · simp [hread] at hret
  obtain ⟨hfront, hstream⟩ := Reader.readFullFrom_ok _ _ hread
  simp only [hread] at hret
  by_cases hversion : front.getD 12 0 >>> 4 = 2
  · simp only [hversion, ne_eq, not_true_eq_false, if_false] at hret
    cases hrest : Reader.readFullFrom (uint16 (front.drop 14)) br'.buf br'.input with
    | none => simp [hrest] at hret
    | some p =>
    obtain ⟨body | body, br''⟩ := p
    · simp [hrest] at hret
    obtain ⟨hbody, hstream'⟩ := Reader.readFullFrom_ok _ _ hrest
    simp only [hrest, Option.some.injEq, Prod.mk.injEq] at hret
    obtain ⟨hparse, rfl⟩ := hret
    change br.stream = front ++ br'.stream at hstream
    change br'.stream = body ++ br''.stream at hstream'
    refine ⟨front ++ body, .v2 ?_ hfront hversion hbody hparse, ?_⟩
    · rw [hstream] at hs
      exact hasV2_of_append hs (by rw [hfront]; decide)
    · rw [hstream, hstream', append_assoc]
  rw [if_pos hversion] at hret
  cases hret

/-- **A connection that is returned began with no header, or with one from a
trusted peer.** -/
theorem handshake_ok (hret : h.handshake n g peer input = some (.ok c)) :
    (hasV1 (arriving input) = false ∧ hasV2 (arriving input) = false ∧
      c.peer = peer ∧ c.remote = none ∧ c.reader.stream = arriving input) ∨
    (h.trusts n peer = true ∧ c.peer = peer ∧ ∃ header, Header n g header c.remote ∧
      arriving input = header ++ c.reader.stream) := by
  cases hpeek : peekable input with
  | false =>
    rcases handshake_of_not_peekable n g h peer hpeek with ⟨-, hnone⟩ | ⟨e, -, -, herr⟩
    · cases hnone.symm.trans hret
    · cases herr.symm.trans hret
  | true =>
  obtain ⟨br, hstream, -, hread⟩ := handshake_of_peekable n g h peer hpeek
  rw [hread, ProxyHandshake.readHeader] at hret
  rw [← hstream] at hret ⊢
  cases hv1 : hasV1 br.stream <;> cases hv2 : hasV2 br.stream
  · simp only [hv1, hv2, Bool.not_false, Bool.and_self, if_true] at hret
    cases Option.some.inj hret
    exact .inl ⟨rfl, rfl, rfl, rfl, rfl⟩
  all_goals cases htrust : h.trusts n peer with
    | false => simp [hv1, hv2, htrust] at hret
    | true =>
      simp only [hv1, hv2, htrust, Bool.not_true, Bool.not_false, Bool.and_false,
        Bool.false_and, Bool.and_self, if_true, if_false, Bool.false_eq_true] at hret
      refine .inr ⟨rfl, ?_⟩
      split at hret
      · cases hret
      · cases hret
      next source r hparse =>
      cases Option.some.inj hret
      first
      | exact ⟨rfl, parseProxyV1_ok hv1 hparse⟩
      | exact ⟨rfl, parseProxyV2_ok hv2 hparse⟩

theorem header_begins (hh : Header n g header source) :
    hasV1 header = true ∨ hasV2 header = true := by
  cases hh with
  | v1 _ hbegin _ => exact .inl hbegin
  | v2 hsig _ _ _ _ => exact .inr (hasV2_append hsig _)

/-- A header at the beginning is read, and nothing else. -/
theorem parse_header (hh : Header n g header source) (hstream : br.stream = header ++ rest) :
    ∃ r, (if hasV1 br.stream then parseProxyV1 n g br else parseProxyV2 br) = some (.ok source, r) ∧
      r.stream = rest := by
  cases hh with
  | @v1 text _ hlf hbegin hline =>
    rw [if_pos (by rw [hstream]; exact hasV1_append hbegin rest)]
    have hcut : Reader.cutAfter lf br.stream = some (text ++ [lf], rest) := by
      rw [hstream, append_assoc]
      exact Reader.cutAfter_some hlf rest
    obtain ⟨r, hread, hrest⟩ := Reader.readStringFrom_cut br.buf br.input hcut
    refine ⟨r, ?_, hrest⟩
    simp only [parseProxyV1, Reader.readString, hread, hline]
  | @v2 front body _ hsig hfront hversion hbody hparse =>
  have hv2 : hasV2 br.stream = true := by
    rw [hstream, append_assoc]
    exact hasV2_append hsig _
  rw [not_hasV1_of_hasV2 hv2, if_neg Bool.false_ne_true]
  rw [append_assoc] at hstream
  obtain ⟨br', hread, hstream'⟩ := Reader.readFullFrom_enough br.buf br.input hstream
  obtain ⟨r, hread', hrest⟩ := Reader.readFullFrom_enough br'.buf br'.input hstream'
  refine ⟨r, ?_, hrest⟩
  rw [hfront] at hread
  rw [hbody] at hread'
  simp only [parseProxyV2, Reader.readFull, hread, hversion, ne_eq, not_true_eq_false, if_false,
    hread', hparse]

/-- **A header from a trusted peer is read, and what follows it is left.** -/
theorem handshake_header (hh : Header n g header source) (htrust : h.trusts n peer = true)
    (hlen : proxyV2Sig.length ≤ header.length) (hinput : arriving input = header ++ rest) :
    ∃ r, h.handshake n g peer input = some (.ok ⟨peer, r, source⟩) ∧ r.stream = rest := by
  have hpeek : peekable input = true := by
    rw [peekable, hinput, length_append, Bool.or_eq_true, decide_eq_true_eq]
    exact .inl (by omega)
  obtain ⟨br, hstream, -, hread⟩ := handshake_of_peekable n g h peer hpeek
  obtain ⟨r, hparse, hrest⟩ := parse_header hh (hstream.trans hinput)
  have hsome : (!hasV1 br.stream && !hasV2 br.stream) = false := by
    rw [hstream, hinput]
    rcases header_begins hh with hv | hv
    · rw [hasV1_append hv]
      rfl
    · rw [hasV2_append hv, Bool.not_true, Bool.and_false]
  refine ⟨r, ?_, hrest⟩
  rw [hread, ← hstream, ProxyHandshake.readHeader, hsome, htrust]
  simp [hparse]

/-- **A header from a peer that is not trusted is refused** as soon as it can be
told apart. -/
theorem handshake_untrusted (hv : hasV1 (arriving input) = true ∨ hasV2 (arriving input) = true)
    (htrust : h.trusts n peer = false) (hpeek : peekable input = true) :
    h.handshake n g peer input = some (.error ⟨.plain (errProxyUntrusted ++ ascii ": " ++ addrKey n peer),
      [.sentinel errProxyUntrusted]⟩) := by
  obtain ⟨br, -, -, hread⟩ := handshake_of_peekable n g h peer hpeek
  have hsome : (!hasV1 (arriving input) && !hasV2 (arriving input)) = false := by
    rcases hv with hv | hv <;> simp [hv]
  rw [hread, ProxyHandshake.readHeader, hsome, htrust]
  rfl

end

/-! ## The headers a proxy sends -/

/-- Two bytes, the higher one first. -/
def be16 (k : Nat) : Bytes := [UInt8.ofNat (k / 256), UInt8.ofNat (k % 256)]

theorem uint16_be16 {k : Nat} (hk : k < 65536) (rest : Bytes) : uint16 (be16 k ++ rest) = k := by
  show (UInt8.ofNat (k / 256)).toNat * 256 + (UInt8.ofNat (k % 256)).toNat = k
  rw [UInt8.toNat_ofNat_of_lt' (by simp only [UInt8.size]; omega),
    UInt8.toNat_ofNat_of_lt' (by simp only [UInt8.size]; omega)]
  omega

section

variable (n : NetText)

def v1Words (family : Bytes) (src dst : IP) (sport dport : Nat) : List Bytes :=
  [ascii "PROXY", family, n.ipString src, n.ipString dst, itoa sport, itoa dport]

def v1Line (family : Bytes) (src dst : IP) (sport dport : Nat) : Bytes :=
  joinWith (ascii " ") (v1Words n family src dst sport dport) ++ crlf

def v2Body (src dst : IP) (sport dport : Nat) (tlvs : Bytes) : Bytes :=
  src ++ dst ++ (be16 sport ++ (be16 dport ++ tlvs))

def v2Block (family : UInt8) (body : Bytes) : Bytes :=
  proxyV2Sig ++ [0x21, family] ++ be16 body.length ++ body

/-- The headers the specification has a proxy send for a connection from this
source. -/
inductive ProxyHeader (src : IP) (sport : Nat) : Bytes → Prop where
  | v1 {family : Bytes} {dst : IP} {dport : Nat}
      (hfamily : family = ascii "TCP4" ∨ family = ascii "TCP6")
      (hsrc : IsIP src) (hdst : IsIP dst) (hdport : dport < 65536) :
      ProxyHeader src sport (v1Line n family src dst sport dport)
  | ipv4 {family : UInt8} {dst : IP} {dport : Nat} {tlvs : Bytes}
      (hfamily : family = 0x11 ∨ family = 0x12) (hsrc : src.length = 4) (hdst : dst.length = 4)
      (hlen : (v2Body src dst sport dport tlvs).length < 65536) :
      ProxyHeader src sport (v2Block family (v2Body src dst sport dport tlvs))
  | ipv6 {family : UInt8} {dst : IP} {dport : Nat} {tlvs : Bytes}
      (hfamily : family = 0x21 ∨ family = 0x22) (hsrc : src.length = 16) (hdst : dst.length = 16)
      (hlen : (v2Body src dst sport dport tlvs).length < 65536) :
      ProxyHeader src sport (v2Block family (v2Body src dst sport dport tlvs))

end

/-! ## Splitting a line into words -/

/-- The bytes are neither spaces nor part of a line ending. -/
def Plain (word : Bytes) : Prop := ∀ b ∈ word, isVisible b = true

theorem splitWords_word {word : Bytes} (hplain : Plain word) (front rest : Bytes) :
    splitWords front (word ++ rest) = splitWords (front ++ word) rest := by
  induction word generalizing front with
  | nil => rw [nil_append, append_nil]
  | cons b word ih =>
  have hb : b ≠ 32 := by
    rintro rfl
    exact absurd (hplain 32 (.head _)) (by decide)
  rw [cons_append, splitWords, if_neg hb, ih fun b hb => hplain b (.tail _ hb), append_assoc]
  rfl

variable {words : List Bytes}

/-- **Words joined by spaces are split again.** -/
theorem splitWords_join (hplain : ∀ w ∈ words, Plain w) (hne : ∀ w ∈ words, w ≠ []) :
    splitWords [] (joinWith (ascii " ") words) = words := by
  induction words with
  | nil => rfl
  | cons w words ih =>
  have hw := hne w (.head _)
  cases words with
  | nil =>
    have hjoin : joinWith (ascii " ") [w] = w ++ [] := rfl
    rw [hjoin, splitWords_word (hplain w (.head _)), nil_append, splitWords, if_pos hw]
  | cons w' words =>
  have hjoin : joinWith (ascii " ") (w :: w' :: words)
      = w ++ (32 :: joinWith (ascii " ") (w' :: words)) := rfl
  rw [hjoin, splitWords_word (hplain w (.head _)), nil_append, splitWords,
    if_pos rfl, if_pos hw, ih (fun v hv => hplain v (.tail _ hv))
      fun v hv => hne v (.tail _ hv)]

theorem mem_joinWith (hplain : ∀ w ∈ words, Plain w) {b : UInt8}
    (hb : b ∈ joinWith (ascii " ") words) : b = 32 ∨ isVisible b = true := by
  induction words with
  | nil => cases hb
  | cons w words ih =>
  have hw := hplain w (.head _)
  have hwords := fun v hv => hplain v (mem_cons_of_mem w hv)
  cases words with
  | nil =>
    have hjoin : joinWith (ascii " ") [w] = w ++ [] := rfl
    rw [hjoin, append_nil] at hb
    exact .inr (hw b hb)
  | cons w' words =>
  have hjoin : joinWith (ascii " ") (w :: w' :: words)
      = w ++ (32 :: joinWith (ascii " ") (w' :: words)) := rfl
  rw [hjoin, mem_append, mem_cons] at hb
  rcases hb with hb | hb | hb
  · exact .inr (hw b hb)
  · exact .inl hb
  · exact ih hwords hb

/-- **A line of words is split into them.** -/
theorem splitFields_join (hplain : ∀ w ∈ words, Plain w) (hne : ∀ w ∈ words, w ≠ []) :
    splitFields (joinWith (ascii " ") words ++ crlf) = words := by
  have htrim : (joinWith (ascii " ") words ++ crlf).rdropWhile crlf.contains
      = joinWith (ascii " ") words := by
    have hcrlf : joinWith (ascii " ") words ++ crlf
        = (joinWith (ascii " ") words ++ [cr]) ++ [lf] := by
      rw [append_assoc]
      rfl
    rw [hcrlf, rdropWhile_concat_pos _ _ _ (by decide),
      rdropWhile_concat_pos _ _ _ (by decide), rdropWhile_eq_self_iff]
    intro hnil hlast
    have hbyte : ∀ b : UInt8, b = 32 ∨ isVisible b = true → crlf.contains b = false :=
      forall_byte (by decide +kernel)
    rw [hbyte _ (mem_joinWith hplain (getLast_mem hnil))] at hlast
    exact Bool.false_ne_true hlast
  rw [splitFields, htrim, splitWords_join hplain hne]

/-! ## The round trip -/

section

variable {n : NetText} {g : GoText} {family : Bytes} {src dst : IP} {sport dport : Nat}

theorem plain_itoa (k : Nat) : Plain (itoa k) := by
  have hdigit : ∀ b : UInt8, isDigit b = true → isVisible b = true :=
    forall_byte (by decide +kernel)
  exact fun b hb => hdigit b (itoa_digit hb)

theorem plain_ipString (hn : n.Lawful) {ip : IP} (hip : IsIP ip) : Plain (n.ipString ip) := by
  have hbyte : ∀ b : UInt8, isAddrByte b = true → isVisible b = true :=
    forall_byte (by decide +kernel)
  exact fun b hb => hbyte b (hn.string_bytes ip hip b hb)

theorem plain_v1Words (hn : n.Lawful) (hfamily : family = ascii "TCP4" ∨ family = ascii "TCP6")
    (hsrc : IsIP src) (hdst : IsIP dst) :
    ∀ w ∈ v1Words n family src dst sport dport, Plain w ∧ w ≠ [] := by
  have hconst : Plain (ascii "PROXY") ∧ Plain (ascii "TCP4") ∧ Plain (ascii "TCP6") := by
    unfold Plain
    decide +kernel
  intro w hw
  simp only [v1Words, mem_cons, not_mem_nil, or_false] at hw
  rcases hw with rfl | rfl | rfl | rfl | rfl | rfl
  · exact ⟨hconst.1, by decide⟩
  · rcases hfamily with rfl | rfl
    · exact ⟨hconst.2.1, by decide⟩
    · exact ⟨hconst.2.2, by decide⟩
  · exact ⟨plain_ipString hn hsrc, hn.string_ne_nil src hsrc⟩
  · exact ⟨plain_ipString hn hdst, hn.string_ne_nil dst hdst⟩
  · exact ⟨plain_itoa sport, itoa_ne_nil sport⟩
  · exact ⟨plain_itoa dport, itoa_ne_nil dport⟩

theorem v1Line_length (hn : n.Lawful) (hfamily : family = ascii "TCP4" ∨ family = ascii "TCP6")
    (hsrc : IsIP src) (hdst : IsIP dst) (hsport : sport < 65536) (hdport : dport < 65536) :
    proxyV2Sig.length ≤ (v1Line n family src dst sport dport).length ∧
      (v1Line n family src dst sport dport).length ≤ proxyV1MaxLen := by
  have hfour : family.length = 4 := by rcases hfamily with rfl | rfl <;> rfl
  have hlen : (v1Line n family src dst sport dport).length
      = 12 + family.length + (n.ipString src).length + (n.ipString dst).length
        + (itoa sport).length + (itoa dport).length := by
    simp only [v1Line, v1Words, joinWith, List.intersperse, flatten_cons, flatten_nil,
      length_append, length_nil, show (ascii " ").length = 1 from rfl,
      show (ascii "PROXY").length = 5 from rfl, show crlf.length = 2 from rfl]
    omega
  have h₁ := hn.string_length src hsrc
  have h₂ := hn.string_length dst hdst
  have h₃ : (itoa sport).length ≤ 5 := itoa_length (by omega) (by omega)
  have h₄ : (itoa dport).length ≤ 5 := itoa_length (by omega) (by omega)
  rw [hlen, hfour, show proxyV2Sig.length = 12 from rfl, show proxyV1MaxLen = 107 from rfl]
  omega

theorem v1Line_header (hn : n.Lawful) (hfamily : family = ascii "TCP4" ∨ family = ascii "TCP6")
    (hsrc : IsIP src) (hdst : IsIP dst) (hsport : sport < 65536) (hdport : dport < 65536) :
    ∃ ip, Header n g (v1Line n family src dst sport dport) (some (.tcp ip sport [])) ∧
      ipEqual ip src = true := by
  obtain ⟨ip, hip, hequal⟩ := hn.parse_string src hsrc
  have hwords : ∀ w ∈ v1Words n family src dst sport dport, Plain w ∧ w ≠ [] :=
    plain_v1Words hn hfamily hsrc hdst
  have hplain := fun w hw => (hwords w hw).1
  have hsplit : v1Line n family src dst sport dport
      = joinWith (ascii " ") (v1Words n family src dst sport dport) ++ [cr] ++ [lf] := by
    rw [v1Line, append_assoc]
    rfl
  have hfields : splitFields (v1Line n family src dst sport dport)
      = v1Words n family src dst sport dport :=
    splitFields_join hplain fun w hw => (hwords w hw).2
  have hlen := (v1Line_length hn hfamily hsrc hdst hsport hdport).2
  have hknown : family ≠ ascii "UNKNOWN" := by
    rcases hfamily with rfl | rfl <;> decide
  have hline : parseV1Line n g (v1Line n family src dst sport dport)
      = .ok (some (.tcp ip sport [])) := by
    rw [parseV1Line, if_neg (by omega), hfields]
    simp [v1Words, hknown, hip, atoi_itoa (show sport < 2 ^ 63 by omega)]
    omega
  refine ⟨ip, ?_, hequal⟩
  rw [hsplit] at hline ⊢
  refine .v1 ?_ ?_ hline
  · intro hmem
    have hbyte : ∀ b : UInt8, b = 32 ∨ isVisible b = true → b ≠ lf :=
      forall_byte (by decide +kernel)
    rcases mem_append.1 hmem with hmem | hmem
    · exact hbyte lf (mem_joinWith hplain hmem) rfl
    · exact absurd hmem (by decide)
  rw [append_assoc]
  exact hasV1_append (s := ascii "PROXY ") (by decide) _

theorem v2Block_header {family : UInt8} {body : Bytes} {source : Option Addr}
    (hlen : body.length < 65536) (hparse : parseV2Body 1 family body = .ok source) :
    Header n g (v2Block family body) source := by
  have hdrop : (proxyV2Sig ++ [0x21, family] ++ be16 body.length).drop 14 = be16 body.length ++ [] :=
    rfl
  have hcommand : (proxyV2Sig ++ [0x21, family] ++ be16 body.length).getD 12 0 = 0x21 := rfl
  have hfamily : (proxyV2Sig ++ [0x21, family] ++ be16 body.length).getD 13 0 = family := rfl
  rw [v2Block]
  refine .v2 ?_ rfl ?_ ?_ ?_
  · rw [append_assoc]
    exact hasV2_append (by decide) _
  · rw [hcommand]
    decide
  · rw [hdrop, uint16_be16 hlen]
  rw [hcommand, hfamily]
  exact hparse

theorem v2Body_source {k : Nat} (dport : Nat) (tlvs : Bytes) (hsrc : src.length = k) (hdst : dst.length = k)
    (hsport : sport < 65536) :
    2 * k + 4 ≤ (v2Body src dst sport dport tlvs).length ∧
      (v2Body src dst sport dport tlvs).take k = src ∧
      uint16 ((v2Body src dst sport dport tlvs).drop (2 * k)) = sport := by
  refine ⟨?_, ?_, ?_⟩
  · simp only [v2Body, length_append, be16, length_cons, length_nil]
    omega
  · rw [v2Body, append_assoc, ← hsrc, take_left]
  · rw [v2Body, drop_left' (by rw [length_append]; omega), uint16_be16 hsport]

theorem v2Block_length (family : UInt8) (body : Bytes) :
    proxyV2Sig.length ≤ (v2Block family body).length := by
  rw [v2Block, append_assoc, append_assoc, length_append]
  omega

/-- **A header the specification has a proxy send supplies the source it was made
from.** -/
theorem proxyHeader_header (hn : n.Lawful) {header : Bytes} (hsport : sport < 65536)
    (hheader : ProxyHeader n src sport header) :
    proxyV2Sig.length ≤ header.length ∧
      ∃ ip, Header n g header (some (.tcp ip sport [])) ∧ ipEqual ip src = true := by
  cases hheader with
  | v1 hfamily hsrc hdst hdport =>
    exact ⟨(v1Line_length hn hfamily hsrc hdst hsport hdport).1,
      v1Line_header hn hfamily hsrc hdst hsport hdport⟩
  | @ipv4 family dst dport tlvs hfamily hsrc hdst hlen =>
    refine ⟨v2Block_length family _, src, v2Block_header hlen ?_, ipEqual_refl src⟩
    obtain ⟨hbody, htake, hport⟩ := v2Body_source dport tlvs hsrc hdst hsport
    rw [parseV2Body, if_neg (by decide), if_neg (by decide), if_pos hfamily,
      if_neg (Nat.not_lt.2 hbody), htake, hport]
  | @ipv6 family dst dport tlvs hfamily hsrc hdst hlen =>
  refine ⟨v2Block_length family _, src, v2Block_header hlen ?_, ipEqual_refl src⟩
  obtain ⟨hbody, htake, hport⟩ := v2Body_source dport tlvs hsrc hdst hsport
  have hother : ¬ (family = 0x11 ∨ family = 0x12) := by
    rcases hfamily with rfl | rfl <;> decide
  rw [parseV2Body, if_neg (by decide), if_neg (by decide), if_neg hother, if_pos hfamily,
    if_neg (Nat.not_lt.2 hbody), htake, hport]

/-- **The client address cannot be forged, and the stream is not disturbed.** A
connection reports another address than its peer's only if the peer is trusted
and the stream began with a header that says so; a header is read back as the
source it was made from, and what follows it is what the connection yields; a
stream without a header is passed on whole; and a header from any other peer is
refused. -/
theorem handshake_faithful (hn : n.Lawful) (h : ProxyHandshake) (peer : Option Addr)
    (input : List Arrival) :
    (∀ c, h.handshake n g peer input = some (.ok c) → c.remoteAddr ≠ peer →
      h.trusts n peer = true ∧ ∃ header, Header n g header c.remoteAddr ∧
        arriving input = header ++ c.reader.stream) ∧
    (∀ src sport header payload, ProxyHeader n src sport header → sport < 65536 →
      h.trusts n peer = true → arriving input = header ++ payload →
      ∃ c ip, h.handshake n g peer input = some (.ok c) ∧
        c.remoteAddr = some (.tcp ip sport []) ∧ ipEqual ip src = true ∧
        ∀ bytes, c.reader.Yields bytes ↔ bytes = payload) ∧
    (∀ c, h.handshake n g peer input = some (.ok c) →
      hasV1 (arriving input) = false → hasV2 (arriving input) = false →
      c.remoteAddr = peer ∧ ∀ bytes, c.reader.Yields bytes ↔ bytes = arriving input) ∧
    (h.trusts n peer = false → hasV1 (arriving input) = true ∨ hasV2 (arriving input) = true →
      (∀ c, h.handshake n g peer input ≠ some (.ok c)) ∧
      (proxyV2Sig.length ≤ (arriving input).length ∨ ending input ≠ none →
        ∃ e, h.handshake n g peer input = some (.error e))) := by
  refine ⟨?_, ?_, ?_, ?_⟩
  · intro c hret hne
    rcases handshake_ok hret with ⟨-, -, hpeer, hremote, -⟩ | ⟨htrust, hpeer, header, hh, hsplit⟩
    · exact absurd (by rw [BufferedConn.remoteAddr, hremote, hpeer]; rfl) hne
    cases hremote : c.remote with
    | none => exact absurd (by rw [BufferedConn.remoteAddr, hremote, hpeer]; rfl) hne
    | some addr =>
    refine ⟨htrust, header, ?_, hsplit⟩
    rw [BufferedConn.remoteAddr, hremote, Option.some_or, ← hremote]
    exact hh
  · intro src sport header payload hheader hsport htrust hinput
    obtain ⟨hlen, ip, hh, hequal⟩ := proxyHeader_header hn hsport hheader (g := g)
    obtain ⟨r, hret, hstream⟩ := handshake_header hh htrust hlen hinput
    refine ⟨_, ip, hret, rfl, hequal, fun bytes => ?_⟩
    rw [Reader.yields_iff, hstream]
  · intro c hret hv1 hv2
    rcases handshake_ok hret with ⟨-, -, hpeer, hremote, hstream⟩ | ⟨-, -, header, hh, hsplit⟩
    · refine ⟨by rw [BufferedConn.remoteAddr, hremote, hpeer]; rfl, fun bytes => ?_⟩
      rw [Reader.yields_iff, hstream]
    · -- a header would have been seen
      rw [hsplit] at hv1 hv2
      rcases header_begins hh with hv | hv
      · exact absurd (hasV1_append hv _) (by rw [hv1]; exact Bool.false_ne_true)
      · exact absurd (hasV2_append hv _) (by rw [hv2]; exact Bool.false_ne_true)
  intro htrust hv
  constructor
  · intro c hret
    rcases handshake_ok hret with ⟨hv1, hv2, -⟩ | ⟨htrust', -⟩
    · rw [hv1, hv2] at hv
      exact absurd hv (by decide)
    · exact absurd (htrust'.symm.trans htrust) (by decide)
  intro hdone
  cases hpeek : peekable input with
  | true => exact ⟨_, handshake_untrusted hv htrust hpeek⟩
  | false =>
  rcases handshake_of_not_peekable n g h peer hpeek with ⟨hend, -⟩ | ⟨e, -, -, herr⟩
  · simp only [peekable, Bool.or_eq_false_iff, decide_eq_false_iff_not] at hpeek
    rcases hdone with hlen | hne
    · exact absurd hlen hpeek.1
    · exact absurd hend hne
  · exact ⟨_, herr⟩

end

/-- A load balancer at 10.0.0.2 forwards a connection from 192.0.2.1, port 7. -/
theorem handshake_faithful_forwarded :
    ∃ c ip, (ProxyHandshake.mk [⟨[10, 0, 0, 0], [255, 0, 0, 0]⟩]).handshake dottedText bareText
        (some (.tcp [10, 0, 0, 2] 4000 []))
        [.data (v1Line dottedText (ascii "TCP4") [192, 0, 2, 1] [10, 0, 0, 1] 7 25),
          .data (ascii "EHLO a\r\n")] = some (.ok c) ∧
      c.remoteAddr = some (.tcp ip 7 []) ∧ ipEqual ip [192, 0, 2, 1] = true ∧
      ∀ bytes, c.reader.Yields bytes ↔ bytes = ascii "EHLO a\r\n" :=
  (handshake_faithful dottedText_lawful _ _ _).2.1 [192, 0, 2, 1] 7
    (v1Line dottedText (ascii "TCP4") [192, 0, 2, 1] [10, 0, 0, 1] 7 25) _
    (.v1 (.inl rfl) (.inl rfl) (.inl rfl) (by decide)) (by decide) (by decide) (by
      rw [arriving, arriving, arriving, append_nil])

end SmtpProxy.Smtpsrv
