import SmtpProxy.Lib.Bufio
import SmtpProxy.Policy.Address
import SmtpProxy.Smtpsrv.Limits

/-!
# The PROXY protocol

`internal/smtpsrv/proxyproto.go`. A handshake reads from the connection until it
knows whether a header is there and what it says; until then it waits, and its
result is `none`. What it leaves in its buffer goes to whoever reads the
connection next.

Deadlines are among what can arrive: one that passes makes a waiting read fail
with a timeout.
-/

namespace SmtpProxy.Smtpsrv

open Lib Policy

def errProxyUntrusted : Bytes := ascii "smtpsrv: PROXY header from an untrusted peer"

def errProxyMalformed : Bytes := ascii "smtpsrv: malformed PROXY header"

def proxyV1Prefix : Bytes := ascii "PROXY "

def proxyV2Sig : Bytes :=
  [0x0D, 0x0A, 0x0D, 0x0A, 0x00, 0x0D, 0x0A, 0x51, 0x55, 0x49, 0x54, 0x0A]

def proxyV1MaxLen : Nat := 107

def proxyV2HeaderLen : Nat := 16

def readErr : ReadFailure → Err
  | .eof => ⟨.sentinel (ascii "EOF"), []⟩
  | .unexpectedEOF => ⟨.sentinel (ascii "unexpected EOF"), []⟩
  | .timeout => ⟨.sentinel (ascii "i/o timeout"), []⟩
  | .broken text => .new text

def proxyMalformed (detail : Bytes) : Err :=
  ⟨.plain (errProxyMalformed ++ ascii ": " ++ detail), [.sentinel errProxyMalformed]⟩

def proxyUnread (e : ReadFailure) : Err :=
  ⟨.plain (errProxyMalformed ++ ascii ": " ++ (readErr e).text),
    .sentinel errProxyMalformed :: (readErr e).nodes⟩

structure ProxyHandshake where
  trusted : List IPNet

/-- `bufferedConn`: the connection's own remote address, what is left to read, and
the address a header supplied. -/
structure BufferedConn where
  peer : Option Addr
  reader : Reader
  remote : Option Addr
  deriving DecidableEq

def BufferedConn.remoteAddr (c : BufferedConn) : Option Addr := c.remote.or c.peer

/-! ## The header -/

/-- The loop of `splitFields`; `word` is what was read since the last space. -/
def splitWords (word : Bytes) : Bytes → List Bytes
  | [] => if word ≠ [] then [word] else []
  | c :: s =>
    if c = 32 then if word ≠ [] then word :: splitWords [] s else splitWords [] s
    else splitWords (word ++ [c]) s

def splitFields (line : Bytes) : List Bytes := splitWords [] (line.rdropWhile crlf.contains)

def uint16 (b : Bytes) : Nat := (b.getD 0 0).toNat * 256 + (b.getD 1 0).toNat

def hexByte (b : UInt8) : Bytes := [hexDigit (b.toNat / 16), hexDigit (b.toNat % 16)]

section

variable (n : NetText) (g : GoText)

/-- What `parseProxyV1` makes of the line it read. -/
def parseV1Line (line : Bytes) : Except Err (Option Addr) :=
  if proxyV1MaxLen < line.length then
    .error (proxyMalformed (ascii "version 1 header is " ++ itoa line.length ++ ascii " bytes"))
  else
    let fields := splitFields line
    if 2 ≤ fields.length ∧ fields.getD 1 [] = ascii "UNKNOWN" then .ok none
    else if fields.length ≠ 6 ∨ fields.getD 0 [] ≠ ascii "PROXY" then
      .error (proxyMalformed (g.quote line))
    else
      match n.parseIP (fields.getD 2 []) with
      | none => .error (proxyMalformed (ascii "source address " ++ g.quote (fields.getD 2 [])))
      | some ip =>
        match atoi (fields.getD 4 []) with
        | some port =>
          if port < 0 ∨ 65535 < port then
            .error (proxyMalformed (ascii "source port " ++ g.quote (fields.getD 4 [])))
          else .ok (some (.tcp ip port []))
        | none => .error (proxyMalformed (ascii "source port " ++ g.quote (fields.getD 4 [])))

def parseProxyV1 (br : Reader) : Option (Except Err (Option Addr) × Reader) :=
  match br.readString lf with
  | none => none
  | some (.error e, br) => some (.error (proxyUnread e), br)
  | some (.ok line, br) => some (parseV1Line n g line, br)

end

/-- What `parseProxyV2` makes of the command, the address family and the body. -/
def parseV2Body (command family : UInt8) (body : Bytes) : Except Err (Option Addr) :=
  if command = 0 then .ok none
  else if command ≠ 1 then
    .error (proxyMalformed (ascii "unsupported command " ++ itoa command.toNat))
  else if family = 0x11 ∨ family = 0x12 then
    if body.length < 12 then
      .error (proxyMalformed (ascii "IPv4 body is " ++ itoa body.length ++ ascii " bytes"))
    else .ok (some (.tcp (body.take 4) (uint16 (body.drop 8)) []))
  else if family = 0x21 ∨ family = 0x22 then
    if body.length < 36 then
      .error (proxyMalformed (ascii "IPv6 body is " ++ itoa body.length ++ ascii " bytes"))
    else .ok (some (.tcp (body.take 16) (uint16 (body.drop 32)) []))
  else if family = 0 then .ok none
  else .error (proxyMalformed (ascii "unsupported address family 0x" ++ hexByte family))

def parseProxyV2 (br : Reader) : Option (Except Err (Option Addr) × Reader) :=
  match br.readFull proxyV2HeaderLen with
  | none => none
  | some (.error e, br) => some (.error (proxyUnread e), br)
  | some (.ok header, br) =>
    let versionCommand := header.getD 12 0
    if versionCommand >>> 4 ≠ 2 then
      some (.error (proxyMalformed
        (ascii "unsupported version " ++ itoa (versionCommand >>> 4).toNat)), br)
    else
      match br.readFull (uint16 (header.drop 14)) with
      | none => none
      | some (.error e, br) => some (.error (proxyUnread e), br)
      | some (.ok body, br) =>
        some (parseV2Body (versionCommand &&& 0x0F) (header.getD 13 0) body, br)

/-! ## The handshake -/

section

variable (n : NetText) (g : GoText)

def newProxyHandshake (trustedCIDRs : List Bytes) : Except Err ProxyHandshake :=
  match trustedCIDRs.find? fun c => (n.parseCIDR c).isNone with
  | some c =>
    .error (.new (ascii "smtpsrv: invalid trusted network " ++ g.quote c ++
      ascii ": invalid CIDR address: " ++ c))
  | none =>
    let trusted := trustedCIDRs.filterMap n.parseCIDR
    if trusted.length = 0 then
      .error (.new (ascii "smtpsrv: PROXY protocol needs at least one trusted network"))
    else .ok { trusted }

def ProxyHandshake.trusts (h : ProxyHandshake) (addr : Option Addr) : Bool :=
  let ip := remoteIP n addr
  ip ≠ [] && h.trusted.any (·.contains ip)

def hasV1 (bytes : Bytes) : Bool :=
  proxyV1Prefix.length ≤ bytes.length && bytes.take proxyV1Prefix.length = proxyV1Prefix

def hasV2 (bytes : Bytes) : Bool :=
  proxyV2Sig.length ≤ bytes.length && bytes.take proxyV2Sig.length = proxyV2Sig

/-- What `handshake` does once it has peeked at the connection. -/
def ProxyHandshake.readHeader (h : ProxyHandshake) (peer : Option Addr) (peeked : Bytes)
    (br : Reader) : Option (Except Err BufferedConn) :=
  if !hasV1 peeked && !hasV2 peeked then some (.ok { peer, reader := br, remote := none })
  else if !h.trusts n peer then
    some (.error ⟨.plain (errProxyUntrusted ++ ascii ": " ++ addrKey n peer),
      [.sentinel errProxyUntrusted]⟩)
  else
    match if hasV1 peeked then parseProxyV1 n g br else parseProxyV2 br with
    | none => none
    | some (.error e, _) => some (.error e)
    | some (.ok source, br) => some (.ok { peer, reader := br, remote := source })

/-- `proxyHandshake.handshake`, on what has arrived from the peer so far. -/
def ProxyHandshake.handshake (h : ProxyHandshake) (peer : Option Addr) (input : List Arrival) :
    Option (Except Err BufferedConn) :=
  match ({ input } : Reader).peek proxyV2Sig.length with
  | none => none
  | some ((peeked, err), br) =>
    match err.filter (· ≠ .eof) with
    | some e => some (.error (readErr e))
    | none => h.readHeader n g peer peeked br

/-! ## Peeking -/

/-- The connection can be told apart: enough bytes have arrived, or it has ended
before. -/
def peekable (input : List Arrival) : Bool :=
  proxyV2Sig.length ≤ (arriving input).length || ending input = some .eof

theorem hasV1_take (bytes : Bytes) : hasV1 (bytes.take proxyV2Sig.length) = hasV1 bytes := by
  have hlen : proxyV1Prefix.length ≤ (bytes.take proxyV2Sig.length).length
      ↔ proxyV1Prefix.length ≤ bytes.length := by
    rw [List.length_take, show proxyV1Prefix.length = 6 from rfl,
      show proxyV2Sig.length = 12 from rfl]
    omega
  rw [hasV1, hasV1, List.take_take, decide_eq_decide.2 hlen]
  rfl

theorem hasV2_take (bytes : Bytes) : hasV2 (bytes.take proxyV2Sig.length) = hasV2 bytes := by
  have hlen : proxyV2Sig.length ≤ (bytes.take proxyV2Sig.length).length
      ↔ proxyV2Sig.length ≤ bytes.length := by
    rw [List.length_take]
    omega
  rw [hasV2, hasV2, List.take_take, decide_eq_decide.2 hlen]
  rfl

variable {n : NetText} {g : GoText} {h : ProxyHandshake} {peer : Option Addr}
  {input : List Arrival}

theorem readHeader_take (bytes : Bytes) (br : Reader) :
    h.readHeader n g peer (bytes.take proxyV2Sig.length) br = h.readHeader n g peer bytes br := by
  rw [ProxyHandshake.readHeader, ProxyHandshake.readHeader, hasV1_take, hasV2_take]

/-- **Where the connection can be told apart, the header is read from all of it.** -/
theorem handshake_of_peekable (n : NetText) (g : GoText) (h : ProxyHandshake) (peer : Option Addr)
    (hpeek : peekable input = true) :
    ∃ br : Reader, br.stream = arriving input ∧ ending br.input = ending input ∧
      h.handshake n g peer input = h.readHeader n g peer (arriving input) br := by
  unfold ProxyHandshake.handshake Reader.peek
  by_cases hlen : proxyV2Sig.length ≤ (arriving input).length
  · obtain ⟨br, hr, hstream, hending⟩ := Reader.peekFrom_enough [] input hlen
    refine ⟨br, hstream, hending, ?_⟩
    simp only [hr, Option.filter_none, List.nil_append]
    exact readHeader_take _ br
  have hend : ending input = some .eof := by
    simpa [peekable, hlen] using hpeek
  rcases Reader.peekFrom_short [] input (by simpa using hlen)
    with ⟨hnone, -⟩ | ⟨e, br, he, hr, hstream, hending⟩
  · cases hnone.symm.trans hend
  cases he.symm.trans hend
  refine ⟨br, hstream, hending.trans he.symm, ?_⟩
  simp [hr, Option.filter_some]

/-- **Where it cannot, the handshake waits, or fails as the connection did.** -/
theorem handshake_of_not_peekable (n : NetText) (g : GoText) (h : ProxyHandshake)
    (peer : Option Addr) (hpeek : peekable input = false) :
    (ending input = none ∧ h.handshake n g peer input = none) ∨
    ∃ e, ending input = some e ∧ e ≠ .eof ∧
      h.handshake n g peer input = some (.error (readErr e)) := by
  simp only [peekable, Bool.or_eq_false_iff, decide_eq_false_iff_not] at hpeek
  obtain ⟨hlen, heof⟩ := hpeek
  unfold ProxyHandshake.handshake Reader.peek
  rcases Reader.peekFrom_short [] input (by simpa using hlen)
    with ⟨hend, hnone⟩ | ⟨e, br, he, hr, -⟩
  · exact .inl ⟨hend, by simp only [hnone]⟩
  have hne : e ≠ .eof := fun h => heof (h ▸ he)
  refine .inr ⟨e, he, hne, ?_⟩
  simp [hr, Option.filter_some, hne]

end

end SmtpProxy.Smtpsrv
