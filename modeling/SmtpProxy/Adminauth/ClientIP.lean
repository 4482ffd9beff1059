import SmtpProxy.Lib.Net

/-!
# The address recorded for a request

`ClientIP` of `internal/adminauth/session.go`. From a peer the operator trusts it
believes the *left-most* entry of `X-Forwarded-For`. Every proxy appends the
address of its own peer on the right, so the left-most entry is whatever the
client wrote there itself: `clientIP_eq_iff` says exactly which clients end up
under their own address.
-/

namespace SmtpProxy.Adminauth

open Lib List

/-- What is read of an `http.Request`. -/
structure HTTPRequest where
  remoteAddr : Bytes
  /-- `Header.Get("X-Forwarded-For")`. -/
  forwardedFor : Bytes := []
  userAgent : Bytes := []
  deriving DecidableEq

variable (n : NetText)

/-- `IP.String`, of nil too. -/
def ipText (ip : IP) : Bytes := if ip = [] then ascii "<nil>" else n.ipString ip

/-- `remoteIP`; the empty list is nil. -/
def remoteIP (addr : Bytes) : IP := (n.parseIP ((splitHost addr).getD addr)).getD []

def containsIP (networks : List IPNet) (ip : IP) : Bool := networks.any fun network => network.contains ip

def firstEntry (s : Bytes) : Bytes := s.takeWhile (· ≠ 44)

def clientIP (r : HTTPRequest) (trusted : List IPNet) : Bytes :=
  let remote := remoteIP n r.remoteAddr
  if trusted = [] ∨ remote = [] then ipText n remote
  else if !containsIP trusted remote then ipText n remote
  else if r.forwardedFor = [] then ipText n remote
  else
    match n.parseIP (trimSpace (firstEntry r.forwardedFor)) with
    | some ip => ipText n ip
    | none => ipText n remote

/-! ## What proxies send on -/

/-- A proxy adds the address of its peer to the header. What follows the comma is
up to the proxy. -/
def appendPeer (pad header : Bytes) (peer : IP) : Bytes :=
  if header = [] then n.ipString peer else header ++ 44 :: pad ++ n.ipString peer

/-- The header after a chain of proxies whose peers were these, in order. -/
def forwarded (pad supplied : Bytes) (peers : List IP) : Bytes :=
  peers.foldl (appendPeer n pad) supplied

/-- A client and the trusted proxies between it and the server: the last proxy is
the server's peer, the others are the peers of the one after them. -/
structure ProxyChain (trusted : List IPNet) where
  client : IP
  client_ip : IsIP client
  client_untrusted : containsIP trusted client = false
  inner : List IP
  inner_trusted : ∀ p ∈ inner, IsIP p ∧ containsIP trusted p = true
  remoteAddr : Bytes
  last_ip : IsIP (remoteIP n remoteAddr)
  last_trusted : containsIP trusted (remoteIP n remoteAddr) = true

/-- The request the server sees when the client supplied this header. -/
def ProxyChain.request {n : NetText} {trusted : List IPNet} (chain : ProxyChain n trusted)
    (pad supplied userAgent : Bytes) : HTTPRequest where
  remoteAddr := chain.remoteAddr
  forwardedFor := forwarded n pad supplied (chain.client :: chain.inner)
  userAgent := userAgent

/-- Equal addresses are written alike. -/
def Canonical : Prop := ∀ a b, ipEqual a b = true → n.ipString a = n.ipString b

variable {n}

/-! ## The left-most entry -/

theorem firstEntry_append (s rest : Bytes) : firstEntry (s ++ 44 :: rest) = firstEntry s := by
  unfold firstEntry
  induction s with
  | nil => rfl
  | cons b s ih =>
    rw [cons_append, takeWhile_cons, takeWhile_cons, ih]

theorem firstEntry_eq_self {s : Bytes} (h : 44 ∉ s) : firstEntry s = s := by
  apply takeWhile_eq_self_iff.2
  intro b hb
  have hne : b ≠ 44 := fun e => h (e ▸ hb)
  simpa using hne

/-- Proxies only add to a header on the right, behind a comma. -/
theorem firstEntry_foldl {pad header : Bytes} (hne : header ≠ []) (peers : List IP) :
    firstEntry (peers.foldl (appendPeer n pad) header) = firstEntry header := by
  induction peers generalizing header with
  | nil => rfl
  | cons peer peers ih =>
  have hstep : appendPeer n pad header peer = header ++ 44 :: (pad ++ n.ipString peer) := by
    rw [appendPeer, if_neg hne, append_assoc]
    rfl
  rw [foldl_cons, hstep, ih (by simp), firstEntry_append]

theorem foldl_appendPeer_ne_nil {pad header : Bytes} (hne : header ≠ []) (peers : List IP) :
    peers.foldl (appendPeer n pad) header ≠ [] := by
  induction peers generalizing header with
  | nil => exact hne
  | cons peer peers ih =>
  rw [foldl_cons]
  apply ih
  rw [appendPeer, if_neg hne]
  simp [hne]

/-! ## Written addresses -/

theorem isVisible_of_isAddrByte (b : UInt8) : isAddrByte b = true → isVisible b = true :=
  forall_byte (p := fun b => isAddrByte b = true → isVisible b = true) (by decide +kernel) b

theorem entry_ipString (hn : n.Lawful) {ip : IP} (hip : IsIP ip) :
    trimSpace (firstEntry (n.ipString ip)) = n.ipString ip := by
  have hne := hn.string_ne_nil ip hip
  have hbytes := hn.string_bytes ip hip
  have hcomma : 44 ∉ n.ipString ip := by
    intro hmem
    exact absurd (hbytes 44 hmem) (by decide)
  rw [firstEntry_eq_self hcomma]
  have htrim : trimSpace (n.ipString ip ++ []) = n.ipString ip :=
    trimSpace_blanks hne (isVisible_of_isAddrByte _ (hbytes _ (head_mem hne)))
      (isVisible_of_isAddrByte _ (hbytes _ (getLast_mem hne))) (by simp)
  rwa [append_nil] at htrim

theorem containsIP_of_ipEqual (networks : List IPNet) {a b : IP} (h : ipEqual a b = true) :
    containsIP networks a = containsIP networks b := by
  simp only [containsIP, IPNet.contains, short_of_ipEqual h]

theorem containsIP_of_ipString (hn : n.Lawful) (networks : List IPNet) {a b : IP} (ha : IsIP a)
    (hb : IsIP b) (h : n.ipString a = n.ipString b) : containsIP networks a = containsIP networks b := by
  obtain ⟨a', hparse, haeq⟩ := hn.parse_string a ha
  obtain ⟨b', hparse', hbeq⟩ := hn.parse_string b hb
  rw [h, hparse'] at hparse
  cases hparse
  rw [← containsIP_of_ipEqual networks haeq, containsIP_of_ipEqual networks hbeq]

theorem ipText_of_isIP {ip : IP} (hip : IsIP ip) : ipText n ip = n.ipString ip := by
  rw [ipText, if_neg]
  rintro rfl
  rcases hip with h | h <;> cases h

/-! ## Which address is recorded -/

variable {trusted : List IPNet}

theorem ProxyChain.clientIP_eq (chain : ProxyChain n trusted) (hn : n.Lawful)
    (pad supplied userAgent : Bytes) :
    clientIP n (chain.request pad supplied userAgent) trusted =
      match n.parseIP (trimSpace (firstEntry
        (if supplied = [] then n.ipString chain.client else supplied))) with
      | some ip => ipText n ip
      | none => ipText n (remoteIP n chain.remoteAddr) := by
  have htrusted : trusted ≠ [] := by
    rintro rfl
    exact absurd chain.last_trusted (by simp [containsIP])
  have hremote : remoteIP n chain.remoteAddr ≠ [] := by
    intro hnil
    rcases chain.last_ip with h | h <;> rw [hnil] at h <;> cases h
  -- after the first proxy the header is not empty, and what it begins with is settled
  have hfirst : appendPeer n pad supplied chain.client ≠ [] ∧
      firstEntry (appendPeer n pad supplied chain.client)
        = firstEntry (if supplied = [] then n.ipString chain.client else supplied) := by
    by_cases hs : supplied = []
    · rw [appendPeer, if_pos hs, if_pos hs]
      exact ⟨hn.string_ne_nil _ chain.client_ip, rfl⟩
    rw [appendPeer, if_neg hs, if_neg hs, append_assoc]
    exact ⟨by simp [hs], firstEntry_append _ _⟩
  have hheader : forwarded n pad supplied (chain.client :: chain.inner) ≠ [] := by
    rw [forwarded, foldl_cons]
    exact foldl_appendPeer_ne_nil hfirst.1 _
  have hentry : firstEntry (forwarded n pad supplied (chain.client :: chain.inner))
      = firstEntry (if supplied = [] then n.ipString chain.client else supplied) := by
    rw [forwarded, foldl_cons, firstEntry_foldl hfirst.1, hfirst.2]
  unfold clientIP ProxyChain.request
  dsimp only
  rw [if_neg (by simp [htrusted, hremote]), chain.last_trusted, if_neg (by simp), if_neg hheader,
    hentry]

/-- **A client is recorded under its own address exactly when it sends no
`X-Forwarded-For` header, or begins it with that address.** -/
theorem clientIP_eq_iff (hn : n.Lawful) (hcanon : Canonical n) (chain : ProxyChain n trusted)
    (pad supplied userAgent : Bytes) :
    clientIP n (chain.request pad supplied userAgent) trusted = n.ipString chain.client ↔
      supplied = [] ∨ ∃ ip, n.parseIP (trimSpace (firstEntry supplied)) = some ip ∧
        ipText n ip = n.ipString chain.client := by
  rw [chain.clientIP_eq hn]
  by_cases hs : supplied = []
  · rw [if_pos hs, entry_ipString hn chain.client_ip]
    obtain ⟨ip, hparse, heq⟩ := hn.parse_string _ chain.client_ip
    rw [hparse]
    have hip : ip ≠ [] := by
      rintro rfl
      rcases chain.client_ip with h | h <;> simp [ipEqual, h] at heq
    refine ⟨fun _ => .inl hs, fun _ => ?_⟩
    show ipText n ip = _
    rw [ipText, if_neg hip]
    exact hcanon _ _ heq
  rw [if_neg hs]
  cases hparse : n.parseIP (trimSpace (firstEntry supplied)) with
  | some ip =>
    constructor
    · intro h
      exact .inr ⟨ip, rfl, h⟩
    intro h
    obtain h | ⟨ip', hip', h⟩ := h
    · exact absurd h hs
    rw [Option.some.inj hip']
    exact h
  | none =>
  -- the last proxy is recorded, which is trusted as the client is not
  constructor
  · intro h
    have h : ipText n (remoteIP n chain.remoteAddr) = n.ipString chain.client := h
    rw [ipText_of_isIP chain.last_ip] at h
    have hsame := containsIP_of_ipString hn trusted chain.last_ip chain.client_ip h
    rw [chain.last_trusted, chain.client_untrusted] at hsame
    cases hsame
  intro h
  obtain h | ⟨ip', hip', -⟩ := h
  · exact absurd h hs
  · cases hip'

/-- A client at 192.0.2.1 behind one proxy at 10.0.0.1, which the operator trusts. -/
def oneProxy : ProxyChain dottedText [⟨[10, 0, 0, 0], [255, 0, 0, 0]⟩] where
  client := [192, 0, 2, 1]
  client_ip := .inl rfl
  client_untrusted := by decide
  inner := []
  inner_trusted := by simp
  remoteAddr := ascii "10.0.0.1:4711"
  last_ip := by decide
  last_trusted := by decide

theorem dottedText_canonical : Canonical dottedText := by
  intro a b h
  show dottedString a = dottedString b
  rw [dottedString, short_of_ipEqual h, dottedString]

/-- The client of `oneProxy` is recorded under its own address when it sends no header. -/
theorem oneProxy_without_header :
    clientIP dottedText (oneProxy.request (ascii " ") [] []) [⟨[10, 0, 0, 0], [255, 0, 0, 0]⟩]
      = dottedText.ipString oneProxy.client :=
  (clientIP_eq_iff dottedText_lawful dottedText_canonical oneProxy _ _ _).2 (.inl rfl)

/-- The client of `oneProxy` is recorded as 198.51.100.1 when it claims to be. -/
theorem oneProxy_spoofed :
    clientIP dottedText (oneProxy.request (ascii " ") (ascii "198.51.100.1") [])
        [⟨[10, 0, 0, 0], [255, 0, 0, 0]⟩] = ascii "198.51.100.1" ∧
      dottedText.ipString oneProxy.client = ascii "192.0.2.1" := by
  decide +kernel

end SmtpProxy.Adminauth
