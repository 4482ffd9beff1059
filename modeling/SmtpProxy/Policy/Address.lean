import SmtpProxy.Errors

/-!
# Addresses

`internal/policy/address.go`. What Go's `strings` package decides with Unicode
tables and what `net/mail` accepts as an address are parameters (`GoText`);
everything the package itself does with their answers is modelled.
-/

namespace SmtpProxy.Policy

open Lib

structure MailAddress where
  name : Bytes := []
  address : Bytes
  deriving DecidableEq

/-- The parts of Go's library the package relies on. A parser that returns an
error returns `none`. -/
structure GoText where
  toLower : Bytes → Bytes
  equalFold : Bytes → Bytes → Bool
  parseAddress : Bytes → Option MailAddress
  parseAddressList : Bytes → Option (List MailAddress)
  /-- `(*mail.Address).String`. -/
  format : MailAddress → Bytes
  /-- `%q`. -/
  quote : Bytes → Bytes

def errNoAddress : Bytes := ascii "policy: no address"

def errMalformedAddress : Bytes := ascii "policy: malformed address"

def malformed (detail : Bytes) : Err :=
  .wrap (errMalformedAddress ++ ascii ": " ++ detail) ⟨.sentinel errMalformedAddress, []⟩

def maxAddressLen : Nat := 320

/-- One parsed email address. The zero value is the null sender. -/
structure Address where
  display : Bytes := []
  original : Bytes := []
  normalized : Bytes := []
  domain : Bytes := []
  deriving DecidableEq

def Address.isEmpty (a : Address) : Bool := a.normalized = []

/-- Bare ASCII addresses, separated by commas in a list: the least a mail library
understands. -/
def bareText : GoText where
  toLower := fun s => s.map asciiLower
  equalFold := fun a b => a.map asciiLower = b.map asciiLower
  parseAddress := fun s => if s.contains 64 then some { address := trimSet (ascii "<>") s } else none
  parseAddressList := fun s => (s.splitOn 44).mapM fun part =>
    if part.contains 64 then some { address := trimSet (ascii "<>") (trimSpace part) } else none
  format := fun a => a.name ++ ascii " <" ++ a.address ++ ascii ">"
  quote := fun s => ascii "\"" ++ s ++ ascii "\""

variable (g : GoText)

def Address.string (a : Address) : Bytes :=
  if a.isEmpty then []
  else if a.display = [] then a.original
  else g.format ⟨a.display, a.original⟩

/-- The address of a parsed pair, if it has a local part and a domain. -/
def addressOf (raw : Bytes) (parsed : MailAddress) : Except Err Address :=
  let at_ := lastIndexByte 64 parsed.address
  if at_ ≤ 0 ∨ at_ = parsed.address.length - 1 then
    .error (malformed (g.quote raw ++ ascii " has no domain"))
  else
    .ok {
      display := parsed.name
      original := parsed.address
      normalized := g.toLower parsed.address
      domain := g.toLower (parsed.address.drop (at_ + 1).toNat) }

/-- `ParseAddress`. An envelope path that does not parse as it stands is tried
once more without its angle brackets. -/
def parseAddress (raw : Bytes) : Except Err Address :=
  let trimmed := trimSpace raw
  if trimmed = [] ∨ trimmed = ascii "<>" then .ok {}
  else if maxAddressLen < trimmed.length then
    .error (malformed (ascii "longer than " ++ itoa maxAddressLen ++ ascii " characters"))
  else
    match g.parseAddress trimmed with
    | some parsed => addressOf g raw parsed
    | none =>
      match g.parseAddress (trimSet (ascii "<>") trimmed) with
      | some parsed => addressOf g raw parsed
      | none => .error (malformed (g.quote raw))

theorem addressOf_isOk (raw raw' : Bytes) (parsed : MailAddress) :
    (addressOf g raw parsed).isOk = (addressOf g raw' parsed).isOk := by
  simp only [addressOf]
  split <;> rfl

/-- Blanks around an address only show in the text of an error. -/
theorem parseAddress_trimSpace_isOk (raw : Bytes) :
    (parseAddress g (trimSpace raw)).isOk = (parseAddress g raw).isOk := by
  simp only [parseAddress, trimSpace_trimSpace]
  split
  · rfl
  split
  · rfl
  split
  · exact addressOf_isOk g _ _ _
  split
  · exact addressOf_isOk g _ _ _
  · rfl

/-- `MustParseAddress`: an address, or the text of the panic. -/
def mustParseAddress (raw : Bytes) : Except Bytes Address :=
  match parseAddress g raw with
  | .ok a => .ok a
  | .error e => .error (ascii "policy: " ++ e.text)

/-- `ParseHeaderFrom`: the one address of a `From` value. -/
def parseHeaderFrom (header : Bytes) : Except Err Address :=
  let trimmed := trimSpace header
  if trimmed = [] then .error ⟨.sentinel errNoAddress, []⟩
  else
    match g.parseAddressList trimmed with
    | none => parseAddress g trimmed
    | some [] => .error ⟨.sentinel errNoAddress, []⟩
    | some [one] =>
      match parseAddress g one.address with
      | .error e => .error e
      | .ok addr => .ok { addr with display := one.name }
    | some list =>
      .error (malformed (ascii "From lists " ++ itoa list.length ++
        ascii " addresses, which has no single sender identity"))

/-- `MatchesPattern`: an exact address, or `*@domain`. -/
def matchesPattern (normalized pattern : Bytes) : Bool :=
  let pattern := g.toLower (trimSpace pattern)
  if pattern = [] ∨ normalized = [] then false
  else if (ascii "*@").isPrefixOf pattern then
    let domain := pattern.drop 2
    if domain = [] then false
    else
      let at_ := lastIndexByte 64 normalized
      decide (0 ≤ at_) && decide (normalized.drop (at_ + 1).toNat = domain)
  else decide (normalized = pattern)

/-- `ValidatePattern`: a pattern the allow-list accepts. -/
def validatePattern (pattern : Bytes) : Except Err Unit :=
  let trimmed := trimSpace pattern
  if trimmed = [] then .error (.new (ascii "policy: pattern must not be empty"))
  else if trimmed = ascii "*" ∨ trimmed = ascii "*@*" then
    .error (.new (ascii ("policy: \"*\" would allow sending as any address; " ++
      "grant the specific addresses or domains instead")))
  else if (ascii "*@").isPrefixOf trimmed then
    let domain := trimmed.drop 2
    if domain = [] ∨ domain.any (ascii "*@ ").contains then
      .error (.new (ascii "policy: " ++ g.quote pattern ++
        ascii " is not a valid domain pattern; use *@example.com"))
    else .ok ()
  else if trimmed.contains 42 then
    .error (.new (ascii "policy: " ++ g.quote pattern ++
      ascii " is not supported; use an exact address or *@example.com"))
  else
    match parseAddress g trimmed with
    | .error _ =>
      .error (.new (ascii "policy: " ++ g.quote pattern ++
        ascii " is not a valid address or domain pattern"))
    | .ok _ => .ok ()

end SmtpProxy.Policy
