import SmtpProxy.Lib.Base64
import SmtpProxy.Transport.Transport

/-!
# The Graph transport

`internal/transport/graph/graph.go`. One HTTP request per message: the mailbox
in the path, the MIME message base64-encoded as the body, and nothing else from
the envelope. `send` returns the request it issued along with its result.

A `Response` is given by what `classify` reads from it: the error envelope, which
`readError` makes of the body of an `HTTPResponse`, and the delay `retryAfter` makes of
its header. Decoding JSON and dates are parameters.
-/

namespace SmtpProxy.Transport.Graph

open Lib

def maxMIMESize : Nat := 4 * 2 ^ 20

/-- The parts of `Options` a delivery uses. -/
structure Options where
  endpoint : Bytes
  /-- `version.Version`. -/
  version : Bytes := []
  /-- `http.StatusText`. -/
  statusText : Int → Bytes := fun _ => []
  /-- `strconv.Quote`; of a plain text, the text in quotes. -/
  quote : Bytes → Bytes := fun s => ascii "\"" ++ s ++ ascii "\""

structure Request where
  url : Bytes
  authorization : Bytes
  contentType : Bytes
  userAgent : Bytes
  clientRequestID : Bytes
  body : Bytes
  deriving DecidableEq

/-- A response: its status, the error envelope `readError` made of its body
(code and message, empty where absent) and the delay `retryAfter` read. -/
structure Response where
  status : Int
  errorCode : Bytes := []
  errorMessage : Bytes := []
  retryAfter : Int := 0

/-- A response as it arrives: the `Retry-After` header, empty where absent, and the
body, or as much of it as could be read before reading failed. -/
structure HTTPResponse where
  status : Int
  retryAfter : Bytes := []
  body : Bytes := []
  readFailed : Bool := false

/-- What the code has responses read by. -/
structure Reader where
  /-- `json.Unmarshal` into a `graphError`: its code and message, empty where absent,
  or `none` for an error. -/
  unmarshal : Bytes → Option (Bytes × Bytes)
  /-- `http.ParseTime`. -/
  parseTime : Bytes → Option Int := fun _ => none
  now : Int := 0

/-- What the limited reader lets through, `64<<10`. -/
def maxErrorBody : Nat := 64 * 2 ^ 10

/-- The length `readError` cuts a text to. -/
def maxErrorText : Nat := 512

/-- `truncate`: the cut is made between bytes; the ellipsis is U+2026. -/
def truncate (s : Bytes) (limit : Nat) : Bytes :=
  if s.length ≤ limit then s else s.take limit ++ [0xe2, 0x80, 0xa6]

def envelope (rd : Reader) (body : Bytes) : Option (Bytes × Bytes) :=
  (rd.unmarshal body).filter fun g => g.1 ≠ []

/-- `readError`: the code and the message, both empty for nil. -/
def readError (rd : Reader) (r : HTTPResponse) : Bytes × Bytes :=
  let body := r.body.take maxErrorBody
  if r.readFailed ∨ body = [] then ([], [])
  else
    match envelope rd body with
    | some g => g
    -- not the envelope we expected: the text is kept
    | none => ([], truncate (trimSpace body) maxErrorText)

def second : Int := 1000000000

/-- `retryAfter`: a number of seconds, or a date. The product is one of `int64`s, and
`time.Until` gives at most the longest duration. -/
def retryAfter (rd : Reader) (r : HTTPResponse) : Int :=
  if r.retryAfter = [] then 0
  else
    match (atoi (trimSpace r.retryAfter)).filter fun seconds => 0 < seconds with
    | some seconds => int64 (seconds * second)
    | none =>
      match rd.parseTime r.retryAfter with
      | some date => if date - rd.now > 0 then min (date - rd.now) (2 ^ 63 - 1) else 0
      | none => 0

/-- What `classify` reads from a response. -/
def HTTPResponse.read (rd : Reader) (r : HTTPResponse) : Response where
  status := r.status
  errorCode := (readError rd r).1
  errorMessage := (readError rd r).2
  retryAfter := Graph.retryAfter rd r

/-- What one delivery meets. -/
structure Service where
  /-- `Tokens.Token`; a cached token may be returned even under a done context. -/
  token : (ctxDone : Bool) → Except Err Bytes
  /-- The error of `http.NewRequestWithContext`, which depends on the URL alone. -/
  badURL : Bytes → Option Err := fun _ => none
  respond : Request → Except Err Response

/-- A byte `url.PathEscape` leaves as it is. -/
def isPathByte (b : UInt8) : Bool :=
  (48 ≤ b && b ≤ 57) || (65 ≤ b && b ≤ 90) || (97 ≤ b && b ≤ 122)
    || (ascii "-_.~$&+:=@").contains b

/-- `url.PathEscape`. -/
def pathEscape (s : Bytes) : Bytes :=
  let hex := ascii "0123456789ABCDEF"
  s.flatMap fun b =>
    if isPathByte b then [b] else [37, hex.getD (b.toNat / 16) 0, hex.getD (b.toNat % 16) 0]

def buildRequest (o : Options) (s : Service) (m : Message) (accessToken : Bytes) :
    Except Err Request :=
  let endpoint := o.endpoint.reverse.dropWhile (· = 47) |>.reverse
  let url := endpoint ++ ascii "/v1.0/users/" ++ pathEscape m.mailbox.address ++ ascii "/sendMail"
  match s.badURL url with
  | some e =>
    .error (newPermanent (ascii "graph") (ascii "could not build the Graph request: " ++ e.text)
      (some e))
  | none =>
    .ok {
      url
      authorization := ascii "Bearer " ++ accessToken
      contentType := ascii "text/plain"
      userAgent := ascii "smtp-auth-proxy/" ++ o.version
      clientRequestID := m.id
      body := Base64.encode m.raw }

/-- `(*graphError).code`. -/
def errorCode (r : Response) : Bytes := if r.errorCode ≠ [] then r.errorCode else itoa r.status

/-- `(*graphError).message`. -/
def errorMessage (o : Options) (r : Response) : Bytes :=
  if r.errorMessage ≠ [] then r.errorMessage else o.statusText r.status

def classify (o : Options) (r : Response) (m : Message) : Option Err :=
  let code := errorCode r
  let message := errorMessage o r
  if r.status = 202 then none
  else if r.status = 429 then some (newThrottled code message r.retryAfter none)
  else if r.status = 401 ∨ r.status = 403 then
    some (newAuthFailure code
      (ascii "sending as " ++ m.mailbox.address ++ ascii " was refused: " ++ message) none)
  else if r.status ≥ 500 then some (newTransient code message none)
  else if r.status = 404 then
    some (newPermanent code
      (ascii "the mailbox " ++ m.mailbox.address ++ ascii " was not found: " ++ message) none)
  else some (newPermanent code message none)

/-- The `url.Error` in which `Client.Do` returns an error. -/
def urlError (o : Options) (r : Request) (e : Err) : Err :=
  .wrap (ascii "Post " ++ o.quote r.url ++ ascii ": " ++ e.text) e

/-- `Transport.Send`: the request that reached Graph, if any, and the result. -/
def send (o : Options) (s : Service) (ctx : Ctx) (m : Message) : Option Request × Option Err :=
  if m.raw.length > maxMIMESize then
    (none, some (newPermanent (ascii "graph.size")
      (ascii "the message is " ++ itoa m.raw.length ++ ascii " bytes, over the " ++
        itoa maxMIMESize ++ ascii " byte limit the Graph sendMail API accepts in MIME form; " ++
        ascii "switch this mailbox to the SMTP transport to send messages this large") none))
  else
    match s.token (ctx.done .token) with
    | .error e =>
      (none, some (newTransient (ascii "oauth")
        (ascii "could not obtain an access token: " ++ e.text) (some e)))
    | .ok accessToken =>
      match buildRequest o s m accessToken with
      | .error e => (none, some e)
      | .ok request =>
        let response :=
          if ctx.done .dial then .error (urlError o request errCanceled) else s.respond request
        match response with
        | .error e =>
          (some request, some (newTransient (ascii "net")
            (ascii "the Graph request failed: " ++ e.text) (some e)))
        | .ok response => (some request, classify o response m)

theorem buildRequest_body {o : Options} {s : Service} {m : Message} {accessToken : Bytes}
    {r : Request} (h : buildRequest o s m accessToken = .ok r) :
    Base64.decode r.body = some m.raw := by
  unfold buildRequest at h
  dsimp only at h
  split at h
  · cases h
  rw [← Except.ok.inj h]
  exact Base64.decode_encode m.raw

/-- **A message whose `Send` succeeded was handed over whole**: one request,
whose body decodes to the message. -/
theorem send_ok_request {o : Options} {s : Service} {ctx : Ctx} {m : Message}
    {request : Option Request} (h : send o s ctx m = (request, none)) :
    ∃ r, request = some r ∧ Base64.decode r.body = some m.raw := by
  unfold send at h
  split at h
  · cases h
  split at h
  · cases h
  split at h
  · cases h
  next r hbuild =>
  dsimp only at h
  split at h
  · cases h
  · exact ⟨r, (Prod.mk.inj h).1.symm, buildRequest_body hbuild⟩

end SmtpProxy.Transport.Graph
