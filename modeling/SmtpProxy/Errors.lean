import SmtpProxy.Lib.Bytes

/-!
# Go errors

A Go error is read through three functions: `Error()` for its text, `errors.Is`
for a sentinel anywhere in its tree of causes, and `errors.As` for the first
`*transport.Error` or `*smtp.SMTPError` in it. Both walks are pre-order, so an
error is represented by the pre-order list of its nodes: the outermost node
first, then its causes.

Sentinels (`errors.New` at package level) are identified by their text; the
repository's sentinels all have different texts.

Throughout, a `time.Duration` is an `Int` of nanoseconds, and a `time.Time` is
the `Int` of nanoseconds since Go's zero time, which is therefore `0`.
-/

namespace SmtpProxy

open Lib

/-- The classified part of a `transport.Error`; its cause is the rest of the
error's nodes. -/
structure TransportError where
  code : Bytes
  message : Bytes
  permanent : Bool := false
  retryAfter : Int := 0
  auth : Bool := false
  deriving DecidableEq

def TransportError.text (e : TransportError) : Bytes :=
  if e.code ≠ [] then e.code ++ ascii ": " ++ e.message else e.message

/-- go-smtp's `SMTPError`: a reply with its code, enhanced code and text. -/
structure SMTPError where
  code : Int
  enhanced : Int × Int × Int := (0, 0, 0)
  message : Bytes
  deriving DecidableEq

/-- A number with at least three digits, `%03d`. -/
def threeDigits (n : Int) : Bytes :=
  let text := itoa n
  List.replicate (3 - text.length) 48 ++ text

def SMTPError.text (e : SMTPError) : Bytes :=
  ascii "SMTP error " ++ threeDigits e.code ++
    if e.message ≠ [] then ascii ": " ++ e.message else []

/-- One node of an error's tree of causes. -/
inductive ErrNode where
  | sentinel (text : Bytes)
  | plain (text : Bytes)
  | transport (e : TransportError)
  | smtp (e : SMTPError)
  deriving DecidableEq

def ErrNode.text : ErrNode → Bytes
  | .sentinel t => t
  | .plain t => t
  | .transport e => e.text
  | .smtp e => e.text

/-- A non-nil error: its nodes in the order `errors.Is` and `errors.As` visit
them. -/
structure Err where
  head : ErrNode
  causes : List ErrNode := []
  deriving DecidableEq

namespace Err

def nodes (e : Err) : List ErrNode := e.head :: e.causes

def text (e : Err) : Bytes := e.head.text

/-- `errors.New` inside a function: an error no caller compares with. -/
def new (text : Bytes) : Err := ⟨.plain text, []⟩

/-- `fmt.Errorf` with one `%w`, given the formatted text. -/
def wrap (text : Bytes) (inner : Err) : Err := ⟨.plain text, inner.nodes⟩

def is (e : Err) (sentinel : Bytes) : Bool := e.nodes.contains (.sentinel sentinel)

def asTransport (e : Err) : Option TransportError :=
  e.nodes.findSome? fun
    | .transport t => some t
    | _ => none

def asSMTP (e : Err) : Option SMTPError :=
  e.nodes.findSome? fun
    | .smtp s => some s
    | _ => none

theorem bind_ok {α β : Type} {x : Except Err α} {f : α → Except Err β} {b : β} :
    (x >>= f) = .ok b ↔ ∃ a, x = .ok a ∧ f a = .ok b := by
  cases x with
  | error e => exact ⟨nofun, nofun⟩
  | ok a => exact ⟨fun h => ⟨a, rfl, h⟩, fun ⟨_, ha, h⟩ => Except.ok.inj ha ▸ h⟩

@[simp] theorem asTransport_transport (t : TransportError) (causes : List ErrNode) :
    asTransport ⟨.transport t, causes⟩ = some t := by
  simp [asTransport, nodes]

end Err

end SmtpProxy
