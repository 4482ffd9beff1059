import SmtpProxy.Lib.Textproto
import SmtpProxy.Policy.Address

/-!
# Splitting and rewriting a message

`internal/smtpsrv/headers.go`: `parseMessage` finds the header block and reads
it through `net/textproto`; `rewriteHeaders` walks the block line by line and
writes it out again with some fields replaced, some added at the top and some at
the end. In which order Go goes over a map is a parameter (`MapOrder`); `headerOrder`,
whose result nothing here reads, is left out.
-/

namespace SmtpProxy.Smtpsrv

open Lib Textproto Policy

/-! ## Parsing -/

def errNoHeaderSeparator : Bytes :=
  ascii "smtpsrv: message has no blank line separating headers from body"

def errHeaderTooLarge : Bytes := ascii "smtpsrv: message headers are too large"

def maxHeaderBytes : Nat := 1048576

/-- A submission split into a header block and an untouched body. -/
structure Message where
  raw : Bytes
  headerEnd : Nat
  header : MIMEHeader

def Message.get (m : Message) (key : Bytes) : Bytes := Textproto.get m.header key

def Message.body (m : Message) : Bytes := m.raw.drop m.headerEnd

/-- The header block, the blank line included. -/
def Message.block (m : Message) : Bytes := m.raw.take m.headerEnd

/-- `findHeaderEnd`: just past the first blank line, CRLF or bare LF. -/
def findHeaderEnd (raw : Bytes) : Except Err Nat :=
  match indexOf (ascii "\r\n\r\n") raw with
  | some i => .ok (i + 4)
  | none =>
    match indexOf (ascii "\n\n") raw with
    | some i => .ok (i + 2)
    | none => .error ⟨.sentinel errNoHeaderSeparator, []⟩

def parseMessage (g : GoText) (raw : Bytes) : Except Err Message :=
  match findHeaderEnd raw with
  | .error e => .error e
  | .ok headerEnd =>
    if maxHeaderBytes < headerEnd then
      .error (.wrap (errHeaderTooLarge ++ ascii ": " ++ itoa headerEnd ++ ascii " bytes")
        ⟨.sentinel errHeaderTooLarge, []⟩)
    else
      match readMIMEHeader g.quote (raw.take headerEnd) with
      | .error text =>
        .error (.wrap (ascii "smtpsrv: parsing message headers: " ++ text) (.new text))
      | .ok header => .ok { raw, headerEnd, header }

theorem findHeaderEnd_ends {raw : Bytes} {headerEnd : Nat} (h : findHeaderEnd raw = .ok headerEnd) :
    ∃ front eol, raw.take headerEnd = front ++ [lf] ++ eol ++ [lf] ∧ (eol = [] ∨ eol = [cr]) := by
  -- `lead` and `eol` are what stands before the two line feeds of the pattern
  have hcut : ∀ {i : Nat} (lead eol : Bytes), indexOf (lead ++ [lf] ++ eol ++ [lf]) raw = some i →
      ∃ front, raw.take (i + (lead ++ [lf] ++ eol ++ [lf]).length) = front ++ [lf] ++ eol ++ [lf] := by
    intro i lead eol hidx
    obtain ⟨front, rest, rfl, rfl⟩ := indexOf_some hidx
    rw [← List.length_append, List.take_left]
    exact ⟨front ++ lead, by simp⟩
  unfold findHeaderEnd at h
  split at h
  · next i hi =>
    rw [← Except.ok.inj h]
    obtain ⟨front, hfront⟩ := hcut [cr] [cr] hi
    exact ⟨front, [cr], hfront, .inr rfl⟩
  split at h
  · next i hi =>
    rw [← Except.ok.inj h]
    obtain ⟨front, hfront⟩ := hcut [] [] hi
    exact ⟨front, [], hfront, .inl rfl⟩
  · cases h

/-- The header block ends with an empty line, so it is the header block of the
whole message. -/
theorem findHeaderEnd_block {raw : Bytes} {headerEnd : Nat} (h : findHeaderEnd raw = .ok headerEnd) :
    headerLines (raw.take headerEnd) = headerLines raw := by
  obtain ⟨front, eol, hfront, heol⟩ := findHeaderEnd_ends h
  have hblank : trimEOL (eol ++ [lf]) = [] := by
    obtain rfl | rfl := heol <;> decide
  have hno : lf ∉ eol := by
    obtain rfl | rfl := heol <;> decide
  conv_rhs => rw [← List.take_append_drop headerEnd raw, hfront]
  rw [hfront]
  exact (headerLines_cut _ hblank hno).symm

theorem parseMessage_ok {g : GoText} {raw : Bytes} {m : Message} (h : parseMessage g raw = .ok m) :
    headerLines m.block = headerLines raw ∧ readMIMEHeader g.quote m.block = .ok m.header := by
  unfold parseMessage at h
  split at h
  · cases h
  next hend =>
  split at h
  · cases h
  split at h
  · cases h
  next hread =>
  cases h
  exact ⟨findHeaderEnd_block hend, hread⟩

/-! ## Rewriting -/

/-- One change to the header block. -/
structure HeaderEdit where
  key : Bytes
  value : Bytes
  prepend : Bool := false

/-- CRLF, CR and LF, each replaced by one space. -/
def replaceEOL : Bytes → Bytes
  | [] => []
  | [b] => [if b = cr ∨ b = lf then 32 else b]
  | b :: c :: rest =>
    if b = cr ∧ c = lf then 32 :: replaceEOL rest
    else (if b = cr ∨ b = lf then 32 else b) :: replaceEOL (c :: rest)

def sanitizeHeaderValue (v : Bytes) : Bytes :=
  if v.any fun b => b = cr || b = lf then trimSpace (replaceEOL v) else v

/-- A field as `writeHeaderLine` writes it, without its line ending. -/
def headerLine (key value : Bytes) : Bytes :=
  canonicalMIMEHeaderKey key ++ ascii ": " ++ sanitizeHeaderValue value

def writeHeaderLine (out key value : Bytes) : Bytes := out ++ headerLine key value ++ crlf

/-- Assignment to a key of a Go map. -/
def setKey (m : List (Bytes × Bytes)) (k v : Bytes) : List (Bytes × Bytes) :=
  if m.any fun e => e.1 = k then m.map fun e => if e.1 = k then (k, v) else e
  else m ++ [(k, v)]

/-- The replacements: the last edit of a name wins. -/
def replaceOf (edits : List HeaderEdit) : List (Bytes × Bytes) :=
  (edits.filter fun e => !e.prepend).foldl
    (fun m e => setKey m (canonicalMIMEHeaderKey e.key) e.value) []

/-- The order in which a Go `range` visits a map. -/
structure MapOrder where
  order : List (Bytes × Bytes) → List (Bytes × Bytes)
  perm : ∀ m, (order m).Perm m

theorem MapOrder.id_perm (m : List (Bytes × Bytes)) : (id m).Perm m := .refl m

/-- The state of the walk over the original block. -/
structure Walk where
  out : Bytes
  skipping : Bool := false
  seen : List Bytes := []

/-- One line of the original block, its terminator removed. -/
def walkLine (replace : List (Bytes × Bytes)) (w : Walk) (trimmed : Bytes) : Walk :=
  if isContinuation trimmed then
    if w.skipping then w else { w with out := w.out ++ trimmed ++ crlf }
  else
    let name := trimmed.takeWhile (· ≠ 58)
    if !trimmed.contains 58 || name = [] then
      -- not a header line at all: kept rather than dropped
      { w with out := w.out ++ trimmed ++ crlf, skipping := false }
    else
      let key := canonicalMIMEHeaderKey (trimSpace name)
      match replace.lookup key with
      | none => { w with out := w.out ++ trimmed ++ crlf, skipping := false }
      | some newValue =>
        { out := if newValue ≠ [] then writeHeaderLine w.out key newValue else w.out
          skipping := true
          seen := key :: w.seen }

def Message.rewriteHeaders (o : MapOrder) (m : Message) (edits : List HeaderEdit) : Bytes :=
  let replace := replaceOf edits
  let out := (edits.filter (·.prepend)).foldl (fun out e => writeHeaderLine out e.key e.value) []
  let w := (headerLines m.block).foldl (walkLine replace) { out }
  let out := (o.order replace).foldl (fun out e =>
    if !w.seen.contains e.1 && e.2 ≠ [] then writeHeaderLine out e.1 e.2 else out) w.out
  out ++ crlf ++ m.body

end SmtpProxy.Smtpsrv
