import SmtpProxy.Lib.Utf8

/-!
# Go's reading of a mail address

The address parser of `net/mail` in Go 1.26: `ParseAddress` for one address and
`ParseAddressList` for a list. A position in the text is what is left of it; an
error is `none`. Two things lie outside and are parameters (`Tables`): what the
decoder of RFC 2047 makes of a word, and which texts in brackets are IP
addresses.

The parser reads characters and refuses what is not UTF-8. Every character
beyond ASCII is allowed where a printable one is, so bytes from 0x80 on are
accepted one by one here, and what was passed over is checked as a whole.
-/

namespace SmtpProxy.Lib.NetMail

open Utf8

structure Address where
  name : Bytes := []
  address : Bytes
  deriving DecidableEq

/-- What `WordDecoder.Decode` makes of a word. -/
inductive Word where
  | encoded (text : Bytes)
  | plain
  | badCharset

/-- What lies outside the parser. -/
structure Tables where
  decodeWord : Bytes → Word
  ipLiteral : Bytes → Bool

/-! ## Characters -/

def isVchar (b : UInt8) : Bool := (33 ≤ b && b ≤ 126) || 128 ≤ b

def isWSP (b : UInt8) : Bool := b = 32 || b = 9

/-- The specials of RFC 5322 without the dot. -/
def specials : Bytes := ascii "()<>[]:;@\\,\""

def isAtext (dot : Bool) (b : UInt8) : Bool :=
  if b = 46 then dot else !specials.contains b && isVchar b

def isQtext (b : UInt8) : Bool := b ≠ 92 && b ≠ 34 && isVchar b

def isDtext (b : UInt8) : Bool := b ≠ 91 && b ≠ 93 && b ≠ 92 && isVchar b

/-! ## Positions -/

def skipSpace (s : Bytes) : Bytes := s.dropWhile isWSP

def consume (c : UInt8) (s : Bytes) : Option Bytes := if s.head? = some c then some s.tail else none

/-- `consumeComment`, inside `depth` parentheses: the comment and what follows. -/
def consumeComment : Nat → Bytes → Option (Bytes × Bytes)
  | 0, s => some ([], s)
  | _ + 1, [] => none
  | depth + 1, b :: s =>
    if b = 92 then
      match s with
      | [] => none
      | c :: s => (consumeComment (depth + 1) s).map fun r => (c :: r.1, r.2)
    else if b = 40 then (consumeComment (depth + 2) s).map fun r => (b :: r.1, r.2)
    else if b = 41 then
      if depth = 0 then some ([], s)
      else (consumeComment depth s).map fun r => (b :: r.1, r.2)
    else (consumeComment (depth + 1) s).map fun r => (b :: r.1, r.2)

def skipComments : Nat → Bytes → Option Bytes
  | 0, _ => none
  | fuel + 1, s =>
    match consume 40 (skipSpace s) with
    | none => some (skipSpace s)
    | some s => (consumeComment 1 s).bind fun r => skipComments fuel r.2

/-- `skipCFWS`: every comment takes at least a byte. -/
def skipCFWS (s : Bytes) : Option Bytes := skipComments (s.length + 1) s

/-! ## Words -/

def misplacedDot (atom : Bytes) : Bool :=
  atom.head? = some 46 || (indexOf (ascii "..") atom).isSome || atom.getLast? = some 46

def consumeAtom (dot permissive : Bool) (s : Bytes) : Option (Bytes × Bytes) :=
  let atom := s.takeWhile (isAtext dot)
  if !valid atom || atom = [] || (!permissive && misplacedDot atom) then none
  else some (atom, s.dropWhile (isAtext dot))

/-- The text between quotes, `escaped` saying that a backslash came before: what
it stands for, how it is written, and what follows the closing quote. -/
def quotedText : Bool → Bytes → Option (Bytes × Bytes × Bytes)
  | _, [] => none
  | true, b :: s =>
    if isVchar b || isWSP b then
      (quotedText false s).map fun r => (b :: r.1, b :: r.2.1, r.2.2)
    else none
  | false, b :: s =>
    if isQtext b || isWSP b then
      (quotedText false s).map fun r => (b :: r.1, b :: r.2.1, r.2.2)
    else if b = 34 then some ([], [], s)
    else if b = 92 then (quotedText true s).map fun r => (r.1, b :: r.2.1, r.2.2)
    else none

def consumeQuotedString (s : Bytes) : Option (Bytes × Bytes) :=
  (quotedText false s.tail).bind fun r => if valid r.2.1 then some (r.1, r.2.2) else none

/-- A word of a phrase: its text, whether it was encoded, and the position; or
the position at which it failed. -/
inductive WordResult where
  | ok (word : Bytes) (encoded : Bool) (rest : Bytes)
  | failed (rest : Bytes)

variable (lib : Tables)

/-- One round of `consumePhrase`, at a position that is not the end. -/
def consumeWord (s : Bytes) : WordResult :=
  if s.head? = some 34 then
    match consumeQuotedString s with
    | some r => .ok r.1 false r.2
    | none => .failed s
  else
    match consumeAtom true true s with
    | none => .failed s
    | some r =>
      match lib.decodeWord r.1 with
      | .encoded text => .ok text true r.2
      | .plain => .ok r.1 false r.2
      | .badCharset => .failed r.2

/-- Encoded words that follow each other are one word. -/
def addWord (words : List Bytes) (joined : Bool) (word : Bytes) : List Bytes :=
  if joined then words.dropLast ++ [words.getLast?.getD [] ++ word] else words ++ [word]

def phraseWords : Nat → List Bytes → Bool → Bytes → Option (List Bytes × Bytes)
  | 0, _, _, _ => none
  | fuel + 1, words, wasEncoded, s =>
    (if words = [] then some s else skipCFWS s).bind fun s =>
      let s := skipSpace s
      if s = [] then some (words, s)
      else
        match consumeWord lib s with
        -- an error after the first word ends the phrase
        | .failed rest => if words = [] then none else some (words, rest)
        | .ok word encoded rest =>
          phraseWords fuel (addWord words (wasEncoded && encoded) word) encoded rest

def consumePhrase (s : Bytes) : Option (Bytes × Bytes) :=
  (phraseWords lib (s.length + 1) [] false s).map fun r => (joinWith [32] r.1, r.2)

def decodeWords : List Bytes → Option (List Bytes)
  | [] => some []
  | w :: ws =>
    match lib.decodeWord w with
    | .badCharset => none
    | .plain => (decodeWords ws).map (w :: ·)
    | .encoded text => (decodeWords ws).map (text :: ·)

def consumeDisplayNameComment (s : Bytes) : Option (Bytes × Bytes) :=
  (consumeComment 1 s.tail).bind fun r =>
    (decodeWords lib ((r.1.splitOnP isWSP).filter (· ≠ []))).map fun words =>
      (joinWith [32] words, r.2)

/-! ## Addresses -/

/-- The local part: a dot-atom, or a quoted string that is not empty. -/
def consumeLocalPart (s : Bytes) : Option (Bytes × Bytes) :=
  if s.head? = some 34 then
    (consumeQuotedString s).bind fun r => if r.1 = [] then none else some r
  else consumeAtom true false s

def consumeDomainLiteral (s : Bytes) : Option (Bytes × Bytes) :=
  let text := s.tail.takeWhile (· ≠ 93)
  (consume 93 (s.tail.dropWhile (· ≠ 93))).bind fun rest =>
    if text.all isDtext && valid text && lib.ipLiteral text then some (91 :: (text ++ [93]), rest)
    else none

/-- The domain: a dot-atom, or an IP address in brackets. -/
def consumeDomain (s : Bytes) : Option (Bytes × Bytes) :=
  if s.head? = some 91 then consumeDomainLiteral lib s else consumeAtom true false s

def consumeAddrSpec (s : Bytes) : Option (Bytes × Bytes) :=
  (consumeLocalPart (skipSpace s)).bind fun l =>
    (consume 64 l.2).bind fun rest =>
      (consumeDomain lib (skipSpace rest)).map fun d => (l.1 ++ 64 :: d.1, d.2)

def consumeAngleAddr (name s : Bytes) : Option (List Address × Bytes) :=
  (consume 60 s).bind fun s =>
    (consumeAddrSpec lib s).bind fun spec =>
      (consume 62 spec.2).map fun rest => ([⟨name, spec.1⟩], rest)

/-- `parseAddress`; a group is read by `groupList` where one is allowed. -/
def parseMailbox (groupList : Option (Bytes → Option (List Address × Bytes))) (s : Bytes) :
    Option (List Address × Bytes) :=
  let s := skipSpace s
  if s = [] then none
  else
    match consumeAddrSpec lib s with
    | some spec =>
      let rest := skipSpace spec.2
      if rest.head? = some 40 then
        (consumeDisplayNameComment lib rest).map fun r => ([⟨r.1, spec.1⟩], r.2)
      else some ([⟨[], spec.1⟩], rest)
    | none =>
      (if s.head? = some 60 then some ([], s) else consumePhrase lib s).bind fun phrase =>
        let rest := skipSpace phrase.2
        match groupList, consume 58 rest with
        | some list, some rest => list rest
        | _, _ => consumeAngleAddr lib phrase.1 rest

def groupMailboxes : Nat → Bytes → Option (List Address × Bytes)
  | 0, _ => none
  | fuel + 1, s =>
    (parseMailbox lib none (skipSpace s)).bind fun r =>
      (skipCFWS r.2).bind fun s =>
        match consume 59 s with
        | some s => (skipCFWS s).map fun s => (r.1, s)
        | none =>
          (consume 44 s).bind fun s =>
            (groupMailboxes fuel s).map fun more => (r.1 ++ more.1, more.2)

def consumeGroupList (s : Bytes) : Option (List Address × Bytes) :=
  match consume 59 (skipSpace s) with
  | some s => (skipCFWS s).map fun s => ([], s)
  | none => groupMailboxes lib (s.length + 1) (skipSpace s)

def parseAddress (s : Bytes) : Option Address :=
  (parseMailbox lib (some (consumeGroupList lib)) s).bind fun r =>
    (skipCFWS r.2).bind fun rest =>
      match rest, r.1 with
      | [], [a] => some a
      | _, _ => none

def listMailboxes : Nat → Bytes → Option (List Address)
  | 0, _ => none
  | fuel + 1, s =>
    match consume 44 (skipSpace s) with
    -- an empty entry
    | some s => listMailboxes fuel s
    | none =>
      (parseMailbox lib (some (consumeGroupList lib)) (skipSpace s)).bind fun r =>
        (skipCFWS r.2).bind fun s =>
          if s = [] then some r.1
          else
            (consume 44 s).bind fun _ =>
              let s := s.dropWhile fun b => b = 44 || isWSP b
              if s = [] then some r.1 else (listMailboxes fuel s).map (r.1 ++ ·)

def parseAddressList (s : Bytes) : Option (List Address) := listMailboxes lib (s.length + 1) s

def bareTables : Tables where
  decodeWord := fun _ => .plain
  ipLiteral := fun _ => false

example : parseAddress bareTables (ascii "Big (\\)x) Box <\"a b\"@x.org> (y)")
    = some ⟨ascii "Big Box", ascii "a b@x.org"⟩ := by decide +kernel

example : parseAddressList bareTables (ascii "a@x.org (A B), G: b@x.org, c@y;,")
    = some [⟨ascii "A B", ascii "a@x.org"⟩, ⟨[], ascii "b@x.org"⟩, ⟨[], ascii "c@y"⟩] := by
  decide +kernel

end SmtpProxy.Lib.NetMail
