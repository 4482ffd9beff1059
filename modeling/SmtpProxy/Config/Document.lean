import SmtpProxy.Config.Expand

/-!
# Configuration documents

The documents a configuration is written in, as far as comments and quotes go: lines that are
blank, a comment, or a key and a scalar, which is plain or quoted in one of the two ways and may be
followed by a comment. `Line.text` is the part of a line outside its comment.

Every reference in the text of a line should be replaced, and no comment touched: what a document
should become is the value of `docTokens`. The loop of `expand` has its own idea of comments and
quotes. `expand_right_iff` says that it gets a document right, whatever the environment, exactly
where it sees the tokens that are there.
-/

namespace SmtpProxy.Config

open Lib List

def colon : UInt8 := 58

def isSpace (b : UInt8) : Bool := b = blank || b = tab

def isQuote (b : UInt8) : Bool := b = apostrophe || b = doubleQuote

/-! ## The grammar -/

inductive Style where
  | single
  | double
  deriving DecidableEq

def Style.mark : Style → UInt8
  | .single => apostrophe
  | .double => doubleQuote

def Style.lead : Style → UInt8
  | .single => apostrophe
  | .double => backslash

/-- A piece of a quoted scalar: a byte by itself, or an escape of two bytes. -/
inductive Piece where
  | byte (b : UInt8)
  | pair (b : UInt8)
  deriving DecidableEq

def Piece.text (style : Style) : Piece → Bytes
  | .byte b => [b]
  | .pair b => [style.lead, b]

/-- The piece can stand in a scalar of this style. -/
def Piece.Fits : Style → Piece → Prop
  | .single, .byte b => b ≠ lf ∧ b ≠ apostrophe
  | .single, .pair b => b = apostrophe
  | .double, .byte b => b ≠ lf ∧ b ≠ doubleQuote ∧ b ≠ backslash
  | .double, .pair b => b ≠ lf

inductive Scalar where
  | plain (s : Bytes)
  | quoted (style : Style) (pieces : List Piece)
  deriving DecidableEq

def Scalar.text : Scalar → Bytes
  | .plain s => s
  | .quoted style pieces => style.mark :: (pieces.flatMap (Piece.text style) ++ [style.mark])

def Scalar.bare : Scalar → Bytes
  | .plain s => s
  | .quoted _ _ => []

/-- No comment starts in the text, with `prev` before it. -/
def noComment : (prev : Option UInt8) → Bytes → Bool
  | _, [] => true
  | prev, c :: s => !(c = hash && startsComment prev) && noComment (some c) s

/-- `key: scalar`, with white space behind it and a comment if there is one. -/
structure Entry where
  key : Bytes
  gap : Bytes := [blank]
  scalar : Scalar
  space : Bytes := []
  remark : Option Bytes := none
  deriving DecidableEq

def Scalar.WellFormed : Scalar → Prop
  | .plain s => lf ∉ s ∧ (s.head?.any isQuote) = false
  | .quoted style pieces => ∀ p ∈ pieces, p.Fits style

structure Entry.WellFormed (x : Entry) : Prop where
  key : lf ∉ x.key ∧ (x.key.head?.any isQuote) = false
  gap : x.gap ≠ [] ∧ ∀ b ∈ x.gap, isSpace b = true
  scalar : x.scalar.WellFormed
  bare : noComment none (x.key ++ colon :: (x.gap ++ x.scalar.bare)) = true
  space : ∀ b ∈ x.space, isSpace b = true
  remark : ∀ text, x.remark = some text → lf ∉ text ∧ x.space ≠ []

inductive Line where
  | blank (space : Bytes)
  | comment (space text : Bytes)
  | entry (x : Entry)
  deriving DecidableEq

def Entry.text (x : Entry) : Bytes := x.key ++ colon :: (x.gap ++ (x.scalar.text ++ x.space))

def Entry.note (x : Entry) : Bytes := (x.remark.map (hash :: ·)).getD []

def Line.text : Line → Bytes
  | .blank space => space
  | .comment space _ => space
  | .entry x => x.text

def Line.note : Line → Bytes
  | .blank _ => []
  | .comment _ text => hash :: text
  | .entry x => x.note

/-- What these lines add to a document that does not begin with them. -/
def behind : List Line → Bytes
  | [] => []
  | l :: ls => lf :: (l.text ++ (l.note ++ behind ls))

def render : List Line → Bytes
  | [] => []
  | l :: ls => l.text ++ (l.note ++ behind ls)

/-! ## What a document should become -/

/-- The tokens of the line's text, and its comment as it stands. -/
def Line.tokens (l : Line) : List Token := Config.tokens l.text ++ l.note.map .byte

def tokensBehind : List Line → List Token
  | [] => []
  | l :: ls => .byte lf :: (l.tokens ++ tokensBehind ls)

def docTokens : List Line → List Token
  | [] => []
  | l :: ls => l.tokens ++ tokensBehind ls

theorem Line.tokens_reading (l : Line) : Reading l.tokens (l.text ++ l.note) :=
  (tokensFrom_reading 0 l.text).append (reading_bytes l.note)

theorem tokensBehind_reading (ls : List Line) : Reading (tokensBehind ls) (behind ls) := by
  induction ls with
  | nil => exact .nil
  | cons l ls ih =>
    rw [behind, ← append_assoc]
    exact .byte lf (l.tokens_reading.append ih)

theorem docTokens_reading (doc : List Line) : Reading (docTokens doc) (render doc) := by
  cases doc with
  | nil => exact .nil
  | cons l ls =>
    rw [render, ← append_assoc]
    exact l.tokens_reading.append (tokensBehind_reading ls)

variable (e : Expander)

/-- The document is expanded as it should be: every reference outside comments is replaced by its
value, once, `$$` by `$`, and everything else is as it was; and it fails exactly where a reference
outside comments is not closed or cannot be resolved. -/
structure Expands (doc : List Line) : Prop where
  result : ∀ out, e.expand (render doc) = .ok out ↔ valueOf e (docTokens doc) = some out
  fails : (∃ err, e.expand (render doc) = .error err) ↔ ∃ l ∈ doc, ∃ t ∈ tokens l.text, t.Bad e

theorem Line.exists_bad (l : Line) : (∃ t ∈ l.tokens, t.Bad e) ↔ ∃ t ∈ Config.tokens l.text, t.Bad e := by
  have hnote : ¬ ∃ t ∈ l.note.map Token.byte, t.Bad e := by
    rintro ⟨t, ht, hbad⟩
    obtain ⟨b, -, rfl⟩ := mem_map.1 ht
    exact hbad
  simp only [Line.tokens, mem_append, or_and_right, exists_or, hnote, or_false]

theorem valueOf_docTokens_eq_none_iff (doc : List Line) :
    valueOf e (docTokens doc) = none ↔ ∃ l ∈ doc, ∃ t ∈ tokens l.text, t.Bad e := by
  have hbehind : ∀ ls : List Line, (∃ t ∈ tokensBehind ls, t.Bad e) ↔
      ∃ l ∈ ls, ∃ t ∈ tokens l.text, t.Bad e := by
    intro ls
    induction ls with
    | nil => simp [tokensBehind]
    | cons l ls ih =>
      rw [exists_mem_cons_iff, ← ih, ← l.exists_bad e]
      simp only [tokensBehind, mem_cons, mem_append, or_and_right, exists_or, exists_eq_left]
      exact or_iff_right id
  simp only [valueOf_eq_none_iff, Token.value_eq_none_iff]
  cases doc with
  | nil => simp [docTokens]
  | cons l ls =>
    rw [exists_mem_cons_iff, ← hbehind, ← l.exists_bad e]
    simp only [docTokens, mem_append, or_and_right, exists_or]

theorem expands_iff (doc : List Line) :
    Expands e doc ↔ valueOf e (seen (render doc)) = valueOf e (docTokens doc) := by
  have hfails := valueOf_docTokens_eq_none_iff e doc
  rw [← expand_eq]
  constructor
  · intro h
    cases hout : e.expand (render doc) with
    | ok out => exact ((h.result out).1 hout).symm
    | error err => exact (hfails.2 (h.fails.1 ⟨err, hout⟩)).symm
  intro h
  constructor
  · intro out
    rw [← h]
    cases e.expand (render doc) <;> simp [Except.toOption]
  · rw [← hfails, ← h]
    cases e.expand (render doc) <;> simp [Except.toOption]

def oneVariable : Expander where
  lookup name := if name = ascii "SET" then some (ascii "value") else none
  stat _ := none
  readFile _ := .error (.new (ascii "no such file"))

/-- A plain scalar with an apostrophe, and a comment. -/
def apostropheEntry (remark : String) : Entry where
  key := ascii "name"
  scalar := .plain (ascii "it's")
  space := [blank]
  remark := some (ascii remark)

-- a lone dollar sign in the comment is left alone, wherever the loop takes it to be
example : SameTokens (seen (render [.entry (apostropheEntry " costs $5")]))
    (docTokens [.entry (apostropheEntry " costs $5")]) := by decide +kernel

theorem apostropheEntry_wellFormed : (apostropheEntry " $\x7bUNSET\x7d").WellFormed where
  key := by decide +kernel
  gap := by decide +kernel
  scalar := ⟨by decide +kernel, by decide +kernel⟩
  bare := by decide +kernel
  space := by decide +kernel
  remark := by
    intro text htext
    cases htext
    exact ⟨by decide +kernel, by decide⟩

-- the dollar sign of an escape is not seen
example : oneVariable.expand (ascii "key: \"\\$\x7bSET\x7d\"") =
    .ok (ascii "key: \"\\$\x7bSET\x7d\"") := by decide +kernel

-- a brace in a comment closes a reference in front of it
example : oneVariable.expand (ascii "key: $\x7bUNSET:-a # b\x7d") = .ok (ascii "key: a # b") := by
  decide +kernel

end SmtpProxy.Config
