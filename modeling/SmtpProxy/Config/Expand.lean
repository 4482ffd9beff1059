import SmtpProxy.Store.Models

/-!
# References in the configuration file

`internal/config/expand.go`: before the configuration is read as YAML, references to the
environment and to files are replaced in its text. The loop of `expand` goes over the bytes and
keeps just enough of YAML's lexical structure to leave comments alone: whether it is in a comment,
and in which kind of quotes. Where the source adds more than one to its index, `expandLoop`
skips the bytes in between.

A text is a row of references and other bytes (`Token`). `tokens` splits a text that has no
comments into them; `seen` is the row the loop comes upon, in the comments and quotes it takes for
such. The result of the loop is the value of that row (`expand_eq`), and what tells two rows apart
is said without the environment: where two readings of one text differ, some environment makes
their values differ (`forall_valueOf_eq_iff`).

Where the model departs from the source: an error is told apart by its text alone, `os.Stat` and
`readFile` are functions of the path, and the builder the source writes to is the list returned.
-/

namespace SmtpProxy.Config

open Lib List

def dollar : UInt8 := 36

def lbrace : UInt8 := 123

def rbrace : UInt8 := 125

def apostrophe : UInt8 := 39

def doubleQuote : UInt8 := 34

def backslash : UInt8 := 92

def hash : UInt8 := 35

def blank : UInt8 := 32

def tab : UInt8 := 9

def errUnsetVariable : Bytes := ascii "config: referenced variable is unset"

def maxFileSecretSize : Nat := 1048576

/-- `expander`, and what `os.Stat` says of a file's size. -/
structure Expander where
  lookup : Bytes → Option Bytes
  stat : Bytes → Option Nat
  readFile : Bytes → Except Err Bytes

def Expander.resolveFile (e : Expander) (path : Bytes) : Except Err Bytes :=
  let path := trimSpace path
  if path = [] then
    .error (.new (ascii "config: $\x7bfile:\x7d reference has an empty path"))
  else if path.head? ≠ some 47 then
    .error (.new (ascii "config: $\x7bfile:" ++ path ++ ascii "\x7d must be an absolute path"))
  else
    match (e.stat path).filter (· > maxFileSecretSize) with
    | some size =>
      .error (.new (ascii "config: $\x7bfile:" ++ path ++ ascii "\x7d is " ++ itoa size ++
        ascii " bytes, larger than the " ++ itoa maxFileSecretSize ++ ascii " byte limit"))
    | none =>
      match e.readFile path with
      | .error err =>
        .error (.wrap (ascii "config: reading $\x7bfile:" ++ path ++ ascii "\x7d: " ++ err.text) err)
      | .ok content => .ok (trimSpace content)

def nameAndDefault (ref : Bytes) : Bytes × Option Bytes :=
  match indexOf (ascii ":-") ref with
  | none => (ref, none)
  | some i => (ref.take i, some (ref.drop (i + 2)))

/-- `resolve`. A variable that is set to nothing counts as unset. -/
def Expander.resolve (e : Expander) (ref : Bytes) : Except Err Bytes :=
  if ref = [] then .error (.new (ascii "config: empty $\x7b\x7d reference"))
  else if (ascii "file:").isPrefixOf ref then e.resolveFile (ref.drop 5)
  else
    match (e.lookup (nameAndDefault ref).1).filter (· ≠ []) with
    | some value => .ok value
    | none =>
      match (nameAndDefault ref).2 with
      | some fallback => .ok fallback
      | none => .error (Store.sentinelFor errUnsetVariable (nameAndDefault ref).1)

/-! ## The loop -/

/-- `quote`: 0, `'` or `"`. -/
inductive Quote where
  | none
  | single
  | double
  deriving DecidableEq

/-- What the `switch` makes of a byte: it is copied together with the next one, or it leaves the
scanner in this state. -/
inductive Look where
  | pair
  | on (inComment : Bool) (quote : Quote)
  deriving DecidableEq

def startsComment (prev : Option UInt8) : Bool :=
  prev.all fun b => b = blank || b = tab || b = lf

/-- The `switch` of `expand`, at the byte `c` with `prev` before it and `rest` behind it. -/
def look (prev : Option UInt8) (inComment : Bool) (quote : Quote) (c : UInt8) (rest : Bytes) :
    Look :=
  if c = lf then .on false .none
  else if inComment then .on true quote
  else
    match quote with
    | .single =>
      if c = apostrophe then
        if rest.head? = some apostrophe then .pair else .on false .none
      else .on false .single
    | .double =>
      if c = backslash ∧ rest ≠ [] then .pair
      else if c = doubleQuote then .on false .none
      else .on false .double
    | .none =>
      if c = apostrophe then .on false .single
      else if c = doubleQuote then .on false .double
      else if c = hash ∧ startsComment prev then .on true .none
      else .on false .none

variable (e : Expander)

/-- The loop of `expand` at the offset `i`, which still has `skip` bytes to pass over. -/
def expandLoop : (i : Nat) → (prev : Option UInt8) → (inComment : Bool) → Quote → (skip : Nat) →
    Bytes → Except Err Bytes
  | _, _, _, _, _, [] => .ok []
  | i, _, inComment, quote, skip + 1, c :: rest =>
    expandLoop (i + 1) (some c) inComment quote skip rest
  | i, prev, inComment, quote, 0, c :: rest =>
    match look prev inComment quote c rest with
    | .pair => (expandLoop (i + 1) (some c) inComment quote 1 rest).map (c :: rest.take 1 ++ ·)
    | .on inComment quote =>
      if inComment ∨ c ≠ dollar then
        (expandLoop (i + 1) (some c) inComment quote 0 rest).map (c :: ·)
      else if rest.head? = some dollar then
        (expandLoop (i + 1) (some c) inComment quote 1 rest).map (dollar :: ·)
      else if rest.head? ≠ some lbrace then
        (expandLoop (i + 1) (some c) inComment quote 0 rest).map (dollar :: ·)
      else
        match cut rbrace rest.tail with
        | none =>
          .error (.new (ascii "config: unterminated $\x7b...\x7d reference at offset " ++ itoa i))
        | some (ref, _) =>
          match e.resolve ref with
          | .error err => .error err
          | .ok value =>
            (expandLoop (i + 1) (some c) inComment quote (ref.length + 2) rest).map (value ++ ·)

def Expander.expand (raw : Bytes) : Except Err Bytes := expandLoop e 0 none false .none 0 raw

/-! ## Tokens -/

inductive Token where
  | byte (b : UInt8)
  /-- `$$`. -/
  | escaped
  | ref (r : Bytes)
  /-- `${` with no `}` behind it. -/
  | unclosed (rest : Bytes)
  deriving DecidableEq

/-- What a dollar sign is the start of, and how many of the bytes behind it belong to it. -/
def afterDollar (rest : Bytes) : Token × Nat :=
  if rest.head? = some dollar then (.escaped, 1)
  else if rest.head? ≠ some lbrace then (.byte dollar, 0)
  else
    match cut rbrace rest.tail with
    | none => (.unclosed rest.tail, rest.length)
    | some (r, _) => (.ref r, r.length + 2)

/-- The tokens of a text, behind the first `skip` bytes. -/
def tokensFrom : (skip : Nat) → Bytes → List Token
  | _, [] => []
  | skip + 1, _ :: rest => tokensFrom skip rest
  | 0, c :: rest =>
    if c ≠ dollar then .byte c :: tokensFrom 0 rest
    else (afterDollar rest).1 :: tokensFrom (afterDollar rest).2 rest

def tokens (s : Bytes) : List Token := tokensFrom 0 s

/-- The tokens the loop comes upon, from the state it is in. -/
def seenFrom : (prev : Option UInt8) → (inComment : Bool) → Quote → (skip : Nat) → Bytes → List Token
  | _, _, _, _, [] => []
  | _, inComment, quote, skip + 1, c :: rest => seenFrom (some c) inComment quote skip rest
  | prev, inComment, quote, 0, c :: rest =>
    match look prev inComment quote c rest with
    | .pair => .byte c :: ((rest.take 1).map .byte ++ seenFrom (some c) inComment quote 1 rest)
    | .on inComment quote =>
      if inComment ∨ c ≠ dollar then .byte c :: seenFrom (some c) inComment quote 0 rest
      else (afterDollar rest).1 :: seenFrom (some c) inComment quote (afterDollar rest).2 rest

def seen (raw : Bytes) : List Token := seenFrom none false .none 0 raw

/-- What stands for the token, if anything can. -/
def Token.value : Token → Option Bytes
  | .byte b => some [b]
  | .escaped => some [dollar]
  | .ref r => (e.resolve r).toOption
  | .unclosed _ => none

def valueOf : List Token → Option Bytes
  | [] => some []
  | t :: ts => (t.value e).bind fun v => (valueOf ts).map (v ++ ·)

/-! ## What cannot be replaced -/

/-- The file cannot be used: no path, no absolute path, too large or not readable. -/
def Expander.Unreadable (path : Bytes) : Prop :=
  path = [] ∨ path.head? ≠ some 47 ∨ (∃ size, e.stat path = some size ∧ maxFileSecretSize < size) ∨
    ∃ err, e.readFile path = .error err

/-- The reference is empty, to a variable without a value and without a default, or to a file that
cannot be used. -/
def Expander.Unresolvable (r : Bytes) : Prop :=
  r = [] ∨
    if (ascii "file:").isPrefixOf r then e.Unreadable (trimSpace (r.drop 5))
    else (∀ value, e.lookup (nameAndDefault r).1 = some value → value = []) ∧
      (nameAndDefault r).2 = none

/-- The token makes `expand` fail. -/
def Token.Bad : Token → Prop
  | .ref r => e.Unresolvable r
  | .unclosed _ => True
  | _ => False

theorem resolveFile_eq_none_iff (path : Bytes) :
    (e.resolveFile path).toOption = none ↔ e.Unreadable (trimSpace path) := by
  unfold Expander.resolveFile Expander.Unreadable
  generalize trimSpace path = path
  by_cases hempty : path = []
  · simp [hempty, Except.toOption]
  by_cases habs : path.head? = some 47
  · simp only [ne_eq, habs, not_true_eq_false, if_false, hempty, false_or]
    cases hstat : (e.stat path).filter (· > maxFileSecretSize) with
    | some size =>
      obtain ⟨hsize, hbig⟩ := Option.filter_eq_some_iff.1 hstat
      exact iff_of_true rfl (.inl ⟨size, hsize, of_decide_eq_true hbig⟩)
    | none =>
    have hsmall : ¬ ∃ size, e.stat path = some size ∧ maxFileSecretSize < size := by
      intro ⟨size, hsize, hbig⟩
      rw [hsize, Option.filter_some, if_pos (decide_eq_true hbig)] at hstat
      cases hstat
    cases e.readFile path with
    | error err => exact iff_of_true rfl (.inr ⟨err, rfl⟩)
    | ok content => simp [Except.toOption, hsmall]
  · simp [hempty, habs, Except.toOption]

theorem resolve_eq_none_iff (r : Bytes) : (e.resolve r).toOption = none ↔ e.Unresolvable r := by
  unfold Expander.resolve Expander.Unresolvable
  by_cases hempty : r = []
  · simp [hempty, Except.toOption]
  by_cases hfile : (ascii "file:").isPrefixOf r = true
  · simp only [if_pos hfile, hempty, false_or]
    exact resolveFile_eq_none_iff e _
  simp only [if_neg hfile, hempty, false_or]
  cases hvalue : (e.lookup (nameAndDefault r).1).filter (· ≠ []) with
  | some value =>
    obtain ⟨hlookup, hne⟩ := Option.filter_eq_some_iff.1 hvalue
    refine iff_of_false (by simp [Except.toOption]) fun h => ?_
    exact absurd (h.1 value hlookup) (of_decide_eq_true hne)
  | none =>
  have hunset : ∀ value, e.lookup (nameAndDefault r).1 = some value → value = [] := by
    intro value hlookup
    rw [hlookup, Option.filter_eq_none_iff] at hvalue
    simpa using hvalue value rfl
  cases (nameAndDefault r).2 with
  | some fallback => simp [Except.toOption]
  | none => exact iff_of_true rfl ⟨hunset, rfl⟩

theorem Token.value_eq_none_iff (t : Token) : t.value e = none ↔ t.Bad e := by
  cases t with
  | byte | escaped => simp [Token.value, Token.Bad]
  | ref r => exact resolve_eq_none_iff e r
  | unclosed rest => exact iff_of_true rfl trivial

theorem valueOf_eq_none_iff (ts : List Token) : valueOf e ts = none ↔ ∃ t ∈ ts, t.value e = none := by
  induction ts with
  | nil => simp [valueOf]
  | cons t ts ih =>
    rw [exists_mem_cons_iff, ← ih, valueOf]
    cases t.value e <;> simp

/-! ## The loop, token by token -/

variable {e}

theorem toOption_map {α β : Type} (f : α → β) (x : Except Err α) :
    (x.map f).toOption = x.toOption.map f := by
  cases x <;> rfl

theorem valueOf_bytes (s : Bytes) (ts : List Token) :
    valueOf e (s.map .byte ++ ts) = (valueOf e ts).map (s ++ ·) := by
  induction s with
  | nil => simp
  | cons b s ih =>
    rw [map_cons, cons_append, valueOf, ih]
    cases valueOf e ts <;> simp [Token.value]

/-- **The loop comes to the value of the tokens it sees.** -/
theorem expandLoop_eq (i : Nat) (prev : Option UInt8) (inComment : Bool) (quote : Quote)
    (skip : Nat) (s : Bytes) :
    (expandLoop e i prev inComment quote skip s).toOption =
      valueOf e (seenFrom prev inComment quote skip s) := by
  induction s generalizing i prev inComment quote skip with
  | nil => cases skip <;> rfl
  | cons c rest ih =>
  cases skip with
  | succ skip => exact ih ..
  | zero =>
  rw [expandLoop, seenFrom]
  cases look prev inComment quote c rest with
  | pair =>
    have hbytes := valueOf_bytes (e := e) (c :: rest.take 1) (seenFrom (some c) inComment quote 1 rest)
    rw [map_cons, cons_append] at hbytes
    simp only [hbytes, toOption_map, ih]
  | on inComment quote =>
  have hone : ∀ (t : Token) (v : Bytes) (skip : Nat), t.value e = some v →
      ((expandLoop e (i + 1) (some c) inComment quote skip rest).map (v ++ ·)).toOption =
        valueOf e (t :: seenFrom (some c) inComment quote skip rest) := by
    intro t v skip ht
    rw [toOption_map, ih, valueOf, ht, Option.bind_some]
  dsimp only
  split
  · exact hone (.byte c) [c] 0 rfl
  unfold afterDollar
  split
  · exact hone .escaped [dollar] 1 rfl
  split
  · exact hone (.byte dollar) [dollar] 0 rfl
  cases cut rbrace rest.tail with
  | none => rfl
  | some found =>
  dsimp only
  cases hvalue : e.resolve found.1 with
  | error err => simp [valueOf, Token.value, hvalue, Except.toOption]
  | ok v => exact hone (.ref found.1) v _ (by rw [Token.value, hvalue]; rfl)

theorem expand_eq (e : Expander) (raw : Bytes) : (e.expand raw).toOption = valueOf e (seen raw) :=
  expandLoop_eq ..

/-! ## Readings of one text -/

/-- The tokens spell the text. -/
inductive Reading : List Token → Bytes → Prop
  | nil : Reading [] []
  | byte (b : UInt8) {ts : List Token} {s : Bytes} : Reading ts s → Reading (.byte b :: ts) (b :: s)
  | escaped {ts : List Token} {s : Bytes} : Reading ts s →
      Reading (.escaped :: ts) (dollar :: dollar :: s)
  | ref {r : Bytes} {ts : List Token} {s : Bytes} : rbrace ∉ r → Reading ts s →
      Reading (.ref r :: ts) (dollar :: lbrace :: (r ++ rbrace :: s))
  | unclosed (r : Bytes) {ts : List Token} {s : Bytes} : Reading ts s →
      Reading (.unclosed r :: ts) (dollar :: lbrace :: (r ++ s))

variable {ts us : List Token}

theorem Reading.append {s t : Bytes} (hs : Reading ts s) (ht : Reading us t) :
    Reading (ts ++ us) (s ++ t) := by
  induction hs with
  | nil => exact ht
  | byte b _ ih => exact .byte b ih
  | escaped _ ih => exact .escaped ih
  | ref hr _ ih =>
    rw [cons_append, cons_append, cons_append, append_assoc]
    exact .ref hr ih
  | unclosed r _ ih =>
    rw [cons_append, cons_append, cons_append, append_assoc]
    exact .unclosed r ih

theorem reading_bytes (s : Bytes) : Reading (s.map .byte) s := by
  induction s with
  | nil => exact .nil
  | cons b s ih => exact .byte b ih

theorem Reading.sign {rest : Bytes} (h : Reading ts (rest.drop (afterDollar rest).2)) :
    Reading ((afterDollar rest).1 :: ts) (dollar :: rest) := by
  unfold afterDollar at h ⊢
  by_cases hd : rest.head? = some dollar
  · rw [if_pos hd] at h ⊢
    obtain ⟨s, rfl⟩ := head?_eq_some_iff.1 hd
    exact .escaped h
  rw [if_neg hd] at h ⊢
  by_cases hb : rest.head? = some lbrace
  · rw [if_neg (not_not.2 hb)] at h ⊢
    obtain ⟨s, rfl⟩ := head?_eq_some_iff.1 hb
    rw [tail_cons] at h ⊢
    cases hcut : cut rbrace s with
    | none =>
      simp only [hcut, drop_length] at h ⊢
      have hread := Reading.unclosed s h
      rwa [append_nil] at hread
    | some found =>
    obtain ⟨r, after⟩ := found
    obtain ⟨rfl, hr⟩ := cut_eq_some hcut
    have hrest : (lbrace :: (r ++ rbrace :: after)).drop (r.length + 2) = after := by
      rw [drop_succ_cons, ← drop_drop, drop_left]
      rfl
    simp only [hcut, hrest] at h ⊢
    exact .ref hr h
  · rw [if_pos hb] at h ⊢
    exact .byte dollar h

theorem tokensFrom_reading (skip : Nat) (s : Bytes) : Reading (tokensFrom skip s) (s.drop skip) := by
  induction s generalizing skip with
  | nil => cases skip <;> exact .nil
  | cons c rest ih =>
  cases skip with
  | succ skip => exact ih skip
  | zero =>
  rw [tokensFrom]
  split
  · exact .byte c (ih 0)
  · next hc => rw [not_not.1 hc]; exact .sign (ih _)

theorem seenFrom_reading (prev : Option UInt8) (inComment : Bool) (quote : Quote) (skip : Nat)
    (s : Bytes) : Reading (seenFrom prev inComment quote skip s) (s.drop skip) := by
  induction s generalizing prev inComment quote skip with
  | nil => cases skip <;> exact .nil
  | cons c rest ih =>
  cases skip with
  | succ skip => exact ih ..
  | zero =>
  rw [seenFrom]
  cases look prev inComment quote c rest with
  | pair =>
    have hrest := (reading_bytes (rest.take 1)).append (ih (some c) inComment quote 1)
    rw [take_append_drop] at hrest
    exact .byte c hrest
  | on inComment quote =>
  dsimp only
  split
  · exact .byte c (ih ..)
  · next hc =>
    rw [not_not.1 (not_or.1 hc).2]
    exact .sign (ih ..)

/-! ## Readings with the same value -/

/-- Whether a dollar sign was doubled makes no difference to the value. -/
def Token.plain : Token → Token
  | .escaped => .byte dollar
  | t => t

/-- No environment has a value for the token. -/
def Token.Hopeless : Token → Prop
  | .ref r => r = [] ∨ (ascii "file:").isPrefixOf r = true ∧
      (trimSpace (r.drop 5) = [] ∨ (trimSpace (r.drop 5)).head? ≠ some 47)
  | .unclosed _ => True
  | _ => False

instance : DecidablePred Token.Hopeless
  | .byte _ => isFalse id
  | .escaped => isFalse id
  | .ref _ => inferInstanceAs (Decidable (_ ∨ _ ∧ (_ ∨ _)))
  | .unclosed _ => isTrue trivial

/-- The byte the token stands for in every environment. -/
def Token.letter : Token → Option UInt8
  | .byte b => some b
  | .escaped => some dollar
  | _ => none

theorem valueOf_plain (ts : List Token) : valueOf e (ts.map Token.plain) = valueOf e ts := by
  induction ts with
  | nil => rfl
  | cons t ts ih =>
    rw [map_cons, valueOf, valueOf, ih]
    cases t <;> rfl

theorem Token.Hopeless.value {t : Token} (h : t.Hopeless) : t.value e = none := by
  rw [Token.value_eq_none_iff]
  cases t with
  | byte | escaped => exact absurd h id
  | unclosed rest => trivial
  | ref r =>
  obtain hempty | ⟨hfile, hpath⟩ := h
  · exact .inl hempty
  · refine .inr ?_
    rw [if_pos hfile]
    exact hpath.imp_right .inl

/-- Every variable and every file says `x`. -/
def answering (x : UInt8) : Expander where
  lookup _ := some [x]
  stat _ := none
  readFile _ := .ok [x]

theorem Token.value_answering {x : UInt8} (hx : trimSpace [x] = [x]) {t : Token} (h : ¬ t.Hopeless) :
    t.value (answering x) = some [t.letter.getD x] := by
  cases t with
  | byte | escaped => rfl
  | unclosed rest => exact absurd trivial h
  | ref r =>
  obtain ⟨hempty, hpath⟩ := not_or.1 h
  show ((answering x).resolve r).toOption = some [x]
  unfold Expander.resolve
  rw [if_neg hempty]
  by_cases hfile : (ascii "file:").isPrefixOf r = true
  · obtain ⟨hne, habs⟩ := not_or.1 fun hbad => hpath ⟨hfile, hbad⟩
    rw [if_pos hfile, Expander.resolveFile]
    simp only [if_neg hne, if_neg habs, answering, Option.filter_none, hx]
    rfl
  · rw [if_neg hfile]
    rfl

theorem valueOf_answering {x : UInt8} (hx : trimSpace [x] = [x]) (h : ∀ t ∈ ts, ¬ t.Hopeless) :
    valueOf (answering x) ts = some (ts.map fun t => t.letter.getD x) := by
  induction ts with
  | nil => rfl
  | cons t ts ih =>
    obtain ⟨ht, hts⟩ := forall_mem_cons.1 h
    rw [valueOf, Token.value_answering hx ht, ih hts]
    rfl

/-- Two letters tell a byte from a reference. -/
theorem eq_of_getD {p q : Option UInt8} (hx : p.getD 120 = q.getD 120)
    (hy : p.getD 121 = q.getD 121) : p = q := by
  cases p with
  | none =>
    cases q with
    | none => rfl
    | some c => exact absurd (hx.trans hy.symm) (by decide)
  | some b =>
  cases q with
  | none => exact absurd (hx.symm.trans hy) (by decide)
  | some c => exact congrArg some hx

theorem letters_eq (hx : ts.map (fun t => t.letter.getD 120) = us.map fun t => t.letter.getD 120)
    (hy : ts.map (fun t => t.letter.getD 121) = us.map fun t => t.letter.getD 121) :
    ts.map Token.letter = us.map Token.letter := by
  induction ts generalizing us with
  | nil =>
    cases us with
    | nil => rfl
    | cons u us => cases hx
  | cons t ts ih =>
  cases us with
  | nil => cases hx
  | cons u us =>
  obtain ⟨hx, hxs⟩ := List.cons.inj hx
  obtain ⟨hy, hys⟩ := List.cons.inj hy
  rw [map_cons, map_cons, eq_of_getD hx hy, ih hxs hys]

/-- Behind as many dollar signs as there are, the rest is the same. -/
theorem dollars_inj {a b : Nat} {c d : UInt8} {x y : Bytes} (hc : c ≠ dollar) (hd : d ≠ dollar)
    (h : replicate a dollar ++ c :: x = replicate b dollar ++ d :: y) : c :: x = d :: y := by
  induction a generalizing b with
  | zero =>
    cases b with
    | zero => exact h
    | succ b => exact absurd (List.cons.inj h).1 hc
  | succ a ih =>
  cases b with
  | zero => exact absurd (List.cons.inj h).1.symm hd
  | succ b => exact ih (List.cons.inj h).2

theorem dollars_cons (a : Nat) (s : Bytes) :
    replicate a dollar ++ dollar :: s = replicate (a + 1) dollar ++ s := by
  rw [append_cons, replicate_succ']

/-- **Two readings of a text with the same letters have the same tokens**, up to the doubling of
dollar signs. One may be ahead of the other, but by dollar signs only: `a` and `b` are how many
each of them has passed. -/
theorem Reading.plain_eq {s t : Bytes} (hs : Reading ts s) (ht : Reading us t)
    (hletter : ts.map Token.letter = us.map Token.letter) (hts : ∀ r, .unclosed r ∉ ts)
    (hus : ∀ r, .unclosed r ∉ us) {a b : Nat}
    (hlag : replicate a dollar ++ s = replicate b dollar ++ t) :
    ts.map Token.plain = us.map Token.plain := by
  induction hs generalizing us t a b with
  | nil =>
    cases ht with
    | nil => rfl
    | _ => cases hletter
  | unclosed r => exact absurd (.head _) (hts r)
  | @byte c ts s _ ih =>
    have hts' : ∀ r, .unclosed r ∉ ts := fun r h => hts r (.tail _ h)
    cases ht with
    | nil => cases hletter
    | unclosed r => exact absurd (.head _) (hus r)
    | ref => cases (List.cons.inj hletter).1
    | @byte d us t ht =>
      obtain ⟨hhead, htail⟩ := List.cons.inj hletter
      obtain rfl := Option.some.inj hhead
      refine congrArg (Token.byte c :: ·) ?_
      have hus' : ∀ r, .unclosed r ∉ us := fun r h => hus r (.tail _ h)
      by_cases hc : c = dollar
      · rw [hc, dollars_cons, dollars_cons] at hlag
        exact ih ht htail hts' hus' hlag
      · have hrest := (List.cons.inj (dollars_inj hc hc hlag)).2
        exact ih ht htail hts' hus' (a := 0) (b := 0) hrest
    | escaped ht =>
      obtain ⟨hhead, htail⟩ := List.cons.inj hletter
      obtain rfl := Option.some.inj hhead
      rw [dollars_cons, dollars_cons, dollars_cons] at hlag
      exact congrArg (Token.byte dollar :: ·) (ih ht htail hts' (fun r h => hus r (.tail _ h)) hlag)
  | @escaped ts s _ ih =>
    have hts' : ∀ r, .unclosed r ∉ ts := fun r h => hts r (.tail _ h)
    cases ht with
    | nil => cases hletter
    | unclosed r => exact absurd (.head _) (hus r)
    | ref => cases (List.cons.inj hletter).1
    | byte d ht =>
      obtain ⟨hhead, htail⟩ := List.cons.inj hletter
      obtain rfl := Option.some.inj hhead
      rw [dollars_cons, dollars_cons, dollars_cons] at hlag
      exact congrArg (Token.byte dollar :: ·) (ih ht htail hts' (fun r h => hus r (.tail _ h)) hlag)
    | escaped ht =>
      rw [dollars_cons, dollars_cons, dollars_cons, dollars_cons] at hlag
      exact congrArg (Token.byte dollar :: ·)
        (ih ht (List.cons.inj hletter).2 hts' (fun r h => hus r (.tail _ h)) hlag)
  | @ref r ts s hr _ ih =>
  cases ht with
  | nil => cases hletter
  | unclosed r => exact absurd (.head _) (hus r)
  | byte | escaped => cases (List.cons.inj hletter).1
  | @ref r' us t hr' ht =>
  -- both are at the brace of the same reference
  rw [dollars_cons, dollars_cons] at hlag
  have hrest := (List.cons.inj (dollars_inj (by decide) (by decide) hlag)).2
  have hcut := congrArg (cut rbrace) hrest
  rw [cut_append hr, cut_append hr'] at hcut
  obtain ⟨rfl, rfl⟩ := Prod.mk.inj (Option.some.inj hcut)
  exact congrArg (Token.ref r :: ·) (ih ht (List.cons.inj hletter).2 (fun r h => hts r (.tail _ h))
    (fun r h => hus r (.tail _ h)) (a := 0) (b := 0) rfl)

/-- The tokens can be told apart by no environment: they are the same up to the doubling of dollar
signs, or neither row has a value. -/
def SameTokens (ts us : List Token) : Prop :=
  ts.map Token.plain = us.map Token.plain ∨
    (∃ t ∈ ts, t.Hopeless) ∧ ∃ u ∈ us, u.Hopeless

instance (ts us : List Token) : Decidable (SameTokens ts us) :=
  inferInstanceAs (Decidable (_ ∨ _ ∧ _))

/-- **Two readings of a text have the same value in every environment exactly if they have the same
tokens.** -/
theorem forall_valueOf_eq_iff {s : Bytes} (hts : Reading ts s) (hus : Reading us s) :
    (∀ e, valueOf e ts = valueOf e us) ↔ SameTokens ts us := by
  constructor
  · intro h
    have hnone : ∀ {l : List Token}, (∃ t ∈ l, t.Hopeless) → ∀ e, valueOf e l = none := by
      rintro l ⟨t, ht, hbad⟩ e
      exact (valueOf_eq_none_iff e l).2 ⟨t, ht, hbad.value⟩
    have hsome : ∀ {l : List Token}, (¬ ∃ t ∈ l, t.Hopeless) → ∀ x, trimSpace [x] = [x] →
        valueOf (answering x) l = some (l.map fun t => t.letter.getD x) := by
      intro l hl x hx
      exact valueOf_answering hx fun t ht hbad => hl ⟨t, ht, hbad⟩
    have hx : trimSpace [120] = [120] := by decide +kernel
    have hy : trimSpace [121] = [121] := by decide +kernel
    by_cases ht : ∃ t ∈ ts, t.Hopeless
    · by_cases hu : ∃ u ∈ us, u.Hopeless
      · exact .inr ⟨ht, hu⟩
      · cases (hnone ht _).symm.trans ((h (answering 120)).trans (hsome hu 120 hx))
    by_cases hu : ∃ u ∈ us, u.Hopeless
    · cases (hsome ht 120 hx).symm.trans ((h (answering 120)).trans (hnone hu _))
    refine .inl (hts.plain_eq hus (letters_eq ?_ ?_) (fun r hr => ht ⟨_, hr, trivial⟩)
      (fun r hr => hu ⟨_, hr, trivial⟩) (a := 0) (b := 0) rfl)
    · exact Option.some.inj ((hsome ht 120 hx).symm.trans ((h _).trans (hsome hu 120 hx)))
    · exact Option.some.inj ((hsome ht 121 hy).symm.trans ((h _).trans (hsome hu 121 hy)))
  rintro (hplain | ⟨⟨t, ht, hbad⟩, u, hu, hbad'⟩) e
  · rw [← valueOf_plain ts, hplain, valueOf_plain]
  · rw [(valueOf_eq_none_iff e ts).2 ⟨t, ht, hbad.value⟩,
      (valueOf_eq_none_iff e us).2 ⟨u, hu, hbad'.value⟩]

end SmtpProxy.Config
