import SmtpProxy.Lib.HeaderBlock

/-!
# Go's reading of a header block

`textproto.Reader.ReadMIMEHeader` of Go 1.26 and the map it returns, with the texts of
its errors. It reads a block as `fields` does, but strips one line terminator per line
instead of all carriage returns and line feeds, and refuses what it considers malformed:
a block that starts with white space, a line without a colon, a name with anything but
token bytes and spaces in it, a value with control characters.

`readMIMEHeader_ok` says that on what it accepts the two readings agree field
by field. The map is the list of its entries in the order they were read;
`%q` is a parameter.
-/

namespace SmtpProxy.Lib.Textproto

open List

/-! ## Names -/

/-- `validHeaderFieldByte`: the token bytes of RFC 7230. -/
def isToken (b : UInt8) : Bool :=
  (48 ≤ b && b ≤ 57) || (65 ≤ b && b ≤ 90) || (97 ≤ b && b ≤ 122) ||
    (ascii "!#$%&'*+-.^_`|~").contains b

def asciiUpper (b : UInt8) : UInt8 := if 97 ≤ b ∧ b ≤ 122 then b - 32 else b

/-- Upper case at the beginning and after every dash, lower case elsewhere. -/
def canonicalise : Bool → Bytes → Bytes
  | _, [] => []
  | upper, c :: cs =>
    let c' := if upper then asciiUpper c else asciiLower c
    c' :: canonicalise (c' = 45) cs

def canonicalMIMEHeaderKey (key : Bytes) : Bytes :=
  if key.all isToken then canonicalise true key else key

/-- A name `ReadMIMEHeader` accepts. -/
def validKey (key : Bytes) : Bool := key ≠ [] && key.all fun b => isToken b || b = 32

theorem asciiLower_canonical (upper : Bool) (b : UInt8) :
    asciiLower (if upper then asciiUpper b else asciiLower b) = asciiLower b := by
  revert b
  refine forall_byte ?_
  cases upper <;> decide +kernel

theorem canonicalise_lower (upper : Bool) (key : Bytes) :
    (canonicalise upper key).map asciiLower = key.map asciiLower := by
  induction key generalizing upper with
  | nil => rfl
  | cons c cs ih =>
    rw [canonicalise, map_cons, map_cons, ih, asciiLower_canonical]

theorem canonical_lower (key : Bytes) :
    (canonicalMIMEHeaderKey key).map asciiLower = key.map asciiLower := by
  unfold canonicalMIMEHeaderKey
  split
  · exact canonicalise_lower true key
  · rfl

/-- A proper field name. -/
structure ValidName (key : Bytes) : Prop where
  nonempty : key ≠ []
  tokens : ∀ b ∈ key, isToken b = true

theorem isToken_canonical (upper : Bool) (b : UInt8) (h : isToken b = true) :
    isToken (if upper then asciiUpper b else asciiLower b) = true := by
  revert b
  refine forall_byte ?_
  cases upper <;> decide +kernel

theorem canonicalise_tokens {key : Bytes} (h : ∀ b ∈ key, isToken b = true) (upper : Bool) :
    ∀ b ∈ canonicalise upper key, isToken b = true := by
  induction key generalizing upper with
  | nil => simp [canonicalise]
  | cons c cs ih =>
  intro b hb
  rw [canonicalise] at hb
  rcases mem_cons.1 hb with rfl | hb
  · exact isToken_canonical upper c (h c (.head _))
  · exact ih (fun b hb => h b (.tail _ hb)) _ b hb

theorem ValidName.canonical {key : Bytes} (h : ValidName key) :
    ValidName (canonicalMIMEHeaderKey key) := by
  rw [canonicalMIMEHeaderKey, if_pos (all_eq_true.2 h.tokens)]
  refine ⟨?_, canonicalise_tokens h.tokens true⟩
  cases key with
  | nil => exact absurd rfl h.nonempty
  | cons c cs => exact cons_ne_nil _ _

theorem isToken_lower (b : UInt8) : isToken (asciiLower b) = isToken b := by
  revert b
  exact forall_byte (by decide +kernel)

theorem asciiUpper_lower (b : UInt8) : asciiUpper (asciiLower b) = asciiUpper b := by
  revert b
  exact forall_byte (by decide +kernel)

theorem canonicalise_congr {a b : Bytes} (h : a.map asciiLower = b.map asciiLower) (upper : Bool) :
    canonicalise upper a = canonicalise upper b := by
  induction a generalizing b upper with
  | nil =>
    cases b with
    | nil => rfl
    | cons d b => cases h
  | cons c a ih =>
  cases b with
  | nil => cases h
  | cons d b =>
  obtain ⟨hhead, htail⟩ := List.cons.inj h
  have hupper : asciiUpper c = asciiUpper d := by
    rw [← asciiUpper_lower c, hhead, asciiUpper_lower]
  have hc : (if upper then asciiUpper c else asciiLower c)
      = if upper then asciiUpper d else asciiLower d := by
    rw [hupper, hhead]
  rw [canonicalise, canonicalise, hc, ih htail]

theorem canonical_of_lower {key name : Bytes} (hn : ValidName name)
    (h : key.map asciiLower = name.map asciiLower) :
    ValidName key ∧ canonicalMIMEHeaderKey key = canonicalMIMEHeaderKey name := by
  have hkey : ValidName key := by
    refine ⟨?_, fun b hb => ?_⟩
    · rintro rfl
      exact hn.nonempty (map_eq_nil_iff.1 h.symm)
    have hmem : asciiLower b ∈ name.map asciiLower := h ▸ mem_map_of_mem hb
    obtain ⟨c, hc, hcb⟩ := mem_map.1 hmem
    rw [← isToken_lower, ← hcb, isToken_lower]
    exact hn.tokens c hc
  refine ⟨hkey, ?_⟩
  rw [canonicalMIMEHeaderKey, canonicalMIMEHeaderKey, if_pos (all_eq_true.2 hkey.tokens),
    if_pos (all_eq_true.2 hn.tokens), canonicalise_congr h]

/-! ## Lines and fields -/

/-- Remove the line terminator, LF or CRLF. -/
def chopEOL (l : Bytes) : Bytes :=
  if l.getLast? = some lf then
    if l.dropLast.getLast? = some cr then l.dropLast.dropLast else l.dropLast
  else l

def isBlank (b : UInt8) : Bool := b = 32 || b = 9

/-- `trim`: blanks removed at both ends. -/
def trimBlank (l : Bytes) : Bytes := (l.dropWhile isBlank).rdropWhile isBlank

/-- `readContinuedLineSlice`: the lines of a field joined by single spaces. -/
def joined (f : Field) : Bytes := trimBlank f.line ++ f.more.flatMap fun l => 32 :: trimBlank l

def key (f : Field) : Bytes := (joined f).takeWhile (· ≠ 58)

def afterColon (f : Field) : Bytes := ((joined f).dropWhile (· ≠ 58)).drop 1

def value (f : Field) : Bytes := (afterColon f).dropWhile isBlank

def validValueByte (b : UInt8) : Bool := 128 ≤ b || (32 ≤ b && b ≤ 126) || b = 9

/-- `textproto.MIMEHeader`: names and values in the order they were read. -/
abbrev MIMEHeader := List (Bytes × Bytes)

/-- `MIMEHeader.Get`: the first value under the canonical name, or nothing. -/
def get (h : MIMEHeader) (key : Bytes) : Bytes :=
  ((h.find? fun e => e.1 = canonicalMIMEHeaderKey key).map Prod.snd).getD []

def readField (quote : Bytes → Bytes) (f : Field) : Except Bytes (Bytes × Bytes) :=
  if !f.line.contains 58 then
    .error (ascii "malformed MIME header: missing colon: " ++ quote f.line)
  else if !validKey (key f) then
    .error (ascii "malformed MIME header line: " ++ joined f)
  else if !(afterColon f).all validValueByte then
    .error (ascii "malformed MIME header line: " ++ joined f)
  else .ok (canonicalMIMEHeaderKey (key f), value f)

def readLines (block : Bytes) : List Bytes :=
  ((splitLines block).map chopEOL).takeWhile (· ≠ [])

/-- `ReadMIMEHeader`. At most 80 bytes of a bad first line are quoted. -/
def readMIMEHeader (quote : Bytes → Bytes) (block : Bytes) : Except Bytes MIMEHeader :=
  match groupLines (readLines block) with
  | (l :: _, _) =>
    if 80 < l.length then .error (ascii "message too large")
    else .error (ascii "malformed MIME header initial line: " ++ l)
  | ([], fs) => fs.mapM (readField quote)

example : (readMIMEHeader id (ascii "From : a\r\nFROM: b\r\n c\r\n\r\n")).map (get · (ascii "from"))
    = .ok (ascii "b c") := by decide

/-! ## Agreement with the line by line reading -/

/-- What `ReadMIMEHeader` demands of a field. -/
structure Accepted (f : Field) : Prop where
  colon : 58 ∈ f.line
  name : validKey (key f) = true
  text : ∀ b ∈ afterColon f, validValueByte b = true

variable {quote : Bytes → Bytes}

theorem readField_ok {f : Field} {e : Bytes × Bytes} (h : readField quote f = .ok e) :
    e = (canonicalMIMEHeaderKey (key f), value f) ∧ Accepted f := by
  unfold readField at h
  split at h
  · cases h
  next hcolon =>
  split at h
  · cases h
  next hkey =>
  split at h
  · cases h
  next htext =>
  refine ⟨(Except.ok.inj h).symm, by simpa using hcolon, by simpa using hkey, ?_⟩
  simpa using htext

theorem mapM_ok {α β ε : Type} {f : α → Except ε β} {g : α → β} {q : α → Prop}
    (hg : ∀ x y, f x = .ok y → y = g x ∧ q x) :
    ∀ {l : List α} {r : List β}, l.mapM f = .ok r → r = l.map g ∧ ∀ x ∈ l, q x
  | [], r, h => by
    simp only [mapM_nil] at h
    exact ⟨(Except.ok.inj h).symm, by simp⟩
  | x :: l, r, h => by
    rw [mapM_cons] at h
    cases hx : f x with
    | error e => rw [hx] at h; simp [bind, Except.bind] at h
    | ok y =>
    cases hl : l.mapM f with
    | error e => rw [hx, hl] at h; simp [bind, Except.bind] at h
    | ok ys =>
    rw [hx, hl] at h
    obtain ⟨rfl, hq⟩ := mapM_ok hg hl
    obtain ⟨rfl, hqx⟩ := hg x y hx
    refine ⟨(Except.ok.inj h).symm, fun x' hx' => ?_⟩
    rcases mem_cons.1 hx' with rfl | hx'
    · exact hqx
    · exact hq x' hx'

variable {l : Bytes}

theorem mem_dropWhile {p : UInt8 → Bool} {b : UInt8} (hb : b ∈ l) (hp : p b = false) :
    b ∈ l.dropWhile p := by
  rw [← takeWhile_append_dropWhile (p := p) (l := l), mem_append] at hb
  rcases hb with hb | hb
  · exact absurd (mem_takeWhile_imp hb) (by simp [hp])
  · exact hb

theorem mem_trimBlank {b : UInt8} (hb : b ∈ l) (hp : isBlank b = false) : b ∈ trimBlank l := by
  unfold trimBlank List.rdropWhile
  rw [mem_reverse]
  exact mem_dropWhile (mem_reverse.2 (mem_dropWhile hb hp)) hp

theorem Accepted.no_cr {f : Field} (h : Accepted f) : ∀ l ∈ f.lines, cr ∉ l := by
  have hjoined : cr ∉ joined f := by
    intro hmem
    rw [← takeWhile_append_dropWhile (p := fun b => decide (b ≠ 58)) (l := joined f),
      mem_append] at hmem
    rcases hmem with hkey | hrest
    · have hname := h.name
      simp only [validKey, Bool.and_eq_true, all_eq_true] at hname
      exact absurd (hname.2 cr hkey) (by decide)
    cases hd : (joined f).dropWhile (fun b => decide (b ≠ 58)) with
    | nil => rw [hd] at hrest; cases hrest
    | cons c rest =>
    have hc : c = 58 := by
      have hne : (joined f).dropWhile (fun b => decide (b ≠ 58)) ≠ [] := by rw [hd]; exact cons_ne_nil _ _
      have hhead := head_dropWhile_not _ hne
      simp only [hd, head_cons] at hhead
      simpa using hhead
    rw [hd, mem_cons] at hrest
    rcases hrest with hrest | hrest
    · exact absurd (hrest.trans hc) (by decide)
    refine absurd (h.text cr ?_) (by decide)
    rw [afterColon, hd]
    exact hrest
  intro l hl hcr
  refine hjoined ?_
  rcases mem_cons.1 hl with rfl | hl
  · exact mem_append_left _ (mem_trimBlank hcr (by decide))
  refine mem_append_right _ (mem_flatMap.2 ⟨l, hl, ?_⟩)
  exact .tail _ (mem_trimBlank hcr (by decide))

theorem rdropWhile_stop {p : UInt8 → Bool} {x : UInt8} (hx : p x = false) (l r : Bytes) :
    (l ++ x :: r).rdropWhile p = l ++ x :: r.rdropWhile p := by
  unfold List.rdropWhile
  rw [reverse_append, reverse_cons, append_assoc, dropWhile_append]
  split
  · next hnil =>
    rw [List.isEmpty_iff] at hnil
    simp [hx, hnil]
  · simp

theorem dropWhile_begins (h : isContinuation l = false) : l.dropWhile isBlank = l := by
  cases l with
  | nil => rfl
  | cons c l => exact dropWhile_cons_of_neg (by rw [show isBlank c = false from h]; simp)

theorem key_eq {f : Field} (hf : f.WellFormed) (hcolon : 58 ∈ f.line) :
    key f = f.line.takeWhile (· ≠ 58) := by
  have hname : ∀ b ∈ f.line.takeWhile (· ≠ 58), decide (b ≠ 58) = true := by
    intro b hb
    have := mem_takeWhile_imp hb
    exact this
  obtain ⟨rest, hrest⟩ : ∃ rest, f.line = f.line.takeWhile (· ≠ 58) ++ 58 :: rest := by
    obtain ⟨front, rest, hline, hno⟩ := eq_append_cons_of_mem hcolon
    refine ⟨rest, ?_⟩
    have hfront : ∀ b ∈ front, decide (b ≠ 58) = true := by
      intro b hb
      simpa using fun h : b = 58 => hno (h ▸ hb)
    conv_rhs => rw [hline, takeWhile_append_of_pos hfront, takeWhile_cons_of_neg (by simp),
      append_nil]
    exact hline
  have htrim : trimBlank f.line = f.line.takeWhile (· ≠ 58) ++ 58 :: rest.rdropWhile isBlank := by
    rw [trimBlank, dropWhile_begins hf.begins]
    conv_lhs => rw [hrest]
    exact rdropWhile_stop (by decide) _ _
  rw [key, joined, htrim, append_assoc, takeWhile_append_of_pos hname, cons_append,
    takeWhile_cons_of_neg (by simp), append_nil]

/-- Without carriage returns inside, removing one terminator removes them all. -/
theorem trimEOL_of_chopEOL {raw : Bytes} (hl : l ∈ splitLines raw) (hcr : cr ∉ chopEOL l) :
    trimEOL l = chopEOL l := by
  have hkeep : ∀ {m : Bytes}, lf ∉ m → cr ∉ m → trimEOL m = m := by
    intro m hlf hcr
    refine rdropWhile_eq_self_iff.2 fun hne hlast => ?_
    simp only [Bool.or_eq_true, decide_eq_true_eq] at hlast
    rcases hlast with h | h
    · exact hcr (h ▸ getLast_mem hne)
    · exact hlf (h ▸ getLast_mem hne)
  obtain ⟨front, hno, rfl | rfl⟩ := splitLines_lf hl
  · have hlast : l.getLast? ≠ some lf := fun h => hno (mem_of_getLast? h)
    rw [chopEOL, if_neg hlast] at hcr ⊢
    exact hkeep hno hcr
  rw [chopEOL, if_pos (by simp), dropLast_concat] at hcr ⊢
  rw [trimEOL, rdropWhile_concat_pos _ _ _ (by simp)]
  split at hcr
  · next hlast =>
    rw [if_pos hlast]
    obtain ⟨m, rfl⟩ : ∃ m, front = m ++ [cr] :=
      ⟨front.dropLast, (dropLast_append_getLast? _ (Option.mem_def.2 hlast)).symm⟩
    rw [dropLast_concat] at hcr ⊢
    rw [rdropWhile_concat_pos _ _ _ (by simp)]
    exact hkeep (fun h => hno (mem_append_left _ h)) hcr
  next hlast =>
  rw [if_neg hlast]
  exact hkeep hno hcr

variable {block : Bytes}

theorem headerLines_of_readLines (h : ∀ l ∈ readLines block, cr ∉ l) :
    headerLines block = readLines block := by
  have hwalk : ∀ ls : List Bytes, (∀ l ∈ ls, l ∈ splitLines block) →
      (∀ l ∈ (ls.map chopEOL).takeWhile (· ≠ []), cr ∉ l) →
      (ls.map trimEOL).takeWhile (· ≠ []) = (ls.map chopEOL).takeWhile (· ≠ []) := by
    intro ls
    induction ls with
    | nil => intro _ _; rfl
    | cons l ls ih =>
    intro hmem hno
    have hl : cr ∉ chopEOL l := by
      by_cases hnil : chopEOL l = []
      · simp [hnil]
      refine hno _ ?_
      rw [map_cons, takeWhile_cons_of_pos (by simpa using hnil)]
      exact .head _
    rw [map_cons, map_cons, trimEOL_of_chopEOL (hmem l (.head _)) hl]
    by_cases hnil : chopEOL l = []
    · rw [takeWhile_cons_of_neg (by simpa using hnil), takeWhile_cons_of_neg (by simpa using hnil)]
    rw [map_cons, takeWhile_cons_of_pos (by simpa using hnil)] at hno
    rw [takeWhile_cons_of_pos (by simpa using hnil), takeWhile_cons_of_pos (by simpa using hnil),
      ih (fun l' hl' => hmem l' (.tail _ hl')) fun l' hl' => hno l' (.tail _ hl')]
  exact hwalk (splitLines block) (fun _ hl => hl) h

variable {h : MIMEHeader} (hok : readMIMEHeader quote block = .ok h)
include hok

theorem readMIMEHeader_lines :
    (groupLines (readLines block)).1 = [] ∧
    h = (groupLines (readLines block)).2.map (fun f => (canonicalMIMEHeaderKey (key f), value f)) ∧
    ∀ f ∈ (groupLines (readLines block)).2, Accepted f := by
  unfold readMIMEHeader at hok
  cases hg : groupLines (readLines block) with
  | mk lead fs =>
  cases lead with
  | cons l _ =>
    simp only [hg] at hok
    split at hok <;> cases hok
  | nil =>
  simp only [hg] at hok
  obtain ⟨rfl, hacc⟩ := mapM_ok (fun _ _ => readField_ok) hok
  exact ⟨rfl, rfl, hacc⟩

/-- An accepted block has no carriage return inside a line. -/
theorem readLines_no_cr :
    ∀ l ∈ readLines block, cr ∉ l := by
  obtain ⟨hlead, -, hacc⟩ := readMIMEHeader_lines hok
  have hlines := groupLines_lines (readLines block)
  rw [hlead, nil_append] at hlines
  intro l hl
  rw [← hlines] at hl
  obtain ⟨f, hf, hlf⟩ := mem_flatMap.1 hl
  exact (hacc f hf).no_cr l hlf

/-- **What Go accepts it reads as the line by line reading does**: no line stands
before the first field, and the entries are the fields, in order. -/
theorem readMIMEHeader_ok :
    (groupLines (headerLines block)).1 = [] ∧
    h = (fields block).map (fun f => (canonicalMIMEHeaderKey (key f), value f)) ∧
    ∀ f ∈ fields block, Accepted f := by
  unfold fields
  rw [headerLines_of_readLines (readLines_no_cr hok)]
  exact readMIMEHeader_lines hok

theorem get_no_nul (name : Bytes) : 0 ∉ get h name := by
  obtain ⟨-, rfl, hacc⟩ := readMIMEHeader_ok hok
  intro h0
  unfold get at h0
  cases hfind : ((fields block).map fun f => (canonicalMIMEHeaderKey (key f), value f)).find?
      fun e => e.1 = canonicalMIMEHeaderKey name with
  | none =>
    rw [hfind] at h0
    cases h0
  | some e =>
  obtain ⟨f, hf, rfl⟩ := mem_map.1 (mem_of_find?_eq_some hfind)
  rw [hfind] at h0
  have hvalue : 0 ∈ value f := h0
  have hafter : 0 ∈ afterColon f := (dropWhile_suffix _).subset hvalue
  exact absurd ((hacc f hf).text 0 hafter) (by decide)

end SmtpProxy.Lib.Textproto
