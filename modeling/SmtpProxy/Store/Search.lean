import Mathlib.Data.List.Infix
import Mathlib.Data.List.Sublists
import SmtpProxy.Lib.Utf8
import SmtpProxy.Store.Query

/-!
# Searching the queue

`MessageFilter.Search`. The pattern is the text between two `%`, unescaped; the
recipients are one column, the JSON text `marshalList` makes of the list; and the
engines differ in what `LIKE` takes for the same letter and in whether a
backslash escapes.

Over UTF-8 texts, which are what the engines store and take, comparing characters
is comparing bytes; only `_`, one character, is not one byte. The engines are not part of
the repository: what they make of a pattern is written from their documentation, for a
database in UTF-8 and columns compared byte by byte.
-/

namespace SmtpProxy.Store

open Lib List

/-! ## `LIKE` -/

inductive Piece where
  | lit (b : UInt8)
  | one
  | many

/-- A pattern of `LIKE`; `escaped` after the backslash PostgreSQL escapes with. -/
def Dialect.pieces (d : Dialect) (escaped : Bool) : Bytes → List Piece
  | [] => []
  | c :: p =>
    if escaped then .lit c :: pieces d false p
    else if c = 37 then .many :: pieces d false p
    else if c = 95 then .one :: pieces d false p
    else
      match d with
      | .sqlite => .lit c :: pieces d false p
      | .postgres => if c = 92 then pieces d true p else .lit c :: pieces d false p

/-- Letters that are the same: SQLite takes no notice of the case of ASCII letters. -/
def Dialect.fold : Dialect → UInt8 → UInt8
  | .sqlite => asciiLower
  | .postgres => id

def matchPieces (fold : UInt8 → UInt8) : List Piece → Bytes → Bool
  | [], t => t.isEmpty
  | .lit b :: p, t => t.head?.any (fun c => fold c = fold b) && matchPieces fold p t.tail
  | .one :: p, t => !t.isEmpty && matchPieces fold p (t.tail.dropWhile fun b => !Utf8.runeStart b)
  | .many :: p, t => t.tails.any (matchPieces fold p)

def Dialect.like (d : Dialect) (column pattern : Bytes) : Bool :=
  matchPieces d.fold (d.pieces false pattern) column

/-! ## The column of recipients -/

def hexDigit (n : UInt8) : UInt8 := if n < 10 then 48 + n else 87 + n

/-- How `encoding/json` writes a character, its bytes given. -/
def jsonRune (r : Bytes) : Bytes :=
  match r with
  | [34] => ascii "\\\""
  | [92] => ascii "\\\\"
  | [8] => ascii "\\b"
  | [9] => ascii "\\t"
  | [10] => ascii "\\n"
  | [12] => ascii "\\f"
  | [13] => ascii "\\r"
  | [c] =>
    if c < 32 || c = 38 || c = 60 || c = 62 then
      ascii "\\u00" ++ [hexDigit (c / 16), hexDigit (c % 16)]
    else [c]
  | [0xe2, 0x80, 0xa8] => ascii "\\u2028"
  | [0xe2, 0x80, 0xa9] => ascii "\\u2029"
  | r => r

/-- The character a text begins with. -/
def firstRune : Bytes → Option Bytes
  | [] => none
  | b :: s => (Utf8.following b).bind fun owed =>
    if owed.length ≤ s.length && (owed.zip s).all (fun p => p.1.has p.2) then
      some (b :: s.take owed.length) else none

/-- A text in a JSON string, its first `skip` bytes written already. -/
def jsonText (skip : Nat) : Bytes → Bytes
  | [] => []
  | b :: s =>
    match skip with
    | skip + 1 => jsonText skip s
    | 0 =>
      match firstRune (b :: s) with
      | some r => jsonRune r ++ jsonText (r.length - 1) s
      | none => ascii "\\ufffd" ++ jsonText 0 s

def marshalList (v : List Bytes) : Bytes :=
  ascii "[" ++ joinWith (ascii ",") (v.map fun t => [34] ++ jsonText 0 t ++ [34]) ++ ascii "]"

def Dialect.sqlText (d : Dialect) : SQLText := ⟨d.like, marshalList⟩

/-! ## What a pattern reads -/

/-- The text is one the pieces of a pattern stand for, put together piece by piece. -/
inductive Stands (fold : UInt8 → UInt8) : List Piece → Bytes → Prop where
  | nil : Stands fold [] []
  | lit {b c : UInt8} {p : List Piece} {t : Bytes} (h : fold c = fold b) (rest : Stands fold p t) :
      Stands fold (.lit b :: p) (c :: t)
  /-- One character: a byte, and the bytes that go on with it. -/
  | one {c : UInt8} {r t : Bytes} {p : List Piece} (hr : ∀ b ∈ r, Utf8.runeStart b = false)
      (ht : t.head?.all Utf8.runeStart) (rest : Stands fold p t) :
      Stands fold (.one :: p) (c :: (r ++ t))
  | many (s : Bytes) {p : List Piece} {t : Bytes} (rest : Stands fold p t) :
      Stands fold (.many :: p) (s ++ t)

/-- From some place on, the text is one `q` stands for, taken as a pattern. A backslash at the end
of `q` escapes the `%` behind it. -/
def Dialect.Reads (d : Dialect) (q t : Bytes) : Prop :=
  ∃ s u, t = s ++ u ∧ Stands d.fold (d.pieces false (q ++ ascii "%")) u

def Message.Reads (d : Dialect) (q : Bytes) (m : Message) : Prop :=
  ∃ t ∈ [m.envelopeFrom, m.headerFrom, marshalList m.recipients], d.Reads q t

theorem matchPieces_iff (fold : UInt8 → UInt8) (p : List Piece) (t : Bytes) :
    matchPieces fold p t = true ↔ Stands fold p t := by
  induction p generalizing t with
  | nil =>
    rw [matchPieces, List.isEmpty_iff]
    exact ⟨fun h => h ▸ .nil, fun h => by cases h; rfl⟩
  | cons piece p ih =>
  cases piece with
  | lit b =>
    cases t with
    | nil => exact iff_of_false (by simp [matchPieces]) (fun h => by cases h)
    | cons c t =>
    rw [matchPieces, Bool.and_eq_true, tail_cons, ih]
    constructor
    · rintro ⟨hc, hrest⟩
      exact .lit (by simpa using hc) hrest
    · rintro (_ | ⟨hc, hrest⟩)
      exact ⟨by simpa using hc, hrest⟩
  | one =>
    cases t with
    | nil => exact iff_of_false (by simp [matchPieces]) (fun h => by cases h)
    | cons c t =>
    simp only [matchPieces, isEmpty_cons, Bool.not_false, Bool.true_and, tail_cons, ih]
    constructor
    · intro hrest
      have hone := Stands.one (c := c) (r := t.takeWhile fun b => !Utf8.runeStart b)
        (fun b hb => by simpa using mem_takeWhile_imp hb) ?_ hrest
      · rwa [takeWhile_append_dropWhile] at hone
      · cases hdrop : t.dropWhile fun b => !Utf8.runeStart b with
        | nil => rfl
        | cons b u =>
          have hstops := head_dropWhile_not (fun b => !Utf8.runeStart b) (by rw [hdrop]; simp)
          simpa [hdrop] using hstops
    · intro h
      cases h with
      | @one _ r u _ hr hu hrest =>
      rw [dropWhile_append_of_pos (by simpa using hr)]
      cases u with
      | nil => exact hrest
      | cons b u =>
        rwa [dropWhile_cons_of_neg (by simpa using hu)]
  | many =>
    simp only [matchPieces, any_eq_true, mem_tails, ih]
    constructor
    · rintro ⟨u, ⟨s, rfl⟩, hrest⟩
      exact .many s hrest
    · rintro (_ | _ | _ | ⟨s, hrest⟩)
      exact ⟨_, suffix_append s _, hrest⟩

theorem like_iff_reads {d : Dialect} {q t : Bytes} :
    d.like t (ascii "%" ++ q ++ ascii "%") = true ↔ d.Reads q t := by
  rw [append_assoc, Dialect.like, matchPieces_iff]
  show Stands d.fold (.many :: d.pieces false (q ++ ascii "%")) t ↔ _
  constructor
  · rintro (_ | _ | _ | ⟨s, hrest⟩)
    exact ⟨s, _, rfl, hrest⟩
  · rintro ⟨s, u, rfl, hrest⟩
    exact .many s hrest

/-! ## What is found -/

section

-- a notion of letter case: what a text is compared as
variable (fold : Bytes → Bytes)

/-- The text contains `q`, up to letter case. -/
def Contains (q t : Bytes) : Prop := fold q <:+: fold t

instance (q t : Bytes) : Decidable (Contains fold q t) := inferInstanceAs (Decidable (_ <:+: _))

/-- A sender of the message or one of its recipients contains `q`. -/
def Message.Has (q : Bytes) (m : Message) : Prop :=
  Contains fold q m.envelopeFrom ∨ Contains fold q m.headerFrom ∨
    ∃ r ∈ m.recipients, Contains fold q r

instance (q : Bytes) (m : Message) : Decidable (m.Has fold q) :=
  inferInstanceAs (Decidable (_ ∨ _ ∨ _))

/-- What an engine takes: a text, and in SQLite a pattern of at most 50000 bytes, once there is a
row to compare with it. -/
def Takes (db : DB) (q : Bytes) : Dialect → Prop
  | .postgres => Utf8.IsText q
  | .sqlite => db.messages.rows = [] ∨ (ascii "%" ++ q ++ ascii "%").length ≤ 50000

/-- On both engines a search for `q` succeeds and selects the messages that contain `q`. -/
structure FindsExactly (db : DB) (q : Bytes) : Prop where
  takes : ∀ d, Takes db q d
  selects : ∀ d : Dialect, ∀ m ∈ db.messages.rows,
    MessageFilter.selects { search := q } d.sqlText m = true ↔ m.Has fold q

end

/-- Texts that stand for themselves in a pattern and in a JSON string, and that an engine takes
for a pattern: SQLite's may have 50000 bytes. -/
structure Plain (q : Bytes) : Prop where
  nonempty : q ≠ []
  bytes : ∀ b ∈ q, b ≠ 37 ∧ b ≠ 95 ∧ b ≠ 92 ∧ b ≠ 34
  notJSON : q ∉ [ascii "[", ascii "]", ascii ",", ascii "[]"]
  isText : Utf8.IsText q
  short : q.length ≤ 49998

/-! ## A pattern without special characters -/

variable {d : Dialect} {q : Bytes}

theorem pieces_append (h : ∀ b ∈ q, b ≠ 37 ∧ b ≠ 95 ∧ b ≠ 92 ∧ b ≠ 34) (p : Bytes) :
    d.pieces false (q ++ p) = q.map .lit ++ d.pieces false p := by
  induction q with
  | nil => rfl
  | cons c q ih =>
    obtain ⟨⟨hmany, hone, hescape, -⟩, hq⟩ := forall_mem_cons.1 h
    cases d <;> simp [Dialect.pieces, hmany, hone, hescape, ← ih hq]

theorem matchPieces_lits (fold : UInt8 → UInt8) (q t : Bytes) :
    matchPieces fold (q.map .lit ++ [.many]) t = true ↔ q.map fold <+: t.map fold := by
  induction q generalizing t with
  | nil => simp [matchPieces]
  | cons b q ih =>
  cases t with
  | nil => simp [matchPieces]
  | cons c t =>
  rw [map_cons, cons_append, matchPieces, Bool.and_eq_true, tail_cons, ih,
    map_cons, map_cons, cons_prefix_cons]
  simp [eq_comm]

theorem reads_iff_contains (h : ∀ b ∈ q, b ≠ 37 ∧ b ≠ 95 ∧ b ≠ 92 ∧ b ≠ 34) (t : Bytes) :
    d.Reads q t ↔ Contains (map d.fold) q t := by
  have hpattern : d.pieces false (q ++ ascii "%") = q.map .lit ++ [.many] := pieces_append h _
  simp only [Dialect.Reads, hpattern, ← matchPieces_iff, matchPieces_lits]
  rw [Contains, infix_iff_prefix_suffix]
  constructor
  · rintro ⟨s, u, rfl, hstarts⟩
    exact ⟨u.map d.fold, hstarts, (suffix_append s u).map _⟩
  rintro ⟨u, hstarts, a, ha⟩
  obtain ⟨a', u', rfl, -, rfl⟩ := map_eq_append_iff.1 ha.symm
  exact ⟨a', u', rfl, hstarts⟩

/-! ## A text between quotes -/

variable {p : Bytes}

/-- A text without a byte lies before or after it. -/
theorem infix_append_cons {c : UInt8} (hc : c ∉ p) (a b : Bytes) :
    p <:+: a ++ c :: b ↔ p <:+: a ∨ p <:+: b := by
  constructor
  · rintro ⟨u, v, huv⟩
    obtain ⟨w, rfl, -⟩ | ⟨w, hu, hw⟩ := append_eq_append_iff.1 huv
    · exact .inl ⟨u, w, rfl⟩
    cases w with
    | nil => exact .inl ⟨u, [], by rw [hu]; simp⟩
    | cons e w =>
    obtain ⟨rfl, rfl⟩ := List.cons.inj hw
    obtain ⟨x, -, rfl⟩ | ⟨x, -, hx⟩ := append_eq_append_iff.1 hu
    · exact absurd (by simp) hc
    cases x with
    | nil =>
      rw [nil_append] at hx
      exact absurd (hx ▸ mem_cons_self) hc
    | cons e x =>
      obtain ⟨-, rfl⟩ := List.cons.inj hx
      exact .inr ⟨x, v, rfl⟩
  rintro (h | h)
  · exact h.trans ⟨[], c :: b, rfl⟩
  · exact h.trans ⟨a ++ [c], [], by simp⟩

/-- A text that is no part of the punctuation is in one of the strings. -/
theorem infix_list (hquote : 34 ∉ p)
    (hpunct : ∀ l ∈ [ascii "[", ascii "]", ascii ",", ascii "[]"], ¬ p <:+: l) (rs : List Bytes) :
    p <:+: ascii "[" ++ joinWith (ascii ",") (rs.map fun t => [34] ++ t ++ [34]) ++ ascii "]" ↔
      ∃ r ∈ rs, p <:+: r := by
  have htail : ∀ rs : List Bytes,
      p <:+: (rs.flatMap fun t => ascii "," ++ ([34] ++ t ++ [34])) ++ ascii "]" ↔
        ∃ r ∈ rs, p <:+: r := by
    intro rs
    induction rs with
    | nil => simpa using hpunct (ascii "]") (by decide)
    | cons r rs ih =>
    have hsplit : (List.flatMap (fun t => ascii "," ++ ([34] ++ t ++ [34])) (r :: rs)) ++ ascii "]" =
        ascii "," ++ 34 :: (r ++ 34 ::
          ((rs.flatMap fun t => ascii "," ++ ([34] ++ t ++ [34])) ++ ascii "]")) := by simp
    rw [hsplit, infix_append_cons hquote _ _, infix_append_cons hquote _ _, ih]
    simp [hpunct (ascii ",") (by decide)]
  cases rs with
  | nil => exact iff_of_false (hpunct (ascii "[]") (by decide)) (by simp)
  | cons r rs =>
  have hsplit : ascii "[" ++ joinWith (ascii ",") ((r :: rs).map fun t => [34] ++ t ++ [34]) ++
      ascii "]" = ascii "[" ++ 34 :: (r ++ 34 ::
        ((rs.flatMap fun t => ascii "," ++ ([34] ++ t ++ [34])) ++ ascii "]")) := by
    rw [map_cons, joinWith_cons, flatMap_map]
    simp
  rw [hsplit, infix_append_cons hquote _ _, infix_append_cons hquote _ _, htail]
  simp [hpunct (ascii "[") (by decide)]

theorem fold_eq (d : Dialect) {b : UInt8} (hb : b ∈ [34, 44, 91, 93]) (c : UInt8) :
    d.fold c = b ↔ c = b := by
  revert c
  cases d with
  | sqlite => exact forall_byte (by revert b; decide +kernel)
  | postgres => exact fun c => Iff.rfl

theorem eq_of_map_fold {l : Bytes} (hl : ∀ b ∈ l, b ∈ [34, 44, 91, 93]) (h : q.map d.fold = l) :
    q = l := by
  subst h
  induction q with
  | nil => rfl
  | cons c q ih =>
    obtain ⟨hc, hq⟩ := forall_mem_cons.1 hl
    rw [map_cons, ← ih hq, ← (fold_eq d hc c).1 rfl]

theorem like_recipients (hq : Plain q) {rs : List Bytes} (hrs : ∀ r ∈ rs, jsonText 0 r = r) :
    Contains (map d.fold) q (marshalList rs) ↔ ∃ r ∈ rs, Contains (map d.fold) q r := by
  have hpunct : ∀ l ∈ [ascii "[", ascii "]", ascii ",", ascii "[]"], ¬ q.map d.fold <:+: l := by
    intro l hl hinfix
    have hparts : ∀ l ∈ [ascii "[", ascii "]", ascii ",", ascii "[]"], ∀ p ∈ l.sublists,
        p ≠ [] → p ∈ [ascii "[", ascii "]", ascii ",", ascii "[]"] := by decide
    have hmem := hparts l hl _ (mem_sublists.2 hinfix.sublist) (by simpa using hq.nonempty)
    have hbytes : ∀ p ∈ [ascii "[", ascii "]", ascii ",", ascii "[]"],
        ∀ b ∈ p, b ∈ ([34, 44, 91, 93] : Bytes) := by
      decide +kernel
    rw [← eq_of_map_fold (hbytes _ hmem) rfl] at hmem
    exact hq.notJSON hmem
  have hquote : 34 ∉ q.map d.fold := by
    intro h
    obtain ⟨c, hc, hfold⟩ := mem_map.1 h
    exact (hq.bytes c hc).2.2.2 ((fold_eq d (by decide) c).1 hfold)
  have hcolumn : (marshalList rs).map d.fold = ascii "[" ++ joinWith (ascii ",")
      ((rs.map (List.map d.fold)).map fun t => [34] ++ t ++ [34]) ++ ascii "]" := by
    have hplain : (rs.map fun t => [34] ++ jsonText 0 t ++ [34]) = rs.map fun t => [34] ++ t ++ [34] :=
      map_congr_left fun r hr => by rw [hrs r hr]
    rw [marshalList, hplain]
    cases rs with
    | nil => cases d <;> rfl
    | cons r rs =>
    simp only [map_cons, joinWith_cons, map_append, map_flatMap, map_map, flatMap_map]
    cases d <;> rfl
  rw [Contains, hcolumn, infix_list hquote hpunct]
  simp [Contains]

theorem has_fold {m : Message} (fold : UInt8 → UInt8) (h : m.Has id q) : m.Has (map fold) q := by
  have hfold : ∀ {t : Bytes}, Contains id q t → Contains (map fold) q t := fun h => h.map fold
  exact h.imp hfold (.imp hfold fun ⟨r, hr, hcontains⟩ => ⟨r, hr, hfold hcontains⟩)

theorem selects_iff (hq : q ≠ []) (m : Message) :
    MessageFilter.selects { search := q } d.sqlText m = true ↔ m.Reads d q := by
  simp only [Message.Reads, exists_mem_cons_iff, ← like_iff_reads]
  simp [MessageFilter.selects, Dialect.sqlText, hq, or_assoc]

/-- A plain text is found where it is contained, up to letter case on SQLite. -/
theorem reads_iff_has (hq : Plain q) {m : Message} (hplain : ∀ r ∈ m.recipients, jsonText 0 r = r) :
    m.Reads d q ↔ m.Has (map d.fold) q := by
  simp only [Message.Reads, exists_mem_cons_iff, reads_iff_contains hq.bytes,
    like_recipients hq hplain]
  simp [Message.Has]

/-- **When a search finds exactly the messages that contain the text**, on both engines and under
one notion of letter case: if and only if the engines take it, and it reads as a pattern in a column
of the messages that contain it and of no others. A plain text does, where recipients are written
without escapes and no message contains it in another case only. What is found is listed by the page,
the newest first, and counted. -/
theorem search_exact (db : DB) (hq : q ≠ []) :
    (∀ fold, FindsExactly fold db q ↔
      (Utf8.IsText q ∧ (db.messages.rows = [] ∨ q.length ≤ 49998)) ∧
        ∀ d : Dialect, ∀ m ∈ db.messages.rows, m.Reads d q ↔ m.Has fold q) ∧
    (Plain q → (∀ m ∈ db.messages.rows, ∀ r ∈ m.recipients, jsonText 0 r = r) →
      (∀ m ∈ db.messages.rows, m.Has (map asciiLower) q → m.Has id q) → FindsExactly id db q) ∧
    ∀ fold, FindsExactly fold db q → ∀ d : Dialect,
      listMessages db d.sqlText { search := q } =
        ((db.messages.rows.filter fun m => m.Has fold q).insertionSort fun a b =>
          b.receivedAt < a.receivedAt ∨ a.receivedAt = b.receivedAt ∧ b.id ≤ a.id).take 100 ∧
      countMessages db d.sqlText { search := q } =
        (db.messages.rows.filter fun m => m.Has fold q).length := by
  have hlength : (ascii "%" ++ q ++ ascii "%").length ≤ 50000 ↔ q.length ≤ 49998 := by
    have htwo : (ascii "%" ++ q ++ ascii "%").length = q.length + 2 := by simp [ascii]
    omega
  have hexact : ∀ fold, FindsExactly fold db q ↔
      (Utf8.IsText q ∧ (db.messages.rows = [] ∨ q.length ≤ 49998)) ∧
        ∀ d : Dialect, ∀ m ∈ db.messages.rows, m.Reads d q ↔ m.Has fold q := by
    intro fold
    constructor
    · rintro ⟨htakes, hselects⟩
      refine ⟨⟨htakes .postgres, (htakes .sqlite).imp_right hlength.1⟩, fun d m hm => ?_⟩
      rw [← selects_iff hq, hselects d m hm]
    rintro ⟨⟨htext, hshort⟩, hreads⟩
    refine ⟨fun d => ?_, fun d m hm => by rw [selects_iff hq, hreads d m hm]⟩
    cases d with
    | sqlite => exact hshort.imp_right hlength.2
    | postgres => exact htext
  refine ⟨hexact, fun hplain hrs hcase => ?_, fun fold hfinds d => ?_⟩
  · refine (hexact id).2 ⟨⟨hplain.isText, .inr hplain.short⟩, fun d m hm => ?_⟩
    rw [reads_iff_has hplain (hrs m hm)]
    refine ⟨?_, has_fold d.fold⟩
    cases d with
    | sqlite => exact hcase m hm
    | postgres => simp [Dialect.fold, Message.Has, Contains]
  have hselected : db.messages.rows.filter (MessageFilter.selects { search := q } d.sqlText) =
      db.messages.rows.filter fun m => m.Has fold q :=
    filter_congr fun m hm => by
      rw [Bool.eq_iff_iff, hfinds.selects d m hm, decide_eq_true_iff]
  rw [listMessages, countMessages, DB.count, hselected]
  exact ⟨rfl, rfl⟩

def mailTo (recipients : List String) : Message where
  id := ascii "m"
  envelopeFrom := ascii "bob@x"
  recipients := recipients.map ascii

def queued (m : Message) : DB := ⟨⟨[m], nodup_singleton _⟩, .empty⟩

/-- Two messages, one of them to a recipient that is written with an escape. -/
def twoQueued : DB :=
  ⟨⟨[mailTo ["first_last@x"], { mailTo ["a&b@x"] with id := ascii "n" }], by decide +kernel⟩, .empty⟩

/-- `_` stands for itself as long as no other character is in its place. -/
theorem search_exact_firstLast : FindsExactly id twoQueued (ascii "first_last") ∧
    ∀ d : Dialect, countMessages twoQueued d.sqlText { search := ascii "first_last" } = 1 := by
  have hq : ascii "first_last" ≠ [] := by decide
  obtain ⟨hexact, -, hfound⟩ := search_exact twoQueued hq
  have hfinds : FindsExactly id twoQueued (ascii "first_last") := by
    refine (hexact id).2 ⟨⟨⟨by decide +kernel, by decide +kernel⟩, .inr (by decide)⟩, fun d m hm => ?_⟩
    rw [← selects_iff hq]
    revert m
    cases d <;> decide +kernel
  exact ⟨hfinds, fun d => (hfound id hfinds d).2.trans (by decide +kernel)⟩

/-- How many of one message are found, and whether it contains the text. -/
def outcome (d : Dialect) (recipients : List String) (q : String) : Nat × Bool :=
  (countMessages (queued (mailTo recipients)) d.sqlText { search := ascii q },
    decide ((mailTo recipients).Has id (ascii q)))

/-- `_` and `%` stand for other characters, SQLite does not tell `BOB` from `bob` and PostgreSQL
does, `&` is escaped in the column, and `,` stands between two recipients. -/
theorem search_inexact :
    outcome .sqlite [] "b_b" = (1, false) ∧ outcome .postgres [] "b%x" = (1, false) ∧
    outcome .sqlite [] "BOB" = (1, false) ∧ outcome .postgres [] "BOB" = (0, false) ∧
    outcome .sqlite ["a&b@x"] "&" = (0, true) ∧ outcome .sqlite ["a", "b"] "," = (1, false) := by
  decide +kernel

end SmtpProxy.Store
