import SmtpProxy.Lib.Bytes

/-!
# Migration scripts

`splitStatements` of `internal/store/migrate.go`, which hands a migration to the
driver one statement at a time. The loop goes by lines and carries whether a
literal is open; a `;` ends a statement where it is the last thing on a line and
no literal is open.

A literal is open after a text with an odd number of single quotes: a doubled
quote closes it and opens it again. Whether a line is dropped depends on the
lines kept before it, so `sqlLines` carries their text.
-/

namespace SmtpProxy.Store

open Lib List

/-- The inner loop of `splitStatements`: `inSingle` after a line. -/
def scanLine : Bool → Bytes → Bool
  | inSingle, [] => inSingle
  | inSingle, c :: rest =>
    if c ≠ 39 then scanLine inSingle rest
    else
      match rest with
      | [] => !inSingle
      | d :: after =>
        if inSingle && d = 39 then scanLine inSingle after else scanLine (!inSingle) (d :: after)

/-- The lines that form no part of a statement: where no literal is open, blank
lines and whole-line comments. -/
def skips (inSingle : Bool) (trimmed : Bytes) : Bool :=
  !inSingle && (trimmed.isEmpty || (ascii "--").isPrefixOf trimmed)

structure Splitter where
  out : List Bytes := []
  current : Bytes := []
  inSingle : Bool := false

def Splitter.flush (s : Splitter) : Splitter :=
  let stmt := trimSpace s.current
  { s with out := if stmt = [] then s.out else s.out ++ [stmt], current := [] }

def Splitter.line (s : Splitter) (line : Bytes) : Splitter :=
  let trimmed := trimSpace line
  if skips s.inSingle trimmed then s
  else
    let inSingle := scanLine s.inSingle line
    let s := { s with current := s.current ++ line ++ [lf], inSingle }
    if !inSingle && (ascii ";").isSuffixOf trimmed then s.flush else s

def splitStatements (script : Bytes) : List Bytes :=
  ((script.splitOn lf).foldl Splitter.line {}).flush.out

/-! ## Lines of SQL -/

/-- A literal is open after the text. -/
def inLiteral (t : Bytes) : Bool := t.count 39 % 2 == 1

theorem inLiteral_append (t u : Bytes) : inLiteral (t ++ u) = (inLiteral t != inLiteral u) := by
  simp only [inLiteral, count_append]
  rcases Nat.mod_two_eq_zero_or_one (t.count 39) with ht | ht <;>
    rcases Nat.mod_two_eq_zero_or_one (u.count 39) with hu | hu <;> simp [Nat.add_mod, ht, hu]

theorem inLiteral_quote (t : Bytes) : inLiteral (39 :: t) = !inLiteral t := by
  rw [← singleton_append, inLiteral_append]
  exact Bool.true_bne _

theorem scanLine_eq (inSingle : Bool) (line : Bytes) :
    scanLine inSingle line = (inSingle != inLiteral line) := by
  induction inSingle, line using scanLine.induct with
  | case1 inSingle => exact (Bool.bne_false _).symm
  | case2 inSingle c rest hc ih =>
    rw [scanLine.eq_def]
    simp only [if_pos hc, ih, inLiteral, count_cons_of_ne hc]
  | case3 inSingle c hc =>
    obtain rfl : c = 39 := not_not.1 hc
    cases inSingle <;> rfl
  | case4 inSingle c hc d after hd ih =>
    obtain rfl : c = 39 := not_not.1 hc
    obtain ⟨rfl, rfl⟩ : inSingle = true ∧ d = 39 := by simpa using hd
    rw [inLiteral_quote, inLiteral_quote, Bool.not_not, ← ih]
    rfl
  | case5 inSingle c hc d after hd ih =>
  obtain rfl : c = 39 := not_not.1 hc
  rw [scanLine, if_neg hc, if_neg hd, ih, inLiteral_quote]
  simp

/-- A line of a script and the SQL before it. -/
structure SQLLine where
  before : Bytes
  text : Bytes

/-- The line's last character is a `;` outside a literal. -/
def SQLLine.cuts (l : SQLLine) : Bool :=
  !inLiteral (l.before ++ l.text) && (ascii ";").isSuffixOf (trimSpace l.text)

/-- The lines of SQL among some lines of a script, after the SQL before them. -/
def sqlLines (before : Bytes) : List Bytes → List SQLLine
  | [] => []
  | line :: rest =>
    if skips (inLiteral before) (trimSpace line) then sqlLines before rest
    else ⟨before, line⟩ :: sqlLines (before ++ line ++ [lf]) rest

def pieceText (piece : List SQLLine) : Bytes := piece.flatMap fun l => l.text ++ [lf]

/-- The text of some lines is cut after each `;` that ends a line outside a
literal, and nowhere else. -/
structure Cut (pieces : List (List SQLLine)) : Prop where
  inside : ∀ piece ∈ pieces, ∀ l ∈ piece.dropLast, l.cuts = false
  ends : ∀ piece ∈ pieces.dropLast, piece.getLast?.any SQLLine.cuts = true

theorem Cut.cons {piece : List SQLLine} {l : SQLLine} {pieces : List (List SQLLine)}
    (h : Cut pieces) (hl : l.cuts = true) (hpiece : ∀ l ∈ piece, l.cuts = false) :
    Cut ((piece ++ [l]) :: pieces) where
  inside := by
    rw [forall_mem_cons, dropLast_concat]
    exact ⟨hpiece, h.inside⟩
  ends := by
    cases pieces with
    | nil => simp
    | cons next more =>
      rw [dropLast_cons_cons, forall_mem_cons, getLast?_concat]
      exact ⟨hl, h.ends⟩

/-- The pieces without the white space around them, but for those that have nothing else. -/
def statements (pieces : List (List SQLLine)) : List Bytes :=
  (pieces.map fun p => trimSpace (pieceText p)).filter (· ≠ [])

/-! ## The loop -/

/-- Where the loop stands: `before` is the SQL so far, `piece` what `current`
holds of it. -/
structure Splitter.At (s : Splitter) (before : Bytes) (piece : List SQLLine) : Prop where
  inSingle : s.inSingle = inLiteral before
  current : s.current = pieceText piece
  uncut : ∀ l ∈ piece, l.cuts = false

variable {s : Splitter} {before : Bytes} {piece : List SQLLine}

theorem Splitter.flush_out (h : s.current = pieceText piece) :
    s.flush.out = s.out ++ statements [piece] := by
  rw [flush, statements, h, map_singleton]
  by_cases hempty : trimSpace (pieceText piece) = [] <;> simp [hempty]

/-- The loop over the remaining lines, by induction on them. -/
theorem run_cut (lines : List Bytes) (h : s.At before piece) :
    ∃ pieces, Cut pieces ∧ pieces.flatten = piece ++ sqlLines before lines ∧
      (lines.foldl Splitter.line s).flush.out = s.out ++ statements pieces := by
  induction lines generalizing s before piece with
  | nil =>
    refine ⟨[piece], ⟨?_, by simp⟩, by simp [sqlLines], Splitter.flush_out h.current⟩
    simpa using fun l hl => h.uncut l (dropLast_subset _ hl)
  | cons line lines ih =>
  rw [foldl_cons, sqlLines, Splitter.line, h.inSingle]
  by_cases hkept : skips (inLiteral before) (trimSpace line) = true
  · simp only [if_pos hkept]
    exact ih h
  have hcurrent : s.current ++ line ++ [lf] = pieceText (piece ++ [⟨before, line⟩]) := by
    simp [pieceText, h.current]
  have hscan : scanLine (inLiteral before) line = inLiteral (before ++ line) := by
    rw [scanLine_eq, inLiteral_append]
  have hnext : inLiteral (before ++ line ++ [lf]) = inLiteral (before ++ line) := by
    rw [inLiteral_append]
    exact Bool.bne_false _
  have hends : (!inLiteral (before ++ line) && (ascii ";").isSuffixOf (trimSpace line)) =
      SQLLine.cuts ⟨before, line⟩ := rfl
  simp only [if_neg hkept, hscan, hcurrent, hends]
  by_cases hcuts : SQLLine.cuts ⟨before, line⟩ = true
  · -- the piece ends here
    rw [if_pos hcuts]
    have hat : Splitter.At (Splitter.flush ⟨s.out, pieceText (piece ++ [⟨before, line⟩]),
        inLiteral (before ++ line)⟩) (before ++ line ++ [lf]) [] := ⟨hnext.symm, rfl, by simp⟩
    obtain ⟨pieces, hcut, hflat, hresult⟩ := ih hat
    refine ⟨_ :: pieces, hcut.cons hcuts h.uncut, ?_, ?_⟩
    · rw [flatten_cons, hflat]
      simp
    rw [hresult, Splitter.flush_out rfl, append_assoc, statements, statements, ← filter_append]
    rfl
  have huncut : ∀ l ∈ piece ++ [⟨before, line⟩], l.cuts = false := by
    simpa [or_imp, forall_and] using ⟨h.uncut, Bool.not_eq_true _ ▸ hcuts⟩
  rw [if_neg hcuts]
  obtain ⟨pieces, hcut, hflat, hresult⟩ := ih
    (s := ⟨s.out, pieceText (piece ++ [⟨before, line⟩]), inLiteral (before ++ line)⟩)
    ⟨hnext.symm, rfl, huncut⟩
  refine ⟨pieces, hcut, ?_, hresult⟩
  rw [hflat]
  simp

/-- **A script is cut after each `;` that ends a line outside a literal.** Every
line of SQL is in one piece, in order, and a statement is a piece without the
white space around it. -/
theorem statements_cut (script : Bytes) :
    ∃ pieces, Cut pieces ∧ pieces.flatten = sqlLines [] (script.splitOn lf) ∧
      splitStatements script = statements pieces ∧
      ∀ p ∈ pieces, ∃ a b, Blank a ∧ Blank b ∧ pieceText p = a ++ trimSpace (pieceText p) ++ b := by
  have hat : Splitter.At {} [] [] := ⟨rfl, rfl, by simp⟩
  obtain ⟨pieces, hcut, hflat, hresult⟩ := run_cut (script.splitOn lf) hat
  exact ⟨pieces, hcut, hflat, hresult, fun p _ => trimSpace_split (pieceText p)⟩

example : splitStatements (ascii "-- ';\na ';\n\n--'' ';\nb") =
    [ascii "a ';\n\n--'' ';", ascii "b"] := by
  decide +kernel

end SmtpProxy.Store
