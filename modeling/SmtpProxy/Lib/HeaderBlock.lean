import SmtpProxy.Lib.Bytes

/-!
# Reading a header block line by line

A reader of mail sees the header block as lines: split after every LF, line terminators
removed, up to the first empty line. A line that begins with a space or a tab continues
the field before it; any other line begins a field, whose name stands before the first
colon. `fields` is this reading.
-/

namespace SmtpProxy.Lib

open List

/-! ## Lines -/

/-- Split after every LF, keeping the terminator on each line. -/
def splitLines : Bytes → List Bytes
  | [] => []
  | b :: rest =>
    if b = lf then [b] :: splitLines rest
    else
      match splitLines rest with
      | [] => [[b]]
      | l :: ls => (b :: l) :: ls

def trimEOL (l : Bytes) : Bytes := l.rdropWhile fun b => b = cr || b = lf

/-- The lines of the header block, without their terminators. -/
def headerLines (raw : Bytes) : List Bytes :=
  ((splitLines raw).map trimEOL).takeWhile (· ≠ [])

def renderLines (ls : List Bytes) : Bytes := ls.flatMap (· ++ crlf)

/-- A line that survives being written and read back. -/
structure CleanLine (l : Bytes) : Prop where
  nonempty : l ≠ []
  noLF : lf ∉ l
  noCR : ∀ h : l ≠ [], l.getLast h ≠ cr

variable {l : Bytes}

theorem splitLines_line (rest : Bytes) (h : lf ∉ l) :
    splitLines (l ++ lf :: rest) = (l ++ [lf]) :: splitLines rest := by
  induction l with
  | nil => simp [splitLines]
  | cons b l ih =>
  have hb : b ≠ lf := fun hb => h (by simp [hb])
  have hl : lf ∉ l := fun hl => h (by simp [hl])
  simp [splitLines, if_neg hb, ih hl]

theorem trimEOL_crlf (h : ∀ hne : l ≠ [], l.getLast hne ≠ cr) (hlf : lf ∉ l) :
    trimEOL (l ++ crlf) = l := by
  unfold trimEOL crlf
  rw [show l ++ [cr, lf] = (l ++ [cr]) ++ [lf] by simp, rdropWhile_concat_pos _ _ _ (by simp [lf]),
    rdropWhile_concat_pos _ _ _ (by simp [cr]), rdropWhile_eq_self_iff]
  intro hne hlast
  simp only [Bool.or_eq_true, decide_eq_true_eq] at hlast
  rcases hlast with hcr | hl
  · exact h hne hcr
  · exact hlf (hl ▸ getLast_mem hne)

/-- **Written lines are read back.** -/
theorem headerLines_render {ls : List Bytes} (h : ∀ l ∈ ls, CleanLine l) (body : Bytes) :
    headerLines (renderLines ls ++ (crlf ++ body)) = ls := by
  induction ls with
  | nil =>
    have hsplit : splitLines (crlf ++ body) = crlf :: splitLines body :=
      splitLines_line (l := [cr]) body (by decide)
    have hblank : trimEOL crlf = [] := by decide
    simp [headerLines, renderLines, hsplit, hblank]
  | cons l ls ih =>
  have hl := h l (.head _)
  have htail := ih fun l' hl' => h l' (.tail _ hl')
  have hno : lf ∉ l ++ [cr] := by
    rw [mem_append, not_or]
    exact ⟨hl.noLF, by decide⟩
  have hsplit : splitLines (renderLines (l :: ls) ++ (crlf ++ body))
      = (l ++ crlf) :: splitLines (renderLines ls ++ (crlf ++ body)) := by
    have := splitLines_line (renderLines ls ++ (crlf ++ body)) hno
    simpa [renderLines, crlf] using this
  unfold headerLines at htail ⊢
  rw [hsplit, map_cons, trimEOL_crlf hl.noCR hl.noLF, takeWhile_cons_of_pos (by
    simpa using hl.nonempty), htail]

theorem splitLines_ne_nil {s : Bytes} (h : s ≠ []) : splitLines s ≠ [] := by
  cases s with
  | nil => exact absurd rfl h
  | cons b s =>
  rw [splitLines]
  split
  · exact cons_ne_nil _ _
  · split <;> exact cons_ne_nil _ _

theorem takeWhile_stop {α : Type} {p : α → Bool} {x : α} (hx : p x = false) (l r : List α) :
    (l ++ x :: r).takeWhile p = l.takeWhile p := by
  induction l with
  | nil => simp [hx]
  | cons y l ih =>
    rw [cons_append, takeWhile_cons, takeWhile_cons, ih]

theorem splitLines_flatten (s : Bytes) : (splitLines s).flatten = s := by
  induction s with
  | nil => rfl
  | cons b s ih =>
  rw [splitLines]
  split
  · rw [flatten_cons, ih, singleton_append]
  cases hs : splitLines s with
  | nil | cons => rw [hs] at ih; simp [← ih]

theorem splitLines_append {a : Bytes} (b : Bytes) :
    splitLines (a ++ lf :: b) = splitLines (a ++ [lf]) ++ splitLines b := by
  induction a with
  | nil => simp [splitLines]
  | cons c a ih =>
  by_cases hc : c = lf
  · simp [splitLines, if_pos hc, ih]
  simp only [cons_append, splitLines, if_neg hc, ih]
  cases hs : splitLines (a ++ [lf]) with
  | nil => exact absurd hs (splitLines_ne_nil (by simp))
  | cons l ls => rfl

theorem headerLines_cut {a eol : Bytes} (b : Bytes) (heol : trimEOL (eol ++ [lf]) = [])
    (hno : lf ∉ eol) :
    headerLines (a ++ [lf] ++ eol ++ [lf] ++ b) = headerLines (a ++ [lf] ++ eol ++ [lf]) := by
  have hblank : ∀ c, splitLines (a ++ [lf] ++ eol ++ [lf] ++ c)
      = splitLines (a ++ [lf]) ++ (eol ++ [lf]) :: splitLines c := by
    intro c
    have h := splitLines_append (a := a) (eol ++ lf :: c)
    rw [splitLines_line c hno] at h
    simpa using h
  have hstop : ∀ c, headerLines (a ++ [lf] ++ eol ++ [lf] ++ c)
      = ((splitLines (a ++ [lf])).map trimEOL).takeWhile (· ≠ []) := by
    intro c
    unfold headerLines
    rw [hblank c, map_append, map_cons, heol, takeWhile_stop (by simp)]
  rw [hstop b]
  have := hstop []
  rw [append_nil] at this
  exact this.symm

theorem splitLines_lf {raw : Bytes} (h : l ∈ splitLines raw) :
    ∃ front, lf ∉ front ∧ (l = front ∨ l = front ++ [lf]) := by
  induction raw generalizing l with
  | nil => simp [splitLines] at h
  | cons b rest ih =>
  simp only [splitLines] at h
  split at h
  · next hb =>
    rcases mem_cons.1 h with rfl | h
    · exact ⟨[], by simp, .inr (by simp [hb])⟩
    · exact ih h
  next hb =>
  cases hs : splitLines rest with
  | nil =>
    rw [hs] at h
    obtain rfl := mem_singleton.1 h
    exact ⟨[b], by simpa using fun e => hb e.symm, .inl rfl⟩
  | cons l₀ ls =>
  rw [hs] at h ih
  rcases mem_cons.1 h with rfl | h
  · obtain ⟨front, hno, hl⟩ := ih (.head _)
    refine ⟨b :: front, ?_, hl.imp (congrArg _) (congrArg _)⟩
    simpa [hno] using fun e => hb e.symm
  · exact ih (.tail _ h)

theorem headerLines_clean {raw : Bytes} (h : l ∈ headerLines raw) : CleanLine l := by
  have hne : l ≠ [] := by simpa using mem_takeWhile_imp h
  obtain ⟨line, hline, rfl⟩ := mem_map.1 ((takeWhile_sublist _).subset h)
  have hlast := rdropWhile_last_not (fun b => b = cr || b = lf) line hne
  simp only [Bool.or_eq_true, decide_eq_true_eq, not_or] at hlast
  refine ⟨hne, fun hmem => ?_, fun _ => hlast.1⟩
  obtain ⟨front, hno, rfl | rfl⟩ := splitLines_lf hline
  · exact hno (( rdropWhile_prefix _ _).subset hmem)
  rw [trimEOL, rdropWhile_concat_pos _ _ _ (by simp)] at hmem
  exact hno (( rdropWhile_prefix _ _).subset hmem)

/-! ## Fields -/

/-- The line continues the field before it. -/
def isContinuation (l : Bytes) : Bool :=
  match l with
  | [] => false
  | b :: _ => b = 32 || b = 9

/-- A field as it stands in the block: its first line and its continuations. -/
structure Field where
  line : Bytes
  more : List Bytes := []
  deriving DecidableEq

/-- Group lines into fields. The first component collects continuation lines
with no field before them. -/
def groupLines : List Bytes → List Bytes × List Field
  | [] => ([], [])
  | l :: ls =>
    let r := groupLines ls
    if isContinuation l then (l :: r.1, r.2) else ([], ⟨l, r.1⟩ :: r.2)

def Field.lines (f : Field) : List Bytes := f.line :: f.more

/-- A field as grouping produces it: one line that begins it, and continuations. -/
structure Field.WellFormed (f : Field) : Prop where
  begins : isContinuation f.line = false
  continues : ∀ l ∈ f.more, isContinuation l = true

theorem groupLines_lines (ls : List Bytes) :
    (groupLines ls).1 ++ (groupLines ls).2.flatMap Field.lines = ls := by
  induction ls with
  | nil => rfl
  | cons l ls ih =>
  rw [groupLines]
  split
  · exact congrArg (List.cons l) ih
  simp only [nil_append, flatMap_cons, Field.lines, cons_append]
  exact congrArg (List.cons l) ih

theorem groupLines_wellFormed {ls : List Bytes} :
    (∀ l ∈ (groupLines ls).1, isContinuation l = true) ∧ ∀ f ∈ (groupLines ls).2, f.WellFormed := by
  induction ls with
  | nil => exact ⟨by simp [groupLines], by simp [groupLines]⟩
  | cons l ls ih =>
  obtain ⟨hlead, hfields⟩ := ih
  rw [groupLines]
  split
  · next hc => exact ⟨by simpa [hc] using hlead, hfields⟩
  next hc =>
  refine ⟨by simp, fun f hf => ?_⟩
  rcases mem_cons.1 hf with rfl | hf
  · exact ⟨by simpa using hc, hlead⟩
  · exact hfields f hf

/-- Well formed fields, written one after the other, are grouped as they were. -/
theorem groupLines_fields {fs : List Field} (h : ∀ f ∈ fs, f.WellFormed) :
    groupLines (fs.flatMap Field.lines) = ([], fs) := by
  induction fs with
  | nil => rfl
  | cons f fs ih =>
  have hf := h f (.head _)
  have htail := ih fun f' hf' => h f' (.tail _ hf')
  -- the continuation lines of `f` collect in front of the fields after it
  have hmore : ∀ more : List Bytes, (∀ l ∈ more, isContinuation l = true) →
      groupLines (more ++ fs.flatMap Field.lines) = (more, fs) := by
    intro more
    induction more with
    | nil => exact fun _ => htail
    | cons l more ihm =>
    intro hm
    rw [cons_append, groupLines, ihm fun l' hl' => hm l' (.tail _ hl')]
    exact if_pos (hm l (.head _))
  rw [flatMap_cons, Field.lines, cons_append, groupLines, hmore _ hf.continues]
  simp [hf.begins]

/-- The fields of the header block of a message. -/
def fields (raw : Bytes) : List Field := (groupLines (headerLines raw)).2

/-- The part before the first colon, if there is one. -/
def beforeColon (l : Bytes) : Option Bytes :=
  if l.contains 58 then some (l.takeWhile (· ≠ 58)) else none

def trimTrailingSpace (s : Bytes) : Bytes := s.rdropWhile fun b => b = 32 || b = 9

/-- The name of the field in lower case, ignoring white space before the colon. -/
def Field.nameFold (f : Field) : Option Bytes :=
  (beforeColon f.line).map fun n => (trimTrailingSpace n).map asciiLower

/-- The unfolded value: everything after the colon, continuation lines joined. -/
def Field.value (f : Field) : Bytes :=
  (f.line.dropWhile (· ≠ 58)).drop 1 ++ f.more.flatten

/-- The fields with this name (given in lower case). -/
def fieldsNamed (name raw : Bytes) : List Field :=
  (fields raw).filter fun f => f.nameFold = some name

example : (fieldsNamed (ascii "from") (ascii "To: x\r\nFROM : a\r\n b\r\n\r\nFrom: no")).map Field.value
    = [ascii " a b"] := by decide

end SmtpProxy.Lib
