import SmtpProxy.Smtpsrv.Headers

/-!
# What a reader sees after the rewrite

The walk of `rewriteHeaders` goes over lines; whoever receives the message reads
fields. `rewriteHeaders_eq` gives the output byte for byte as fields, an empty
line and the body, and `fields_rewriteHeaders` says that they are read back.
-/

namespace SmtpProxy.Smtpsrv

open Lib Textproto Policy List

/-! ## Written fields -/

theorem replaceEOL_clean : ∀ {v : Bytes} {b : UInt8}, b ∈ replaceEOL v → b ≠ cr ∧ b ≠ lf
  | [], b, h => absurd h (by simp [replaceEOL])
  | [c], b, h => by
    rw [replaceEOL, mem_singleton] at h
    subst h
    split
    · exact ⟨by decide, by decide⟩
    · next hc => exact not_or.1 hc
  | c :: d :: rest, b, h => by
    rw [replaceEOL] at h
    split at h
    · rcases mem_cons.1 h with rfl | h
      · exact ⟨by decide, by decide⟩
      · exact replaceEOL_clean h
    rcases mem_cons.1 h with rfl | h
    · split
      · exact ⟨by decide, by decide⟩
      · next hc => exact not_or.1 hc
    · exact replaceEOL_clean h

/-- **A sanitised value cannot end its line.** -/
theorem sanitizeHeaderValue_clean {v : Bytes} {b : UInt8} (h : b ∈ sanitizeHeaderValue v) :
    b ≠ cr ∧ b ≠ lf := by
  unfold sanitizeHeaderValue at h
  split at h
  · exact replaceEOL_clean (mem_of_mem_trimSpace h)
  next hno =>
  simp only [any_eq_true, Bool.or_eq_true, decide_eq_true_eq, not_exists, not_and, not_or] at hno
  exact hno b h

def writtenField (key value : Bytes) : Field := ⟨headerLine key value, []⟩

theorem isToken_visible {b : UInt8} (h : isToken b = true) :
    b ≠ cr ∧ b ≠ lf ∧ b ≠ 58 ∧ isBlank b = false := by
  have hall : ∀ b, isToken b = true → b ≠ cr ∧ b ≠ lf ∧ b ≠ 58 ∧ isBlank b = false :=
    forall_byte (by decide +kernel)
  exact hall b h

variable {key value : Bytes}

theorem headerLine_clean (h : ValidName key) : CleanLine (headerLine key value) := by
  have hno : ∀ b ∈ headerLine key value, b ≠ cr ∧ b ≠ lf := by
    intro b hb
    rcases mem_append.1 hb with hb | hb
    · rcases mem_append.1 hb with hb | hb
      · obtain ⟨hcr, hlf, -⟩ := isToken_visible (h.canonical.tokens b hb)
        exact ⟨hcr, hlf⟩
      · have hsep : ∀ b ∈ ascii ": ", b ≠ cr ∧ b ≠ lf := by decide +kernel
        exact hsep b hb
    · exact sanitizeHeaderValue_clean hb
  refine ⟨?_, fun hmem => (hno lf hmem).2 rfl, fun hne hlast => ?_⟩
  · simp [headerLine, h.canonical.nonempty]
  · exact (hno _ (getLast_mem hne)).1 hlast

theorem isContinuation_append {c : UInt8} {cs rest : Bytes} (h : isBlank c = false) :
    isContinuation (c :: cs ++ rest) = false := h

theorem writtenField_wellFormed (h : ValidName key) : (writtenField key value).WellFormed := by
  refine ⟨?_, by simp [writtenField]⟩
  have hcanon := h.canonical
  unfold writtenField headerLine
  cases hk : canonicalMIMEHeaderKey key with
  | nil => exact absurd hk hcanon.nonempty
  | cons c cs =>
  rw [hk] at hcanon
  rw [append_assoc]
  exact isContinuation_append (isToken_visible (hcanon.tokens c (.head _))).2.2.2

theorem writtenField_nameFold (h : ValidName key) :
    (writtenField key value).nameFold = some (key.map asciiLower) := by
  have hcanon := h.canonical
  have hcolon : ∀ b ∈ canonicalMIMEHeaderKey key, decide (b ≠ 58) = true := by
    intro b hb
    simpa using (isToken_visible (hcanon.tokens b hb)).2.2.1
  have hbefore : beforeColon (headerLine key value) = some (canonicalMIMEHeaderKey key) := by
    have hline : headerLine key value
        = canonicalMIMEHeaderKey key ++ 58 :: (32 :: sanitizeHeaderValue value) := by
      rw [headerLine, append_assoc]
      rfl
    rw [beforeColon, if_pos (by simp [hline]), hline,
      takeWhile_append_of_pos hcolon, takeWhile_cons_of_neg (by simp), append_nil]
  have htrim : trimTrailingSpace (canonicalMIMEHeaderKey key) = canonicalMIMEHeaderKey key := by
    refine rdropWhile_eq_self_iff.2 fun hne hlast => ?_
    have := (isToken_visible (hcanon.tokens _ (getLast_mem hne))).2.2.2
    rw [isBlank] at this
    cases hlast.symm.trans this
  rw [Field.nameFold, writtenField, hbefore, Option.map_some, htrim, canonical_lower]

/-! ## The walk, field by field -/

def walkKey (f : Field) : Bytes := canonicalMIMEHeaderKey (trimSpace (f.line.takeWhile (· ≠ 58)))

def editOf (replace : List (Bytes × Bytes)) (f : Field) : Option Bytes :=
  if !f.line.contains 58 || f.line.takeWhile (· ≠ 58) = [] then none
  else replace.lookup (walkKey f)

def rewriteField (replace : List (Bytes × Bytes)) (f : Field) : List Field :=
  match editOf replace f with
  | none => [f]
  | some newValue => if newValue ≠ [] then [writtenField (walkKey f) newValue] else []

variable {replace : List (Bytes × Bytes)} {f : Field}

theorem editOf_named (h : 58 ∈ f.line ∧ f.line.takeWhile (· ≠ 58) ≠ []) :
    editOf replace f = replace.lookup (walkKey f) := by
  refine if_neg fun hc => ?_
  rcases Bool.or_eq_true_iff.1 hc with hno | hnil
  · simp [h.1] at hno
  · exact h.2 (of_decide_eq_true hnil)

theorem isToken_isVisible {b : UInt8} (h : isToken b = true) : isVisible b = true := by
  have hall : ∀ b, isToken b = true → isVisible b = true := forall_byte (by decide +kernel)
  exact hall b h

theorem trimSpace_name {written : Bytes} (h : ValidName (trimTrailingSpace written)) :
    trimSpace written = trimTrailingSpace written := by
  have hblanks : ∀ b ∈ written.rtakeWhile (fun b => b = 32 || b = 9), b = 32 ∨ b = 9 := by
    intro b hb
    simpa using mem_rtakeWhile_imp hb
  have hsplit : trimTrailingSpace written ++ written.rtakeWhile (fun b => b = 32 || b = 9) = written :=
    rdropWhile_append_rtakeWhile
  conv_lhs => rw [← hsplit]
  exact trimSpace_blanks h.nonempty (isToken_isVisible (h.tokens _ (head_mem _)))
    (isToken_isVisible (h.tokens _ (getLast_mem _))) hblanks

/-- The walk finds a field under its name, however it is spelled and whatever
white space stands before the colon. -/
theorem walkKey_eq {name : Bytes} (hn : ValidName name)
    (h : f.nameFold = some (name.map asciiLower)) :
    (58 ∈ f.line ∧ f.line.takeWhile (· ≠ 58) ≠ []) ∧ walkKey f = canonicalMIMEHeaderKey name := by
  unfold Field.nameFold beforeColon at h
  split at h
  · next hcolon =>
    rw [Option.map_some, Option.some.injEq] at h
    obtain ⟨hvalid, hcanon⟩ := canonical_of_lower hn h
    refine ⟨⟨by simpa using hcolon, fun hnil => ?_⟩, ?_⟩
    · rw [hnil] at hvalid
      exact hvalid.nonempty rfl
    · rw [walkKey, trimSpace_name hvalid, hcanon]
  · cases h

def renderFields (fs : List Field) : Bytes := renderLines (fs.flatMap Field.lines)

theorem renderFields_append (fs gs : List Field) :
    renderFields (fs ++ gs) = renderFields fs ++ renderFields gs := by
  rw [renderFields, renderFields, renderFields, flatMap_append, renderLines, flatMap_append]
  rfl

theorem renderFields_written (key value : Bytes) :
    renderFields [writtenField key value] = headerLine key value ++ crlf := by
  simp [renderFields, writtenField, Field.lines, renderLines]

theorem walk_more {more : List Bytes} (h : ∀ l ∈ more, isContinuation l = true) (w : Walk) :
    more.foldl (walkLine replace) w =
      { w with out := if w.skipping then w.out else w.out ++ renderLines more } := by
  induction more generalizing w with
  | nil => simp [renderLines]
  | cons l more ih =>
  have hl := h l (.head _)
  rw [foldl_cons, ih fun l' hl' => h l' (.tail _ hl'), walkLine, if_pos hl]
  by_cases hs : w.skipping = true
  · simp [hs]
  · simp [hs, renderLines]

theorem walkLine_begins (hf : f.WellFormed) (w : Walk) : walkLine replace w f.line =
      match editOf replace f with
      | none => { w with out := w.out ++ f.line ++ crlf, skipping := false }
      | some v =>
        { out := if v ≠ [] then writeHeaderLine w.out (walkKey f) v else w.out
          skipping := true
          seen := walkKey f :: w.seen } := by
  rw [walkLine, hf.begins, editOf]
  simp only [Bool.false_eq_true, if_false]
  split <;> rfl

theorem walk_field (hf : f.WellFormed) (w : Walk) :
    (f.lines.foldl (walkLine replace) w).out = w.out ++ renderFields (rewriteField replace f) ∧
    ∀ k, k ∈ (f.lines.foldl (walkLine replace) w).seen ↔
      k ∈ w.seen ∨ ((editOf replace f).isSome ∧ walkKey f = k) := by
  rw [Field.lines, foldl_cons, walk_more hf.continues, walkLine_begins hf, rewriteField]
  cases editOf replace f with
  | none => simp [renderFields, Field.lines, renderLines]
  | some v =>
  refine ⟨?_, fun k => ?_⟩
  · by_cases hv : v = []
    · simp [hv, renderFields, renderLines]
    · simp [hv, writeHeaderLine, renderFields_written]
  simp only [mem_cons, Option.isSome_some, true_and]
  rw [or_comm, eq_comm]

theorem walk_fields {fs : List Field} (h : ∀ f ∈ fs, f.WellFormed) (w : Walk) :
    ((fs.flatMap Field.lines).foldl (walkLine replace) w).out
      = w.out ++ renderFields (fs.flatMap (rewriteField replace)) ∧
    ∀ k, k ∈ ((fs.flatMap Field.lines).foldl (walkLine replace) w).seen ↔
      k ∈ w.seen ∨ ∃ f ∈ fs, (editOf replace f).isSome ∧ walkKey f = k := by
  induction fs generalizing w with
  | nil => simp [renderFields, renderLines]
  | cons f fs ih =>
  obtain ⟨hout, hseen⟩ := walk_field (h f (.head _)) w
  obtain ⟨hout', hseen'⟩ := ih (fun f' hf' => h f' (.tail _ hf'))
    (f.lines.foldl (walkLine replace) w)
  rw [flatMap_cons, foldl_append, flatMap_cons, renderFields_append]
  refine ⟨by rw [hout', hout, append_assoc], fun k => ?_⟩
  rw [hseen', hseen]
  simp [or_assoc]

/-! ## The whole block -/

/-- A field that survives being written and read back. -/
structure CleanField (f : Field) : Prop where
  wellFormed : f.WellFormed
  lines : ∀ l ∈ f.lines, CleanLine l

theorem writtenField_clean (h : ValidName key) : CleanField (writtenField key value) := by
  refine ⟨writtenField_wellFormed h, fun l hl => ?_⟩
  rw [mem_singleton.1 hl]
  exact headerLine_clean h

theorem fields_clean {raw : Bytes} (hf : f ∈ fields raw) : CleanField f := by
  refine ⟨groupLines_wellFormed.2 f hf, fun l hl => ?_⟩
  have hmem : l ∈ headerLines raw := by
    rw [← groupLines_lines (headerLines raw)]
    exact mem_append_right _ (mem_flatMap.2 ⟨f, hf, hl⟩)
  exact headerLines_clean hmem

/-- **Clean fields, written out and followed by an empty line, are read back.** -/
theorem fields_renderFields {fs : List Field} (h : ∀ f ∈ fs, CleanField f) (body : Bytes) :
    fields (renderFields fs ++ crlf ++ body) = fs := by
  have hclean : ∀ l ∈ fs.flatMap Field.lines, CleanLine l := by
    intro l hl
    obtain ⟨f, hf, hlf⟩ := mem_flatMap.1 hl
    exact (h f hf).lines l hlf
  rw [fields, renderFields, append_assoc, headerLines_render hclean,
    groupLines_fields fun f hf => (h f hf).wellFormed]

variable {edits : List HeaderEdit}

theorem mem_replaceOf {k v : Bytes} (h : (k, v) ∈ replaceOf edits) :
    ∃ e ∈ edits, e.prepend = false ∧ k = canonicalMIMEHeaderKey e.key ∧ v = e.value := by
  have hset : ∀ {m : List (Bytes × Bytes)} {k' v' : Bytes}, (k, v) ∈ setKey m k' v' →
      (k, v) ∈ m ∨ (k, v) = (k', v') := by
    intro m k' v' hmem
    unfold setKey at hmem
    split at hmem
    · obtain ⟨e, he, heq⟩ := mem_map.1 hmem
      split at heq
      · exact .inr heq.symm
      · exact .inl (heq ▸ he)
    rcases mem_append.1 hmem with hmem | hmem
    · exact .inl hmem
    · exact .inr (mem_singleton.1 hmem)
  have hfold : ∀ (es : List HeaderEdit) (m : List (Bytes × Bytes)),
      (k, v) ∈ es.foldl (fun m e => setKey m (canonicalMIMEHeaderKey e.key) e.value) m →
      (k, v) ∈ m ∨ ∃ e ∈ es, k = canonicalMIMEHeaderKey e.key ∧ v = e.value := by
    intro es
    induction es with
    | nil => exact fun m hm => .inl hm
    | cons e es ih =>
    intro m hm
    rcases ih _ hm with hm | ⟨e', he', heq⟩
    · rcases hset hm with hm | heq
      · exact .inl hm
      · exact .inr ⟨e, .head _, Prod.mk.inj heq⟩
    · exact .inr ⟨e', .tail _ he', heq⟩
  rcases hfold _ _ h with hnil | ⟨e, he, heq⟩
  · cases hnil
  obtain ⟨hmem, hpre⟩ := mem_filter.1 he
  exact ⟨e, hmem, by simpa using hpre, heq⟩

theorem mem_of_lookup {m : List (Bytes × Bytes)} {k v : Bytes} (h : m.lookup k = some v) :
    (k, v) ∈ m := by
  induction m with
  | nil => cases h
  | cons e m ih =>
  rw [lookup_cons] at h
  split at h
  · next hk =>
    have hk : k = e.1 := by simpa using hk
    rw [← Option.some.inj h, hk]
    exact .head _
  · exact .tail _ (ih h)

/-- The fields written after the walk: edits that met no field. -/
def missingFields (o : MapOrder) (replace : List (Bytes × Bytes)) (fs : List Field) : List Field :=
  ((o.order replace).filter fun e =>
    !(fs.any fun f => (editOf replace f).isSome && walkKey f = e.1) && e.2 ≠ []).map
    fun e => writtenField e.1 e.2

theorem foldl_write (l : List (Bytes × Bytes)) (c : Bytes × Bytes → Bool) (out : Bytes) :
    l.foldl (fun out e => if c e then writeHeaderLine out e.1 e.2 else out) out
      = out ++ renderFields ((l.filter c).map fun e => writtenField e.1 e.2) := by
  induction l generalizing out with
  | nil => simp [renderFields, renderLines]
  | cons e l ih =>
  rw [foldl_cons, ih]
  by_cases hc : c e = true
  · rw [if_pos hc, filter_cons_of_pos hc, map_cons, ← singleton_append,
      renderFields_append, renderFields_written, writeHeaderLine]
    simp
  · rw [if_neg hc, filter_cons_of_neg hc]

/-- The fields of the rewritten message: the prepended ones; the original ones, the
edited among them replaced by one line or gone; and the edits that met no field. -/
def rewrittenFields (o : MapOrder) (edits : List HeaderEdit) (fs : List Field) : List Field :=
  (edits.filter (·.prepend)).map (fun e => writtenField e.key e.value) ++
    fs.flatMap (rewriteField (replaceOf edits)) ++ missingFields o (replaceOf edits) fs

/-- **The output, byte for byte**: the rewritten fields, an empty line and the body. -/
theorem rewriteHeaders_eq (o : MapOrder) {m : Message} (edits : List HeaderEdit)
    (hlead : (groupLines (headerLines m.block)).1 = []) :
    m.rewriteHeaders o edits
      = renderFields (rewrittenFields o edits (fields m.block)) ++ crlf ++ m.body := by
  have hlines : (fields m.block).flatMap Field.lines = headerLines m.block := by
    have := groupLines_lines (headerLines m.block)
    rwa [hlead] at this
  have hpre : (edits.filter (·.prepend)).foldl (fun out e => writeHeaderLine out e.key e.value) []
      = renderFields ((edits.filter (·.prepend)).map fun e => writtenField e.key e.value) := by
    have := foldl_write ((edits.filter (·.prepend)).map fun e => (e.key, e.value)) (fun _ => true) []
    rw [foldl_map, filter_true, map_map] at this
    exact this
  obtain ⟨hout, hseen⟩ := walk_fields (fun f (hf : f ∈ fields m.block) => (fields_clean hf).wellFormed)
    { out := renderFields ((edits.filter (·.prepend)).map fun e => writtenField e.key e.value) }
  rw [hlines] at hout hseen
  have hmiss : ∀ e : Bytes × Bytes, (!(((headerLines m.block).foldl (walkLine (replaceOf edits))
        { out := renderFields ((edits.filter (·.prepend)).map fun e => writtenField e.key e.value) }
        ).seen.contains e.1) && e.2 ≠ [])
      = (!((fields m.block).any fun f => (editOf (replaceOf edits) f).isSome && walkKey f = e.1) &&
        e.2 ≠ []) := by
    intro e
    congr 2
    rw [Bool.eq_iff_iff, contains_iff_mem, hseen]
    simp
  rw [Message.rewriteHeaders, hpre]
  simp only [hmiss]
  rw [foldl_write, hout, rewrittenFields, renderFields_append, renderFields_append]
  rfl

theorem rewrittenFields_clean (o : MapOrder) {m : Message} (hvalid : ∀ e ∈ edits, ValidName e.key) :
    ∀ f ∈ rewrittenFields o edits (fields m.block), CleanField f := by
  have hvalid' : ∀ {k v}, (k, v) ∈ replaceOf edits → ValidName k := by
    intro k v hmem
    obtain ⟨e, he, -, rfl, -⟩ := mem_replaceOf hmem
    exact (hvalid e he).canonical
  intro f hf
  rcases mem_append.1 hf with hf | hf
  · rcases mem_append.1 hf with hf | hf
    · obtain ⟨e, he, rfl⟩ := mem_map.1 hf
      exact writtenField_clean (hvalid e (mem_filter.1 he).1)
    · obtain ⟨f₀, hf₀, hmem⟩ := mem_flatMap.1 hf
      unfold rewriteField at hmem
      split at hmem
      · rw [mem_singleton.1 hmem]
        exact fields_clean hf₀
      next v hv =>
      split at hmem
      · rw [mem_singleton.1 hmem]
        unfold editOf at hv
        split at hv
        · cases hv
        · exact writtenField_clean (hvalid' (mem_of_lookup hv))
      · cases hmem
  obtain ⟨e, he, rfl⟩ := mem_map.1 hf
  exact writtenField_clean (hvalid' ((o.perm _).mem_iff.1 (mem_filter.1 he).1))

/-- **What a reader sees.** The prepended fields; the original ones, the edited
among them replaced by one line or gone; and the edits that met no field. -/
theorem fields_rewriteHeaders (o : MapOrder) {m : Message} (hvalid : ∀ e ∈ edits, ValidName e.key)
    (hlead : (groupLines (headerLines m.block)).1 = []) :
    fields (m.rewriteHeaders o edits) =
      (edits.filter (·.prepend)).map (fun e => writtenField e.key e.value) ++
      (fields m.block).flatMap (rewriteField (replaceOf edits)) ++
      missingFields o (replaceOf edits) (fields m.block) := by
  rw [rewriteHeaders_eq o edits hlead, fields_renderFields (rewrittenFields_clean o hvalid)]
  rfl

end SmtpProxy.Smtpsrv
