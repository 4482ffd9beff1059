import Mathlib.Data.List.Nodup
import SmtpProxy.Smtpsrv.Rewrite

/-!
# The message put together again

Three readers look for the end of the header block: `findHeaderEnd` searches for
two line endings in a row, CRLF before bare LF; `net/textproto` stops at the
first line that is empty; the walk of `rewriteHeaders` stops there too, and then
the body is appended from where `findHeaderEnd` saw it begin. Where an empty line
stands before the end `findHeaderEnd` found, what lies between is in neither
part and is lost (`body_survives_iff`). In any other accepted message the three
agree, and `rewrite_exact` says field by field what comes out.
-/

namespace SmtpProxy.Smtpsrv

open Lib Textproto Policy List

/-! ## Where the header block ends -/

/-- What follows the first line that is empty once its line ending is removed. -/
def afterBlank (raw : Bytes) : Bytes :=
  ((splitLines raw).dropWhile fun l => chopEOL l ≠ []).tail.flatten

def Message.Whole (m : Message) : Prop := ∀ l ∈ (splitLines m.block).dropLast, chopEOL l ≠ []

instance (m : Message) : Decidable m.Whole := inferInstanceAs (Decidable (∀ _ ∈ _, _))

/-- The parts of an accepted message: lines, an empty line, the body. -/
structure Message.Split (m : Message) (lines : List Bytes) (blank : Bytes) : Prop where
  block : splitLines m.block = lines ++ [blank]
  raw : splitLines m.raw = lines ++ blank :: splitLines m.body
  empty : chopEOL blank = []
  nonempty : blank ≠ []

theorem parseMessage_split {g : GoText} {raw : Bytes} {m : Message} (h : parseMessage g raw = .ok m) :
    m.raw = raw ∧ ∃ lines blank, m.Split lines blank := by
  unfold parseMessage at h
  split at h
  · cases h
  next headerEnd hend =>
  split at h
  · cases h
  split at h
  · cases h
  cases h
  obtain ⟨front, eol, hfront, heol⟩ := findHeaderEnd_ends hend
  have hno : lf ∉ eol := by
    obtain rfl | rfl := heol <;> decide
  have hsplit : ∀ rest, splitLines (front ++ [lf] ++ eol ++ [lf] ++ rest)
      = splitLines (front ++ [lf]) ++ (eol ++ [lf]) :: splitLines rest := by
    intro rest
    have hcut := splitLines_append (a := front) (eol ++ lf :: rest)
    rw [splitLines_line rest hno] at hcut
    simpa using hcut
  refine ⟨rfl, splitLines (front ++ [lf]), eol ++ [lf], ⟨?_, ?_, ?_, by simp⟩⟩
  · have hblock := hsplit []
    rw [append_nil] at hblock
    rw [Message.block, hfront, hblock]
    rfl
  · conv_lhs => rw [← take_append_drop headerEnd raw, hfront, hsplit]
    rfl
  · obtain rfl | rfl := heol <;> decide

theorem dropWhile_append_stop {α : Type} {p : α → Bool} {x : α} (hx : p x = false) (l r : List α) :
    (l ++ x :: r).dropWhile p = l.dropWhile p ++ x :: r := by
  induction l with
  | nil => rw [nil_append, dropWhile_cons_of_neg (by simp [hx])]; rfl
  | cons y l ih =>
  by_cases hy : p y = true
  · rw [cons_append, dropWhile_cons_of_pos hy, dropWhile_cons_of_pos hy, ih]
  rw [cons_append, dropWhile_cons_of_neg hy, dropWhile_cons_of_neg hy]
  rfl

/-- **The body is what follows the first empty line exactly where no empty line
stands before the end of the block.** -/
theorem body_eq_afterBlank_iff {m : Message} {lines : List Bytes} {blank : Bytes}
    (h : m.Split lines blank) : m.body = afterBlank m.raw ↔ m.Whole := by
  have hwhole : m.Whole ↔ ∀ l ∈ lines, chopEOL l ≠ [] := by
    rw [Message.Whole, h.block, dropLast_concat]
  have hafter : afterBlank m.raw
      = ((lines.dropWhile fun l => chopEOL l ≠ []) ++ blank :: splitLines m.body).tail.flatten := by
    rw [afterBlank, h.raw, dropWhile_append_stop (by simp [h.empty])]
  rw [hafter, hwhole]
  cases hdrop : lines.dropWhile fun l => chopEOL l ≠ [] with
  | nil =>
    rw [dropWhile_eq_nil_iff] at hdrop
    simpa [splitLines_flatten] using hdrop
  | cons l rest =>
  -- an empty line: the rest of the block and the blank line are missing from the body
  have hempty : ¬ ∀ l ∈ lines, chopEOL l ≠ [] := by
    intro hall
    have hnil : lines.dropWhile (fun l => decide (chopEOL l ≠ [])) = [] :=
      dropWhile_eq_nil_iff.2 (by simpa using hall)
    rw [hnil] at hdrop
    cases hdrop
  refine iff_of_false (fun hbody => ?_) hempty
  have hlen := congrArg List.length hbody
  rw [cons_append, tail_cons, flatten_append, flatten_cons, splitLines_flatten] at hlen
  simp only [length_append] at hlen
  have hpos := length_pos_iff.2 h.nonempty
  omega

/-- **The body survives the rewrite exactly where the header block has no empty
line before its end.** -/
theorem body_survives_iff {g : GoText} {raw : Bytes} {m : Message}
    (h : parseMessage g raw = .ok m) :
    (∀ (o : MapOrder) (edits : List HeaderEdit), m.rewriteHeaders o edits
        = renderFields (rewrittenFields o edits (fields raw)) ++ crlf ++ afterBlank raw) ↔
      m.Whole := by
  obtain ⟨hlines, hread⟩ := parseMessage_ok h
  obtain ⟨rfl, lines, blank, hsplit⟩ := parseMessage_split h
  have hfields : fields m.block = fields m.raw := by rw [fields, hlines, fields]
  have hout : ∀ (o : MapOrder) (edits : List HeaderEdit), m.rewriteHeaders o edits
      = renderFields (rewrittenFields o edits (fields m.raw)) ++ crlf ++ m.body := by
    intro o edits
    rw [rewriteHeaders_eq o edits (readMIMEHeader_ok hread).1, hfields]
  rw [← body_eq_afterBlank_iff hsplit]
  constructor
  · intro hall
    have hone := hall ⟨id, MapOrder.id_perm⟩ []
    rw [hout] at hone
    exact append_cancel_left hone
  intro hbody o edits
  rw [hout, hbody]

def plainMessage : Message :=
  { raw := ascii "A: b\r\n\r\nhi\n\n", headerEnd := 8, header := [(ascii "A", ascii "b")] }

theorem plainMessage_survives :
    parseMessage bareText plainMessage.raw = .ok plainMessage ∧ plainMessage.Whole ∧
    ∀ (o : MapOrder) (edits : List HeaderEdit), plainMessage.rewriteHeaders o edits
      = renderFields (rewrittenFields o edits (fields plainMessage.raw)) ++ crlf ++
        afterBlank plainMessage.raw :=
  ⟨rfl, by decide, (body_survives_iff (g := bareText) rfl).2 (by decide)⟩

/-- The header block ends with bare line feeds, and two CRLFs follow in the body. -/
def mixedMessage : Message :=
  { raw := ascii "A: b\n\nhi\r\n\r\nyou", headerEnd := 12, header := [(ascii "A", ascii "b")] }

/-- The first paragraph of the body is gone. -/
theorem mixedMessage_loses : parseMessage bareText mixedMessage.raw = .ok mixedMessage ∧
    afterBlank mixedMessage.raw = ascii "hi\r\n\r\nyou" ∧
    mixedMessage.rewriteHeaders ⟨id, MapOrder.id_perm⟩ [] = ascii "A: b\r\n\r\nyou" :=
  ⟨rfl, by decide, by decide⟩

/-! ## Field by field -/

/-- The value of the last edit that replaces this name. -/
def lastEdit (edits : List HeaderEdit) (name : Bytes) : Option Bytes :=
  (edits.reverse.find? fun e => !e.prepend && canonicalMIMEHeaderKey e.key = name).map (·.value)

theorem lookup_setKey (m : List (Bytes × Bytes)) (k v name : Bytes) :
    (setKey m k v).lookup name = if name = k then some v else m.lookup name := by
  unfold setKey
  split
  · next hany =>
    -- the key is there: its entries are changed where they stand
    induction m with
    | nil => cases hany
    | cons e m ih =>
    rw [map_cons]
    by_cases he : e.1 = k
    · rw [if_pos he, lookup_cons, lookup_cons, he]
      by_cases hname : name = k
      · simp [hname]
      have hne : (name == k) = false := by simpa using hname
      rw [hne]
      simp only [if_neg hname]
      by_cases hmore : (m.any fun e => decide (e.1 = k)) = true
      · rw [ih hmore, if_neg hname]
      have hnone : (m.map fun e => if e.1 = k then (k, v) else e) = m := by
        refine (map_congr_left fun e' he' => if_neg fun hk => hmore ?_).trans (map_id _)
        exact any_eq_true.2 ⟨e', he', by simpa using hk⟩
      rw [hnone]
    rw [if_neg he, lookup_cons, lookup_cons]
    have hmore : (m.any fun e => decide (e.1 = k)) = true := by simpa [he] using hany
    by_cases hname : name = e.1
    · have hk : name ≠ k := fun h => he (hname ▸ h)
      simp [hname, he]
    have hne : (name == e.1) = false := by simpa using hname
    rw [hne]
    exact ih hmore
  · next hany =>
    have hno : ∀ e ∈ m, e.1 ≠ k :=
      fun e he hk => hany (any_eq_true.2 ⟨e, he, by simpa using hk⟩)
    by_cases hname : name = k
    · rw [if_pos hname, lookup_append, lookup_eq_none_iff.2, hname]
      · simp
      · intro e he
        simpa [hname] using fun h => hno e he h.symm
    have hne : (name == k) = false := by simpa using hname
    rw [if_neg hname, lookup_append]
    simp [lookup_cons, hne]

/-- **The last edit of a name wins.** -/
theorem lookup_replaceOf (edits : List HeaderEdit) (name : Bytes) :
    (replaceOf edits).lookup name = lastEdit edits name := by
  unfold replaceOf lastEdit
  induction edits using List.reverseRecOn with
  | nil => rfl
  | append_singleton edits e ih =>
  rw [filter_append, foldl_append, reverse_append, reverse_singleton, singleton_append, find?_cons]
  by_cases hpre : e.prepend = true
  · rw [filter_cons_of_neg (by simp [hpre]), filter_nil, foldl_nil, ih]
    simp [hpre]
  rw [filter_cons_of_pos (by simp [hpre]), filter_nil, foldl_cons, foldl_nil, lookup_setKey, ih]
  by_cases hname : canonicalMIMEHeaderKey e.key = name
  · simp [hpre, hname]
  have hname' : name ≠ canonicalMIMEHeaderKey e.key := fun h => hname h.symm
  simp [hname, hname']

theorem setKey_nodup {m : List (Bytes × Bytes)} (h : (m.map Prod.fst).Nodup) (k v : Bytes) :
    ((setKey m k v).map Prod.fst).Nodup := by
  unfold setKey
  split
  · have hkeys : (m.map fun e => if e.1 = k then (k, v) else e).map Prod.fst = m.map Prod.fst := by
      rw [map_map]
      refine map_congr_left fun e _ => ?_
      by_cases he : e.1 = k
      · simp [he]
      · simp [he]
    rwa [hkeys]
  next hany =>
  have hno : ∀ e ∈ m, e.1 ≠ k :=
    fun e he hk => hany (any_eq_true.2 ⟨e, he, by simpa using hk⟩)
  rw [map_append, map_cons, map_nil, nodup_append]
  refine ⟨h, nodup_singleton k, ?_⟩
  intro name hname k' hk' heq
  obtain ⟨e, he, rfl⟩ := mem_map.1 hname
  exact hno e he (heq.trans (mem_singleton.1 hk'))

theorem replaceOf_nodup (edits : List HeaderEdit) : ((replaceOf edits).map Prod.fst).Nodup := by
  have hfold : ∀ (es : List HeaderEdit) (m : List (Bytes × Bytes)), (m.map Prod.fst).Nodup →
      ((es.foldl (fun m e => setKey m (canonicalMIMEHeaderKey e.key) e.value) m).map Prod.fst).Nodup := by
    intro es
    induction es with
    | nil => exact fun m hm => hm
    | cons e es ih => exact fun m hm => ih _ (setKey_nodup hm _ _)
  exact hfold _ [] nodup_nil

theorem mem_replaceOf_iff {edits : List HeaderEdit} {k v : Bytes} :
    (k, v) ∈ replaceOf edits ↔ lastEdit edits k = some v := by
  rw [← lookup_replaceOf]
  refine ⟨fun hmem => ?_, mem_of_lookup⟩
  cases hl : (replaceOf edits).lookup k with
  | none =>
    have := lookup_eq_none_iff.1 hl (k, v) hmem
    simp at this
  | some w =>
    have hinj := inj_on_of_nodup_map (replaceOf_nodup edits) hmem (mem_of_lookup hl) rfl
    rw [(Prod.mk.inj hinj).2]

/-- What becomes of a field: it stays where its name has no edit, is replaced by
one line, or is dropped where the value is empty. -/
def editedField (edits : List HeaderEdit) (f : Field) : List Field :=
  match lastEdit edits (walkKey f) with
  | none => [f]
  | some newValue => if newValue ≠ [] then [writtenField (walkKey f) newValue] else []

theorem Accepted.named {f : Field} (hf : f.WellFormed) (h : Accepted f) :
    58 ∈ f.line ∧ f.line.takeWhile (· ≠ 58) ≠ [] := by
  refine ⟨h.colon, fun hnil => ?_⟩
  have hname := h.name
  rw [key_eq hf h.colon, hnil] at hname
  exact absurd hname (by decide)

theorem rewriteField_eq (edits : List HeaderEdit) {f : Field} (hf : f.WellFormed) (h : Accepted f) :
    rewriteField (replaceOf edits) f = editedField edits f := by
  rw [rewriteField, editOf_named (Accepted.named hf h), lookup_replaceOf]
  unfold editedField
  cases lastEdit edits (walkKey f) <;> rfl

theorem whole_lines {g : GoText} {raw : Bytes} {m : Message} (h : parseMessage g raw = .ok m)
    (hwhole : m.Whole) :
    (fields raw).flatMap Field.lines = (splitLines m.block).dropLast.map trimEOL := by
  obtain ⟨hlines, hread⟩ := parseMessage_ok h
  obtain ⟨rfl, lines, blank, hsplit⟩ := parseMessage_split h
  have hcr := readLines_no_cr hread
  have hblock := groupLines_lines (headerLines m.raw)
  rw [← hlines, (readMIMEHeader_ok hread).1, nil_append, hlines] at hblock
  rw [fields, hblock, ← hlines, headerLines_of_readLines hcr, hsplit.block, dropLast_concat]
  have hne : ∀ l ∈ lines, chopEOL l ≠ [] := by
    rwa [Message.Whole, hsplit.block, dropLast_concat] at hwhole
  have hread' : readLines m.block = lines.map chopEOL := by
    rw [readLines, hsplit.block, map_append, map_cons, hsplit.empty,
      takeWhile_stop (by simp), takeWhile_eq_self_iff]
    intro l hl
    obtain ⟨l', hl', rfl⟩ := mem_map.1 hl
    simpa using hne l' hl'
  rw [hread']
  refine map_congr_left fun l hl => ?_
  have hmem : l ∈ splitLines m.block := by rw [hsplit.block]; exact mem_append_left _ hl
  exact (trimEOL_of_chopEOL hmem (hcr _ (hread' ▸ mem_map_of_mem hl))).symm

/-- The edits that have a value and met no field. -/
def missingEdits (o : MapOrder) (edits : List HeaderEdit) (fs : List Field) : List (Bytes × Bytes) :=
  (o.order (replaceOf edits)).filter fun e =>
    !(fs.any fun f => (editOf (replaceOf edits) f).isSome && walkKey f = e.1) && e.2 ≠ []

theorem missingEdits_nodup (o : MapOrder) (edits : List HeaderEdit) (fs : List Field) :
    ((missingEdits o edits fs).map Prod.fst).Nodup := by
  have horder : ((o.order (replaceOf edits)).map Prod.fst).Nodup :=
    ((o.perm (replaceOf edits)).map Prod.fst).nodup_iff.2 (replaceOf_nodup edits)
  exact horder.sublist (filter_sublist.map Prod.fst)

theorem mem_missingEdits {o : MapOrder} {edits : List HeaderEdit} {fs : List Field}
    (hacc : ∀ f ∈ fs, f.WellFormed ∧ Accepted f) (k v : Bytes) :
    (k, v) ∈ missingEdits o edits fs ↔
      lastEdit edits k = some v ∧ v ≠ [] ∧ ∀ f ∈ fs, walkKey f ≠ k := by
  rw [missingEdits, mem_filter, (o.perm _).mem_iff, mem_replaceOf_iff]
  simp only [Bool.and_eq_true, Bool.not_eq_true', decide_eq_true_eq, any_eq_false]
  constructor
  · rintro ⟨hlast, hmet, hv⟩
    refine ⟨hlast, hv, fun f hf hk => hmet f hf ⟨?_, hk⟩⟩
    -- a field of this name would have been met
    rw [editOf_named (Accepted.named (hacc f hf).1 (hacc f hf).2), lookup_replaceOf, hk, hlast]
    rfl
  rintro ⟨hlast, hv, hmet⟩
  exact ⟨hlast, fun f hf h => hmet f hf h.2, hv⟩

/-- What a rewrite has to do. -/
structure ExactRewrite (o : MapOrder) (raw : Bytes) (m : Message) (edits : List HeaderEdit) : Prop where
  /-- Nothing but fields: no line stands before the first of them. -/
  noStray : (groupLines (headerLines (m.rewriteHeaders o edits))).1 = []
  /-- The prepended fields, the original ones edited, and in some order one field for every edit
  that has a value and met no field. -/
  read : ∃ missing : List (Bytes × Bytes), (missing.map Prod.fst).Nodup ∧
    (∀ k v, (k, v) ∈ missing ↔
      lastEdit edits k = some v ∧ v ≠ [] ∧ ∀ f ∈ fields raw, walkKey f ≠ k) ∧
    fields (m.rewriteHeaders o edits)
      = (edits.filter (·.prepend)).map (fun e => writtenField e.key e.value) ++
        (fields raw).flatMap (editedField edits) ++ missing.map fun e => writtenField e.1 e.2
  /-- They are written out line by line, then an empty line and the body. -/
  written : m.rewriteHeaders o edits
    = renderFields (fields (m.rewriteHeaders o edits)) ++ crlf ++ m.body
  /-- The original fields are all the lines of the block, without their line endings. -/
  original : (fields raw).flatMap Field.lines = (splitLines m.block).dropLast.map trimEOL

/-- **Header rewriting does exactly the edits.** -/
theorem rewrite_exact (o : MapOrder) {g : GoText} {raw : Bytes} {m : Message}
    {edits : List HeaderEdit} (h : parseMessage g raw = .ok m) (hwhole : m.Whole)
    (hvalid : ∀ e ∈ edits, ValidName e.key) : ExactRewrite o raw m edits := by
  obtain ⟨hlines, hread⟩ := parseMessage_ok h
  obtain ⟨hlead, -, hacc⟩ := readMIMEHeader_ok hread
  have hfields : fields m.block = fields raw := by rw [fields, hlines, fields]
  have hout := rewriteHeaders_eq o edits hlead
  have hclean := rewrittenFields_clean (m := m) o hvalid
  have hback : fields (m.rewriteHeaders o edits) = rewrittenFields o edits (fields m.block) := by
    rw [hout, fields_renderFields hclean]
  have hlinesOut : headerLines (m.rewriteHeaders o edits)
      = (rewrittenFields o edits (fields m.block)).flatMap Field.lines := by
    rw [hout, renderFields, append_assoc, headerLines_render]
    intro l hl
    obtain ⟨f, hf, hlf⟩ := mem_flatMap.1 hl
    exact (hclean f hf).lines l hlf
  rw [hfields] at hacc
  have hkept : (fields raw).flatMap (rewriteField (replaceOf edits))
      = (fields raw).flatMap (editedField edits) :=
    flatMap_congr fun f hf => rewriteField_eq edits (fields_clean hf).wellFormed (hacc f hf)
  constructor
  case noStray => rw [hlinesOut, groupLines_fields fun f hf => (hclean f hf).wellFormed]
  case read =>
    refine ⟨missingEdits o edits (fields raw), missingEdits_nodup o edits _,
      mem_missingEdits fun f hf => ⟨(fields_clean hf).wellFormed, hacc f hf⟩, ?_⟩
    rw [hback, hfields, rewrittenFields, hkept]
    rfl
  case written => rw [hback, ← hout]
  case original => exact whole_lines h hwhole

/-- An edit that tries to open a field of its own, and one for a field that is not there. -/
def hostileEdits : List HeaderEdit :=
  [{ key := ascii "a", value := ascii "x\r\nBcc: y@z" }, { key := ascii "B", value := ascii "c" }]

theorem plainMessage_edited :
    parseMessage bareText plainMessage.raw = .ok plainMessage ∧ plainMessage.Whole ∧
    (∀ e ∈ hostileEdits, ValidName e.key) ∧
    ExactRewrite ⟨id, MapOrder.id_perm⟩ plainMessage.raw plainMessage hostileEdits := by
  have hvalid : ∀ e ∈ hostileEdits, ValidName e.key := by
    intro e he
    simp only [hostileEdits, mem_cons, not_mem_nil, or_false] at he
    obtain rfl | rfl := he
    · exact ⟨by decide, by decide +kernel⟩
    · exact ⟨by decide, by decide +kernel⟩
  exact ⟨rfl, by decide, hvalid, rewrite_exact _ (g := bareText) rfl (by decide) hvalid⟩

example : plainMessage.rewriteHeaders ⟨id, MapOrder.id_perm⟩ hostileEdits
    = ascii "A: x Bcc: y@z\r\nB: c\r\n\r\nhi\n\n" := by decide

end SmtpProxy.Smtpsrv
