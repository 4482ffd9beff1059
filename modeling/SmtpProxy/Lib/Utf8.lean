import SmtpProxy.Lib.Bytes

/-!
# UTF-8

`unicode/utf8`. The first byte of a character fixes how many bytes follow it and
in which range each lies, so a text is read byte by byte with the ranges still
owed as the state. A byte below 0x80 is never owed: it ends the character before
it, and a text may be taken apart there. `valid_append` and
`valid_append_of_start` are these two ways of taking a text apart.

`IsText` is what a database takes for a text value: UTF-8 without a NUL.
-/

namespace SmtpProxy.Lib.Utf8

open List

/-- An inclusive range of bytes. -/
structure Range where
  lo : UInt8
  hi : UInt8

def Range.has (r : Range) (b : UInt8) : Bool := r.lo ≤ b && b ≤ r.hi

/-- `locb` to `hicb`: any continuation byte. -/
def anyTail : Range := ⟨0x80, 0xbf⟩

/-- The tables `first` and `acceptRanges`: what must follow the first byte of a
character, or `none` for a byte no character begins with. -/
def following (b : UInt8) : Option (List Range) :=
  if b < 0x80 then some []
  else if b < 0xc2 then none
  else if b < 0xe0 then some [anyTail]
  else if b = 0xe0 then some [⟨0xa0, 0xbf⟩, anyTail]
  else if b = 0xed then some [⟨0x80, 0x9f⟩, anyTail]
  else if b < 0xf0 then some [anyTail, anyTail]
  else if b = 0xf0 then some [⟨0x90, 0xbf⟩, anyTail, anyTail]
  else if b < 0xf4 then some [anyTail, anyTail, anyTail]
  else if b = 0xf4 then some [⟨0x80, 0x8f⟩, anyTail, anyTail]
  else none

/-- The bytes end the character they begin in, `owed` being what is missing of
it, and go on with whole characters. -/
def completes : List Range → Bytes → Bool
  | [], [] => true
  | _ :: _, [] => false
  | [], b :: s => (following b).any fun owed => completes owed s
  | r :: owed, b :: s => r.has b && completes owed s

def valid (s : Bytes) : Bool := completes [] s

/-- `utf8.RuneStart`: not a continuation byte. -/
def runeStart (b : UInt8) : Bool := b < 0x80 || 0xc0 ≤ b

/-! ## Taking a text apart -/

def Tails (owed : List Range) : Prop := ∀ r ∈ owed, ∀ b, r.has b = true → runeStart b = false

variable {b : UInt8}

theorem has_tail {r : Range} (hlo : 0x80 ≤ r.lo) (hhi : r.hi ≤ 0xbf) (h : r.has b = true) :
    runeStart b = false := by
  simp only [Range.has, Bool.and_eq_true, decide_eq_true_eq, UInt8.le_iff_toNat_le] at h hlo hhi
  simp only [runeStart, Bool.or_eq_false_iff, decide_eq_false_iff_not, UInt8.lt_iff_toNat_lt,
    UInt8.le_iff_toNat_le]
  have h80 : (0x80 : UInt8).toNat = 128 := rfl
  have hbf : (0xbf : UInt8).toNat = 191 := rfl
  have hc0 : (0xc0 : UInt8).toNat = 192 := rfl
  omega

variable {owed : List Range}

theorem tails_following (h : following b = some owed) : Tails owed := by
  have hall : ∀ owed' ∈ following b, ∀ r ∈ owed', 0x80 ≤ r.lo ∧ r.hi ≤ 0xbf := by
    clear h
    unfold following
    repeat' split
    all_goals decide
  intro r hr b' hb'
  exact has_tail (hall owed h r hr).1 (hall owed h r hr).2 hb'

theorem tails_nil : Tails [] := by simp [Tails]

theorem Tails.tail {r : Range} (h : Tails (r :: owed)) : Tails owed :=
  fun r' hr' => h r' (.tail _ hr')

variable {s : Bytes}

theorem completes_append (h : completes owed s = true) (t : Bytes) :
    completes owed (s ++ t) = valid t := by
  induction s generalizing owed with
  | nil =>
    cases owed with
    | nil => rfl
    | cons r owed => simp [completes] at h
  | cons b s ih =>
  cases owed with
  | nil =>
    rw [completes] at h
    obtain ⟨owed, hb, hs⟩ := (Option.any_eq_true _ _).1 h
    rw [cons_append, completes, hb, Option.any_some, ih hs]
  | cons r owed =>
    rw [completes, Bool.and_eq_true] at h
    rw [cons_append, completes, h.1, Bool.true_and, ih h.2]

theorem valid_append (h : valid s = true) (t : Bytes) : valid (s ++ t) = valid t :=
  completes_append h t

/-- The text does not begin in the middle of a character. -/
def Starts (s : Bytes) : Prop := ∀ b ∈ s.head?, runeStart b = true

variable {t : Bytes}

/-- Where a character begins, the one before it has ended. -/
theorem completes_append_of_start (howed : Tails owed) (ht : Starts t) (s : Bytes) :
    completes owed (s ++ t) = (completes owed s && valid t) := by
  induction s generalizing owed with
  | nil =>
    cases owed with
    | nil => rfl
    | cons r owed =>
    rw [nil_append, completes, Bool.false_and]
    cases t with
    | nil => rfl
    | cons b t =>
    have hb : r.has b = false := by
      by_contra hhas
      have htail := howed r (.head _) b (by simpa using hhas)
      rw [ht b rfl] at htail
      cases htail
    rw [completes, hb, Bool.false_and]
  | cons b s ih =>
  cases owed with
  | nil =>
    rw [cons_append, completes, completes]
    cases hb : following b with
    | none => rfl
    | some owed => exact ih (tails_following hb)
  | cons r owed =>
    rw [cons_append, completes, completes, ih howed.tail, Bool.and_assoc]

theorem valid_append_of_start (ht : Starts t) (s : Bytes) : valid (s ++ t) = (valid s && valid t) :=
  completes_append_of_start tails_nil ht s

theorem valid_cons_ascii (hb : b < 0x80) (s : Bytes) : valid (b :: s) = valid s := by
  rw [valid, completes, following, if_pos hb]
  rfl

theorem valid_of_ascii (h : ∀ b ∈ s, b < 0x80) : valid s = true := by
  induction s with
  | nil => rfl
  | cons b s ih =>
    rw [valid_cons_ascii (h b (.head _))]
    exact ih fun b' hb' => h b' (.tail _ hb')

/-- A valid text that is not empty begins with the first byte of a character. -/
theorem starts_of_valid (h : valid s = true) : Starts s := by
  intro b hb
  cases s with
  | nil => cases hb
  | cons c s =>
  obtain rfl : c = b := by simpa using hb
  rw [valid, completes] at h
  obtain ⟨owed, howed, -⟩ := (Option.any_eq_true _ _).1 h
  have hall : ∀ b : UInt8, (following b).isSome = true → runeStart b = true :=
    forall_byte (by decide +kernel)
  exact hall c (by rw [howed]; rfl)

/-! ## Counting characters -/

/-- `utf8.RuneCountInString` of a valid text: the bytes that begin a character. -/
def runeCount (s : Bytes) : Nat := s.countP runeStart

theorem runeCount_append (s t : Bytes) : runeCount (s ++ t) = runeCount s + runeCount t :=
  countP_append

theorem runeCount_cons_ascii (hb : b < 0x80) (s : Bytes) : runeCount (b :: s) = runeCount s + 1 :=
  countP_cons_of_pos (by simp [runeStart, hb])

/-- `t` is `s`, or has fewer characters. -/
def Within (t s : Bytes) : Prop := t = s ∨ runeCount t < runeCount s

theorem Within.rfl : Within s s := .inl (Eq.refl s)

theorem Within.trans {u : Bytes} (h₁ : Within u t) (h₂ : Within t s) : Within u s := by
  obtain rfl | h₁ := h₁
  · exact h₂
  obtain rfl | h₂ := h₂
  · exact .inr h₁
  · exact .inr (h₁.trans h₂)

theorem Within.count_le (h : Within t s) : runeCount t ≤ runeCount s := by
  obtain rfl | h := h
  · exact le_refl _
  · exact h.le

theorem within_of_append {d : Bytes} (hd : ∀ b ∈ d.head?, runeStart b = true) :
    Within t (d ++ t) := by
  cases d with
  | nil => exact .rfl
  | cons b d =>
  right
  rw [cons_append, ← singleton_append, runeCount_append, runeCount_append]
  have hb : runeCount [b] = 1 := countP_cons_of_pos (hd b rfl)
  omega

theorem within_dropWhile {p : UInt8 → Bool} (hp : ∀ b, p b = true → b < 0x80) (s : Bytes) :
    Within (s.dropWhile p) s := by
  have hsplit := takeWhile_append_dropWhile (p := p) (l := s)
  have hdrop : Within (s.dropWhile p) (s.takeWhile p ++ s.dropWhile p) := by
    apply within_of_append
    intro b hb
    have hmem : b ∈ s.takeWhile p := mem_of_mem_head? hb
    simp [runeStart, hp b (mem_takeWhile_imp hmem)]
  rwa [hsplit] at hdrop

theorem Within.reverse (h : Within t s) : Within t.reverse s.reverse := by
  obtain rfl | h := h
  · exact .rfl
  right
  simpa [runeCount] using h

theorem within_trimSet {cutset : Bytes} (h : ∀ b ∈ cutset, b < 0x80) (s : Bytes) :
    Within (trimSet cutset s) s := by
  have hp : ∀ b, cutset.contains b = true → b < 0x80 := fun b hb => h b (by simpa using hb)
  have hback := (within_dropWhile hp (s.dropWhile cutset.contains).reverse).reverse
  rw [reverse_reverse] at hback
  exact hback.trans (within_dropWhile hp s)

/-! ## White space -/

theorem stripLeading_spec {words : List Bytes} (hw : ∀ w ∈ words, valid w = true) (fuel : Nat)
    (s : Bytes) :
    Within (stripLeading words fuel s) s ∧ valid (stripLeading words fuel s) = valid s := by
  induction fuel generalizing s with
  | zero => exact ⟨.rfl, rfl⟩
  | succ fuel ih =>
  rw [stripLeading]
  split
  · next w hfind =>
    have hprefix := find?_some hfind
    obtain ⟨rest, rfl⟩ := isPrefixOf_iff_prefix.1 hprefix
    have hvalid := hw w (mem_of_find?_eq_some hfind)
    rw [drop_left]
    refine ⟨(ih rest).1.trans (within_of_append (starts_of_valid hvalid)), ?_⟩
    rw [(ih rest).2, valid_append hvalid]
  · exact ⟨.rfl, rfl⟩

theorem stripLeading_reverse_spec {words : List Bytes} (hw : ∀ w ∈ words, valid w = true)
    (fuel : Nat) (s : Bytes) :
    Within (stripLeading (words.map List.reverse) fuel s.reverse).reverse s ∧
      valid (stripLeading (words.map List.reverse) fuel s.reverse).reverse = valid s := by
  induction fuel generalizing s with
  | zero => simp [stripLeading, Within.rfl]
  | succ fuel ih =>
  rw [stripLeading]
  split
  · next w hfind =>
    have hprefix := find?_some hfind
    obtain ⟨w, hmem, rfl⟩ := mem_map.1 (mem_of_find?_eq_some hfind)
    obtain ⟨rest, hrest⟩ := isPrefixOf_iff_prefix.1 hprefix
    have hs : s = rest.reverse ++ w := by
      rw [← reverse_reverse s, ← hrest, reverse_append, reverse_reverse]
    have hvalid := hw w hmem
    rw [← hrest, drop_left, ← reverse_reverse rest]
    obtain ⟨hwithin, hval⟩ := ih rest.reverse
    refine ⟨hwithin.trans ?_, ?_⟩
    · subst hs
      rcases w with _ | ⟨b, w⟩
      · rw [append_nil]
        exact .rfl
      right
      have hb : runeCount [b] = 1 := countP_cons_of_pos (starts_of_valid hvalid b rfl)
      rw [runeCount_append, ← singleton_append, runeCount_append, hb]
      omega
    · rw [hval, hs, valid_append_of_start (starts_of_valid hvalid), hvalid, Bool.and_true]
  rw [reverse_reverse]
  exact ⟨.rfl, rfl⟩

theorem spaceEncodings_valid : ∀ w ∈ spaceEncodings, valid w = true := by decide +kernel

theorem within_trimSpace (s : Bytes) : Within (trimSpace s) s :=
  (stripLeading_reverse_spec spaceEncodings_valid _ _).1.trans
    (stripLeading_spec spaceEncodings_valid _ _).1

theorem valid_trimSpace (s : Bytes) : valid (trimSpace s) = valid s :=
  ((stripLeading_reverse_spec spaceEncodings_valid _ _).2).trans
    (stripLeading_spec spaceEncodings_valid _ _).2

/-! ## Text values -/

/-- UTF-8 without a NUL: what PostgreSQL takes for a text. -/
structure IsText (s : Bytes) : Prop where
  utf8 : valid s = true
  noNul : 0 ∉ s

instance (s : Bytes) : Decidable (IsText s) :=
  decidable_of_iff (valid s = true ∧ 0 ∉ s) ⟨fun h => ⟨h.1, h.2⟩, fun h => ⟨h.utf8, h.noNul⟩⟩

theorem IsText.nil : IsText [] := ⟨rfl, not_mem_nil⟩

theorem IsText.append (hs : IsText s) (ht : IsText t) : IsText (s ++ t) := by
  refine ⟨by rw [valid_append hs.utf8, ht.utf8], fun h => ?_⟩
  obtain h | h := mem_append.1 h
  · exact hs.noNul h
  · exact ht.noNul h

theorem IsText.append_iff (hs : IsText s) (t : Bytes) : IsText (s ++ t) ↔ IsText t := by
  refine ⟨fun h => ⟨?_, fun h0 => h.noNul (mem_append_right _ h0)⟩, hs.append⟩
  rw [← valid_append hs.utf8 t, h.utf8]

theorem IsText.append_left_iff (ht : IsText t) (s : Bytes) : IsText (s ++ t) ↔ IsText s := by
  refine ⟨fun h => ⟨?_, fun h0 => h.noNul (mem_append_left _ h0)⟩, fun hs => hs.append ht⟩
  have hboth := h.utf8
  rw [valid_append_of_start (starts_of_valid ht.utf8), Bool.and_eq_true] at hboth
  exact hboth.1

theorem isText_trimSpace_iff (s : Bytes) : IsText (trimSpace s) ↔ IsText s := by
  have hspaces : ∀ w ∈ spaceEncodings, 0 ∉ w := by decide +kernel
  constructor
  · intro h
    exact ⟨by rw [← valid_trimSpace, h.utf8], fun h0 => h.noNul (mem_trimSpace hspaces h0)⟩
  intro h
  exact ⟨by rw [valid_trimSpace, h.utf8], fun h0 => h.noNul (mem_of_mem_trimSpace h0)⟩

theorem isText_of_ascii (h : ∀ b ∈ s, b < 0x80 ∧ b ≠ 0) : IsText s :=
  ⟨valid_of_ascii fun b hb => (h b hb).1, fun h0 => (h 0 h0).2 rfl⟩

theorem isText_trimSet_iff {cutset : Bytes} (h : ∀ b ∈ cutset, b < 0x80 ∧ b ≠ 0) (s : Bytes) :
    IsText (trimSet cutset s) ↔ IsText s := by
  have hcut : ∀ b, cutset.contains b = true → b < 0x80 ∧ b ≠ 0 := fun b hb => h b (by simpa using hb)
  have hfront : IsText (s.takeWhile cutset.contains) :=
    isText_of_ascii fun b hb => hcut b (mem_takeWhile_imp hb)
  have hback : IsText ((s.dropWhile cutset.contains).rtakeWhile cutset.contains) :=
    isText_of_ascii fun b hb => hcut b (mem_rtakeWhile_imp hb)
  have hsplit : (s.dropWhile cutset.contains).rdropWhile cutset.contains ++
      (s.dropWhile cutset.contains).rtakeWhile cutset.contains = s.dropWhile cutset.contains := by
    rw [List.rdropWhile, List.rtakeWhile, ← reverse_append, takeWhile_append_dropWhile,
      reverse_reverse]
  conv_rhs => rw [← takeWhile_append_dropWhile (p := cutset.contains) (l := s)]
  rw [hfront.append_iff, ← hsplit, hback.append_left_iff, trimSet]

theorem isText_itoa (n : Int) : IsText (itoa n) := by
  have hnat : ∀ m : Nat, IsText (itoa m) := by
    intro m
    apply isText_of_ascii
    intro b hb
    have hall : ∀ b : UInt8, isDigit b = true → b < 0x80 ∧ b ≠ 0 := forall_byte (by decide +kernel)
    exact hall b (itoa_digit hb)
  cases n with
  | ofNat m => exact hnat m
  | negSucc m =>
  have hsign : itoa (Int.negSucc m) = ascii "-" ++ itoa (m + 1 : Nat) := by
    simp [itoa, ascii, toString, Int.repr]
  rw [hsign]
  exact IsText.append (by decide) (hnat (m + 1))

end SmtpProxy.Lib.Utf8
