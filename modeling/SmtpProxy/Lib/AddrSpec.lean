import SmtpProxy.Lib.NetMail

/-!
# What the address parser returns

A parser that drops blanks, comments, display names, angle brackets and quotes returns
less than it was given. An `AddrSpec` is an address with nothing to drop: dot-atoms on
both sides of the `@`, or an IP address in brackets behind it. `parseAddress_reads` says
that a text is returned as it stands exactly where it is one, and that in every other
case the address has fewer characters than the text.

`Direct` is the grammar of an address with nothing around it: a local part that may be
quoted, the `@`, blanks and the domain. Every address that is returned was written so
somewhere in the text (`parseAddress_writes`), whether one measures it in bytes or in
characters (`Size`).
-/

namespace SmtpProxy.Lib.NetMail

open Utf8 List Option

/-! ## Bare addresses -/

structure DotAtom (a : Bytes) : Prop where
  utf8 : valid a = true
  nonempty : a ≠ []
  atext : ∀ b ∈ a, isAtext true b = true
  dots : misplacedDot a = false

instance (a : Bytes) : Decidable (DotAtom a) :=
  decidable_of_iff (valid a = true ∧ a ≠ [] ∧ a.all (isAtext true) = true ∧ misplacedDot a = false)
    ⟨fun h => ⟨h.1, h.2.1, List.all_eq_true.1 h.2.2.1, h.2.2.2⟩,
      fun h => ⟨h.utf8, h.nonempty, List.all_eq_true.2 h.atext, h.dots⟩⟩

variable (lib : Tables)

structure Literal (text : Bytes) : Prop where
  utf8 : valid text = true
  dtext : ∀ b ∈ text, isDtext b = true
  address : lib.ipLiteral text = true

/-- What may follow the `@`. -/
inductive Domain : Bytes → Prop where
  | atom {d : Bytes} (h : DotAtom d) : Domain d
  | literal {text : Bytes} (h : Literal lib text) : Domain (91 :: (text ++ [93]))

/-- An address with nothing to drop. -/
inductive AddrSpec : Bytes → Prop where
  | mk {localPart domain : Bytes} (hlocal : DotAtom localPart) (hdomain : Domain lib domain) :
      AddrSpec (localPart ++ 64 :: domain)

/-- A text between quotes, and what it stands for. -/
inductive Quoted : Bytes → Bytes → Prop where
  | nil : Quoted [] []
  | plain {b : UInt8} {raw x : Bytes} (hb : (isQtext b || isWSP b) = true) :
      Quoted raw x → Quoted (b :: raw) (b :: x)
  | escaped {b : UInt8} {raw x : Bytes} (hb : (isVchar b || isWSP b) = true) :
      Quoted raw x → Quoted (92 :: b :: raw) (b :: x)

/-- A local part as it is written, and what it stands for. -/
inductive LocalPart : Bytes → Bytes → Prop where
  | atom {x : Bytes} (h : DotAtom x) : LocalPart x x
  | quoted {raw x : Bytes} (h : Quoted raw x) (hutf8 : valid raw = true) (hne : x ≠ []) :
      LocalPart (34 :: (raw ++ [34])) x

/-- An address with nothing around it, and what it stands for. -/
inductive Direct : Bytes → Bytes → Prop where
  | mk {l x ws d : Bytes} (hlocal : LocalPart l x) (hblank : ∀ b ∈ ws, isWSP b = true)
      (hdomain : Domain lib d) : Direct (l ++ 64 :: (ws ++ d)) (x ++ 64 :: d)

/-! ## Characters -/

variable {b : UInt8}

theorem isAtext_true (h : isAtext true b = true) :
    b ≠ 0 ∧ b ≠ 64 ∧ b ≠ 34 ∧ b ≠ 91 ∧ b ≠ 60 ∧ isWSP b = false := by
  have hall : ∀ b, isAtext true b = true →
      b ≠ 0 ∧ b ≠ 64 ∧ b ≠ 34 ∧ b ≠ 91 ∧ b ≠ 60 ∧ isWSP b = false :=
    forall_byte (by decide +kernel)
  exact hall b h

theorem isDtext_true (h : isDtext b = true) : b ≠ 0 ∧ b ≠ 93 := by
  have hall : ∀ b, isDtext b = true → b ≠ 0 ∧ b ≠ 93 := forall_byte (by decide +kernel)
  exact hall b h

theorem isWSP_ascii (h : isWSP b = true) : b < 0x80 := by
  have hall : ∀ b, isWSP b = true → b < 0x80 := forall_byte (by decide +kernel)
  exact hall b h

theorem DotAtom.isText {a : Bytes} (h : DotAtom a) : IsText a :=
  ⟨h.utf8, fun h0 => (isAtext_true (h.atext 0 h0)).1 rfl⟩

theorem Domain.isText {lib : Tables} {d : Bytes} (h : Domain lib d) : IsText d := by
  cases h with
  | atom h => exact h.isText
  | literal h =>
    have htext : IsText _ := ⟨h.utf8, fun h0 => (isDtext_true (h.dtext 0 h0)).1 rfl⟩
    exact IsText.append (s := [91]) (by decide) (htext.append (by decide))

theorem AddrSpec.begins {lib : Tables} {s : Bytes} (h : AddrSpec lib s) :
    ∃ b t, s = b :: t ∧ isAtext true b = true := by
  obtain ⟨hlocal, -⟩ := h
  obtain ⟨b, l, hl⟩ := exists_cons_of_ne_nil hlocal.nonempty
  refine ⟨b, _, by rw [hl, cons_append], hlocal.atext b ?_⟩
  rw [hl]
  exact .head _

/-! ## Positions -/

variable {t : Bytes}

theorem consume_eq_some {c : UInt8} {s : Bytes} : consume c s = some t ↔ s = c :: t := by
  unfold consume
  cases s with
  | nil => simp
  | cons b s =>
  by_cases hb : b = c
  · simp [hb]
  · simp [hb]

theorem skipSpace_of_head {s : Bytes} (hb : isWSP b = false) :
    skipSpace (b :: s) = b :: s := dropWhile_cons_of_neg (by simp [hb])

/-- A comment ends with the parenthesis that closes it. -/
theorem consumeComment_suffix {depth : Nat} {s : Bytes} {r : Bytes × Bytes}
    (h : consumeComment (depth + 1) s = some r) : 41 :: r.2 <:+ s := by
  induction hlen : s.length using Nat.strong_induction_on generalizing depth s r with
  | _ n ih =>
  -- every branch but the last goes on with a shorter text
  have hmore : ∀ {d : Nat} {t : Bytes} {c : UInt8}, t <:+ s → t.length < n →
      (consumeComment (d + 1) t).map (fun r => (c :: r.1, r.2)) = some r → 41 :: r.2 <:+ s := by
    intro d t c ht hlt hr
    obtain ⟨r', hr', rfl⟩ := map_eq_some_iff.1 hr
    exact (ih _ hlt hr' rfl).trans ht
  cases s with
  | nil => simp [consumeComment] at h
  | cons b s =>
  have hs : s <:+ b :: s := suffix_cons _ _
  have hlt : s.length < n := by rw [← hlen, length_cons]; omega
  rw [consumeComment.eq_def] at h
  dsimp only at h
  split at h
  · cases s with
    | nil => cases h
    | cons c s =>
      exact hmore ((suffix_cons _ _).trans hs) (by rw [length_cons] at hlt; omega) h
  split at h
  · exact hmore hs hlt h
  split at h
  · next hclose =>
    cases depth with
    | zero =>
      obtain rfl := some.inj h
      exact hclose ▸ suffix_rfl
    | succ depth => exact hmore hs hlt h
  · exact hmore hs hlt h

theorem skipSpace_suffix (s : Bytes) : skipSpace s <:+ s := dropWhile_suffix isWSP

theorem skipCFWS_suffix {s : Bytes} (h : skipCFWS s = some t) : t <:+ s := by
  have hloop : ∀ fuel s t, skipComments fuel s = some t → t <:+ s := by
    intro fuel
    induction fuel with
    | zero => exact fun s t h => absurd h (by simp [skipComments])
    | succ fuel ih =>
    intro s t h
    rw [skipComments] at h
    split at h
    · rw [← some.inj h]
      exact skipSpace_suffix s
    next s' hopen =>
    obtain ⟨r, hr, hrest⟩ := bind_eq_some_iff.1 h
    have hs' : s' <:+ skipSpace s := by
      rw [consume_eq_some.1 hopen]
      exact suffix_cons _ _
    have hcomment := (suffix_cons 41 r.2).trans (consumeComment_suffix hr)
    exact (((ih _ _ hrest).trans hcomment).trans hs').trans (skipSpace_suffix s)
  exact hloop _ s t h

/-! ## Words -/

theorem quotedText_reads {escaped : Bool} {s : Bytes} {r : Bytes × Bytes × Bytes}
    (h : quotedText escaped s = some r) : s = r.2.1 ++ 34 :: r.2.2 ∧
      Quoted (if escaped then 92 :: r.2.1 else r.2.1) r.1 := by
  induction s generalizing escaped r with
  | nil => simp [quotedText] at h
  | cons b s ih =>
  cases escaped with
  | true =>
    rw [quotedText] at h
    split at h
    · next hb =>
      obtain ⟨r', hr', rfl⟩ := map_eq_some_iff.1 h
      obtain ⟨hs, hquoted⟩ := ih hr'
      exact ⟨congrArg (b :: ·) hs, .escaped hb hquoted⟩
    · cases h
  | false =>
  rw [quotedText] at h
  split at h
  · next hb =>
    obtain ⟨r', hr', rfl⟩ := map_eq_some_iff.1 h
    obtain ⟨hs, hquoted⟩ := ih hr'
    exact ⟨congrArg (b :: ·) hs, .plain hb hquoted⟩
  split at h
  · next hb =>
    cases h
    exact ⟨by rw [hb]; rfl, .nil⟩
  split at h
  · next hb =>
    obtain ⟨r', hr', rfl⟩ := map_eq_some_iff.1 h
    obtain ⟨hs, hquoted⟩ := ih hr'
    exact ⟨congrArg (b :: ·) hs, hb ▸ hquoted⟩
  · cases h

variable {x : Bytes}

theorem Quoted.quotedText {raw : Bytes} (h : Quoted raw x) (rest : Bytes) :
    quotedText false (raw ++ 34 :: rest) = some (x, raw, rest) := by
  induction h with
  | nil => rfl
  | plain hb _ ih => rw [cons_append, NetMail.quotedText, if_pos hb, ih, map_some]
  | escaped hb _ ih =>
    rw [cons_append, cons_append, NetMail.quotedText, if_neg (by decide), if_neg (by decide),
      if_pos rfl, NetMail.quotedText, if_pos hb, ih]
    rfl

/-- What a text between quotes stands for has no more characters, whole ones, and no NUL. -/
theorem Quoted.spec {raw : Bytes} (h : Quoted raw x) : runeCount x ≤ runeCount raw ∧ 0 ∉ x ∧
    ∀ owed, Tails owed → completes owed raw = true → completes owed x = true := by
  -- a byte that is kept
  have hkeep : ∀ {b : UInt8} {raw x : Bytes}, (isVchar b || isWSP b) = true →
      (runeCount x ≤ runeCount raw ∧ 0 ∉ x ∧
        ∀ owed, Tails owed → completes owed raw = true → completes owed x = true) →
      runeCount (b :: x) ≤ runeCount (b :: raw) ∧ 0 ∉ b :: x ∧ ∀ owed, Tails owed →
        completes owed (b :: raw) = true → completes owed (b :: x) = true := by
    rintro b raw x hb ⟨hcount, hnul, hwhole⟩
    refine ⟨?_, ?_, ?_⟩
    · rw [← singleton_append, ← singleton_append (l := raw), runeCount_append, runeCount_append]
      omega
    · rw [mem_cons, not_or]
      refine ⟨?_, hnul⟩
      rintro rfl
      exact absurd hb (by decide)
    intro owed howed hraw
    cases owed with
    | nil =>
      rw [completes] at hraw ⊢
      obtain ⟨owed', hb', hraw⟩ := (Option.any_eq_true _ _).1 hraw
      rw [hb', any_some]
      exact hwhole owed' (tails_following hb') hraw
    | cons range owed =>
      rw [completes, Bool.and_eq_true] at hraw ⊢
      exact ⟨hraw.1, hwhole owed howed.tail hraw.2⟩
  induction h with
  | nil => exact ⟨le_refl _, not_mem_nil, fun _ _ h => h⟩
  | plain hb _ ih =>
    refine hkeep ?_ ih
    rw [Bool.or_eq_true] at hb ⊢
    exact hb.imp_left fun hq => (Bool.and_eq_true_iff.1 hq).2
  | escaped hb _ ih =>
    obtain ⟨hcount, hnul, hwhole⟩ := hkeep hb ih
    refine ⟨?_, hnul, fun owed howed hraw => ?_⟩
    · rw [runeCount_cons_ascii (b := 92) (by decide)]
      omega
    -- a backslash stands between characters
    cases owed with
    | nil => exact hwhole [] tails_nil hraw
    | cons range owed =>
      rw [completes, Bool.and_eq_true] at hraw
      exact absurd (howed range (.head _) 92 hraw.1) (by decide)

theorem consumeQuotedString_reads {s : Bytes} {r : Bytes × Bytes}
    (hopen : s.head? = some 34) (h : consumeQuotedString s = some r) :
    ∃ raw, s = 34 :: (raw ++ 34 :: r.2) ∧ Quoted raw r.1 ∧ valid raw = true := by
  obtain ⟨t, rfl⟩ := head?_eq_some_iff.1 hopen
  obtain ⟨q, hq, hr⟩ := bind_eq_some_iff.1 h
  obtain ⟨hs, hquoted⟩ := quotedText_reads hq
  split at hr
  · next hvalid =>
    rw [← some.inj hr]
    exact ⟨q.2.1, congrArg (34 :: ·) hs, hquoted, hvalid⟩
  · cases hr

theorem consumeAtom_spec {dot permissive : Bool} {s : Bytes} {r : Bytes × Bytes}
    (h : consumeAtom dot permissive s = some r) :
    s = r.1 ++ r.2 ∧ (dot = true → permissive = false → DotAtom r.1) := by
  unfold consumeAtom at h
  dsimp only at h
  split at h
  · cases h
  next hok =>
  rw [← some.inj h]
  refine ⟨(takeWhile_append_dropWhile).symm, ?_⟩
  rintro rfl rfl
  simp only [Bool.or_eq_true, not_or, decide_eq_true_eq, Bool.not_eq_true',
    Bool.not_eq_false, Bool.not_eq_true, Bool.not_false, Bool.true_and] at hok
  exact ⟨hok.1.1, hok.1.2, fun b hb => mem_takeWhile_imp hb, by simpa using hok.2⟩

theorem consumeAtom_append {a rest : Bytes} (ha : DotAtom a)
    (hrest : ∀ b ∈ rest.head?, isAtext true b = false) :
    consumeAtom true false (a ++ rest) = some (a, rest) := by
  have htake : (a ++ rest).takeWhile (isAtext true) = a := by
    rw [takeWhile_append_of_pos ha.atext]
    cases rest with
    | nil => exact append_nil a
    | cons b rest => rw [takeWhile_cons_of_neg (by simp [hrest b rfl]), append_nil]
  have hdrop : (a ++ rest).dropWhile (isAtext true) = rest := by
    rw [dropWhile_append_of_pos ha.atext]
    cases rest with
    | nil => rfl
    | cons b rest => exact dropWhile_cons_of_neg (by simp [hrest b rfl])
  simp only [consumeAtom, htake, hdrop]
  rw [if_neg (by simp [ha.utf8, ha.nonempty, ha.dots])]

/-! ## Addresses -/

theorem consumeLocalPart_reads {s : Bytes} {r : Bytes × Bytes} (h : consumeLocalPart s = some r) :
    ∃ l, s = l ++ r.2 ∧ LocalPart l r.1 := by
  unfold consumeLocalPart at h
  split at h
  · next hopen =>
    obtain ⟨q, hq, hr⟩ := bind_eq_some_iff.1 h
    split at hr
    · cases hr
    next hne =>
    rw [← some.inj hr]
    obtain ⟨raw, hs, hquoted, hvalid⟩ := consumeQuotedString_reads hopen hq
    exact ⟨_, by rw [hs]; simp, .quoted hquoted hvalid hne⟩
  · obtain ⟨hs, hatom⟩ := consumeAtom_spec h
    exact ⟨r.1, hs, .atom (hatom rfl rfl)⟩

theorem LocalPart.spec {l : Bytes} (h : LocalPart l x) :
    IsText x ∧ (l = x ∧ DotAtom x ∨ runeCount x < runeCount l) := by
  cases h with
  | atom h => exact ⟨h.isText, .inl ⟨rfl, h⟩⟩
  | quoted h hutf8 =>
    obtain ⟨hcount, hnul, hwhole⟩ := h.spec
    refine ⟨⟨hwhole [] tails_nil hutf8, hnul⟩, .inr ?_⟩
    rw [runeCount_cons_ascii (by decide), runeCount_append]
    omega

theorem consumeDomain_spec {s : Bytes} {r : Bytes × Bytes} (h : consumeDomain lib s = some r) :
    s = r.1 ++ r.2 ∧ Domain lib r.1 := by
  unfold consumeDomain at h
  split at h
  · next hopen =>
    obtain ⟨t, rfl⟩ : ∃ t, s = 91 :: t := by
      cases s with
      | nil => cases hopen
      | cons b t => exact ⟨t, by rw [some.inj hopen]⟩
    obtain ⟨rest, hclose, hr⟩ := bind_eq_some_iff.1 h
    split at hr
    · next hok =>
      simp only [Bool.and_eq_true, List.all_eq_true] at hok
      rw [← some.inj hr]
      refine ⟨?_, .literal ⟨hok.1.2, hok.1.1, hok.2⟩⟩
      have hsplit := takeWhile_append_dropWhile (p := fun b : UInt8 => decide (b ≠ 93)) (l := t)
      rw [show (91 :: t : Bytes).tail = t from rfl] at hclose ⊢
      conv_lhs => rw [← hsplit, consume_eq_some.1 hclose]
      simp
    · cases hr
  obtain ⟨hs, hatom⟩ := consumeAtom_spec h
  exact ⟨hs, .atom (hatom rfl rfl)⟩

theorem consumeAddrSpec_reads {s : Bytes} {r : Bytes × Bytes} (h : consumeAddrSpec lib s = some r) :
    ∃ s₀, skipSpace s = s₀ ++ r.2 ∧ Direct lib s₀ r.1 := by
  obtain ⟨l, hl, h⟩ := bind_eq_some_iff.1 h
  obtain ⟨rest, hat, h⟩ := bind_eq_some_iff.1 h
  obtain ⟨d, hd, rfl⟩ := map_eq_some_iff.1 h
  obtain ⟨written, hs, hlocal⟩ := consumeLocalPart_reads hl
  obtain ⟨hdomain, hdom⟩ := consumeDomain_spec lib hd
  have hblank : ∀ b ∈ rest.takeWhile isWSP, isWSP b = true := fun b hb => mem_takeWhile_imp hb
  refine ⟨_, ?_, .mk hlocal hblank hdom⟩
  rw [hs, consume_eq_some.1 hat]
  conv_lhs => rw [← takeWhile_append_dropWhile (p := isWSP) (l := rest)]
  rw [show rest.dropWhile isWSP = d.1 ++ d.2 from hdomain]
  simp

theorem Direct.isText {lib : Tables} {s₀ o : Bytes} (h : Direct lib s₀ o) : IsText o := by
  obtain ⟨hlocal, -, hdomain⟩ := h
  exact hlocal.spec.1.append (IsText.append (s := [64]) (by decide) hdomain.isText)

/-- What an address stands for is the address, if it is bare, or has fewer characters. -/
theorem Direct.course {lib : Tables} {s₀ o : Bytes} (h : Direct lib s₀ o) :
    (o = s₀ ∧ AddrSpec lib o) ∨ runeCount o < runeCount s₀ := by
  obtain @⟨l, x, ws, d, hlocal, hblank, hdomain⟩ := h
  simp only [runeCount_append, runeCount_cons_ascii (show (64 : UInt8) < 0x80 by decide)]
  obtain ⟨rfl, hatom⟩ | hless := hlocal.spec.2
  · cases ws with
    | nil => exact .inl ⟨rfl, .mk hatom hdomain⟩
    | cons b ws =>
      right
      rw [runeCount_cons_ascii (isWSP_ascii (hblank b (.head _)))]
      omega
  · exact .inr (by omega)

theorem LocalPart.begins {l : Bytes} (h : LocalPart l x) :
    ∃ b t, l = b :: t ∧ (b = 34 ∨ isAtext true b = true) := by
  cases h with
  | atom h =>
    obtain ⟨b, t, rfl⟩ := exists_cons_of_ne_nil h.nonempty
    exact ⟨b, t, rfl, .inr (h.atext b (.head _))⟩
  | quoted => exact ⟨_, _, rfl, .inl rfl⟩

theorem LocalPart.consume {l : Bytes} (h : LocalPart l x) (rest : Bytes) :
    consumeLocalPart (l ++ 64 :: rest) = some (x, 64 :: rest) := by
  cases h with
  | atom h =>
    obtain ⟨b, t, rfl⟩ := exists_cons_of_ne_nil h.nonempty
    have hquote := (isAtext_true (h.atext b (.head _))).2.2.1
    rw [consumeLocalPart, if_neg (by simpa using hquote)]
    refine consumeAtom_append h fun c hc => ?_
    obtain rfl : 64 = c := by simpa using hc
    decide
  | quoted h hutf8 hne =>
    rw [consumeLocalPart, cons_append, append_assoc, if_pos (by rfl), consumeQuotedString, tail_cons,
      singleton_append, h.quotedText, bind_some, if_pos hutf8, bind_some, if_neg hne]

theorem Domain.consume {lib : Tables} {d rest : Bytes} (h : Domain lib d)
    (hrest : ∀ b ∈ rest.head?, isAtext true b = false) :
    consumeDomain lib (d ++ rest) = some (d, rest) ∧ ∃ b t, d = b :: t ∧ isWSP b = false := by
  cases h with
  | atom h =>
    obtain ⟨b, t, rfl⟩ := exists_cons_of_ne_nil h.nonempty
    obtain ⟨-, -, -, hbracket, -, hblank⟩ := isAtext_true (h.atext b (.head _))
    rw [consumeDomain, if_neg (by simpa using hbracket), consumeAtom_append h hrest]
    exact ⟨rfl, b, t, rfl, hblank⟩
  | @literal text h =>
    refine ⟨?_, 91, _, rfl, by decide⟩
    have hall : ∀ b ∈ text, decide (b ≠ 93) = true := by
      intro b hb
      simpa using (isDtext_true (h.dtext b hb)).2
    rw [consumeDomain, cons_append, if_pos (by rfl), consumeDomainLiteral, tail_cons, append_assoc,
      takeWhile_append_of_pos hall, dropWhile_append_of_pos hall, singleton_append,
      takeWhile_cons_of_neg (by simp), dropWhile_cons_of_neg (by simp), append_nil,
      consume_eq_some.2 rfl, bind_some, if_pos]
    simpa [h.utf8, h.address] using h.dtext

theorem Direct.begins {lib : Tables} {s o : Bytes} (h : Direct lib s o) :
    ∃ b t, s = b :: t ∧ (b = 34 ∨ isAtext true b = true) := by
  obtain ⟨hlocal, -, -⟩ := h
  obtain ⟨b, t, rfl, hb⟩ := hlocal.begins
  exact ⟨b, _, rfl, hb⟩

theorem Domain.ends {lib : Tables} {d : Bytes} (h : Domain lib d) :
    ∃ t b, d = t ++ [b] ∧ (b = 93 ∨ isAtext true b = true) := by
  cases h with
  | atom h =>
    refine ⟨d.dropLast, _, (dropLast_append_getLast h.nonempty).symm, .inr ?_⟩
    exact h.atext _ (getLast_mem h.nonempty)
  | @literal text => exact ⟨91 :: text, 93, rfl, .inl rfl⟩

theorem Direct.skipSpace {lib : Tables} {s o : Bytes} (h : Direct lib s o) (rest : Bytes) :
    skipSpace (s ++ rest) = s ++ rest := by
  obtain ⟨b, t, rfl, hb⟩ := h.begins
  obtain rfl | hb := hb
  · exact skipSpace_of_head (by decide)
  · exact skipSpace_of_head (isAtext_true hb).2.2.2.2.2

/-- **An address with nothing around it is read for what it stands for.** -/
theorem Direct.consume {lib : Tables} {s o rest : Bytes} (h : Direct lib s o)
    (hrest : ∀ b ∈ rest.head?, isAtext true b = false) :
    consumeAddrSpec lib (s ++ rest) = some (o, rest) := by
  rw [consumeAddrSpec, h.skipSpace]
  obtain @⟨l, x, ws, d, hlocal, hblank, hdomain⟩ := h
  obtain ⟨hread, b, t, rfl, hb⟩ := hdomain.consume hrest
  have hskip : NetMail.skipSpace (ws ++ (b :: t ++ rest)) = b :: t ++ rest := by
    rw [NetMail.skipSpace, dropWhile_append_of_pos hblank, cons_append,
      dropWhile_cons_of_neg (by simp [hb])]
  rw [append_assoc, cons_append, append_assoc, hlocal.consume, bind_some, consume_eq_some.2 rfl,
    bind_some, hskip, hread, map_some]

theorem AddrSpec.direct {lib : Tables} {s : Bytes} (h : AddrSpec lib s) : Direct lib s s := by
  obtain ⟨hlocal, hdomain⟩ := h
  exact .mk (.atom hlocal) (forall_mem_nil fun b => isWSP b = true) hdomain

/-! ## Phrases and comments -/

/-- The position behind a word, or where it failed. -/
def WordResult.rest : WordResult → Bytes
  | .ok _ _ rest => rest
  | .failed rest => rest

theorem consumeWord_suffix (s : Bytes) : (consumeWord lib s).rest <:+ s := by
  unfold consumeWord
  split
  · next hopen =>
    split
    · next r hr =>
      obtain ⟨raw, hs, -⟩ := consumeQuotedString_reads hopen hr
      rw [hs]
      exact ⟨34 :: (raw ++ [34]), by simp [WordResult.rest]⟩
    · exact suffix_rfl
  split
  · exact suffix_rfl
  next r hr =>
  have hsuffix : r.2 <:+ s := ⟨r.1, (consumeAtom_spec hr).1.symm⟩
  split <;> exact hsuffix

theorem phraseWords_suffix {fuel : Nat} {words : List Bytes} {wasEncoded : Bool} {s : Bytes}
    {r : List Bytes × Bytes} (h : phraseWords lib fuel words wasEncoded s = some r) : r.2 <:+ s := by
  induction fuel generalizing words wasEncoded s with
  | zero => simp [phraseWords] at h
  | succ fuel ih =>
  rw [phraseWords] at h
  obtain ⟨t, ht, h⟩ := bind_eq_some_iff.1 h
  have hskip : skipSpace t <:+ s := by
    refine (skipSpace_suffix t).trans ?_
    split at ht
    · cases ht
      exact suffix_rfl
    · exact skipCFWS_suffix ht
  have hword := consumeWord_suffix lib (skipSpace t)
  dsimp only at h
  split at h
  · rw [← some.inj h]
    exact hskip
  split at h
  · next rest hfail =>
    rw [hfail, WordResult.rest] at hword
    split at h
    · cases h
    rw [← some.inj h]
    exact hword.trans hskip
  next word encoded rest hok =>
  rw [hok, WordResult.rest] at hword
  exact ((ih h).trans hword).trans hskip

theorem consumePhrase_suffix {s : Bytes} {r : Bytes × Bytes} (h : consumePhrase lib s = some r) :
    r.2 <:+ s := by
  obtain ⟨r', hr', rfl⟩ := map_eq_some_iff.1 h
  exact phraseWords_suffix lib hr'

/-! ## Where an address was written -/

/-- A size that adds up and in which ASCII counts one a byte. -/
structure Size (μ : Bytes → Nat) : Prop where
  append : ∀ s t, μ (s ++ t) = μ s + μ t
  ascii : ∀ b, b < 0x80 → μ [b] = 1

theorem size_length : Size List.length := ⟨fun _ _ => length_append, fun _ _ => rfl⟩

theorem size_runeCount : Size runeCount := ⟨runeCount_append, fun _ hb => runeCount_cons_ascii hb []⟩

variable {μ : Bytes → Nat}

theorem Size.cons (hμ : Size μ) (hb : b < 0x80) (s : Bytes) : μ (b :: s) = μ s + 1 := by
  rw [← singleton_append, hμ.append, hμ.ascii b hb, Nat.add_comm]

theorem Size.suffix_le (hμ : Size μ) {s : Bytes} (h : t <:+ s) : μ t ≤ μ s := by
  obtain ⟨u, rfl⟩ := h
  rw [hμ.append]
  exact Nat.le_add_left _ _

/-- The addresses were written in what was used up, with `spare` beside each of them. -/
structure Placed (μ : Bytes → Nat) (spare : Nat) (s : Bytes) (r : List Address × Bytes) : Prop where
  room : μ r.2 + spare ≤ μ s
  direct : ∀ a ∈ r.1, ∃ s₀, Direct lib s₀ a.address ∧ μ s₀ + μ r.2 + spare ≤ μ s

theorem Placed.move {lib : Tables} {j k : Nat} {s rest rest' : Bytes} {addrs : List Address}
    (h : Placed lib μ k t (addrs, rest)) (hle : μ t + μ rest' + j ≤ μ s + μ rest + k) :
    Placed lib μ j s (addrs, rest') := by
  have hroom := h.room
  dsimp only at hroom
  refine ⟨by dsimp only; omega, fun a ha => ?_⟩
  obtain ⟨s₀, hdirect, hlen⟩ := h.direct a ha
  exact ⟨s₀, hdirect, by dsimp only at hlen ⊢; omega⟩

/-- One address, which begins the text, with no comment behind it. -/
def Leads (s : Bytes) (r : List Address × Bytes) : Prop :=
  ∃ name o s₀ back, Direct lib s₀ o ∧ skipSpace s = s₀ ++ back ∧
    (skipSpace back).head? ≠ some 40 ∧ r = ([⟨name, o⟩], skipSpace back)

variable {r : List Address × Bytes}

theorem Leads.placed {lib : Tables} (hμ : Size μ) {s : Bytes} (h : Leads lib s r) :
    Placed lib μ 0 s r := by
  obtain ⟨name, o, s₀, back, hdirect, hs, -, rfl⟩ := h
  have hle := hμ.suffix_le (skipSpace_suffix s)
  have hback := hμ.suffix_le (skipSpace_suffix back)
  rw [hs, hμ.append] at hle
  refine ⟨by dsimp only; omega, fun a ha => ⟨s₀, ?_, by dsimp only; omega⟩⟩
  rwa [mem_singleton.1 ha]

theorem consumeAngleAddr_placed (hμ : Size μ) {name s : Bytes}
    (h : consumeAngleAddr lib name s = some r) : Placed lib μ 2 s r := by
  obtain ⟨t, hopen, h⟩ := bind_eq_some_iff.1 h
  obtain ⟨spec, hspec, h⟩ := bind_eq_some_iff.1 h
  obtain ⟨rest, hclose, rfl⟩ := map_eq_some_iff.1 h
  obtain ⟨s₀, ht, hdirect⟩ := consumeAddrSpec_reads lib hspec
  have hle := hμ.suffix_le (skipSpace_suffix t)
  rw [ht, consume_eq_some.1 hclose, hμ.append, hμ.cons (by decide)] at hle
  rw [consume_eq_some.1 hopen]
  have hcount := hμ.cons (show (60 : UInt8) < 0x80 by decide) t
  refine ⟨by dsimp only; omega, fun a ha => ⟨s₀, ?_, by dsimp only; omega⟩⟩
  rwa [mem_singleton.1 ha]

theorem skipSpace_skipSpace (s : Bytes) : skipSpace (skipSpace s) = skipSpace s :=
  dropWhile_idempotent isWSP s

theorem parseMailbox_placed (hμ : Size μ)
    {groupList : Option (Bytes → Option (List Address × Bytes))}
    (hgroup : ∀ list ∈ groupList, ∀ {s r}, list s = some r → Placed lib μ 1 s r) {s : Bytes}
    (h : parseMailbox lib groupList s = some r) : Placed lib μ 2 s r ∨ Leads lib s r := by
  have hfront := hμ.suffix_le (skipSpace_suffix s)
  unfold parseMailbox at h
  dsimp only at h
  split at h
  · cases h
  split at h
  · next spec hspec =>
    obtain ⟨s₀, hs, hdirect⟩ := consumeAddrSpec_reads lib hspec
    rw [skipSpace_skipSpace] at hs
    split at h
    · next hopen =>
      -- the parentheses of the comment are beside the address
      left
      obtain ⟨named, hnamed, rfl⟩ := map_eq_some_iff.1 h
      obtain ⟨c, hc, hwords⟩ := bind_eq_some_iff.1 hnamed
      obtain ⟨words, -, rfl⟩ := map_eq_some_iff.1 hwords
      obtain ⟨t, ht⟩ := head?_eq_some_iff.1 hopen
      have hback := hμ.suffix_le (skipSpace_suffix spec.2)
      have hcomment := hμ.suffix_le (consumeComment_suffix (ht ▸ hc))
      rw [ht, hμ.cons (by decide)] at hback
      rw [tail_cons, hμ.cons (by decide)] at hcomment
      rw [hs, hμ.append] at hfront
      refine ⟨by dsimp only; omega, fun a ha => ⟨s₀, ?_, by dsimp only; omega⟩⟩
      rwa [mem_singleton.1 ha]
    · next hopen => exact .inr ⟨_, _, s₀, spec.2, hdirect, hs, hopen, (some.inj h).symm⟩
  left
  obtain ⟨phrase, hphrase, h⟩ := bind_eq_some_iff.1 h
  have hname : phrase.2 <:+ skipSpace s := by
    split at hphrase
    · cases hphrase
      exact suffix_rfl
    · exact consumePhrase_suffix lib hphrase
  have hrest := hμ.suffix_le ((skipSpace_suffix phrase.2).trans hname)
  have hangle : consumeAngleAddr lib phrase.1 (skipSpace phrase.2) = some r → Placed lib μ 2 s r :=
    fun h => (consumeAngleAddr_placed lib hμ h).move (by omega)
  cases groupList with
  | none => exact hangle h
  | some list =>
  cases hcolon : consume 58 (skipSpace phrase.2) with
  | none =>
    rw [hcolon] at h
    exact hangle h
  | some rest =>
  rw [hcolon] at h
  rw [consume_eq_some.1 hcolon, hμ.cons (by decide)] at hrest
  exact (hgroup list rfl h).move (by omega)

theorem groupMailboxes_placed (hμ : Size μ) {fuel : Nat} {s : Bytes}
    (h : groupMailboxes lib fuel s = some r) : Placed lib μ 1 s r := by
  induction fuel generalizing s r with
  | zero => simp [groupMailboxes] at h
  | succ fuel ih =>
  rw [groupMailboxes] at h
  obtain ⟨one, hone, h⟩ := bind_eq_some_iff.1 h
  obtain ⟨t, ht, h⟩ := bind_eq_some_iff.1 h
  have hspace := hμ.suffix_le (skipSpace_suffix s)
  have hskip := hμ.suffix_le (skipCFWS_suffix ht)
  have hfirst : Placed lib μ 0 s one := by
    obtain hplaced | hleads := parseMailbox_placed lib hμ (by simp) hone
    · exact hplaced.move (by omega)
    · exact (hleads.placed hμ).move (by omega)
  split at h
  · next u hclose =>
    obtain ⟨rest, hrest, rfl⟩ := map_eq_some_iff.1 h
    have hend := hμ.suffix_le (skipCFWS_suffix hrest)
    rw [consume_eq_some.1 hclose, hμ.cons (by decide)] at hskip
    exact hfirst.move (by omega)
  obtain ⟨u, hcomma, h⟩ := bind_eq_some_iff.1 h
  obtain ⟨more, hmore, rfl⟩ := map_eq_some_iff.1 h
  have hothers := ih hmore
  have hroom := hothers.room
  have hused := hfirst.room
  rw [consume_eq_some.1 hcomma, hμ.cons (by decide)] at hskip
  have hboth : Placed lib μ 1 s (one.1, more.2) ∧ Placed lib μ 1 s (more.1, more.2) :=
    ⟨hfirst.move (by omega), hothers.move (by omega)⟩
  exact ⟨hboth.1.room, fun a ha => (mem_append.1 ha).elim (hboth.1.direct a) (hboth.2.direct a)⟩

theorem consumeGroupList_placed (hμ : Size μ) {s : Bytes} (h : consumeGroupList lib s = some r) :
    Placed lib μ 1 s r := by
  have hspace := hμ.suffix_le (skipSpace_suffix s)
  unfold consumeGroupList at h
  split at h
  · next t hclose =>
    obtain ⟨rest, hrest, rfl⟩ := map_eq_some_iff.1 h
    have hskip := hμ.suffix_le (skipCFWS_suffix hrest)
    rw [consume_eq_some.1 hclose, hμ.cons (by decide)] at hspace
    exact ⟨by dsimp only; omega, by simp⟩
  · exact (groupMailboxes_placed lib hμ h).move (by omega)

/-- **Every address that is returned was written with nothing around it**, at the beginning of the
text or with two characters beside it. -/
theorem parseAddress_writes (hμ : Size μ) {s : Bytes} {a : Address}
    (h : parseAddress lib s = some a) : ∃ s₀, Direct lib s₀ a.address ∧
      (μ s₀ + 2 ≤ μ s ∨ ∃ back, skipSpace s = s₀ ++ back ∧ ∀ b ∈ back, isWSP b = true) := by
  obtain ⟨⟨addrs, behind⟩, hr, h⟩ := bind_eq_some_iff.1 h
  obtain ⟨rest, hrest, h⟩ := bind_eq_some_iff.1 h
  obtain ⟨rfl, rfl⟩ : rest = [] ∧ addrs = [a] := by
    split at h
    · next heq =>
      rw [some.inj h] at heq
      exact ⟨rfl, heq⟩
    · cases h
  have hgroup : ∀ list ∈ some (consumeGroupList lib), ∀ {s r}, list s = some r →
      Placed lib μ 1 s r := by
    intro list hlist s r hlr
    obtain rfl : consumeGroupList lib = list := by simpa using hlist
    exact consumeGroupList_placed lib hμ hlr
  obtain hplaced | ⟨name, o, s₀, back, hdirect, hs, hopen, hr⟩ :=
    parseMailbox_placed lib hμ hgroup hr
  · obtain ⟨s₀, hdirect, hlen⟩ := hplaced.direct a (mem_singleton_self a)
    exact ⟨s₀, hdirect, .inl (by omega)⟩
  obtain ⟨hone, rfl⟩ := Prod.mk.inj hr
  obtain rfl := (List.cons.inj hone).1
  refine ⟨s₀, hdirect, .inr ⟨back, hs, ?_⟩⟩
  rw [skipCFWS, skipComments, skipSpace_skipSpace, consume, if_neg hopen] at hrest
  exact dropWhile_eq_nil_iff.1 (some.inj hrest)

/-- **What `ParseAddress` returns**: a bare address as it stands, or one with fewer
characters than the text. -/
theorem parseAddress_reads {s : Bytes} {a : Address} (h : parseAddress lib s = some a) :
    IsText a.address ∧ ((a.address = s ∧ AddrSpec lib s) ∨ runeCount a.address < runeCount s) := by
  obtain ⟨s₀, hdirect, hplace⟩ := parseAddress_writes lib size_runeCount h
  refine ⟨hdirect.isText, ?_⟩
  have hcourse := hdirect.course
  have hle : runeCount a.address ≤ runeCount s₀ := by
    obtain ⟨hsame, -⟩ | hless := hcourse
    · rw [hsame]
    · exact hless.le
  obtain hspare | ⟨back, hs, hblank⟩ := hplace
  · exact .inr (by omega)
  have hfront := within_dropWhile (fun _ => isWSP_ascii) s
  rw [show s.dropWhile isWSP = s₀ ++ back from hs] at hfront
  have hcount := hfront.count_le
  rw [runeCount_append] at hcount
  obtain hfront | hfront := hfront
  · cases back with
    | nil =>
      rw [append_nil] at hfront
      rw [← hfront]
      obtain ⟨hsame, hspec⟩ | hless := hcourse
      · exact .inl ⟨hsame, hsame ▸ hspec⟩
      · exact .inr hless
    | cons b back =>
      rw [runeCount_cons_ascii (isWSP_ascii (hblank b (.head _)))] at hcount
      exact .inr (by omega)
  · rw [runeCount_append] at hfront
    exact .inr (by omega)

/-! ## Reading an address with nothing around it -/

variable {s o rest : Bytes} {groupList : Option (Bytes → Option (List Address × Bytes))}

variable {lib} in
theorem Direct.parseMailbox (h : Direct lib s o)
    (hrest : ∀ b ∈ rest.head?, isAtext true b = false ∧ isWSP b = false ∧ b ≠ 40) :
    parseMailbox lib groupList (s ++ rest) = some ([⟨[], o⟩], rest) := by
  have hread := h.consume fun b hb => (hrest b hb).1
  have hskip : NetMail.skipSpace rest = rest := by
    cases rest with
    | nil => rfl
    | cons b rest => exact skipSpace_of_head (hrest b rfl).2.1
  obtain ⟨b, t, rfl, -⟩ := h.begins
  unfold NetMail.parseMailbox
  dsimp only
  rw [h.skipSpace, if_neg (by simp), hread]
  dsimp only
  have hopen : rest.head? ≠ some 40 := fun h40 => (hrest 40 h40).2.2 rfl
  rw [hskip, if_neg hopen]

theorem parseAddress_of_direct (h : Direct lib s o) : parseAddress lib s = some ⟨[], o⟩ := by
  have hread : parseMailbox lib (some (consumeGroupList lib)) (s ++ []) = some ([⟨[], o⟩], []) :=
    h.parseMailbox (by simp)
  rw [append_nil] at hread
  rw [parseAddress, hread]
  rfl

/-- **A bare address is returned as it stands.** -/
theorem parseAddress_of_addrSpec (h : AddrSpec lib s) : parseAddress lib s = some ⟨[], s⟩ :=
  parseAddress_of_direct lib h.direct

theorem parseAddressList_of_addrSpec (h : AddrSpec lib s) :
    parseAddressList lib s = some [⟨[], s⟩] := by
  have hread : parseMailbox lib (some (consumeGroupList lib)) (s ++ []) = some ([⟨[], s⟩], []) :=
    h.direct.parseMailbox (by simp)
  have hskip := h.direct.skipSpace []
  rw [append_nil] at hread hskip
  have hcomma : consume 44 s = none := by
    obtain ⟨b, t, rfl, hb⟩ := h.begins
    have hne : b ≠ 44 := by
      rintro rfl
      exact absurd hb (by decide)
    exact if_neg (by simpa using hne)
  rw [parseAddressList, listMailboxes, hskip, hcomma]
  dsimp only
  rw [hread]
  rfl

theorem bracket_cases (h : (ascii "<>").contains b = true) : b = 60 ∨ b = 62 := by
  have hall : ∀ b, (ascii "<>").contains b = true → b = 60 ∨ b = 62 := forall_byte (by decide +kernel)
  exact hall b h

theorem consumeAddrSpec_bracket (h : (ascii "<>").contains b = true) (t : Bytes) :
    consumeAddrSpec lib (b :: t) = none := by
  obtain rfl | rfl := bracket_cases h <;> rfl

/-- Angle brackets around an address do not change what is read, if anything is. -/
theorem parseMailbox_brackets {p q : Bytes} (h : Direct lib s o)
    (hp : ∀ b ∈ p, (ascii "<>").contains b = true) (hq : ∀ b ∈ q, (ascii "<>").contains b = true)
    (hr : parseMailbox lib groupList (p ++ (s ++ q)) = some r) : r.1 = [⟨[], o⟩] := by
  have hrest : ∀ b ∈ q.head?, isAtext true b = false ∧ isWSP b = false ∧ b ≠ 40 := by
    intro b hb
    obtain rfl | rfl := bracket_cases (hq b (mem_of_mem_head? hb)) <;> decide
  cases p with
  | nil =>
    rw [nil_append, h.parseMailbox hrest] at hr
    rw [← some.inj hr]
  | cons b p =>
  have hb := hp b (.head _)
  have hskip : skipSpace (b :: (p ++ (s ++ q))) = b :: (p ++ (s ++ q)) := by
    obtain rfl | rfl := bracket_cases hb <;> rfl
  unfold parseMailbox at hr
  dsimp only at hr
  rw [cons_append, hskip, if_neg (cons_ne_nil _ _), consumeAddrSpec_bracket lib hb] at hr
  obtain ⟨phrase, hphrase, hr⟩ := bind_eq_some_iff.1 hr
  obtain rfl | rfl := bracket_cases hb
  · cases hphrase
    have hangle : consumeAngleAddr lib [] (60 :: (p ++ (s ++ q))) = some r := by
      cases groupList <;> exact hr
    obtain ⟨t, hopen, hangle⟩ := bind_eq_some_iff.1 hangle
    obtain ⟨spec, hspec, hangle⟩ := bind_eq_some_iff.1 hangle
    obtain ⟨rest, -, rfl⟩ := map_eq_some_iff.1 hangle
    rw [← (List.cons.inj (consume_eq_some.1 hopen)).2] at hspec
    cases p with
    | nil =>
      rw [nil_append, h.consume fun b hb => (hrest b hb).1] at hspec
      rw [← some.inj hspec]
    | cons c p =>
      cases hspec.symm.trans (consumeAddrSpec_bracket lib (hp c (.tail _ (.head _))) _)
  · cases hphrase

end SmtpProxy.Lib.NetMail
